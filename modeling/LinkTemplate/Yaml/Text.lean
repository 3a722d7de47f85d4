import LinkTemplate.Yaml.Scalar
import LinkTemplate.Yaml.Source
/-!
# The texts of scalars

A scalar is made of words and the gaps between them. A gap inside a line stands for itself; one that
goes over line ends is folded: one line end is a space, of more the first is dropped.
-/

namespace LinkTemplate.Yaml

/-! ## Gaps -/

structure Gap where
  /-- The blanks before the first line end. -/
  blanks : Text
  breaks : Text
  rest : Source
  /-- The rest with the last line end before it, if there is one. -/
  tail : Source

def Gap.folded (gap : Gap) : Text :=
  match gap.breaks with
  | [] => gap.blanks
  | ['\n'] => [' ']
  | '\n' :: more => more
  | breaks => breaks

/-- Takes blanks and line ends. After a line end no tab may stand left of `indent`. -/
def takeGap (indent : Nat) (later : Bool) : Source → Option Gap
  | [] => some ⟨[], [], [], []⟩
  | c :: rest =>
    if isBreak c.char then
      (takeGap indent true rest).map fun gap =>
        ⟨[], c.char :: gap.breaks, gap.rest, if gap.breaks = [] then c :: gap.rest else gap.tail⟩
    else if isBlank c.char then
      if later ∧ c.char = '\t' ∧ c.column < indent then none
      else (takeGap indent later rest).map fun gap => { gap with blanks := c.char :: gap.blanks }
    else some ⟨[], [], c :: rest, c :: rest⟩

/-! ## Plain scalars -/

/-- Where a plain scalar stands. -/
structure Place where
  /-- Between brackets or braces. -/
  flow : Bool
  /-- The least column of a further line in a block. -/
  indent : Nat

def isFlowMark (c : Char) : Bool := c = ',' || c = '[' || c = ']' || c = '{' || c = '}'

def isIndicator (c : Char) : Bool :=
  isFlowMark c || c = '#' || c = '&' || c = '*' || c = '!' || c = '|' || c = '>' || c = '\'' ||
    c = '"' || c = '%' || c = '@' || c = '`'

/-- Whether a plain scalar can start here. -/
def startsPlain (flow : Bool) : Source → Bool
  | [] => false
  | c :: rest =>
    if c.char = '-' then !blankNext rest
    else if c.char = '?' ∨ c.char = ':' then !flow && !blankNext rest
    else !isIndicator c.char && !isBlank c.char && !isBreak c.char

/-- Whether a character may not follow a colon in flow style. -/
def clashes (cell : Cell) : Bool := isFlowMark cell.char || cell.char = '?'

/-- Takes a word of a plain scalar, up to a blank or to a mark that ends the scalar. -/
def takeWord (flow : Bool) : Source → Option (Text × Source)
  | [] => some ([], [])
  | c :: rest =>
    if isBlank c.char ∨ isBreak c.char then some ([], c :: rest)
    else if c.char = ':' ∧ blankNext rest then some ([], c :: rest)
    else if flow ∧ c.char = ':' ∧ rest.head?.any clashes then none
    else if flow ∧ isFlowMark c.char then some ([], c :: rest)
    else (takeWord flow rest).map fun (word, rest) => (c.char :: word, rest)

/-- Whether a plain scalar goes on after a gap. -/
def goesOn (place : Place) (gap : Gap) : Bool :=
  match gap.rest with
  | [] => false
  | c :: _ =>
    !(gap.blanks.isEmpty && gap.breaks.isEmpty) && c.char != '#' &&
      (place.flow || gap.breaks.isEmpty || place.indent ≤ c.column)

/-- Takes the words after the first one, no more than `limit` of them. The gap after the last word
belongs to the scalar too, so it may hold tabs; only a line end is left of it. -/
def takeWords (place : Place) : Nat → Source → Option (Text × Source)
  | 0, source => some ([], source)
  | limit + 1, source =>
    match takeGap place.indent false source with
    | none => none
    | some gap =>
      if goesOn place gap then
        match takeWord place.flow gap.rest with
        | none => none
        | some ([], _) => some ([], gap.tail)
        | some (word, rest) =>
          (takeWords place limit rest).map fun (more, rest) => (gap.folded ++ word ++ more, rest)
      else some ([], gap.tail)

def takePlain (place : Place) (source : Source) : Option (Text × Source) :=
  if startsPlain place.flow source then
    match takeWord place.flow source with
    | none | some ([], _) => none
    | some (word, rest) =>
      (takeWords place rest.length rest).map fun (more, rest) => (word ++ more, rest)
  else none

/-! ## Quoted scalars -/

/-- Between single quotes only the quote itself is escaped, by writing it twice. -/
def takeSingle : Nat → Source → Option (Text × Source)
  | 0, _ | _, [] => none
  | limit + 1, c :: rest =>
    if isBlank c.char ∨ isBreak c.char then
      match takeGap 0 false (c :: rest) with
      | none => none
      | some gap => (takeSingle limit gap.rest).map fun (text, rest) => (gap.folded ++ text, rest)
    else if c.char = '\'' then
      match rest with
      | d :: more =>
        if d.char = '\'' then
          (takeSingle limit more).map fun (text, rest) => ('\'' :: text, rest)
        else some ([], rest)
      | [] => some ([], [])
    else (takeSingle limit rest).map fun (text, rest) => (c.char :: text, rest)

/-- The character that a backslash and this letter stand for. -/
def unescape? : Char → Option Char
  | '0' => some '\x00'
  | 'a' => some '\x07'
  | 'b' => some '\x08'
  | 't' | '\t' => some '\t'
  | 'n' => some '\n'
  | 'v' => some '\x0b'
  | 'f' => some '\x0c'
  | 'r' => some '\r'
  | 'e' => some '\x1b'
  | ' ' => some ' '
  | '"' => some '"'
  | '/' => some '/'
  | '\\' => some '\\'
  | 'N' => some '\u0085'
  | '_' => some '\u00a0'
  | 'L' => some '\u2028'
  | 'P' => some '\u2029'
  | _ => none

/-- How many hexadecimal digits follow a letter that writes a code point. -/
def codeLength? : Char → Option Nat
  | 'x' => some 2
  | 'u' => some 4
  | 'U' => some 8
  | _ => none

/-- The character with a code point in hexadecimal digits. -/
def codePoint? (digits : Text) : Option Char :=
  match wholeValue? 16 digits with
  | none => none
  | some n => if n.isValidChar then some (Char.ofNat n) else none

/-- Takes what follows a backslash: a letter, a code point, or a line end that is dropped. -/
def takeEscape : Source → Option (Text × Source)
  | [] => none
  | c :: rest =>
    if isBreak c.char then
      (takeGap 0 true rest).map fun gap => (gap.breaks, gap.rest)
    else match codeLength? c.char with
      | some length =>
        if length ≤ rest.length then
          (codePoint? ((rest.take length).map Cell.char)).map fun code =>
            ([code], rest.drop length)
        else none
      | none => (unescape? c.char).map fun char => ([char], rest)

def takeDouble : Nat → Source → Option (Text × Source)
  | 0, _ | _, [] => none
  | limit + 1, c :: rest =>
    if isBlank c.char ∨ isBreak c.char then
      match takeGap 0 false (c :: rest) with
      | none => none
      | some gap => (takeDouble limit gap.rest).map fun (text, rest) => (gap.folded ++ text, rest)
    else if c.char = '"' then some ([], rest)
    else if c.char = '\\' then
      match takeEscape rest with
      | none => none
      | some (escaped, rest) =>
        (takeDouble limit rest).map fun (text, rest) => (escaped ++ text, rest)
    else (takeDouble limit rest).map fun (text, rest) => (c.char :: text, rest)

end LinkTemplate.Yaml
