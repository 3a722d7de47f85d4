import LinkTemplate.Text
/-!
# The source of a document

Layout decides what belongs together, so every character is kept with its place. Line ends are
brought to one form first, and comments and blanks are skipped here.
-/

namespace LinkTemplate.Yaml

structure Cell where
  char : Char
  line : Nat
  /-- The characters before it on its line. -/
  column : Nat
  /-- The bytes of UTF-8 before it in the text. -/
  offset : Nat

abbrev Source := List Cell

/-- The characters that a document may hold at all. -/
def isAllowed (c : Char) : Bool :=
  let n := c.toNat
  n = 0x09 || n = 0x0A || n = 0x0D || (0x20 ≤ n && n ≤ 0x7E) || n = 0x85 ||
    (0xA0 ≤ n && n ≤ 0xD7FF) || (0xE000 ≤ n && n ≤ 0xFFFD) || 0x10000 ≤ n

def isBlank (c : Char) : Bool := c = ' ' || c = '\t'

def isBreak (c : Char) : Bool := c = '\n' || c = '\u2028' || c = '\u2029'

/-- Lays a text out from a place on. The usual line ends all become a line feed. -/
def layOut (line column offset : Nat) : Text → Source
  | [] => []
  | '\r' :: '\n' :: rest =>
    ⟨'\n', line, column, offset⟩ :: layOut (line + 1) 0 (offset + 2) rest
  | c :: rest =>
    let next := offset + c.utf8Size
    if c = '\r' ∨ c = '\u0085' then
      ⟨'\n', line, column, offset⟩ :: layOut (line + 1) 0 next rest
    else if isBreak c then ⟨c, line, column, offset⟩ :: layOut (line + 1) 0 next rest
    else ⟨c, line, column, offset⟩ :: layOut line (column + 1) next rest

def source? (text : Text) : Option Source :=
  if text.all isAllowed then some (layOut 0 0 0 text) else none

/-- A blank, a line end or the end of the source comes next. -/
def blankNext : Source → Bool
  | [] => true
  | c :: _ => isBlank c.char || isBreak c.char

/-- A byte order mark at the start of a line, which takes a column but stands for nothing. -/
def Cell.isOrderMark (cell : Cell) : Bool := cell.char = '\uFEFF' && cell.column = 0

/-- Skips blanks and what is left of a comment. Tabs are skipped where `tabs` says so, and again
after a line end only in `flow` style. -/
def skip (flow tabs comment : Bool) : Source → Source
  | [] => []
  | c :: rest =>
    if isBreak c.char then skip flow flow false rest
    else if comment then skip flow tabs true rest
    else if c.char = ' ' ∨ (tabs ∧ c.char = '\t') ∨ c.isOrderMark then skip flow tabs false rest
    else if c.char = '#' then skip flow tabs true rest
    else c :: rest

def skipFlow (source : Source) : Source := skip true true false source

/-- Skips to the next token of a block where a node may start, so no tab may stand before it. -/
def skipToNode (source : Source) : Source := skip false false false source

/-- Skips to the next token of a block after a token on the same line. -/
def skipOn (source : Source) : Source := skip false true false source

/-- Skips blanks on the line. -/
def skipBlanks (source : Source) : Source := source.dropWhile (isBlank ·.char)

/-- Skips to the next token, which is on a later line or is missing. -/
def endLine? (source : Source) : Option Source :=
  match source, skipOn source with
  | c :: _, next :: rest => if next.line = c.line then none else some (next :: rest)
  | _, rest => some rest

/-! ## Document markers -/

inductive Marker
  | start
  | stop
  deriving DecidableEq

/-- A marker is three dashes or three dots at the start of a line with a blank after them. -/
def marker? : Source → Option (Marker × Source)
  | a :: b :: c :: rest =>
    if a.column = 0 ∧ b.char = a.char ∧ c.char = a.char ∧ blankNext rest then
      if a.char = '-' then some (.start, rest)
      else if a.char = '.' then some (.stop, rest)
      else none
    else none
  | _ => none

/-- Cuts before the first marker. -/
def cutAtMarker : Source → Source × Source
  | [] => ([], [])
  | c :: rest =>
    if (marker? (c :: rest)).isSome then ([], c :: rest)
    else
      let (before, after) := cutAtMarker rest
      (c :: before, after)

/-- Nothing is left but markers that end a document. -/
def onlyStops : Nat → Source → Bool
  | 0, _ => false
  | limit + 1, source =>
    match marker? source with
    | some (.stop, rest) => match endLine? rest with
      | none => false
      | some rest => onlyStops limit rest
    | some (.start, _) => false
    | none => source.isEmpty

/-- The cells of the only document of a source, and whether a line starts there. A document that
has not started cannot end. -/
def document? (source : Source) : Option (Bool × Source) :=
  let source := skipToNode source
  let start := marker? source
  let (body, after) := cutAtMarker ((start.map Prod.snd).getD source)
  if start.any (·.1 = .stop) || !onlyStops (after.length + 1) after then none
  else some (start.isNone, body)

end LinkTemplate.Yaml
