import LinkTemplate.Json
import LinkTemplate.Text.Hexadecimal
/-!
# Reading JSON

Strict JSON: blanks are the space, the tab and the two line ends, control characters in strings are
escaped, escaped surrogates come in pairs, and nothing follows the value but blanks. Each reader
takes its part off the head of the text and gives back the rest.
-/

namespace LinkTemplate.Json

def isBlank (c : Char) : Bool := c = ' ' || c = '\t' || c = '\n' || c = '\r'

def skipBlanks (text : Text) : Text := text.dropWhile isBlank

/-! ## Strings -/

/-- The number that four hexadecimal digits write. -/
def unit? (a b c d : Char) : Option Nat := do
  return (← Hexadecimal.value? a) * 4096 + (← Hexadecimal.value? b) * 256 +
    (← Hexadecimal.value? c) * 16 + (← Hexadecimal.value? d)

def isHighSurrogate (n : Nat) : Bool := 0xD800 ≤ n && n < 0xDC00

def isLowSurrogate (n : Nat) : Bool := 0xDC00 ≤ n && n < 0xE000

/-- The character that two surrogates stand for. -/
def pair (high low : Nat) : Char :=
  Char.ofNat (0x10000 + (high - 0xD800) * 0x400 + (low - 0xDC00))

/-- The character that a backslash and this letter stand for. -/
def unescape? : Char → Option Char
  | '"' => some '"'
  | '\\' => some '\\'
  | '/' => some '/'
  | 'b' => some '\x08'
  | 'f' => some '\x0c'
  | 'n' => some '\n'
  | 'r' => some '\r'
  | 't' => some '\t'
  | _ => none

/-- Reads a string whose opening quote is already taken. -/
def readString : Text → Option (Text × Text)
  | [] => none
  | c :: rest =>
    if c = '"' then some ([], rest)
    else if c = '\\' then
      match rest with
      | [] => none
      | letter :: rest =>
        if letter = 'u' then
          match rest with
          | a :: b :: c :: d :: rest =>
            match unit? a b c d with
            | none => none
            | some high =>
              if isHighSurrogate high then
                match rest with
                | '\\' :: 'u' :: e :: f :: g :: h :: rest =>
                  match unit? e f g h with
                  | none => none
                  | some low =>
                    if isLowSurrogate low then
                      (readString rest).map fun (text, rest) => (pair high low :: text, rest)
                    else none
                | _ => none
              else if isLowSurrogate high then none
              else (readString rest).map fun (text, rest) => (Char.ofNat high :: text, rest)
          | _ => none
        else
          match unescape? letter with
          | none => none
          | some c => (readString rest).map fun (text, rest) => (c :: text, rest)
    else if c.toNat < 0x20 then none
    else (readString rest).map fun (text, rest) => (c :: text, rest)

/-! ## Numbers and words -/

/-- Takes at least one digit. -/
def takeDigits? (text : Text) : Option (Text × Text) :=
  match text.span Char.isDigit with
  | ([], _) => none
  | found => some found

def takeSign : Text → Text × Text
  | '-' :: rest => (['-'], rest)
  | '+' :: rest => (['+'], rest)
  | text => ([], text)

/-- The whole part: a zero, or digits that do not start with one. -/
def takeWhole? : Text → Option (Text × Text)
  | '0' :: rest => some (['0'], rest)
  | text => takeDigits? text

/-- The fraction with its point, if there is one. -/
def takeFraction? : Text → Option (Text × Text)
  | '.' :: rest => (takeDigits? rest).map fun (digits, rest) => ('.' :: digits, rest)
  | text => some ([], text)

/-- The exponent with its letter, if there is one. -/
def takeExponent? : Text → Option (Text × Text)
  | [] => some ([], [])
  | c :: rest =>
    if c = 'e' ∨ c = 'E' then
      let (sign, rest) := takeSign rest
      (takeDigits? rest).map fun (digits, rest) => (c :: sign ++ digits, rest)
    else some ([], c :: rest)

def readNumber (text : Text) : Option (Text × Text) := do
  let (sign, rest) := match text with
    | '-' :: rest => (['-'], rest)
    | text => ([], text)
  let (whole, rest) ← takeWhole? rest
  let (fraction, rest) ← takeFraction? rest
  let (exponent, rest) ← takeExponent? rest
  return (sign ++ whole ++ fraction ++ exponent, rest)

/-- Reads anything but an array or an object. -/
def readScalar : Text → Option (Json × Text)
  | 'n' :: 'u' :: 'l' :: 'l' :: rest => some (null, rest)
  | 't' :: 'r' :: 'u' :: 'e' :: rest => some (bool true, rest)
  | 'f' :: 'a' :: 'l' :: 's' :: 'e' :: rest => some (bool false, rest)
  | '"' :: rest => (readString rest).map fun (text, rest) => (string text, rest)
  | text => (readNumber text).map fun (digits, rest) => (number digits, rest)

/-! ## Arrays and objects -/

/-- Reads items up to the closing bracket, no more than `limit` of them. -/
def readItems (read : Text → Option (Json × Text)) : Nat → Text → Option (List Json × Text)
  | 0, _ => none
  | limit + 1, text => do
    let (item, rest) ← read (skipBlanks text)
    match skipBlanks rest with
    | ',' :: rest =>
      let (items, rest) ← readItems read limit rest
      return (item :: items, rest)
    | ']' :: rest => return ([item], rest)
    | _ => none

def readName (text : Text) : Option (Text × Text) :=
  match skipBlanks text with
  | '"' :: rest =>
    match readString rest with
    | none => none
    | some (name, rest) =>
      match skipBlanks rest with
      | ':' :: rest => some (name, rest)
      | _ => none
  | _ => none

/-- Reads members up to the closing brace, no more than `limit` of them. -/
def readMembers (read : Text → Option (Json × Text)) :
    Nat → Text → Option (List (Text × Json) × Text)
  | 0, _ => none
  | limit + 1, text => do
    let (name, rest) ← readName text
    let (value, rest) ← read (skipBlanks rest)
    match skipBlanks rest with
    | ',' :: rest =>
      let (members, rest) ← readMembers read limit rest
      return ((name, value) :: members, rest)
    | '}' :: rest => return ([(name, value)], rest)
    | _ => none

/-- How deeply arrays and objects may be nested. -/
def maxDepth : Nat := 127

/-- Reads a value that nests arrays and objects at most `depth` deep. -/
def readValue : Nat → Text → Option (Json × Text)
  | 0, text => readScalar text
  | depth + 1, '[' :: rest =>
    match skipBlanks rest with
    | ']' :: rest => some (array [], rest)
    | rest => (readItems (readValue depth) rest.length rest).map fun (items, rest) =>
        (array items, rest)
  | depth + 1, '{' :: rest =>
    match skipBlanks rest with
    | '}' :: rest => some (object [], rest)
    | rest => (readMembers (readValue depth) rest.length rest).map fun (members, rest) =>
        (object members, rest)
  | _ + 1, text => readScalar text

/-- Reads a whole text as one value. -/
def read? (text : Text) : Option Json :=
  match readValue maxDepth (skipBlanks text) with
  | some (json, rest) => if skipBlanks rest = [] then some json else none
  | none => none

end LinkTemplate.Json
