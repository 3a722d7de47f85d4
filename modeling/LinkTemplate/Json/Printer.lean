import LinkTemplate.Json
/-!
# Writing JSON

Two layouts: on one line without a blank, or indented by two blanks a level with one item or member
a line. Empty arrays and objects stay closed in both.
-/

namespace LinkTemplate.Json

inductive Layout
  | compact
  | indented
  deriving DecidableEq

/-- What stands between two items at a level of nesting. -/
def Layout.lineBreak : Layout → Nat → Text
  | compact, _ => []
  | indented, level => '\n' :: List.replicate (2 * level) ' '

/-- What stands between a member's name and its value. -/
def Layout.colon : Layout → Text
  | compact => [':']
  | indented => [':', ' ']

/-! ## Strings -/

/-- The letter after the backslash, for the characters that have a short escape. -/
def shortEscape? : Char → Option Char
  | '"' => some '"'
  | '\\' => some '\\'
  | '\x08' => some 'b'
  | '\t' => some 't'
  | '\n' => some 'n'
  | '\x0c' => some 'f'
  | '\r' => some 'r'
  | _ => none

/-- Only the quote, the backslash and control characters below the space are escaped. -/
def quoteChar (c : Char) : Text :=
  match shortEscape? c with
  | some letter => ['\\', letter]
  | none =>
    if c.toNat < 0x20 then
      ['\\', 'u', '0', '0', (c.toNat / 16).digitChar, (c.toNat % 16).digitChar]
    else [c]

def quoted (text : Text) : Text := '"' :: text.flatMap quoteChar ++ ['"']

example : quoted "a\"\n\x1fé".toList = "\"a\\\"\\n\\u001fé\"".toList := by decide

/-! ## Values -/

mutual

def write (layout : Layout) (level : Nat) : Json → Text
  | null => "null".toList
  | bool true => "true".toList
  | bool false => "false".toList
  | number digits => digits
  | string text => quoted text
  | array [] => ['[', ']']
  | array (item :: items) =>
    '[' :: layout.lineBreak (level + 1) ++ write layout (level + 1) item ++
      writeItems layout (level + 1) items ++ layout.lineBreak level ++ [']']
  | object [] => ['{', '}']
  | object ((name, value) :: members) =>
    '{' :: layout.lineBreak (level + 1) ++ quoted name ++ layout.colon ++
      write layout (level + 1) value ++ writeMembers layout (level + 1) members ++
      layout.lineBreak level ++ ['}']

/-- The items after the first one. -/
def writeItems (layout : Layout) (level : Nat) : List Json → Text
  | [] => []
  | item :: items =>
    ',' :: layout.lineBreak level ++ write layout level item ++ writeItems layout level items

/-- The members after the first one. -/
def writeMembers (layout : Layout) (level : Nat) : List (Text × Json) → Text
  | [] => []
  | (name, value) :: members =>
    ',' :: layout.lineBreak level ++ quoted name ++ layout.colon ++ write layout level value ++
      writeMembers layout level members

end

/-- The text of a value in a layout. -/
def print (layout : Layout) (json : Json) : Text := write layout 0 json

end LinkTemplate.Json
