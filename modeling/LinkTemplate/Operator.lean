import LinkTemplate.Text
/-! # The operators of an expression -/

namespace LinkTemplate

inductive Operator
  | simple
  | reserved
  | fragment
  | label
  | pathSegment
  | pathParameter
  | query
  | queryContinuation
  deriving DecidableEq

/-- How the expansions of an expression's terms are written. -/
structure Style where
  /-- Reserved characters of a value stay as they are. -/
  allowReserved : Bool
  /-- Stands before the first defined term. -/
  first : Text
  /-- Follows the name of a named term whose value is empty. -/
  ifEmpty : Text
  /-- A value is written after its name. -/
  named : Bool
  /-- Stands between two defined terms. -/
  separator : Char
  deriving DecidableEq

namespace Operator

/-- The character that selects the operator; the simple one has none. -/
def symbol? : Operator → Option Char
  | simple => none
  | reserved => some '+'
  | fragment => some '#'
  | label => some '.'
  | pathSegment => some '/'
  | pathParameter => some ';'
  | query => some '?'
  | queryContinuation => some '&'

def ofChar? : Char → Option Operator
  | '+' => some reserved
  | '#' => some fragment
  | '.' => some label
  | '/' => some pathSegment
  | ';' => some pathParameter
  | '?' => some query
  | '&' => some queryContinuation
  | _ => none

theorem ofChar?_eq_some_iff {c : Char} {op : Operator} :
    ofChar? c = some op ↔ op.symbol? = some c := by
  constructor
  · unfold ofChar?
    split <;> rintro ⟨⟩ <;> rfl
  · cases op <;> rintro ⟨⟩ <;> rfl

def style : Operator → Style
  | simple => ⟨false, [], [], false, ','⟩
  | reserved => ⟨true, [], [], false, ','⟩
  | fragment => ⟨true, ['#'], [], false, ','⟩
  | label => ⟨false, ['.'], [], false, '.'⟩
  | pathSegment => ⟨false, ['/'], [], false, '/'⟩
  | pathParameter => ⟨false, [';'], [], true, ';'⟩
  | query => ⟨false, ['?'], ['='], true, '&'⟩
  | queryContinuation => ⟨false, ['&'], ['='], true, '&'⟩

/-- The symbol as a text, empty for the simple operator. -/
def symbol (op : Operator) : Text := op.symbol?.toList

end Operator

end LinkTemplate
