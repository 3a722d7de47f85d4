import LinkTemplate.SyntaxError
/-!
# The terms of an expression

A term names a variable and may carry one modifier: `name`, `name:3` or `name*`.
-/

namespace LinkTemplate

structure Term where
  name : Text
  /-- A list or a table is expanded entry by entry. -/
  explode : Bool
  /-- How many characters of the value are used; 0 stands for all of them. -/
  truncate : Nat
  deriving DecidableEq

namespace Term

/-- The largest length that a term can ask for. -/
def maxLength : Nat := UInt64.size - 1

/-! ## Writing -/

def modifiers (term : Term) : Text :=
  (if term.truncate = 0 then [] else ':' :: Decimal.text term.truncate) ++
    (if term.explode then ['*'] else [])

def text (term : Term) : Text := term.name ++ term.modifiers

/-! ## Reading -/

/-- Reads the length after the colon at `colon`. A length too large becomes the largest one. -/
def readLength (spec : Text) (colon : Nat) (length : Text) : Except SyntaxError Nat :=
  if length = [] then .error (.locate spec .malformedModifier colon)
  else match length.findIdx? (! ·.isDigit) with
    | some i => .error (.locate spec .malformedModifier (colon + i + 1))
    | none => .ok (min (Decimal.value length) maxLength)

/-- Reads the name and the length of a spec from its body, which is the spec without the star; a
second colon is found before anything else. -/
def readNamed (spec body : Text) : Except SyntaxError (Text × Nat) :=
  match Text.cut? ':' body with
  | none =>
    if body = [] then .error ⟨.emptyVariableName, spec.head?, 1, spec⟩ else .ok (body, 0)
  | some (name, length) =>
    match Text.cut? ':' length with
    | some (first, _) =>
      .error (.locate spec .malformedModifier (name.length + first.length + 2))
    | none =>
      if name = [] then .error ⟨.emptyVariableName, spec.head?, 1, spec⟩
      else (readLength spec (name.length + 1) length).map (name, ·)

/-- Reads one term. A star at the end explodes it, and then it may not have a length. -/
def parse (spec : Text) : Except SyntaxError Term :=
  let (body, explode) := Text.dropEnd '*' spec
  match readNamed spec body with
  | .error error => .error error
  | .ok (name, truncate) =>
    if explode ∧ 0 < truncate then
      .error ⟨.conflictingModifiers, some '*', spec.length, spec⟩
    else .ok ⟨name, explode, truncate⟩

end Term

end LinkTemplate
