import LinkTemplate.Text.Decimal
import LinkTemplate.Text.Quoted
/-!
# What can be wrong with a template

An error shows its place in the text that was read and the character found there. Whoever read only
a part of a larger text does not know that place, so the error of a part is rebased by what stands
before it, and its character is looked up again.
-/

namespace LinkTemplate

inductive Problem
  | unmatchedClosingBrace
  | nestedOpeningBrace
  | unterminatedExpression
  | emptyExpression
  | emptyVariableName
  | malformedModifier
  | conflictingModifiers
  deriving DecidableEq

def Problem.message : Problem → Text
  | unmatchedClosingBrace => "closing brace without a matching opening brace".toList
  | nestedOpeningBrace => "nested opening brace".toList
  | unterminatedExpression => "unterminated expression, expected a closing brace".toList
  | emptyExpression => "empty braces".toList
  | emptyVariableName => "empty variable name".toList
  | malformedModifier => "malformed variable modifier".toList
  | conflictingModifiers => "explode and prefix-truncation are mutually exclusive".toList

structure SyntaxError where
  problem : Problem
  /-- The character found at the position, `none` one past the end. -/
  character : Option Char
  /-- The place in the template, counted from 1. -/
  position : Nat
  /-- The whole text that was read. -/
  template : Text
  deriving DecidableEq

namespace SyntaxError

/-- The error of a problem at a position of a text, where the character is looked up. -/
def locate (template : Text) (problem : Problem) (position : Nat) : SyntaxError :=
  ⟨problem, template[position - 1]?, position, template⟩

/-- The error of a part of a text, seen from the whole text, with `offset` characters in front. -/
def rebase (offset : Nat) (template : Text) (error : SyntaxError) : SyntaxError :=
  locate template error.problem (offset + error.position)

@[simp] theorem rebase_locate (offset position : Nat) (template part : Text) (problem : Problem) :
    (locate part problem position).rebase offset template =
      locate template problem (offset + position) := rfl

@[simp] theorem rebase_rebase (m n : Nat) (template part : Text) (error : SyntaxError) :
    (error.rebase n part).rebase m template = error.rebase (m + n) template := by
  simp [rebase, locate, Nat.add_assoc]

theorem locate_one (template : Text) (problem : Problem) :
    locate template problem 1 = ⟨problem, template.head?, 1, template⟩ := by
  simp [locate, List.head?_eq_getElem?]

theorem locate_length (template : Text) (problem : Problem) :
    locate template problem template.length =
      ⟨problem, template.getLast?, template.length, template⟩ := by
  simp [locate, List.getLast?_eq_getElem?]

/-- The character behind `before` stands one place after its length. -/
theorem locate_behind (before : Text) (c : Char) (after : Text) (problem : Problem) :
    locate (before ++ c :: after) problem (before.length + 1) =
      ⟨problem, some c, before.length + 1, before ++ c :: after⟩ := by
  simp [locate]

def whereabouts : Option Char → Text
  | some c => "found '".toList ++ c :: ['\'']
  | none => "at end of input".toList

def message (error : SyntaxError) : Text :=
  error.problem.message ++ " at position ".toList ++ Decimal.text error.position ++
    " (".toList ++ whereabouts error.character ++ ") in template ".toList ++
    Text.quoted error.template

end SyntaxError

end LinkTemplate
