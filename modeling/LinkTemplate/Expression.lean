import LinkTemplate.Operator
import LinkTemplate.Term
/-!
# Expressions

What stands between a pair of braces: an operator symbol, or none, and terms with commas between
them.
-/

namespace LinkTemplate

structure Expression where
  operator : Operator
  terms : List Term
  deriving DecidableEq

namespace Expression

def style (expression : Expression) : Style := expression.operator.style

/-! ## Writing -/

/-- The text between the braces. -/
def body (expression : Expression) : Text :=
  expression.operator.symbol ++ [','].intercalate (expression.terms.map Term.text)

def text (expression : Expression) : Text := '{' :: expression.body ++ ['}']

/-! ## Reading -/

/-- Reads specs one after another, `offset` characters of the body standing before the first. Where
there is no spec, the name is missing in front of the next comma or of the closing brace. -/
def readTerms (body : Text) (offset : Nat) : List Text → Except SyntaxError (List Term)
  | [] => .ok []
  | spec :: specs =>
    if spec = [] then .error ⟨.emptyVariableName, body[offset]?, offset + 1, body⟩
    else match Term.parse spec with
      | .error error => .error (error.rebase offset body)
      | .ok term => (readTerms body (offset + spec.length + 1) specs).map (term :: ·)

/-- An empty spec needs no rule of its own: it is no term, and its error is the same. -/
theorem readTerms_cons (body : Text) (offset : Nat) (spec : Text) (specs : List Text) :
    readTerms body offset (spec :: specs) =
      match Term.parse spec with
      | .error error => .error (error.rebase offset body)
      | .ok term => (readTerms body (offset + spec.length + 1) specs).map (term :: ·) := by
  by_cases h : spec = []
  · subst h
    rfl
  · rw [readTerms, if_neg h]

/-- Takes the operator symbol off the head of a body. -/
def takeOperator : Text → Operator × Text
  | [] => (.simple, [])
  | c :: rest =>
    match Operator.ofChar? c with
    | some operator => (operator, rest)
    | none => (.simple, c :: rest)

/-- Reads the text between two braces. A position one past the end is the closing brace. -/
def parse (body : Text) : Except SyntaxError Expression :=
  let (operator, list) := takeOperator body
  (readTerms body operator.symbol.length (list.splitOn ',')).map (⟨operator, ·⟩)

end Expression

end LinkTemplate
