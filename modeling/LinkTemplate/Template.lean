import LinkTemplate.Expression
/-!
# Templates

A template is literal text with expressions in braces. Reading cuts the text after each brace and
then takes the pieces two at a time: the text before an opening brace and the body up to the
closing one. So faults are found from left to right, and the first one is reported.
-/

namespace LinkTemplate

inductive Part
  | literal (text : Text)
  | expression (expression : Expression)
  deriving DecidableEq

structure Template where
  parts : List Part
  deriving DecidableEq

/-! ## Writing -/

def Part.text : Part → Text
  | literal text => text
  | expression e => e.text

def Template.text (template : Template) : Text := template.parts.flatMap Part.text

/-! ## Names -/

def Part.terms : Part → List Term
  | literal _ => []
  | expression e => e.terms

namespace Template

def terms (template : Template) : List Term := template.parts.flatMap Part.terms

/-- Keeps the first of equal texts. -/
def firstUses : List Text → List Text
  | [] => []
  | name :: names => name :: (firstUses names).filter (· ≠ name)

/-- The names of the variables in the order of their first use. -/
def names (template : Template) : List Text := firstUses (template.terms.map Term.name)

/-! ## Reading -/

inductive Brace
  | opening
  | closing
  deriving DecidableEq

def Brace.ofChar? : Char → Option Brace
  | '{' => some .opening
  | '}' => some .closing
  | _ => none

/-- Text without braces, and the brace that ends it. -/
structure Run where
  text : Text
  brace : Brace
  deriving DecidableEq

/-- Cuts a text after each brace; what follows the last brace has none. -/
def runs : Text → List Run × Text
  | [] => ([], [])
  | c :: rest =>
    let (ended, last) := runs rest
    match Brace.ofChar? c, ended with
    | some brace, _ => (⟨[], brace⟩ :: ended, last)
    | none, [] => ([], c :: last)
    | none, run :: more => (⟨c :: run.text, run.brace⟩ :: more, last)

/-- A literal is never empty. -/
def literals (text : Text) : List Part := if text = [] then [] else [.literal text]

/-- Reads what is left of a template in runs, where `offset` characters stand before the first. -/
def readRuns (template : Text) (offset : Nat) : List Run → Text → Except SyntaxError (List Part)
  | [], last => .ok (literals last)
  | ⟨text, .closing⟩ :: _, _ =>
    .error ⟨.unmatchedClosingBrace, some '}', offset + text.length + 1, template⟩
  | [⟨_, .opening⟩], _ =>
    .error ⟨.unterminatedExpression, template.getLast?, template.length, template⟩
  | ⟨text, .opening⟩ :: ⟨body, .opening⟩ :: _, _ =>
    .error ⟨.nestedOpeningBrace, some '{', offset + text.length + 1 + body.length + 1, template⟩
  | ⟨text, .opening⟩ :: ⟨body, .closing⟩ :: more, last =>
    if body = [] then
      .error ⟨.emptyExpression, some '}', offset + text.length + 1 + 1, template⟩
    else match Expression.parse body with
      | .error error => .error (error.rebase (offset + text.length + 1) template)
      | .ok expression =>
        match readRuns template (offset + text.length + 1 + body.length + 1) more last with
        | .error error => .error error
        | .ok parts => .ok (literals text ++ .expression expression :: parts)

/-- Reads a template, or says what is wrong with it and where. -/
def parse (text : Text) : Except SyntaxError Template :=
  let (ended, last) := runs text
  (readRuns text 0 ended last).map (⟨·⟩)

end Template

end LinkTemplate
