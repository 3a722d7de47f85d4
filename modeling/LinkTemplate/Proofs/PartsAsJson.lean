import LinkTemplate.Action
import LinkTemplate.Proofs.Basics
import LinkTemplate.Proofs.JsonReader
import LinkTemplate.Proofs.NormalText
/-!
# What is shown as JSON determines the template

The parts of a template are found again in their JSON: the tag says what a part is, the symbol
which operator it has, and three members make up a term. The members that only describe the
operator are passed over.
-/

namespace LinkTemplate

/-! ## Reading parts back -/

namespace Json

/-- The value of the first member of a name. -/
def member? (name : Text) : Json → Option Json
  | object members => Table.lookup name members
  | _ => none

def bool? : Json → Option Bool
  | bool value => some value
  | _ => none

def natural? : Json → Option Nat
  | number digits => if digits.all Char.isDigit then some (Decimal.value digits) else none
  | _ => none

def items? : Json → Option (List Json)
  | array items => some items
  | _ => none

end Json

def Operator.ofSymbol? : Text → Option Operator
  | [] => some simple
  | [c] => ofChar? c
  | _ => none

def Term.ofJson? (json : Json) : Option Term := do
  let name ← (← json.member? "name".toList).text?
  let explode ← (← json.member? "explode".toList).bool?
  let truncate ← (← json.member? "truncate".toList).natural?
  return ⟨name, explode, truncate⟩

def Expression.ofJson? (json : Json) : Option Expression := do
  let operator ← Operator.ofSymbol? (← (← json.member? "operator".toList).text?)
  let terms ← (← (← json.member? "terms".toList).items?).mapM Term.ofJson?
  return ⟨operator, terms⟩

def Part.ofTagged? (tag : Text) (value : Json) : Option Part :=
  if tag = "Literal".toList then value.text?.map literal
  else if tag = "Variable".toList then (Expression.ofJson? value).map expression
  else none

def Part.ofJson? (json : Json) : Option Part := do
  let tag ← (← json.member? "type".toList).text?
  ofTagged? tag (← json.member? "value".toList)

def Template.ofJson? (json : Json) : Option Template := do
  return ⟨← (← json.items?).mapM Part.ofJson?⟩

theorem Operator.ofSymbol?_symbol (op : Operator) : ofSymbol? op.symbol = some op := by
  cases op <;> rfl

theorem Json.natural?_text (n : Nat) : (number (Decimal.text n)).natural? = some n := by
  have hdigits : (Decimal.text n).all Char.isDigit :=
    List.all_eq_true.mpr fun _ => Decimal.isDigit_of_mem_text
  simp [natural?, hdigits]

theorem Term.ofJson?_toJson (term : Term) : ofJson? term.toJson = some term := by
  have htruncate := Json.natural?_text term.truncate
  simp [ofJson?, toJson, Json.member?, Table.lookup, Json.text?, Json.bool?, htruncate]

theorem Expression.ofJson?_toJson (e : Expression) : ofJson? e.toJson = some e := by
  have hterms := mapM_map_eq_some Term.ofJson?_toJson e.terms
  simp [ofJson?, toJson, Json.member?, Table.lookup, Json.text?, Json.items?,
    Operator.ofSymbol?_symbol, hterms]

theorem Part.ofJson?_tagged (tag : Text) (value : Json) :
    ofJson? (toJson.tagged tag value) = ofTagged? tag value := by
  simp [ofJson?, toJson.tagged, Json.member?, Table.lookup, Json.text?]

theorem Part.ofJson?_toJson (part : Part) : ofJson? part.toJson = some part := by
  cases part with
  | literal text => exact ofJson?_tagged _ _
  | expression e =>
    have he := Expression.ofJson?_toJson e
    rw [toJson, ofJson?_tagged]
    simp [ofTagged?, he]

theorem Template.ofJson?_toJson (template : Template) :
    ofJson? template.toJson = some template := by
  have hparts := mapM_map_eq_some Part.ofJson?_toJson template.parts
  simp [ofJson?, toJson, Json.items?, hparts]

/-! ## What is written is JSON -/

theorem Json.isNumber_text (n : Nat) : IsNumber (Decimal.text n) := by
  have hdigits : Digits (Decimal.text n) :=
    ⟨Nat.toDigits_ne_nil, fun _ => Decimal.isDigit_of_mem_text⟩
  have hwhole : IsWhole (Decimal.text n) := by
    rcases Nat.eq_zero_or_pos n with rfl | hn
    · exact Or.inl rfl
    · exact Or.inr ⟨hdigits, Decimal.head?_text_ne_zero hn⟩
  exact ⟨[], Decimal.text n, [], [], by simp, hwhole, Or.inl rfl, Or.inl rfl, by simp⟩

theorem Term.wellFormed_toJson (term : Term) (depth : Nat) :
    term.toJson.WellFormed (depth + 1) := by
  have htruncate := Json.isNumber_text term.truncate
  simp [toJson, Json.WellFormed, htruncate]

theorem Expression.wellFormed_toJson (e : Expression) (depth : Nat) :
    e.toJson.WellFormed (depth + 3) := by
  have hterms := fun term : Term => term.wellFormed_toJson depth
  simp [toJson, Json.WellFormed, hterms]

theorem Part.wellFormed_toJson (part : Part) (depth : Nat) :
    part.toJson.WellFormed (depth + 4) := by
  cases part with
  | literal text => simp [toJson, toJson.tagged, Json.WellFormed]
  | expression e => simp [toJson, toJson.tagged, Json.WellFormed, e.wellFormed_toJson depth]

theorem Template.wellFormed_toJson (template : Template) (depth : Nat) :
    template.toJson.WellFormed (depth + 5) := by
  have hparts := fun part : Part => part.wellFormed_toJson depth
  simp [toJson, Json.WellFormed, hparts]

/-! ## What is printed -/

theorem Template.read?_print (template : Template) (layout : Json.Layout) :
    (Json.read? (template.toJson.print layout)).bind ofJson? = some template := by
  have hwell : template.toJson.WellFormed Json.maxDepth := template.wellFormed_toJson 122
  rw [Json.read?_print layout hwell]
  exact template.ofJson?_toJson

theorem Template.print_toJson_inj {template other : Template} {layout : Json.Layout} :
    other.toJson.print layout = template.toJson.print layout ↔ other = template := by
  constructor
  · intro hprint
    have hother := other.read?_print layout
    rw [hprint, template.read?_print layout] at hother
    exact (Option.some.inj hother).symm
  · rintro rfl
    rfl

/-- The JSON of a template is a JSON text, the template is read back from it, and no other template
has it. So the command prints it for the texts of this template and for no other text. -/
theorem json_determines_template [YamlReader] (template : Template) :
    Json.IsText template.toJson (template.toJson.print .indented) ∧
    (Json.read? (template.toJson.print .indented)).bind Template.ofJson? = some template ∧
    (∀ other : Template, other.toJson.print .indented = template.toJson.print .indented ↔
      other = template) ∧
    ∀ files text, Action.run files (.parse text true) = .ok (template.toJson.print .indented) ↔
      Template.parse text = .ok template := by
  refine ⟨⟨5, Json.padded_print .indented (template.wellFormed_toJson 0)⟩,
    template.read?_print .indented, fun other => Template.print_toJson_inj, fun files text => ?_⟩
  have hrun : Action.run files (.parse text true) =
      (Action.readTemplate text).map fun t => t.toJson.print .indented := by
    cases h : Action.readTemplate text <;> simp [Action.run, h, Except.map]
  rw [hrun, map_eq_ok]
  simp only [Action.readTemplate, mapError_eq_ok, Template.print_toJson_inj]
  simp

end LinkTemplate
