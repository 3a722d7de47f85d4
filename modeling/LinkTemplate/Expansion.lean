import LinkTemplate.Percent
import LinkTemplate.Template
import LinkTemplate.Bindings
/-!
# Expansion

Each term of an expression is expanded in a `Slot`: the style of the operator, and what the term
asks for. Terms without a defined value leave no trace; the others are written after `first`, with
separators between them.
-/

namespace LinkTemplate

/-- What a value is expanded for. -/
structure Slot where
  style : Style
  name : Text
  /-- The value is written after the name. -/
  named : Bool
  explode : Bool
  truncate : Nat
  deriving DecidableEq

namespace Slot

def ofTerm (operator : Operator) (term : Term) : Slot where
  style := operator.style
  name := term.name
  named := operator.style.named
  explode := term.explode
  truncate := term.truncate

/-- An entry of an exploded table is named by its key, whatever the operator. -/
def forKey (slot : Slot) (key : Text) : Slot := { slot with name := key, named := true }

/-- The first `length` characters, or all of them if that is 0. -/
def cut (length : Nat) (text : Text) : Text := if length = 0 then text else text.take length

def encode (slot : Slot) (text : Text) : Text := Percent.encode slot.style.allowReserved text

/-- Writes the name before an encoded value, where the slot is named. -/
def label (slot : Slot) (encoded : Text) : Text :=
  if !slot.named then encoded
  else if encoded = [] then slot.name ++ slot.style.ifEmpty
  else slot.name ++ '=' :: encoded

def expandText (slot : Slot) (text : Text) : Text :=
  slot.label (slot.encode (cut slot.truncate text))

def separate (slot : Slot) (pieces : List Text) : Text :=
  [slot.style.separator].intercalate pieces

/-- Writes the items of a list after the first one. An item is cut as soon as more characters are
`written` than the length that the term asks for. -/
def joinMore (slot : Slot) (written : Nat) : List Text → Text
  | [] => []
  | item :: items =>
    let used := slot.encode (if slot.truncate < written then cut slot.truncate item else item)
    ',' :: used ++ slot.joinMore (written + 1 + used.length) items

/-- Writes the items of a list with commas between them. The first one is never cut. -/
def joinItems (slot : Slot) : List Text → Text
  | [] => []
  | item :: items => slot.encode item ++ slot.joinMore (slot.encode item).length items

def expandList (slot : Slot) (items : List Text) : Text :=
  if slot.explode then slot.separate (items.map slot.expandText)
  else slot.label (slot.joinItems items)

/-- The keys of a table are written as they are. -/
def expandTable (slot : Slot) (entries : Table Text) : Text :=
  if slot.explode then
    slot.separate (entries.entries.map fun (key, value) => (slot.forKey key).expandText value)
  else
    slot.label <| [','].intercalate <|
      entries.entries.map fun (key, value) => key ++ ',' :: slot.encode value

def expand? (slot : Slot) : Value → Option Text
  | .undefined => none
  | .text text => some (slot.expandText text)
  | .list items => some (slot.expandList items)
  | .table entries => some (slot.expandTable entries)

end Slot

/-- The expansion of one term, if its variable is defined. -/
def Term.expand? (operator : Operator) (bindings : Bindings) (term : Term) : Option Text :=
  (Bindings.defined? bindings term.name).bind (Slot.ofTerm operator term).expand?

theorem Term.expand?_of_get? (operator : Operator) {bindings : Bindings} (term : Term)
    {value : Value} (h : bindings.get? term.name = some value) (hvalue : value.isDefined) :
    term.expand? operator bindings = (Slot.ofTerm operator term).expand? value := by
  unfold Term.expand?
  rw [Bindings.defined?_of_get? h hvalue, Option.bind_some]

def Expression.expand (bindings : Bindings) (expression : Expression) : Text :=
  match expression.terms.filterMap (Term.expand? expression.operator bindings) with
  | [] => []
  | pieces => expression.style.first ++ [expression.style.separator].intercalate pieces

theorem Expression.expand_singleton {operator : Operator} {bindings : Bindings} {term : Term}
    {piece : Text} (h : term.expand? operator bindings = some piece) :
    Expression.expand bindings ⟨operator, [term]⟩ = operator.style.first ++ piece := by
  simp [Expression.expand, Expression.style, h]

/-- What the terms that have a value are expanded to. -/
def Expression.fragments (operator : Operator) (bindings : Bindings) (terms : List Term) :
    List Text :=
  terms.filterMap (Term.expand? operator bindings)

theorem Expression.expand_eq {operator : Operator} {bindings : Bindings}
    {terms : List Term} (h : fragments operator bindings terms ≠ []) :
    Expression.expand bindings ⟨operator, terms⟩ = operator.style.first ++
      [operator.style.separator].intercalate (fragments operator bindings terms) := by
  unfold fragments at h ⊢
  unfold Expression.expand
  split
  · contradiction
  · rfl

def Part.expand (bindings : Bindings) : Part → Text
  | literal text => text
  | expression e => e.expand bindings

def Template.expand (bindings : Bindings) (template : Template) : Text :=
  template.parts.flatMap (Part.expand bindings)

end LinkTemplate
