import LinkTemplate.Expansion
import LinkTemplate.Proofs.Basics
import LinkTemplate.Proofs.Decoding
/-!
# Reading an expansion back

Who knows the terms of an expression and splits its expansion at the separator finds the values
again, each in a piece of its own: no character of a value is taken for a separator, a name or a
comma. This needs an operator that encodes its own separator, and values that are not cut.
-/

namespace LinkTemplate

def Value.IsTable : Value → Prop
  | table _ => True
  | undefined | text _ | list _ => False

instance : DecidablePred Value.IsTable
  | .table _ => isTrue trivial
  | .undefined | .text _ | .list _ => isFalse id

/-- What one piece of an expansion holds. -/
inductive Holding
  | one (text : Text)
  /-- A list in one piece, with commas between its items. -/
  | several (items : List Text)
  deriving DecidableEq

namespace Term

/-- What the pieces for a term hold, in their order. -/
def holdings (operator : Operator) (bindings : Bindings) (term : Term) : List Holding :=
  match Bindings.defined? bindings term.name with
  | some (.text text) => [.one text]
  | some (.list items) =>
    if term.explode ∨ operator = .simple then items.map .one else [.several items]
  | some (.table _) | some .undefined | none => []

/-- Takes the name off a piece, where the operator writes it. -/
def unlabel? (operator : Operator) (term : Term) (piece : Text) : Option Text :=
  if !operator.style.named then some piece
  else if operator.style.ifEmpty = [] ∧ piece = term.name then some []
  else piece.dropPrefix? (term.name ++ ['='])

def Reads (operator : Operator) (term : Term) (piece : Text) : Holding → Prop
  | .one text => (term.unlabel? operator piece).bind Percent.decode? = some text
  | .several items =>
    (term.unlabel? operator piece).bind (fun list => (list.splitOn ',').mapM Percent.decode?) =
      some items

end Term

/-- What the pieces of an expansion hold, and for which terms. -/
def Expression.holdings (e : Expression) (bindings : Bindings) : List (Term × Holding) :=
  e.terms.flatMap fun term => (term.holdings e.operator bindings).map (term, ·)

/-! ## Operators that encode their separator -/

structure Operator.Separable (op : Operator) : Prop where
  allowReserved : op.style.allowReserved = false
  encoded : Percent.isKept false op.style.separator = false
  percent : op.style.separator ≠ '%'
  equals : op.style.separator ≠ '='
  comma : op.style.separator = ',' ↔ op = .simple
  unnamed : op = .simple → op.style.named = false
  ifEmpty : op.style.ifEmpty = [] ∨ op.style.ifEmpty = ['=']

theorem Operator.separable_of_mem {op : Operator}
    (h : op ∈ [simple, pathSegment, pathParameter, query, queryContinuation]) : op.Separable := by
  simp only [List.mem_cons, List.not_mem_nil, or_false] at h
  rcases h with rfl | rfl | rfl | rfl | rfl
  all_goals constructor <;> decide

/-! ## Writing the pieces -/

namespace Slot

theorem joinItems_eq {slot : Slot} (h : slot.truncate = 0) (items : List Text) :
    slot.joinItems items = [','].intercalate (items.map slot.encode) := by
  have hmore : ∀ written items,
      slot.joinMore written items = (items.map slot.encode).flatMap (',' :: ·) := by
    intro written items
    induction items generalizing written with
    | nil => rfl
    | cons item items ih => simp [joinMore, h, cut, ih]
  cases items with
  | nil => rfl
  | cons item items => rw [joinItems, hmore, List.map_cons, Text.intercalate_cons]

end Slot

/-- The piece that is written for what it holds. -/
def Holding.text (slot : Slot) : Holding → Text
  | one text => slot.label (slot.encode text)
  | several items => slot.label ([','].intercalate (items.map slot.encode))

def Term.pieces (op : Operator) (bindings : Bindings) (term : Term) : List Text :=
  (term.holdings op bindings).map (Holding.text (Slot.ofTerm op term))

/-- A term writes its pieces with separators between them, and nothing if it has none. -/
theorem Term.expand?_eq {op : Operator} {bindings : Bindings} {term : Term} (hop : op.Separable)
    (huncut : term.truncate = 0)
    (htable : ∀ value ∈ Bindings.defined? bindings term.name, ¬ value.IsTable) :
    term.expand? op bindings =
      if term.pieces op bindings = [] then none
      else some ([op.style.separator].intercalate (term.pieces op bindings)) := by
  have hexpandText : (Slot.ofTerm op term).expandText =
      Holding.text (Slot.ofTerm op term) ∘ .one := by
    funext text
    simp [Slot.expandText, Slot.ofTerm, Slot.cut, huncut, Holding.text]
  unfold Term.expand? Term.pieces Term.holdings
  cases hvalue : Bindings.defined? bindings term.name with
  | none => rfl
  | some value =>
    cases value with
    | undefined => rfl
    | text text => simp [Slot.expand?, hexpandText]
    | list items =>
      have hitems := Value.isDefined_list_iff.mp (Bindings.isDefined_of_defined? hvalue)
      simp only [Option.bind_some, Slot.expand?, Slot.expandList]
      by_cases hexplode : term.explode
      · rw [if_pos (show (Slot.ofTerm op term).explode from hexplode), if_pos (Or.inl hexplode),
          hexpandText]
        simp [hitems, Slot.separate, Slot.ofTerm]
      · rw [if_neg (show ¬ (Slot.ofTerm op term).explode from hexplode),
          Slot.joinItems_eq (show (Slot.ofTerm op term).truncate = 0 from huncut)]
        by_cases hsimple : op = .simple
        · -- The commas between the items are separators, so each item is a piece.
          have hlabel : (Slot.ofTerm op term).label = id := by
            funext encoded
            simp [Slot.label, Slot.ofTerm, hop.unnamed hsimple]
          have htext : Holding.text (Slot.ofTerm op term) ∘ .one =
              (Slot.ofTerm op term).encode := by
            funext text
            simp [Holding.text, hlabel]
          rw [if_pos (Or.inr hsimple)]
          simp [hitems, hlabel, htext, hop.comma.mpr hsimple]
        · have hlayout : ¬ (term.explode ∨ op = .simple) := by simp [hexplode, hsimple]
          rw [if_neg hlayout]
          simp [Holding.text]
    | table entries => exact absurd trivial (htable _ hvalue)

theorem Term.pieces_ne_nil {op : Operator} {bindings : Bindings} {term : Term}
    (hdefined : Bindings.defined? bindings term.name ≠ none)
    (htable : ∀ value ∈ Bindings.defined? bindings term.name, ¬ value.IsTable) :
    term.pieces op bindings ≠ [] := by
  obtain ⟨value, hvalue⟩ := Option.ne_none_iff_exists'.mp hdefined
  have hisDefined := Bindings.isDefined_of_defined? hvalue
  unfold Term.pieces Term.holdings
  rw [hvalue]
  cases value with
  | undefined => simp [Value.isDefined] at hisDefined
  | text text => simp
  | list items =>
    have hitems := Value.isDefined_list_iff.mp hisDefined
    simp only
    split <;> simp [hitems]
  | table entries => exact absurd trivial (htable _ hvalue)

/-! ## Reading the pieces -/

theorem Term.unlabel?_label {op : Operator} (hop : op.Separable) (term : Term) (encoded : Text) :
    term.unlabel? op ((Slot.ofTerm op term).label encoded) = some encoded := by
  have hdrop : ∀ value : Text,
      (term.name ++ '=' :: value).dropPrefix? (term.name ++ ['=']) = some value := by
    intro value
    rw [List.append_cons]
    exact List.dropPrefix?_append_of_beq value (by simp)
  unfold Term.unlabel? Slot.label
  simp only [Slot.ofTerm]
  by_cases hnamed : op.style.named
  · by_cases hempty : encoded = []
    · rcases hop.ifEmpty with hif | hif
      · simp [hnamed, hempty, hif]
      · simpa [hnamed, hempty, hif] using hdrop []
    · simp [hnamed, hempty, hdrop]
  · simp [hnamed]

theorem Percent.mapM_decode? (allowReserved : Bool) (items : List Text) :
    (items.map (Percent.encode allowReserved)).mapM Percent.decode? = some items := by
  rw [mapM_eq_some_iff, List.forall₂_map_left_iff, List.forall₂_same]
  exact fun item _ => decode?_encode allowReserved item

theorem Term.ne_nil_of_several_mem {op : Operator} {bindings : Bindings} {term : Term}
    {items : List Text} (h : .several items ∈ term.holdings op bindings) :
    items ≠ [] ∧ op ≠ .simple := by
  unfold Term.holdings at h
  split at h
  · simp at h
  · rename_i hvalue
    split at h
    · simp at h
    · rename_i hlayout
      obtain rfl := by simpa using h
      have hitems := Value.isDefined_list_iff.mp (Bindings.isDefined_of_defined? hvalue)
      exact ⟨hitems, fun hsimple => hlayout (Or.inr hsimple)⟩
  all_goals simp at h

theorem Operator.Separable.not_mem_encode {op : Operator} (hop : op.Separable) {term : Term}
    {text : Text} {c : Char} (hkept : Percent.isKept false c = false) (hc : c ≠ '%') :
    c ∉ (Slot.ofTerm op term).encode text := by
  intro hmem
  have := Percent.mem_encode hmem
  simp [Slot.ofTerm, hop.allowReserved, hkept, hc] at this

theorem Term.reads_text {op : Operator} (hop : op.Separable) {bindings : Bindings} {term : Term}
    {holding : Holding} (h : holding ∈ term.holdings op bindings) :
    term.Reads op (holding.text (Slot.ofTerm op term)) holding := by
  cases holding with
  | one text =>
    simp only [Term.Reads, Holding.text]
    rw [Term.unlabel?_label hop, Option.bind_some]
    exact Percent.decode?_encode _ text
  | several items =>
    simp only [Term.Reads, Holding.text]
    have hcomma : ∀ piece ∈ items.map (Slot.ofTerm op term).encode, ',' ∉ piece := by
      simp only [List.mem_map, forall_exists_index, and_imp, forall_apply_eq_imp_iff₂]
      exact fun _ _ => hop.not_mem_encode (by decide) (by decide)
    have hne : items.map (Slot.ofTerm op term).encode ≠ [] := by
      simpa using (Term.ne_nil_of_several_mem h).1
    rw [Term.unlabel?_label hop, Option.bind_some, List.splitOn_intercalate ',' hcomma hne]
    exact Percent.mapM_decode? _ items

theorem Slot.not_mem_label {slot : Slot} {c : Char} {encoded : Text} (hname : c ∉ slot.name)
    (hempty : c ∉ slot.style.ifEmpty) (hc : c ≠ '=') (h : c ∉ encoded) :
    c ∉ slot.label encoded := by
  unfold Slot.label
  split
  · exact h
  · split
    · simp [hname, hempty]
    · simp [hname, hc, h]

theorem Term.separator_not_mem_text {op : Operator} (hop : op.Separable) {bindings : Bindings}
    {term : Term} (hname : op.style.separator ∉ term.name) {holding : Holding}
    (h : holding ∈ term.holdings op bindings) :
    op.style.separator ∉ holding.text (Slot.ofTerm op term) := by
  have hempty : op.style.separator ∉ op.style.ifEmpty := by
    rcases hop.ifEmpty with hif | hif
    · simp [hif]
    · simp [hif, hop.equals]
  cases holding with
  | one text =>
    exact Slot.not_mem_label hname hempty hop.equals (hop.not_mem_encode hop.encoded hop.percent)
  | several items =>
    refine Slot.not_mem_label hname hempty hop.equals fun hmem => ?_
    rcases Text.mem_intercalate hmem with hcomma | ⟨piece, hpiece, hmem⟩
    · exact (Term.ne_nil_of_several_mem h).2 (hop.comma.mp hcomma)
    · obtain ⟨item, -, rfl⟩ := List.mem_map.mp hpiece
      exact hop.not_mem_encode hop.encoded hop.percent hmem

/-! ## Reading an expression -/

theorem Expression.mem_holdings {e : Expression} {bindings : Bindings} {held : Term × Holding} :
    held ∈ e.holdings bindings ↔
      held.1 ∈ e.terms ∧ held.2 ∈ held.1.holdings e.operator bindings := by
  simp only [Expression.holdings, List.mem_flatMap, List.mem_map]
  constructor
  · rintro ⟨term, hterm, holding, hmem, rfl⟩
    exact ⟨hterm, hmem⟩
  · rintro ⟨hterm, hmem⟩
    exact ⟨held.1, hterm, held.2, hmem, rfl⟩

def Expression.pieces (e : Expression) (bindings : Bindings) : List Text :=
  e.terms.flatMap (Term.pieces e.operator bindings)

theorem Expression.pieces_eq (e : Expression) (bindings : Bindings) :
    e.pieces bindings =
      (e.holdings bindings).map fun held => held.2.text (Slot.ofTerm e.operator held.1) := by
  simp only [Expression.pieces, Expression.holdings, List.map_flatMap, List.map_map]
  rfl

/-- Under an operator that encodes its separator, an expansion without the leading `first` and
split at the separator has one piece for each defined text, each item of an exploded list and each
other list, or for each item of it where the separator is the comma. Each piece gives back what it
holds. No value may be cut or be a table, and no name may have the separator in it. -/
theorem pieces_read_back (e : Expression) (bindings : Bindings)
    (hoperator : e.operator ∈
      [Operator.simple, .pathSegment, .pathParameter, .query, .queryContinuation])
    (huncut : ∀ term ∈ e.terms, term.truncate = 0)
    (hname : ∀ term ∈ e.terms, e.style.separator ∉ term.name)
    (hdefined : ∃ term ∈ e.terms, Bindings.defined? bindings term.name ≠ none)
    (htable : ∀ term ∈ e.terms, ∀ value ∈ Bindings.defined? bindings term.name,
      ¬ value.IsTable) :
    e.style.first <+: e.expand bindings ∧
      List.Forall₂ (fun piece held => held.1.Reads e.operator piece held.2)
        (((e.expand bindings).drop e.style.first.length).splitOn e.style.separator)
        (e.holdings bindings) := by
  have hop : e.operator.Separable := Operator.separable_of_mem hoperator
  obtain ⟨hnil, hjoin⟩ := Text.intercalate_flatMap fun term hterm =>
    Term.expand?_eq hop (huncut term hterm) (htable term hterm)
  have hne : e.pieces bindings ≠ [] := by
    obtain ⟨term, hterm, hdef⟩ := hdefined
    intro hpieces
    exact Term.pieces_ne_nil hdef (htable term hterm)
      (List.flatMap_eq_nil_iff.mp hpieces term hterm)
  have hexpand : e.expand bindings =
      e.style.first ++ [e.style.separator].intercalate (e.pieces bindings) :=
    (Expression.expand_eq (mt hnil.mp hne)).trans (congrArg _ hjoin)
  have hseparator : ∀ piece ∈ e.pieces bindings, e.style.separator ∉ piece := by
    rw [e.pieces_eq]
    intro piece hpiece
    obtain ⟨held, hheld, rfl⟩ := List.mem_map.mp hpiece
    obtain ⟨hterm, hmem⟩ := Expression.mem_holdings.mp hheld
    exact Term.separator_not_mem_text hop (hname _ hterm) hmem
  refine ⟨hexpand ▸ List.prefix_append _ _, ?_⟩
  rw [hexpand, List.drop_left, List.splitOn_intercalate _ hseparator hne, e.pieces_eq,
    List.forall₂_map_left_iff, List.forall₂_same]
  exact fun held hheld => Term.reads_text hop (Expression.mem_holdings.mp hheld).2

/-- A name with an equals sign, empty items and encoded semicolons and commas are all told apart. -/
theorem path_parameters_read_back :
    let e : Expression := ⟨.pathParameter,
      [⟨['a', '=', 'b'], false, 0⟩, ⟨['l'], true, 0⟩, ⟨['m'], false, 0⟩, ⟨['n'], true, 0⟩]⟩
    let bindings : Bindings := Table.ofList [(['a', '=', 'b'], .text ['é', ';', '%']),
      (['l'], .list [[], ['l', '=', ';']]), (['m'], .list [[], [',']])]
    e.expand bindings = ";a=b=%C3%A9%3B%25;l;l=l%3D%3B;m=,%2C".toList ∧
      e.style.first <+: e.expand bindings ∧
      List.Forall₂ (fun piece held => held.1.Reads e.operator piece held.2)
        (((e.expand bindings).drop e.style.first.length).splitOn e.style.separator)
        (e.holdings bindings) := by
  intro e bindings
  refine ⟨by decide +kernel, pieces_read_back e bindings ?_ ?_ ?_ ?_ ?_⟩
  all_goals decide +kernel

end LinkTemplate
