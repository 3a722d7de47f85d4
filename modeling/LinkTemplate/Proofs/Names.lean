import Mathlib.Algebra.Order.BigOperators.Group.List
import Mathlib.Algebra.Order.Group.Nat
import LinkTemplate.Expansion
import LinkTemplate.Proofs.Basics
/-!
# The names that an expansion depends on

An expansion asks for the values under the names that its template lists, and it cannot tell a name
without a value from one whose value is undefined or empty. None of the names is listed in vain:
each of them makes a difference under some bindings.
-/

namespace LinkTemplate

/-! ## The list of names -/

namespace Template

theorem mem_firstUses {names : List Text} {name : Text} :
    name ∈ firstUses names ↔ name ∈ names := by
  induction names with
  | nil => simp [firstUses]
  | cons first names ih =>
    by_cases h : name = first
    · simp [firstUses, h]
    · simp [firstUses, h, ih]

theorem pairwise_firstUses (names : List Text) :
    (firstUses names).Pairwise fun name next => names.idxOf name < names.idxOf next := by
  induction names with
  | nil => exact .nil
  | cons first names ih =>
    have hbehind : ∀ name ≠ first, (first :: names).idxOf name = names.idxOf name + 1 :=
      fun name h => List.idxOf_cons_ne names (Ne.symm h)
    refine List.pairwise_cons.mpr ⟨?_, ?_⟩
    · intro name hname
      have hne : name ≠ first := by simpa using (List.mem_filter.mp hname).2
      rw [List.idxOf_cons_self, hbehind name hne]
      omega
    · refine (ih.filter _).imp_of_mem ?_
      intro name next hname hnext hlt
      have hne : name ≠ first := by simpa using (List.mem_filter.mp hname).2
      have hne' : next ≠ first := by simpa using (List.mem_filter.mp hnext).2
      rw [hbehind name hne, hbehind next hne']
      omega

theorem nodup_firstUses (names : List Text) : (firstUses names).Nodup := by
  refine (pairwise_firstUses names).imp ?_
  rintro name next hlt rfl
  exact Nat.lt_irrefl _ hlt

end Template

/-! ## Names without a value -/

namespace Bindings

/-- There is no value under the name, or one of the three that are not defined. -/
def Lacks (bindings : Bindings) (name : Text) : Prop :=
  bindings.get? name = none ∨ bindings.get? name = some .undefined ∨
    bindings.get? name = some (.list []) ∨ bindings.get? name = some (.table Table.empty)

instance (bindings : Bindings) : DecidablePred bindings.Lacks :=
  fun _ => inferInstanceAs (Decidable (_ ∨ _ ∨ _ ∨ _))

/-- Both have the same defined value under the name, or neither has one. -/
def Agree (a b : Bindings) (name : Text) : Prop :=
  a.Lacks name ∧ b.Lacks name ∨ ¬ a.Lacks name ∧ ¬ b.Lacks name ∧ a.get? name = b.get? name

instance (a b : Bindings) : DecidablePred (Agree a b) :=
  fun _ => inferInstanceAs (Decidable (_ ∧ _ ∨ _ ∧ _ ∧ _))

theorem defined?_eq_none_iff {bindings : Bindings} {name : Text} :
    defined? bindings name = none ↔ bindings.Lacks name := by
  unfold defined? Lacks
  cases bindings.get? name with
  | none => simp
  | some value =>
    cases value with
    | undefined => simp [Value.isDefined]
    | text text => simp [Value.isDefined]
    | list items => simp [Value.isDefined]
    | table entries =>
      obtain ⟨entries, hnodup⟩ := entries
      simp [Value.isDefined, Table.isEmpty, Table.empty]

theorem defined?_eq_get? {bindings : Bindings} {name : Text} (h : ¬ bindings.Lacks name) :
    defined? bindings name = bindings.get? name := by
  rw [← defined?_eq_none_iff] at h
  unfold defined? at h ⊢
  cases hvalue : bindings.get? name with
  | none => rfl
  | some value =>
    rw [hvalue] at h
    by_cases hdefined : value.isDefined
    · simp [hdefined]
    · simp [hdefined] at h

theorem Agree.defined?_eq {a b : Bindings} {name : Text} (h : a.Agree b name) :
    defined? a name = defined? b name := by
  rcases h with ⟨ha, hb⟩ | ⟨ha, hb, hsame⟩
  · rw [defined?_eq_none_iff.mpr ha, defined?_eq_none_iff.mpr hb]
  · rw [defined?_eq_get? ha, defined?_eq_get? hb, hsame]

end Bindings

/-! ## Nothing else is asked for -/

section Congruence

variable {a b : Bindings}

theorem Expression.fragments_congr {op : Operator} {terms : List Term}
    (h : ∀ term ∈ terms, Bindings.defined? a term.name = Bindings.defined? b term.name) :
    fragments op a terms = fragments op b terms := by
  refine List.filterMap_congr fun term hterm => ?_
  unfold Term.expand?
  rw [h term hterm]

theorem Expression.expand_eq_of_fragments_eq {op : Operator} {terms others : List Term}
    (h : fragments op a terms = fragments op b others) :
    expand a ⟨op, terms⟩ = expand b ⟨op, others⟩ := by
  unfold fragments at h
  unfold expand
  simp only [h]
  rfl

theorem Expression.expand_congr {e : Expression}
    (h : ∀ term ∈ e.terms, Bindings.defined? a term.name = Bindings.defined? b term.name) :
    e.expand a = e.expand b :=
  expand_eq_of_fragments_eq (fragments_congr h)

theorem Template.expand_congr {template : Template}
    (h : ∀ term ∈ template.terms, Bindings.defined? a term.name = Bindings.defined? b term.name) :
    template.expand a = template.expand b := by
  unfold expand
  refine List.flatMap_congr fun part hpart => ?_
  cases part with
  | literal text => rfl
  | expression e =>
    exact Expression.expand_congr fun term hterm =>
      h term (List.mem_flatMap.mpr ⟨.expression e, hpart, hterm⟩)

end Congruence

/-! ## Every name makes a difference -/

theorem Slot.label_ne_nil {slot : Slot} {encoded : Text} (h : encoded ≠ []) :
    slot.label encoded ≠ [] := by
  unfold label
  split
  · exact h
  · simp

/-- One letter is never cut and always stands for itself. -/
theorem Slot.expandText_letter_ne_nil (slot : Slot) : slot.expandText ['x'] ≠ [] := by
  have hcut : cut slot.truncate ['x'] = ['x'] := by
    unfold cut
    split
    · rfl
    · exact List.take_of_length_le (by simp; omega)
  have hencode : slot.encode ['x'] = ['x'] := by
    unfold encode
    cases slot.style.allowReserved <;> rfl
  rw [expandText, hcut, hencode]
  exact label_ne_nil (List.cons_ne_nil 'x' [])

/-- Only this name has a value, and it is a letter. -/
def Bindings.letterUnder (name : Text) : Bindings := Table.empty.insert name (.text ['x'])

theorem Expression.expand_empty (e : Expression) : e.expand Table.empty = [] := by
  have hpieces : e.terms.filterMap (Term.expand? e.operator Table.empty) = [] :=
    List.filterMap_eq_nil_iff.mpr fun term _ => rfl
  unfold expand
  rw [hpieces]

theorem Expression.expand_letterUnder_ne_nil {e : Expression} {term : Term}
    (h : term ∈ e.terms) : e.expand (Bindings.letterUnder term.name) ≠ [] := by
  have hdefined : Bindings.defined? (Bindings.letterUnder term.name) term.name =
      some (.text ['x']) := by
    simp [Bindings.defined?, Bindings.letterUnder, Table.get?_insert, Value.isDefined]
  have hpiece : (Slot.ofTerm e.operator term).expandText ['x'] ∈
      e.terms.filterMap (Term.expand? e.operator (Bindings.letterUnder term.name)) := by
    refine List.mem_filterMap.mpr ⟨term, h, ?_⟩
    simp [Term.expand?, hdefined, Slot.expand?]
  obtain ⟨c, hc⟩ := List.exists_mem_of_ne_nil _ (Slot.expandText_letter_ne_nil _)
  unfold expand
  split
  · rename_i hnone
    simp [hnone] at hpiece
  · intro hnil
    have hmem : c ∈ [e.style.separator].intercalate _ := Text.mem_intercalate_of_mem hpiece hc
    rw [(List.append_eq_nil_iff.mp hnil).2] at hmem
    simp at hmem

theorem Template.length_expand_lt {template : Template} {term : Term}
    (h : term ∈ template.terms) :
    (template.expand Table.empty).length <
      (template.expand (Bindings.letterUnder term.name)).length := by
  have hle : ∀ part ∈ template.parts, (part.expand Table.empty).length ≤
      (part.expand (Bindings.letterUnder term.name)).length := by
    rintro (text | e) -
    · exact Nat.le_refl _
    · simp [Part.expand, Expression.expand_empty]
  obtain ⟨part, hpart, hterm⟩ := List.mem_flatMap.mp h
  cases part with
  | literal text => simp [Part.terms] at hterm
  | expression e =>
    unfold expand
    rw [List.length_flatMap, List.length_flatMap]
    refine List.sum_lt_sum _ _ hle ⟨.expression e, hpart, ?_⟩
    simp only [Part.expand, Expression.expand_empty, List.length_nil]
    exact List.length_pos_iff.mpr (Expression.expand_letterUnder_ne_nil hterm)

/-- An expansion depends on the defined values under the names of its template and on nothing else.
The names are those of the terms, each listed once, in the order of their first uses, and none of
them can be left out: some bindings that differ under that name alone are told apart. -/
theorem expand_depends_exactly_on_names (template : Template) :
    (∀ a b : Bindings, (∀ name ∈ template.names, a.Agree b name) →
      template.expand a = template.expand b) ∧
    template.names.Nodup ∧
    (∀ name, name ∈ template.names ↔ name ∈ template.terms.map Term.name) ∧
    (template.names.Pairwise fun name next =>
      (template.terms.map Term.name).idxOf name < (template.terms.map Term.name).idxOf next) ∧
    ∀ name ∈ template.names, ∃ a b : Bindings,
      (∀ other, other ≠ name → a.get? other = b.get? other) ∧
        template.expand a ≠ template.expand b := by
  refine ⟨?_, Template.nodup_firstUses _, fun _ => Template.mem_firstUses,
    Template.pairwise_firstUses _, ?_⟩
  · intro a b h
    refine Template.expand_congr fun term hterm => (h term.name ?_).defined?_eq
    exact Template.mem_firstUses.mpr (List.mem_map_of_mem hterm)
  · intro name hname
    obtain ⟨term, hterm, rfl⟩ := List.mem_map.mp (Template.mem_firstUses.mp hname)
    refine ⟨Table.empty, Bindings.letterUnder term.name, ?_, ?_⟩
    · intro other hother
      simp [Bindings.letterUnder, Table.get?_insert, hother]
    · intro hsame
      have hlt := Template.length_expand_lt hterm
      rw [hsame] at hlt
      exact Nat.lt_irrefl _ hlt

/-- Four of the names have no defined value, in one way under the first bindings and in another
under the second, which also have a name that is not in the template. -/
theorem expand_same_without_values :
    let template : Template := ⟨[.expression ⟨.query,
        [⟨['a'], false, 2⟩, ⟨['b'], true, 0⟩, ⟨['a'], false, 0⟩, ⟨['c'], false, 0⟩]⟩,
      .literal ['/'], .expression ⟨.fragment, [⟨['d'], true, 0⟩, ⟨['e'], false, 3⟩]⟩]⟩
    let bindings : Bindings := Table.ofList [(['a'], .text ['é', 'x', 'y']), (['b'], .undefined),
      (['c'], .list []), (['d'], .table Table.empty)]
    let others : Bindings := Table.ofList [(['z'], .text ['z']), (['e'], .undefined),
      (['d'], .list []), (['c'], .table Table.empty), (['a'], .text ['é', 'x', 'y'])]
    template.names = [['a'], ['b'], ['c'], ['d'], ['e']] ∧
      (∀ name ∈ template.names, bindings.Agree others name) ∧
      template.expand bindings = template.expand others ∧
      template.expand bindings = "?a=%C3%A9x&a=%C3%A9xy/".toList := by
  intro template bindings others
  have hagree : ∀ name ∈ template.names, bindings.Agree others name := by decide +kernel
  exact ⟨by decide +kernel, hagree,
    (expand_depends_exactly_on_names template).1 bindings others hagree, by decide +kernel⟩

end LinkTemplate
