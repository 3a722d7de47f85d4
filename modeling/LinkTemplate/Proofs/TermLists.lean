import LinkTemplate.Proofs.Names
/-!
# Term lists taken apart

An expression with two lists of terms one behind the other expands to what each of them expands to
alone, with one separator between the two. A list in which no term has a value leaves no trace, and
a term with a value leaves one even where it is expanded to nothing.
-/

namespace LinkTemplate

variable {op : Operator} {V : Bindings} {xs ys terms : List Term}

/-! ## Terms that leave no trace -/

theorem Slot.expand?_ne_none (slot : Slot) {value : Value} (h : value.isDefined) :
    slot.expand? value ≠ none := by
  cases value with
  | undefined => cases h
  | text text => exact Option.some_ne_none _
  | list items => exact Option.some_ne_none _
  | table entries => exact Option.some_ne_none _

theorem Term.expand?_eq_none_iff {term : Term} : term.expand? op V = none ↔ V.Lacks term.name := by
  rw [← Bindings.defined?_eq_none_iff]
  unfold expand?
  constructor
  · intro h
    cases hvalue : Bindings.defined? V term.name with
    | none => rfl
    | some value =>
      rw [hvalue, Option.bind_some] at h
      exact absurd h (Slot.expand?_ne_none _ (Bindings.isDefined_of_defined? hvalue))
  · intro h
    rw [h, Option.bind_none]

namespace Expression

theorem fragments_append :
    fragments op V (xs ++ ys) = fragments op V xs ++ fragments op V ys :=
  List.filterMap_append

theorem fragments_eq_nil_iff :
    fragments op V terms = [] ↔ ∀ term ∈ terms, V.Lacks term.name := by
  unfold fragments
  simp only [List.filterMap_eq_nil_iff, Term.expand?_eq_none_iff]

theorem fragments_ne_nil_iff :
    fragments op V terms ≠ [] ↔ ∃ term ∈ terms, ¬ V.Lacks term.name := by
  rw [Ne, fragments_eq_nil_iff]
  simp only [not_forall, exists_prop]

theorem expand_of_lacks (h : ∀ term ∈ terms, V.Lacks term.name) : expand V ⟨op, terms⟩ = [] := by
  have hnil : terms.filterMap (Term.expand? op V) = [] := fragments_eq_nil_iff.mpr h
  unfold expand
  rw [hnil]

theorem expand_of_defined (h : ∃ term ∈ terms, ¬ V.Lacks term.name) :
    expand V ⟨op, terms⟩ =
      op.style.first ++ [op.style.separator].intercalate (fragments op V terms) :=
  expand_eq (fragments_ne_nil_iff.mpr h)

/-! ## One list behind the other -/

theorem expand_append_of_lacks_left (h : ∀ term ∈ xs, V.Lacks term.name) :
    expand V ⟨op, xs ++ ys⟩ = expand V ⟨op, ys⟩ := by
  apply expand_eq_of_fragments_eq
  rw [fragments_append, fragments_eq_nil_iff.mpr h, List.nil_append]

theorem expand_append_of_lacks_right (h : ∀ term ∈ ys, V.Lacks term.name) :
    expand V ⟨op, xs ++ ys⟩ = expand V ⟨op, xs⟩ := by
  apply expand_eq_of_fragments_eq
  rw [fragments_append, fragments_eq_nil_iff.mpr h, List.append_nil]

theorem expand_append_of_defined (hxs : ∃ term ∈ xs, ¬ V.Lacks term.name)
    (hys : ∃ term ∈ ys, ¬ V.Lacks term.name) :
    expand V ⟨op, xs ++ ys⟩ = expand V ⟨op, xs⟩ ++
      op.style.separator :: [op.style.separator].intercalate (fragments op V ys) := by
  have hall : ∃ term ∈ xs ++ ys, ¬ V.Lacks term.name := by
    obtain ⟨term, hterm, hvalue⟩ := hxs
    exact ⟨term, List.mem_append_left ys hterm, hvalue⟩
  rw [expand_of_defined hall, expand_of_defined hxs, fragments_append,
    Text.intercalate_append (fragments_ne_nil_iff.mpr hxs) (fragments_ne_nil_iff.mpr hys),
    List.append_assoc]

theorem lacks_or_defined (V : Bindings) (terms : List Term) :
    (∀ term ∈ terms, V.Lacks term.name) ∨ ∃ term ∈ terms, ¬ V.Lacks term.name := by
  refine Classical.or_iff_not_imp_left.mpr fun h => ?_
  simpa only [not_forall, exists_prop] using h

/-- Where the separator also comes first, it does not matter which of the two it is. -/
theorem expand_append_of_first_eq (h : op.style.first = [op.style.separator]) :
    expand V ⟨op, xs ++ ys⟩ = expand V ⟨op, xs⟩ ++ expand V ⟨op, ys⟩ := by
  rcases lacks_or_defined V xs with hxs | hxs
  · rw [expand_append_of_lacks_left hxs, expand_of_lacks hxs, List.nil_append]
  rcases lacks_or_defined V ys with hys | hys
  · rw [expand_append_of_lacks_right hys, expand_of_lacks hys, List.append_nil]
  · rw [expand_append_of_defined hxs hys, expand_of_defined hys, h]
    rfl

end Expression

/-! ## Queries that are continued -/

namespace Slot

/-- The same slot with something else in front of the first defined term. -/
def withFirst (slot : Slot) (first : Text) : Slot :=
  { slot with style := { slot.style with first } }

theorem joinMore_withFirst (slot : Slot) (first : Text) (written : Nat) (items : List Text) :
    (slot.withFirst first).joinMore written items = slot.joinMore written items := by
  induction items generalizing written with
  | nil => rfl
  | cons item items ih =>
    simp only [joinMore, ih]
    rfl

theorem joinItems_withFirst (slot : Slot) (first : Text) (items : List Text) :
    (slot.withFirst first).joinItems items = slot.joinItems items := by
  cases items with
  | nil => rfl
  | cons item items =>
    simp only [joinItems, joinMore_withFirst]
    rfl

/-- A value is expanded without regard to what comes first. -/
theorem expand?_withFirst (slot : Slot) (first : Text) :
    (slot.withFirst first).expand? = slot.expand? := by
  funext value
  cases value with
  | undefined => rfl
  | text text => rfl
  | list items =>
    simp only [expand?, expandList, joinItems_withFirst]
    rfl
  | table entries => rfl

end Slot

theorem Expression.fragments_queryContinuation :
    fragments .queryContinuation V terms = fragments .query V terms := by
  refine List.filterMap_congr fun term _ => ?_
  have hslot : Slot.ofTerm .queryContinuation term =
      (Slot.ofTerm .query term).withFirst ['&'] := rfl
  unfold Term.expand?
  rw [hslot, Slot.expand?_withFirst]

theorem Expression.expand_query_continued (h : ∃ term ∈ xs, ¬ V.Lacks term.name) :
    expand V ⟨.query, xs ++ ys⟩ = expand V ⟨.query, xs⟩ ++ expand V ⟨.queryContinuation, ys⟩ := by
  rcases lacks_or_defined V ys with hys | hys
  · rw [expand_append_of_lacks_right hys, expand_of_lacks hys, List.append_nil]
  · rw [expand_append_of_defined h hys, expand_of_defined hys, fragments_queryContinuation]
    rfl

/-- Of two lists of terms in one expression the one without values can be left out. If both have
values, the expansion of the first is followed by the separator and by that of the second without
its `first`. So under four of the operators it is the one expansion behind the other, and a query
that has a value can be continued in an expression of its own. -/
theorem expand_terms_apart (op : Operator) (xs ys : List Term) (V : Bindings) :
    ((∀ term ∈ xs, V.Lacks term.name) →
      Expression.expand V ⟨op, xs ++ ys⟩ = Expression.expand V ⟨op, ys⟩) ∧
    ((∀ term ∈ ys, V.Lacks term.name) →
      Expression.expand V ⟨op, xs ++ ys⟩ = Expression.expand V ⟨op, xs⟩) ∧
    ((∃ term ∈ xs, ¬ V.Lacks term.name) → (∃ term ∈ ys, ¬ V.Lacks term.name) →
      op.style.first <+: Expression.expand V ⟨op, ys⟩ ∧
      Expression.expand V ⟨op, xs ++ ys⟩ = Expression.expand V ⟨op, xs⟩ ++
        op.style.separator :: (Expression.expand V ⟨op, ys⟩).drop op.style.first.length) ∧
    (op ∈ [Operator.label, .pathSegment, .pathParameter, .queryContinuation] →
      Expression.expand V ⟨op, xs ++ ys⟩ =
        Expression.expand V ⟨op, xs⟩ ++ Expression.expand V ⟨op, ys⟩) ∧
    ((∃ term ∈ xs, ¬ V.Lacks term.name) →
      Template.expand V ⟨[.expression ⟨.query, xs ++ ys⟩]⟩ =
        Template.expand V ⟨[.expression ⟨.query, xs⟩, .expression ⟨.queryContinuation, ys⟩]⟩) := by
  refine ⟨Expression.expand_append_of_lacks_left, Expression.expand_append_of_lacks_right, ?_, ?_,
    ?_⟩
  · intro hxs hys
    rw [Expression.expand_append_of_defined hxs hys, Expression.expand_of_defined hys,
      List.drop_left]
    exact ⟨List.prefix_append _ _, rfl⟩
  · intro hop
    apply Expression.expand_append_of_first_eq
    simp only [List.mem_cons, List.not_mem_nil, or_false] at hop
    rcases hop with rfl | rfl | rfl | rfl <;> rfl
  · intro hxs
    simpa [Template.expand, Part.expand] using Expression.expand_query_continued hxs

/-- A term with an empty text leaves a name behind, terms without a value leave nothing. -/
theorem expand_terms_apart_at_empty_text :
    let xs : List Term := [⟨['u'], false, 0⟩, ⟨['e'], false, 3⟩]
    let ys : List Term := [⟨['n'], true, 0⟩, ⟨['l'], true, 0⟩, ⟨['t'], true, 0⟩]
    let without : List Term := [⟨['u'], true, 0⟩, ⟨['n'], false, 1⟩]
    let V : Bindings := Table.ofList [(['u'], .undefined), (['e'], .text []), (['n'], .list []),
      (['l'], .list [[], ['&']]), (['t'], .table (Table.ofList [(['k'], ['?'])]))]
    Expression.expand V ⟨.query, xs ++ ys⟩ = "?e=&l=&l=%26&k=%3F".toList ∧
      Expression.expand V ⟨.query, without ++ ys⟩ = Expression.expand V ⟨.query, ys⟩ ∧
      Expression.expand V ⟨.query, xs ++ without⟩ = Expression.expand V ⟨.query, xs⟩ ∧
      Expression.expand V ⟨.query, xs ++ ys⟩ = Expression.expand V ⟨.query, xs⟩ ++
        '&' :: (Expression.expand V ⟨.query, ys⟩).drop 1 ∧
      Expression.expand V ⟨.pathParameter, xs ++ ys⟩ =
        Expression.expand V ⟨.pathParameter, xs⟩ ++ Expression.expand V ⟨.pathParameter, ys⟩ ∧
      Template.expand V ⟨[.expression ⟨.query, xs ++ ys⟩]⟩ =
        Template.expand V ⟨[.expression ⟨.query, xs⟩, .expression ⟨.queryContinuation, ys⟩]⟩ := by
  intro xs ys without V
  have hxs : ∃ term ∈ xs, ¬ V.Lacks term.name := by decide +kernel
  have hys : ∃ term ∈ ys, ¬ V.Lacks term.name := by decide +kernel
  have hwithout : ∀ term ∈ without, V.Lacks term.name := by decide +kernel
  obtain ⟨-, -, hboth, -, hcontinued⟩ := expand_terms_apart .query xs ys V
  obtain ⟨-, -, -, hbehind, -⟩ := expand_terms_apart .pathParameter xs ys V
  refine ⟨by decide +kernel, (expand_terms_apart .query without ys V).1 hwithout,
    (expand_terms_apart .query xs without V).2.1 hwithout, (hboth hxs hys).2, hbehind (by decide),
    hcontinued hxs⟩

end LinkTemplate
