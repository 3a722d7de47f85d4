import Mathlib.Algebra.GroupWithZero.Nat
import LinkTemplate.Proofs.Places
/-!
# Bodies spec by spec

A body is an operator symbol, or none, and specs with commas between them. Each spec is read as it
would be read on its own, and the first one that is no term makes the error of the body, with its
place counted from the start of the body.
-/

namespace LinkTemplate

namespace Expression

/-- The operator whose symbol stands first in a body, with the number of characters it takes. -/
def opening (body : Text) : Operator × Nat :=
  match body.head?.bind Operator.ofChar? with
  | some op => (op, 1)
  | none => (.simple, 0)

/-- What stands between the commas behind the symbol. -/
def specs (body : Text) : List Text := (body.drop (opening body).2).splitOn ','

/-! ## The symbol -/

theorem takeOperator_eq (body : Text) :
    takeOperator body = ((opening body).1, body.drop (opening body).2) := by
  cases body with
  | nil => rfl
  | cons c body =>
    unfold takeOperator opening
    rw [List.head?_cons, Option.bind_some]
    cases hop : Operator.ofChar? c with
    | none => simp only [hop, List.drop_zero]
    | some op => simp only [hop, List.drop_one, List.tail_cons]

theorem length_symbol_opening (body : Text) :
    (opening body).1.symbol.length = (opening body).2 := by
  unfold opening
  split
  · rename_i op hop
    obtain ⟨c, -, hc⟩ := Option.bind_eq_some_iff.mp hop
    rw [Operator.symbol_of_ofChar? hc]
    rfl
  · rfl

theorem parse_eq (body : Text) :
    parse body = (readTerms body (opening body).2 (specs body)).map (⟨(opening body).1, ·⟩) := by
  unfold parse
  rw [takeOperator_eq]
  simp only [length_symbol_opening]
  rfl

/-! ## All specs are terms -/

theorem parse_eq_ok_iff_specs {body : Text} {e : Expression} :
    parse body = .ok e ↔ e.operator = (opening body).1 ∧
      List.Forall₂ (fun spec term => Term.parse spec = .ok term) (specs body) e.terms := by
  rw [parse_eq_ok_iff, takeOperator_eq]
  constructor
  · rintro ⟨list, hop, hterms⟩
    obtain ⟨hsame, rfl⟩ := Prod.mk.inj hop
    exact ⟨hsame.symm, hterms⟩
  · rintro ⟨hop, hterms⟩
    exact ⟨_, by rw [hop], hterms⟩

theorem exists_parse_eq_ok_iff {body : Text} :
    (∃ e, parse body = .ok e) ↔ ∀ spec ∈ specs body, ∃ term, Term.parse spec = .ok term := by
  simp only [parse_eq_ok_iff_specs]
  constructor
  · rintro ⟨e, -, hterms⟩ spec hspec
    obtain ⟨term, -, hterm⟩ := exists_mem_of_forall₂ hterms.flip hspec
    exact ⟨term, hterm⟩
  · intro h
    obtain ⟨terms, hterms⟩ := exists_forall₂ h
    exact ⟨⟨(opening body).1, terms⟩, rfl, hterms.flip⟩

/-! ## The first spec that is no term -/

theorem readTerms_first_error {body spec : Text} {offset : Nat} {before after : List Text}
    {error : SyntaxError} (hbefore : ∀ s ∈ before, ∃ term, Term.parse s = .ok term)
    (h : Term.parse spec = .error error) :
    readTerms body offset (before ++ spec :: after) =
      .error (error.rebase (offset + (before.map fun s => s.length + 1).sum) body) := by
  induction before generalizing offset with
  | nil =>
    rw [List.nil_append, readTerms_cons, h]
    rfl
  | cons first before ih =>
    obtain ⟨term, hterm⟩ := hbefore first List.mem_cons_self
    have hmore := @ih (offset + first.length + 1) fun s hs => hbefore s (List.mem_cons_of_mem _ hs)
    have hsum : offset + first.length + 1 + (before.map fun s => s.length + 1).sum =
        offset + (first.length + 1 + (before.map fun s => s.length + 1).sum) := by
      omega
    rw [List.cons_append, readTerms_cons, hterm, List.map_cons, List.sum_cons, ← hsum]
    simp only [hmore]
    rfl

/-- What stands before a spec is the symbol and, with a comma behind each, the specs before it. -/
theorem exists_front {body spec : Text} {before after : List Text}
    (h : specs body = before ++ spec :: after) :
    ∃ front back, body = front ++ (spec ++ back) ∧
      front.length = (opening body).2 + (before.map fun s => s.length + 1).sum := by
  obtain ⟨hbody, -⟩ := takeOperator_eq_iff.mp (takeOperator_eq body)
  have hlist : body.drop (opening body).2 = [','].intercalate (before ++ spec :: after) := by
    rw [← h, specs, List.intercalate_splitOn]
  refine ⟨(opening body).1.symbol ++ before.flatMap (· ++ [',']), after.flatMap (',' :: ·), ?_, ?_⟩
  · rw [List.append_assoc, ← Text.intercalate_append_cons, ← hlist]
    exact hbody
  · rw [List.length_append, length_symbol_opening, List.length_flatMap]
    simp only [List.length_append, List.length_singleton]

theorem parse_first_error {body spec : Text} {before after : List Text} {error : SyntaxError}
    (hspecs : specs body = before ++ spec :: after)
    (hbefore : ∀ s ∈ before, ∃ term, Term.parse s = .ok term)
    (h : Term.parse spec = .error error) :
    let position := (opening body).2 + (before.map fun s => s.length + 1).sum + error.position
    parse body = .error ⟨error.problem, body[position - 1]?, position, body⟩ := by
  rw [parse_eq, hspecs, readTerms_first_error hbefore h]
  rfl

theorem character_of_spec {body spec : Text} {before after : List Text} {error : SyntaxError}
    (hspecs : specs body = before ++ spec :: after) (h : Term.parse spec = .error error)
    (hne : spec ≠ []) :
    body[(opening body).2 + (before.map fun s => s.length + 1).sum + error.position - 1]? =
      error.character := by
  obtain ⟨front, back, hbody, hfront⟩ := exists_front hspecs
  rcases Term.fits_of_parse h with ⟨problem, before', c, after', -, rfl, rfl⟩ | ⟨hnil, -⟩
  · have hplace : front.length + (before'.length + 1) - 1 = (front ++ before').length := by
      simp
    have hsplit : body = (front ++ before') ++ c :: (after' ++ back) := by simp [hbody]
    rw [← hfront, hplace, hsplit]
    simp
  · exact absurd hnil hne

end Expression

/-- A body is an expression if and only if every spec behind its operator symbol is a term on its
own, and then it has that operator and these terms in their order. Otherwise the first spec that is
no term gives the problem, at its place in the body, with the character that stands there. That is
the character found in the spec, unless there is nothing in the spec to find. -/
theorem parse_body_spec_by_spec (body : Text) :
    let op := (Expression.opening body).1
    let k := (Expression.opening body).2
    let specs := (body.drop k).splitOn ','
    ((∃ e, Expression.parse body = .ok e) ↔ ∀ spec ∈ specs, ∃ term, Term.parse spec = .ok term) ∧
    (∀ e, Expression.parse body = .ok e ↔ e.operator = op ∧
      List.Forall₂ (fun spec term => Term.parse spec = .ok term) specs e.terms) ∧
    ∀ before spec after error, specs = before ++ spec :: after →
      (∀ s ∈ before, ∃ term, Term.parse s = .ok term) → Term.parse spec = .error error →
      let position := k + (before.map fun s => s.length + 1).sum + error.position
      Expression.parse body = .error ⟨error.problem, body[position - 1]?, position, body⟩ ∧
        (spec ≠ [] → body[position - 1]? = error.character) := by
  refine ⟨Expression.exists_parse_eq_ok_iff, fun _ => Expression.parse_eq_ok_iff_specs, ?_⟩
  intro before spec after error hspecs hbefore h
  exact ⟨Expression.parse_first_error hspecs hbefore h, Expression.character_of_spec hspecs h⟩

/-- Behind letters of two bytes, a spec with one colon too many and one that is missing where the
body ends. The missing one has no character of its own, as there is none at its place either. -/
theorem parse_body_spec_by_spec_behind_wide_letters :
    let list : Expression := ⟨.queryContinuation, [⟨['é'], true, 0⟩, ⟨['b'], false, 2⟩]⟩
    let malformed : SyntaxError := ⟨.malformedModifier, some ':', 4, "c:1:2".toList⟩
    let missing : SyntaxError := ⟨.emptyVariableName, none, 1, []⟩
    Expression.parse "&é*,b:02".toList = .ok list ∧
      Expression.parse "?é,c:1:2,".toList =
        .error ⟨.malformedModifier, some ':', 7, "?é,c:1:2,".toList⟩ ∧
      "?é,c:1:2,".toList[6]? = malformed.character ∧
      Expression.parse "ü,é*,".toList =
        .error ⟨.emptyVariableName, missing.character, 6, "ü,é*,".toList⟩ := by
  intro list malformed missing
  have hterm : ∀ spec ∈ [['é'], ['ü'], ['é', '*']], ∃ term, Term.parse spec = .ok term := by
    simp only [List.forall_mem_cons, List.not_mem_nil, false_imp_iff, implies_true, and_true]
    exact ⟨⟨⟨['é'], false, 0⟩, by decide +kernel⟩, ⟨⟨['ü'], false, 0⟩, by decide +kernel⟩,
      ⟨⟨['é'], true, 0⟩, by decide +kernel⟩⟩
  have hlist := (parse_body_spec_by_spec "&é*,b:02".toList).2.1 list
  have hmalformed := (parse_body_spec_by_spec "?é,c:1:2,".toList).2.2 [['é']] "c:1:2".toList [[]]
    malformed (by decide +kernel) (fun s hs => hterm s (by simp_all)) (by decide +kernel)
  have hmissing := (parse_body_spec_by_spec "ü,é*,".toList).2.2 [['ü'], ['é', '*']] [] []
    missing (by decide +kernel) (fun s hs => hterm s (by simp_all)) (by decide +kernel)
  refine ⟨hlist.mpr ⟨by decide +kernel, ?_⟩, hmalformed.1, hmalformed.2 (by simp), hmissing.1⟩
  have hspecs : ("&é*,b:02".toList.drop 1).splitOn ',' = [['é', '*'], "b:02".toList] := by
    decide +kernel
  exact hspecs ▸ .cons (by decide +kernel) (.cons (by decide +kernel) .nil)

end LinkTemplate
