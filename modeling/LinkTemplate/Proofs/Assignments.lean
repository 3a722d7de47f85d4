import LinkTemplate.Bindings.Assignment
import LinkTemplate.Proofs.Basics
/-!
# Assignments applied in order

A text is an assignment in exactly one way or is none for exactly one reason. Assignments applied in
order leave each name with the value of the last one to it, and the first text that is none ends
them with what was assigned before it.
-/

namespace LinkTemplate

/-! ## One assignment -/

namespace Assignment

/-- The text is the name, an equals sign and the value. -/
structure SpelledBy (assignment : Assignment) (raw : Text) : Prop where
  text_eq : raw = assignment.name ++ '=' :: assignment.value
  name_ne_nil : assignment.name ≠ []
  no_equals : '=' ∉ assignment.name

/-- The text is no assignment for this reason. -/
def Problem.Of (raw : Text) : Problem → Prop
  | noEqualsSign => '=' ∉ raw
  | emptyName => raw.head? = some '='

theorem read_of_spelledBy {assignment : Assignment} {raw : Text} (h : assignment.SpelledBy raw) :
    read raw = .ok assignment := by
  obtain ⟨rfl, hname, hequals⟩ := h
  obtain ⟨c, name, hcons⟩ := List.exists_cons_of_ne_nil hname
  unfold read
  rw [Text.cut?_append hequals, hcons]
  simp [← hcons]

theorem read_of_problem {raw : Text} {problem : Problem} (h : problem.Of raw) :
    read raw = .error ⟨raw, problem⟩ := by
  unfold read
  cases problem with
  | noEqualsSign => rw [Text.cut?_eq_none_iff.mpr h]
  | emptyName =>
    obtain ⟨rest, rfl⟩ := List.head?_eq_some_iff.mp h
    simp [Text.cut?]

theorem spelledBy_or_problem (raw : Text) :
    (∃ assignment : Assignment, assignment.SpelledBy raw) ∨
      ∃ problem : Problem, problem.Of raw := by
  cases hcut : Text.cut? '=' raw with
  | none => exact Or.inr ⟨.noEqualsSign, Text.cut?_eq_none_iff.mp hcut⟩
  | some found =>
    obtain ⟨name, value⟩ := found
    obtain ⟨hraw, hequals⟩ := Text.eq_append_of_cut? hcut
    by_cases hname : name = []
    · exact Or.inr ⟨.emptyName, by simp [Problem.Of, hraw, hname]⟩
    · exact Or.inl ⟨⟨name, value⟩, hraw, hname, hequals⟩

theorem not_problem_of_spelledBy {assignments : List Assignment} {raws : List Text}
    (h : List.Forall₂ SpelledBy assignments raws) :
    ∀ raw ∈ raws, ∀ problem : Problem, ¬ problem.Of raw := by
  intro raw hraw problem hproblem
  obtain ⟨assignment, -, hspelled⟩ := exists_mem_of_forall₂ h hraw
  have hread := read_of_spelledBy hspelled
  rw [read_of_problem hproblem] at hread
  cases hread

/-- Either all texts are assignments, or one of them is the first that is none. -/
theorem all_spelledBy_or_first_problem (raws : List Text) :
    (∃ assignments, List.Forall₂ SpelledBy assignments raws) ∨
      ∃ good bad rest problem, raws = good ++ bad :: rest ∧
        (∃ assignments, List.Forall₂ SpelledBy assignments good) ∧ Problem.Of bad problem := by
  induction raws with
  | nil => exact Or.inl ⟨[], .nil⟩
  | cons raw raws ih =>
    obtain ⟨assignment, h⟩ | ⟨problem, h⟩ := spelledBy_or_problem raw
    · obtain ⟨assignments, hall⟩ | ⟨good, bad, rest, problem, rfl, ⟨assignments, hall⟩, hbad⟩ := ih
      · exact Or.inl ⟨assignment :: assignments, .cons h hall⟩
      · exact Or.inr ⟨raw :: good, bad, rest, problem, rfl, ⟨_, .cons h hall⟩, hbad⟩
    · exact Or.inr ⟨[], raw, raws, problem, rfl, ⟨[], .nil⟩, h⟩

/-- The value in the last of the assignments to a name. -/
def lastValue? (name : Text) (assignments : List Assignment) : Option Text :=
  (assignments.filter (·.name = name)).getLast?.map Assignment.value

theorem lastValue?_cons (name : Text) (assignment : Assignment) (assignments : List Assignment) :
    lastValue? name (assignment :: assignments) =
      (lastValue? name assignments).or
        (if assignment.name = name then some assignment.value else none) := by
  unfold lastValue?
  by_cases h : assignment.name = name
  · simp only [List.filter_cons, h, decide_true, if_true, List.getLast?_cons]
    cases (assignments.filter (·.name = name)).getLast? <;> rfl
  · simp [h]

end Assignment

/-! ## Bindings with assignments in their place -/

namespace Bindings

/-- Each name has the value of the last assignment to it, or else what was loaded for it. -/
def Overridden (loaded : Bindings) (assignments : List Assignment) (bindings : Bindings) : Prop :=
  ∀ name, bindings.get? name =
    ((Assignment.lastValue? name assignments).map Value.text).or (loaded.get? name)

theorem get?_assign (bindings : Bindings) (assignment : Assignment) (name : Text) :
    (bindings.assign assignment).get? name =
      if assignment.name = name then some (.text assignment.value) else bindings.get? name := by
  simp only [assign, Table.get?_insert, eq_comm (a := name)]

theorem overridden_foldl (loaded : Bindings) (assignments : List Assignment) :
    loaded.Overridden assignments (assignments.foldl assign loaded) := by
  intro name
  induction assignments generalizing loaded with
  | nil => rfl
  | cons assignment assignments ih =>
    rw [List.foldl_cons, ih, get?_assign, Assignment.lastValue?_cons]
    cases Assignment.lastValue? name assignments with
    | some value => rfl
    | none => by_cases h : assignment.name = name <;> simp [h]

theorem assignAll_append (bindings : Bindings) {assignments : List Assignment} {raws : List Text}
    (h : List.Forall₂ Assignment.SpelledBy assignments raws) (more : List Text) :
    bindings.assignAll (raws ++ more) = (assignments.foldl assign bindings).assignAll more := by
  induction h generalizing bindings with
  | nil => rfl
  | cons hraw _ ih =>
    rw [List.cons_append, assignAll, Assignment.read_of_spelledBy hraw]
    exact ih _

theorem assignAll_of_spelledBy (bindings : Bindings) {assignments : List Assignment}
    {raws : List Text} (h : List.Forall₂ Assignment.SpelledBy assignments raws) :
    bindings.assignAll raws = (assignments.foldl assign bindings, none) := by
  have hall := assignAll_append bindings h []
  rwa [List.append_nil] at hall

theorem assignAll_first_problem (bindings : Bindings) {assignments : List Assignment}
    {good : List Text} (h : List.Forall₂ Assignment.SpelledBy assignments good) {bad : Text}
    {problem : Assignment.Problem} (hbad : problem.Of bad) (rest : List Text) :
    bindings.assignAll (good ++ bad :: rest) =
      (assignments.foldl assign bindings, some ⟨bad, problem⟩) := by
  rw [assignAll_append bindings h, assignAll, Assignment.read_of_problem hbad]

end Bindings

/-! ## Where assignments stop -/

namespace Assignment

/-- What stands before the first equals sign of a text and what stands behind it. -/
def aroundEquals (raw : Text) : Assignment where
  name := raw.takeWhile (· ≠ '=')
  value := raw.drop ((raw.takeWhile (· ≠ '=')).length + 1)

theorem SpelledBy.eq_aroundEquals {assignment : Assignment} {raw : Text}
    (h : assignment.SpelledBy raw) : assignment = aroundEquals raw := by
  have hall : ∀ c ∈ assignment.name, decide (c ≠ '=') := by
    intro c hc
    rw [decide_eq_true_iff]
    rintro rfl
    exact h.no_equals hc
  have hname : raw.takeWhile (· ≠ '=') = assignment.name := by
    rw [h.text_eq, List.takeWhile_append_of_pos hall, List.takeWhile_cons_of_neg (by simp),
      List.append_nil]
  unfold aroundEquals
  rw [hname, h.text_eq]
  simp

theorem eq_map_aroundEquals {assignments : List Assignment} {raws : List Text}
    (h : List.Forall₂ SpelledBy assignments raws) : assignments = raws.map aroundEquals :=
  forall₂_eq_map_iff.mp (h.imp fun _ _ hspelled => hspelled.eq_aroundEquals)

theorem exists_problem_iff {raw : Text} :
    (∃ problem : Problem, problem.Of raw) ↔ '=' ∉ raw ∨ raw.head? = some '=' := by
  constructor
  · rintro ⟨_ | _, h⟩
    · exact Or.inl h
    · exact Or.inr h
  · rintro (h | h)
    · exact ⟨.noEqualsSign, h⟩
    · exact ⟨.emptyName, h⟩

theorem Problem.Of.eq {raw : Text} {problem : Problem} (h : problem.Of raw) :
    problem = if '=' ∈ raw then .emptyName else .noEqualsSign := by
  cases problem with
  | noEqualsSign => rw [if_neg h]
  | emptyName => rw [if_pos (List.mem_of_head? h)]

/-- The index of the first text that is no assignment, or the number of texts. -/
def firstProblem (raws : List Text) : Nat :=
  raws.findIdx fun raw => decide ('=' ∉ raw ∨ raw.head? = some '=')

theorem firstProblem_of_spelledBy {assignments : List Assignment} {raws : List Text}
    (h : List.Forall₂ SpelledBy assignments raws) : firstProblem raws = raws.length := by
  rw [firstProblem, List.findIdx_eq_length]
  intro raw hraw
  rw [decide_eq_false_iff_not, ← exists_problem_iff]
  rintro ⟨problem, hproblem⟩
  exact not_problem_of_spelledBy h raw hraw problem hproblem

theorem firstProblem_append {assignments : List Assignment} {good : List Text}
    (h : List.Forall₂ SpelledBy assignments good) {bad : Text} {problem : Problem}
    (hbad : problem.Of bad) (rest : List Text) :
    firstProblem (good ++ bad :: rest) = good.length := by
  have hgood := firstProblem_of_spelledBy h
  have hfirst := exists_problem_iff.mp ⟨problem, hbad⟩
  unfold firstProblem at hgood ⊢
  rw [List.findIdx_append, if_neg (by omega), List.findIdx_cons]
  simp [hfirst]

end Assignment

/-- Of a list of assignments those before the first one that is none are applied, and the last of
them to a name gives it its value; all other names keep what they had. The first one that is none
makes the error, if there is one, and nothing depends on the assignments behind it. -/
theorem assignments_apply_up_to_first_problem (bindings : Bindings) (raws : List Text) :
    let i := Assignment.firstProblem raws
    let outcome := bindings.assignAll raws
    (∀ name, outcome.1.get? name =
      ((Assignment.lastValue? name ((raws.take i).map Assignment.aroundEquals)).map
        Value.text).or (bindings.get? name)) ∧
    (outcome.2 = none ↔ i = raws.length) ∧
    (outcome.2 = raws[i]?.map fun raw =>
      ⟨raw, if '=' ∈ raw then .emptyName else .noEqualsSign⟩) ∧
    bindings.assignAll (raws.take (i + 1)) = outcome := by
  intro i outcome
  obtain ⟨assignments, h⟩ | ⟨good, bad, rest, problem, rfl, ⟨assignments, h⟩, hbad⟩ :=
    Assignment.all_spelledBy_or_first_problem raws
  · have hi : i = raws.length := Assignment.firstProblem_of_spelledBy h
    have houtcome : outcome = (assignments.foldl Bindings.assign bindings, none) :=
      Bindings.assignAll_of_spelledBy bindings h
    rw [houtcome, hi, List.take_length, ← Assignment.eq_map_aroundEquals h]
    refine ⟨bindings.overridden_foldl assignments, by simp, by simp, ?_⟩
    rw [List.take_of_length_le (Nat.le_succ _)]
    exact houtcome
  · have hi : i = good.length := Assignment.firstProblem_append h hbad rest
    have houtcome : outcome = (assignments.foldl Bindings.assign bindings, some ⟨bad, problem⟩) :=
      Bindings.assignAll_first_problem bindings h hbad rest
    have htake : (good ++ bad :: rest).take (good.length + 1) = good ++ [bad] :=
      List.take_length_add_append 1
    rw [houtcome, hi, List.take_left, ← Assignment.eq_map_aroundEquals h, htake]
    refine ⟨bindings.overridden_foldl assignments, by simp, ?_, ?_⟩
    · simp [← hbad.eq]
    · exact Bindings.assignAll_first_problem bindings h hbad []

end LinkTemplate
