import Mathlib.Logic.ExistsUnique
import LinkTemplate.Proofs.Cuts
/-!
# The first problem of a template

A text that is no template splits in one way only: a text that can be read, and an obstacle right
behind it. The error is the one of the obstacle, at its place in the whole text.
-/

namespace LinkTemplate

/-- Reading `text` gets through `good` and then stops with `error` at the obstacle. -/
structure StopsAt (text : Text) (error : SyntaxError) (good : Text) (obstacle : Obstacle) :
    Prop where
  text_eq : text = good ++ obstacle.text
  good_reads : ∃ template, Template.parse good = .ok template
  valid : obstacle.Valid
  problem_eq : error.problem = obstacle.problem
  position_eq : error.position = good.length + obstacle.position

/-! ## There is an obstacle -/

theorem exists_obstacle_of_parse {text : Text} {error : SyntaxError}
    (h : Template.parse text = .error error) :
    ∃ (good : Text) (obstacle : Obstacle), text = good ++ obstacle.text ∧
      (∃ template, Template.parse good = .ok template) ∧ obstacle.Valid ∧
      error = .locate text obstacle.problem (good.length + obstacle.position) := by
  induction course text generalizing error with
  | done => simp at h
  | @obstacle obstacle hvalid =>
    rw [Template.parse_obstacle hvalid, Except.error.injEq] at h
    exact ⟨[], obstacle, rfl, ⟨_, Template.parse_nil⟩, hvalid, by simp [← h]⟩
  | @literal before rest hne hfree hrest _ ih =>
    rw [Template.parse_literal hfree hrest] at h
    obtain ⟨later, hlater, rfl⟩ := Template.outcomeAfter_eq_error h
    obtain ⟨good, obstacle, rfl, ⟨template, hgood⟩, hvalid, rfl⟩ := ih hlater
    refine ⟨before ++ good, obstacle, by simp, ?_, hvalid, ?_⟩
    · rw [Template.parse_literal hfree hrest.of_append, hgood]
      exact ⟨_, rfl⟩
    · simp [Nat.add_assoc]
  | @braces body rest expression hfree hne hread _ ih =>
    rw [Template.parse_braces hfree hne, hread] at h
    obtain ⟨later, hlater, rfl⟩ := Template.outcomeAfter_eq_error h
    obtain ⟨good, obstacle, rfl, ⟨template, hgood⟩, hvalid, rfl⟩ := ih hlater
    refine ⟨'{' :: (body ++ '}' :: good), obstacle, by simp, ?_, hvalid, ?_⟩
    · rw [Template.parse_braces hfree hne, hread, hgood]
      exact ⟨_, rfl⟩
    · rw [SyntaxError.rebase_locate]
      congr 1
      simp
      omega

theorem position_pos_of_parse {text : Text} {error : SyntaxError}
    (h : Template.parse text = .error error) : 0 < error.position := by
  obtain ⟨good, obstacle, -, -, -, rfl⟩ := exists_obstacle_of_parse h
  exact Nat.add_pos_right good.length obstacle.position_pos

/-! ## There is only one -/

theorem Obstacle.eq_nil_of_parse {obstacle : Obstacle} (h : obstacle.Valid) {text rest : Text}
    (htext : obstacle.text = text ++ rest) {template : Template}
    (hread : Template.parse text = .ok template) : text = [] := by
  have hbrace : Text.AtBrace text := (htext ▸ obstacle.atBrace_text).of_append
  cases course text with
  | done => rfl
  | obstacle hvalid =>
    rw [Template.parse_obstacle hvalid] at hread
    simp at hread
  | literal hne hfree => exact absurd hbrace (hfree.not_atBrace hne _)
  | @braces body after expression hfree hne hbody =>
    -- A whole expression stands in front, which no obstacle has.
    rw [List.cons_append, List.append_assoc, List.cons_append] at htext
    cases obstacle with
    | strayClosing => simp [Obstacle.text] at htext
    | unterminated =>
      rw [Obstacle.text, List.cons.injEq] at htext
      simp [Obstacle.Valid, htext.2] at h
    | nested =>
      rw [Obstacle.text, List.cons.injEq] at htext
      have := Text.first_brace_unique h hfree (by simp) (by simp) htext.2
      simp at this
    | emptyBraces =>
      rw [Obstacle.text, List.cons.injEq] at htext
      have := Text.first_brace_unique Text.braceFree_nil hfree (by simp) (by simp) htext.2
      exact absurd this.1.symm hne
    | unreadable =>
      obtain ⟨hfree', -, herror⟩ := h
      rw [Obstacle.text, List.cons.injEq] at htext
      obtain ⟨rfl, -⟩ := Text.first_brace_unique hfree' hfree (by simp) (by simp) htext.2
      rw [hbody] at herror
      simp at herror

/-- Of two splits at an obstacle none goes further than the other. -/
theorem eq_nil_of_obstacle_after {good more : Text} {o o' : Obstacle}
    {template template' : Template} (h : o.Valid) (htext : o.text = more ++ o'.text)
    (hgood : Template.parse good = .ok template)
    (hmore : Template.parse (good ++ more) = .ok template') : more = [] := by
  have hbrace : Text.AtBrace more := (htext ▸ o.atBrace_text).of_append
  rw [parse_append_of_atBrace hgood hbrace] at hmore
  obtain ⟨_, hread, -⟩ := Template.outcomeAfter_eq_ok hmore
  exact Obstacle.eq_nil_of_parse h htext hread

theorem StopsAt.unique {text good good' : Text} {error error' : SyntaxError}
    {o o' : Obstacle} (h : StopsAt text error good o) (h' : StopsAt text error' good' o') :
    good = good' ∧ o = o' := by
  obtain ⟨template, hread⟩ := h.good_reads
  obtain ⟨template', hread'⟩ := h'.good_reads
  have htext := h.text_eq.symm.trans h'.text_eq
  rcases List.append_eq_append_iff.mp htext with ⟨more, rfl, hmore⟩ | ⟨more, rfl, hmore⟩
  · obtain rfl := eq_nil_of_obstacle_after h.valid hmore hread hread'
    exact ⟨by simp, Obstacle.text_injective h.valid h'.valid hmore⟩
  · obtain rfl := eq_nil_of_obstacle_after h'.valid hmore hread' hread
    exact ⟨by simp, (Obstacle.text_injective h'.valid h.valid hmore).symm⟩

/-- A text is refused for its first problem: exactly one text that can be read stands in front of
exactly one obstacle, and the error has the problem of the obstacle and the place where it is. -/
theorem parse_stops_at_first_problem (text : Text) (error : SyntaxError)
    (h : Template.parse text = .error error) :
    error.template = text ∧
      ∃! split : Text × Obstacle, StopsAt text error split.1 split.2 := by
  obtain ⟨good, obstacle, htext, hgood, hvalid, rfl⟩ := exists_obstacle_of_parse h
  have hstops : StopsAt text (.locate text obstacle.problem (good.length + obstacle.position))
      good obstacle := ⟨htext, hgood, hvalid, rfl, rfl⟩
  refine ⟨rfl, (good, obstacle), hstops, ?_⟩
  rintro ⟨good', obstacle'⟩ h'
  obtain ⟨rfl, rfl⟩ := hstops.unique h'
  rfl

/-- The length in the second expression is the first problem, and the empty braces behind it are
never reached. -/
theorem parse_stops_inside_second_expression :
    Template.parse "é{a}/{?b,c:x}{}".toList =
        .error ⟨.malformedModifier, some 'x', 12, "é{a}/{?b,c:x}{}".toList⟩ ∧
      ∃! split : Text × Obstacle,
        StopsAt "é{a}/{?b,c:x}{}".toList
          ⟨.malformedModifier, some 'x', 12, "é{a}/{?b,c:x}{}".toList⟩ split.1 split.2 :=
  have h : Template.parse "é{a}/{?b,c:x}{}".toList =
      .error ⟨.malformedModifier, some 'x', 12, "é{a}/{?b,c:x}{}".toList⟩ := by decide +kernel
  ⟨h, (parse_stops_at_first_problem _ _ h).2⟩

end LinkTemplate
