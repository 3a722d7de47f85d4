import LinkTemplate.Proofs.Places
/-!
# What stands behind an error

An error is decided by the text up to the place where it is found, so what stands behind that
place changes nothing but the text that is shown. An expression that is not closed is the one
exception: the end of the text is what makes it an error.
-/

namespace LinkTemplate

/-- The problems that are found between a pair of braces. -/
def Problem.InBody : Problem → Prop
  | emptyVariableName | malformedModifier | conflictingModifiers => True
  | _ => False

/-! ## Problems between braces -/

theorem Term.inBody_of_readLength {spec length : Text} {colon : Nat} {error : SyntaxError}
    (h : readLength spec colon length = .error error) : error.problem.InBody := by
  unfold readLength at h
  split at h
  · cases h
    trivial
  · split at h
    · cases h
      trivial
    · cases h

theorem Term.inBody_of_readNamed {spec body : Text} {error : SyntaxError}
    (h : readNamed spec body = .error error) : error.problem.InBody := by
  unfold readNamed at h
  split at h
  · split at h
    · cases h
      trivial
    · cases h
  · split at h
    · cases h
      trivial
    · split at h
      · cases h
        trivial
      · exact inBody_of_readLength (map_eq_error.mp h)

theorem Term.inBody_of_parse {spec : Text} {error : SyntaxError} (h : parse spec = .error error) :
    error.problem.InBody := by
  unfold parse at h
  rcases hdrop : Text.dropEnd '*' spec with ⟨body, explode⟩
  rw [hdrop] at h
  simp only at h
  split at h
  · rename_i hnamed
    cases h
    exact inBody_of_readNamed hnamed
  · split at h
    · cases h
      trivial
    · cases h

theorem Expression.inBody_of_readTerms {body : Text} {offset : Nat} {specs : List Text}
    {error : SyntaxError} (h : readTerms body offset specs = .error error) :
    error.problem.InBody := by
  induction specs generalizing offset with
  | nil => cases h
  | cons spec specs ih =>
    rw [readTerms_cons] at h
    split at h
    · rename_i first hread
      cases h
      have hbody : first.problem.InBody := Term.inBody_of_parse hread
      exact hbody
    · exact ih (map_eq_error.mp h)

theorem Expression.inBody_of_parse {body : Text} {error : SyntaxError}
    (h : parse body = .error error) : error.problem.InBody := by
  unfold parse at h
  exact inBody_of_readTerms (map_eq_error.mp h)

/-! ## Obstacles with more text behind them -/

namespace Obstacle

theorem eq_unterminated {obstacle : Obstacle} (h : obstacle.Valid)
    (hproblem : obstacle.problem = .unterminatedExpression) :
    ∃ body, obstacle = .unterminated body := by
  cases obstacle with
  | unterminated body => exact ⟨body, rfl⟩
  | unreadable body rest error =>
    have hbody : error.problem.InBody := Expression.inBody_of_parse h.2.2
    have hnone : error.problem = .unterminatedExpression := hproblem
    rw [hnone] at hbody
    exact hbody.elim
  | _ => cases hproblem

/-- An obstacle that is met before the end of the text stays the same obstacle. -/
theorem exists_extended {obstacle : Obstacle} (h : obstacle.Valid)
    (hproblem : obstacle.problem ≠ .unterminatedExpression) (more : Text) :
    ∃ extended : Obstacle, extended.Valid ∧ extended.text = obstacle.text ++ more ∧
      extended.problem = obstacle.problem ∧ extended.position = obstacle.position := by
  cases obstacle with
  | strayClosing rest => exact ⟨.strayClosing (rest ++ more), h, by simp [text], rfl, rfl⟩
  | unterminated body => exact absurd rfl hproblem
  | nested body rest => exact ⟨.nested body (rest ++ more), h, by simp [text], rfl, rfl⟩
  | emptyBraces rest => exact ⟨.emptyBraces (rest ++ more), h, by simp [text], rfl, rfl⟩
  | unreadable body rest error =>
    exact ⟨.unreadable body (rest ++ more) error, h, by simp [text], rfl, rfl⟩

end Obstacle

/-! ## Errors with more text behind them -/

theorem Template.parse_append_obstacle {good : Text} {template : Template} {obstacle : Obstacle}
    (hgood : parse good = .ok template) (h : obstacle.Valid) :
    parse (good ++ obstacle.text) =
      .error (.locate (good ++ obstacle.text) obstacle.problem
        (good.length + obstacle.position)) := by
  rw [parse_append_of_atBrace hgood obstacle.atBrace_text, parse_obstacle h, outcomeAfter_error,
    SyntaxError.rebase_locate]

theorem Template.parse_error_append {text : Text} {error : SyntaxError}
    (h : parse text = .error error) (hproblem : error.problem ≠ .unterminatedExpression)
    (more : Text) :
    parse (text ++ more) = .error (.locate (text ++ more) error.problem error.position) := by
  obtain ⟨good, obstacle, rfl, ⟨template, hgood⟩, hvalid, rfl⟩ := exists_obstacle_of_parse h
  obtain ⟨extended, hextended, htext, hsame, hplace⟩ :=
    Obstacle.exists_extended hvalid hproblem more
  rw [List.append_assoc, ← htext, parse_append_obstacle hgood hextended, hsame, hplace]
  rfl

/-- One more opening brace makes another error of it. -/
theorem Template.exists_nested_of_unterminated {text : Text} {error : SyntaxError}
    (h : parse text = .error error) (hproblem : error.problem = .unterminatedExpression) :
    ∃ nested, parse (text ++ ['{']) = .error nested ∧ nested.problem = .nestedOpeningBrace := by
  obtain ⟨good, obstacle, rfl, ⟨template, hgood⟩, hvalid, rfl⟩ := exists_obstacle_of_parse h
  obtain ⟨body, rfl⟩ := Obstacle.eq_unterminated hvalid hproblem
  have htext : (Obstacle.unterminated body).text ++ ['{'] = (Obstacle.nested body []).text := by
    simp [Obstacle.text]
  have hnested : (Obstacle.nested body []).Valid := hvalid
  rw [List.append_assoc, htext, parse_append_obstacle hgood hnested]
  exact ⟨_, rfl, rfl⟩

/-- More text behind an error leaves its character where it is. -/
theorem SyntaxError.Fits.locate_append {error : SyntaxError} {text : Text}
    (h : error.Fits text) (more : Text) :
    locate (text ++ more) error.problem error.position =
      { error with template := text ++ more } := by
  obtain ⟨problem, before, c, after, -, rfl, rfl⟩ := h
  rw [List.append_assoc, List.cons_append]
  exact locate_behind before c (after ++ more) problem

/-- Whatever stands behind an error, the problem, its position and the character found there stay
the same. Only an expression that is not closed does not stay one. -/
theorem parse_error_stays_iff (text : Text) (error : SyntaxError)
    (h : Template.parse text = .error error) :
    (∀ more, Template.parse (text ++ more) =
      .error { error with template := text ++ more }) ↔
      error.problem ≠ .unterminatedExpression := by
  constructor
  · intro hstays hproblem
    obtain ⟨nested, hnested, hother⟩ := Template.exists_nested_of_unterminated h hproblem
    rw [hstays ['{'], Except.error.injEq] at hnested
    rw [← hnested] at hother
    cases hother.symm.trans hproblem
  · intro hproblem more
    rw [Template.parse_error_append h hproblem more, (Template.fits_of_parse h).locate_append more]

/-- Behind a missing name no brace matters any more, neither a stray one nor one that is left open.
An expression that is left open may still be closed. -/
theorem parse_error_stays_behind_missing_name :
    let text : Text := "é{?a,}".toList
    let more : Text := "\x7d\x7bb:".toList
    let missing : SyntaxError := ⟨.emptyVariableName, some '}', 6, text⟩
    let started : Text := "é\x7b?a".toList
    let unclosed : SyntaxError := ⟨.unterminatedExpression, some 'a', 4, started⟩
    (Template.parse text = .error missing ∧
      missing.problem ≠ .unterminatedExpression ∧
      Template.parse (text ++ more) = .error { missing with template := text ++ more }) ∧
    Template.parse started = .error unclosed ∧
      ¬ ∀ more, Template.parse (started ++ more) =
        .error { unclosed with template := started ++ more } := by
  intro text more missing started unclosed
  have hmissing : Template.parse text = .error missing := by decide +kernel
  have hunclosed : Template.parse started = .error unclosed := by decide +kernel
  have hproblem : missing.problem ≠ .unterminatedExpression := by decide
  refine ⟨⟨hmissing, hproblem, ?_⟩, hunclosed, ?_⟩
  · exact (parse_error_stays_iff _ _ hmissing).mpr hproblem more
  · exact fun hstays => (parse_error_stays_iff _ _ hunclosed).mp hstays rfl

end LinkTemplate
