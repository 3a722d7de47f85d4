import LinkTemplate.Proofs.Course
/-!
# Reading a template from left to right

`Template.parse` cuts its whole text into runs before it looks at any of them. Here it is taken
apart along the text: a literal, one expression, or an obstacle, and the reading of what follows.
What is read behind a part of the text is read as if it stood alone, and an error in it is rebased;
so the character of an error is always the one at its position.
-/

namespace LinkTemplate

/-! ## Runs -/

namespace Template

theorem Brace.ofChar?_eq_none {c : Char} (h : c ≠ '{' ∧ c ≠ '}') : Brace.ofChar? c = none := by
  unfold Brace.ofChar?
  split
  · exact absurd rfl h.1
  · exact absurd rfl h.2
  · rfl

theorem runs_brace {c : Char} {brace : Brace} (h : Brace.ofChar? c = some brace) (rest : Text) :
    runs (c :: rest) = (⟨[], brace⟩ :: (runs rest).1, (runs rest).2) := by
  rw [runs, h]

theorem runs_braceFree {text : Text} (h : Text.BraceFree text) : runs text = ([], text) := by
  induction text with
  | nil => rfl
  | cons c text ih =>
    rw [Text.braceFree_cons] at h
    rw [runs, Brace.ofChar?_eq_none h.1, ih h.2]

/-- Text without braces becomes part of the first run that follows it. -/
theorem runs_braceFree_append {text rest : Text} {run : Run} {more : List Run} {last : Text}
    (h : Text.BraceFree text) (hrest : runs rest = (run :: more, last)) :
    runs (text ++ rest) = (⟨text ++ run.text, run.brace⟩ :: more, last) := by
  induction text with
  | nil => exact hrest
  | cons c text ih =>
    rw [Text.braceFree_cons] at h
    rw [List.cons_append, runs, Brace.ofChar?_eq_none h.1, ih h.2]
    rfl

theorem runs_braceFree_brace {text : Text} (h : Text.BraceFree text) {c : Char} {brace : Brace}
    (hc : Brace.ofChar? c = some brace) (rest : Text) :
    runs (text ++ c :: rest) = (⟨text, brace⟩ :: (runs rest).1, (runs rest).2) := by
  rw [runs_braceFree_append h (runs_brace hc rest), List.append_nil]

/-! ## Reading on -/

/-- Reads `rest`, which stands behind `front` in a template. -/
def behind (front rest : Text) : Except SyntaxError (List Part) :=
  readRuns (front ++ rest) front.length (runs rest).1 (runs rest).2

theorem parse_eq_behind (text : Text) : parse text = (behind [] text).map (⟨·⟩) := rfl

theorem behind_braceFree {text : Text} (h : Text.BraceFree text) (front : Text) :
    behind front text = .ok (literals text) := by
  unfold behind
  rw [runs_braceFree h]
  rfl

/-- The text of the first run only adds a literal in front. -/
theorem readRuns_text (template : Text) (offset : Nat) (text : Text) (brace : Brace)
    (more : List Run) (last : Text) :
    readRuns template offset (⟨text, brace⟩ :: more) last =
      (readRuns template (offset + text.length) (⟨[], brace⟩ :: more) last).map
        (literals text ++ ·) := by
  cases brace with
  | closing => rfl
  | opening =>
    rcases more with _ | ⟨⟨body, _ | _⟩, more⟩
    · rfl
    · rfl
    · by_cases hbody : body = []
      · simp [readRuns, hbody, Except.map]
      · simp only [readRuns, if_neg hbody, List.length_nil, Nat.add_zero]
        cases Expression.parse body with
        | error error => rfl
        | ok expression =>
          cases readRuns template (offset + text.length + 1 + body.length + 1) more last with
          | error error => rfl
          | ok parts => rfl

theorem behind_literal {text rest : Text} (h : Text.BraceFree text) (hrest : Text.AtBrace rest)
    (front : Text) :
    behind front (text ++ rest) = (behind (front ++ text) rest).map (literals text ++ ·) := by
  rcases hrest with rfl | ⟨rest, rfl | rfl⟩
  · simp [behind_braceFree h, behind_braceFree Text.braceFree_nil, Except.map, literals]
  all_goals
    unfold behind
    rw [runs_braceFree_brace h rfl, runs_brace rfl, readRuns_text, List.length_append,
      List.append_assoc]

theorem behind_braces {body : Text} (h : Text.BraceFree body) (hne : body ≠ [])
    (front rest : Text) :
    behind front ('{' :: (body ++ '}' :: rest)) =
      match Expression.parse body with
      | .error error =>
        .error (error.rebase (front.length + 1) (front ++ '{' :: (body ++ '}' :: rest)))
      | .ok expression =>
        (behind (front ++ '{' :: (body ++ ['}'])) rest).map (.expression expression :: ·) := by
  unfold behind
  rw [runs_brace rfl, runs_braceFree_brace h rfl]
  have hfront : (front ++ '{' :: (body ++ ['}'])) ++ rest =
      front ++ '{' :: (body ++ '}' :: rest) := by simp
  have hlength : (front ++ '{' :: (body ++ ['}'])).length = front.length + 1 + body.length + 1 := by
    simp
    omega
  rw [hfront, hlength]
  simp only [readRuns, if_neg hne, List.length_nil, Nat.add_zero]
  cases Expression.parse body with
  | error error => rfl
  | ok expression =>
    simp only
    split <;> simp [*, Except.map, literals]

/-- An obstacle is reported where it stands, with the character that stands there. -/
theorem behind_obstacle {obstacle : Obstacle} (h : obstacle.Valid) (front : Text) :
    behind front obstacle.text =
      .error (.locate (front ++ obstacle.text) obstacle.problem
        (front.length + obstacle.position)) := by
  cases obstacle with
  | strayClosing rest =>
    rw [Obstacle.text, Obstacle.position, SyntaxError.locate_behind]
    unfold behind
    rw [runs_brace rfl]
    rfl
  | unterminated body =>
    -- The end of the text is where it is missed, and the last character is shown.
    have hlength : front.length + (body.length + 1) = (front ++ '{' :: body).length := by simp
    rw [Obstacle.text, Obstacle.position, hlength, SyntaxError.locate_length]
    unfold behind
    rw [runs_brace rfl, runs_braceFree h]
    rfl
  | nested body rest =>
    have hfront : front ++ '{' :: (body ++ '{' :: rest) =
        (front ++ '{' :: body) ++ '{' :: rest := by
      simp
    have hlength : front.length + (body.length + 2) = (front ++ '{' :: body).length + 1 := by
      simp
      omega
    rw [Obstacle.text, Obstacle.position, hfront, hlength, SyntaxError.locate_behind, ← hfront]
    unfold behind
    rw [runs_brace rfl, runs_braceFree_brace h rfl]
    simp [readRuns, Obstacle.problem]
    omega
  | emptyBraces rest =>
    have hfront : front ++ '{' :: '}' :: rest = (front ++ ['{']) ++ '}' :: rest := by simp
    have hlength : front.length + 2 = (front ++ ['{']).length + 1 := by simp
    rw [Obstacle.text, Obstacle.position, hfront, hlength, SyntaxError.locate_behind, ← hfront]
    unfold behind
    rw [runs_brace rfl, runs_brace rfl]
    simp [readRuns, Obstacle.problem]
  | unreadable body rest error =>
    obtain ⟨hfree, hne, herror⟩ := h
    rw [Obstacle.text, behind_braces hfree hne, herror]
    simp [SyntaxError.rebase, Obstacle.problem, Obstacle.position, Nat.add_assoc]

/-- What stands behind `front` is read as if it stood alone, and its error is rebased. -/
theorem behind_eq (front rest : Text) :
    behind front rest = (behind [] rest).mapError (·.rebase front.length (front ++ rest)) := by
  induction course rest generalizing front with
  | done => rfl
  | obstacle hvalid =>
    rw [behind_obstacle hvalid, behind_obstacle hvalid]
    simp [Except.mapError]
  | @literal text rest hne hfree hrest _ ih =>
    rw [behind_literal hfree hrest, behind_literal hfree hrest, ih, ih ([] ++ text)]
    cases behind [] rest <;> simp [Except.map, Except.mapError]
  | @braces body rest expression hfree hne hread _ ih =>
    rw [behind_braces hfree hne, behind_braces hfree hne, hread]
    simp only
    rw [ih, ih ([] ++ _)]
    cases behind [] rest <;> simp [Except.map, Except.mapError]

/-! ## What reading does at each point -/

/-- The outcome of reading the rest of a template, as it is with `n` characters in front that gave
`parts`. -/
def outcomeAfter (n : Nat) (template : Text) (parts : List Part) :
    Except SyntaxError Template → Except SyntaxError Template
  | .error error => .error (error.rebase n template)
  | .ok rest => .ok ⟨parts ++ rest.parts⟩

section

variable {n : Nat} {text : Text} {parts : List Part}

@[simp] theorem outcomeAfter_error (n : Nat) (text : Text) (parts : List Part)
    (error : SyntaxError) :
    outcomeAfter n text parts (.error error) = .error (error.rebase n text) := rfl

@[simp] theorem outcomeAfter_ok (n : Nat) (text : Text) (parts : List Part) (rest : Template) :
    outcomeAfter n text parts (.ok rest) = .ok ⟨parts ++ rest.parts⟩ := rfl

@[simp] theorem outcomeAfter_outcomeAfter (m n : Nat) (text part : Text)
    (before after : List Part) (outcome : Except SyntaxError Template) :
    outcomeAfter m text before (outcomeAfter n part after outcome) =
      outcomeAfter (m + n) text (before ++ after) outcome := by
  cases outcome <;> simp

theorem outcomeAfter_eq_ok {outcome : Except SyntaxError Template} {template : Template}
    (h : outcomeAfter n text parts outcome = .ok template) :
    ∃ rest, outcome = .ok rest ∧ template = ⟨parts ++ rest.parts⟩ := by
  cases outcome with
  | error error => simp at h
  | ok rest => exact ⟨rest, rfl, by simpa using h.symm⟩

theorem outcomeAfter_eq_error {outcome : Except SyntaxError Template} {error : SyntaxError}
    (h : outcomeAfter n text parts outcome = .error error) :
    ∃ later, outcome = .error later ∧ error = later.rebase n text := by
  cases outcome with
  | error later => exact ⟨later, rfl, by simpa using h.symm⟩
  | ok rest => simp at h

end

theorem parse_braceFree {text : Text} (h : Text.BraceFree text) :
    parse text = .ok ⟨literals text⟩ := by
  rw [parse_eq_behind, behind_braceFree h]
  rfl

@[simp] theorem parse_nil : parse [] = .ok ⟨[]⟩ := rfl

theorem parse_obstacle {obstacle : Obstacle} (h : obstacle.Valid) :
    parse obstacle.text =
      .error (.locate obstacle.text obstacle.problem obstacle.position) := by
  rw [parse_eq_behind, behind_obstacle h, List.length_nil, Nat.zero_add]
  rfl

theorem parse_literal {text rest : Text} (h : Text.BraceFree text) (hrest : Text.AtBrace rest) :
    parse (text ++ rest) =
      outcomeAfter text.length (text ++ rest) (literals text) (parse rest) := by
  rw [parse_eq_behind, parse_eq_behind, behind_literal h hrest, List.nil_append, behind_eq]
  cases behind [] rest <;> rfl

theorem parse_braces {body : Text} (h : Text.BraceFree body) (hne : body ≠ []) (rest : Text) :
    parse ('{' :: (body ++ '}' :: rest)) =
      match Expression.parse body with
      | .error error => .error (error.rebase 1 ('{' :: (body ++ '}' :: rest)))
      | .ok expression =>
        outcomeAfter (body.length + 2) ('{' :: (body ++ '}' :: rest)) [.expression expression]
          (parse rest) := by
  rw [parse_eq_behind, behind_braces h hne]
  cases Expression.parse body with
  | error error => rfl
  | ok expression =>
    simp only
    rw [behind_eq, parse_eq_behind]
    cases behind [] rest <;> simp [Except.map, Except.mapError]

/-- The character of an error is the one at its position in the text that was read. -/
theorem eq_locate_of_parse {text : Text} {error : SyntaxError} (h : parse text = .error error) :
    error = .locate text error.problem error.position := by
  have hsame := behind_eq [] text
  rw [parse_eq_behind, map_eq_error] at h
  rw [h] at hsame
  simpa [Except.mapError, SyntaxError.rebase] using hsame

@[simp] theorem outcomeAfter_zero_parse (text : Text) :
    outcomeAfter 0 text [] (parse text) = parse text := by
  cases h : parse text with
  | error error =>
    have hsame := eq_locate_of_parse h
    simpa [SyntaxError.rebase] using hsame.symm
  | ok template => rfl

end Template

end LinkTemplate
