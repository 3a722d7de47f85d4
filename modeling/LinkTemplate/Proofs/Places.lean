import LinkTemplate.Proofs.Bodies
import LinkTemplate.Proofs.FirstProblem
/-!
# The character at the place of an error

Each reader passes on the character that it has found: the brace it came to, the star it took off,
the last character of a text that ends too early. An error of a part is rebased, and then its
character is looked up once more. So each layer is shown to pass on a character of the text it has
read, one that the problem is about, together with its place. The one exception is a name that is
missing at the end of a body, where the character is the closing brace behind it.
-/

namespace LinkTemplate

/-- The characters that a problem is found at. -/
def Problem.MarkedBy (c : Char) : Problem → Prop
  | unmatchedClosingBrace | emptyExpression => c = '}'
  | nestedOpeningBrace => c = '{'
  | unterminatedExpression => c ≠ '}'
  | emptyVariableName => c ∈ [':', '*', ',', '}']
  | malformedModifier => c.isDigit = false
  | conflictingModifiers => c = '*'

namespace SyntaxError

variable {error : SyntaxError} {text : Text}

/-- The error shows a character of the text and its place, and the problem is about that
character. -/
def Fits (error : SyntaxError) (text : Text) : Prop :=
  ∃ problem before c after, problem.MarkedBy c ∧ text = before ++ c :: after ∧
    error = ⟨problem, some c, before.length + 1, text⟩

theorem fits_locate {problem : Problem} {c : Char} (h : problem.MarkedBy c)
    (before after : Text) :
    (locate (before ++ c :: after) problem (before.length + 1)).Fits (before ++ c :: after) :=
  ⟨problem, before, c, after, h, rfl, locate_behind before c after problem⟩

theorem Fits.rebase (h : error.Fits text) (front more : Text) :
    (error.rebase front.length (front ++ (text ++ more))).Fits (front ++ (text ++ more)) := by
  obtain ⟨problem, before, c, after, hmark, rfl, rfl⟩ := h
  have htext : front ++ (before ++ c :: after ++ more) =
      (front ++ before) ++ c :: (after ++ more) := by simp
  have hplace : front.length + (before.length + 1) = (front ++ before).length + 1 := by
    rw [List.length_append, Nat.add_assoc]
  rw [SyntaxError.rebase, htext, hplace]
  exact fits_locate hmark (front ++ before) (after ++ more)

theorem Fits.template_eq (h : error.Fits text) : error.template = text := by
  obtain ⟨problem, before, c, after, -, -, rfl⟩ := h
  rfl

theorem Fits.position_pos (h : error.Fits text) : 1 ≤ error.position := by
  obtain ⟨problem, before, c, after, -, -, rfl⟩ := h
  exact Nat.le_add_left 1 before.length

theorem Fits.position_le (h : error.Fits text) : error.position ≤ text.length := by
  obtain ⟨problem, before, c, after, -, rfl, rfl⟩ := h
  simp

theorem Fits.exists_character (h : error.Fits text) :
    ∃ c, error.character = some c ∧ text[error.position - 1]? = some c ∧
      error.problem.MarkedBy c := by
  obtain ⟨problem, before, c, after, hmark, rfl, rfl⟩ := h
  exact ⟨c, rfl, by simp, hmark⟩

end SyntaxError

/-! ## Terms -/

namespace Term

theorem fits_of_readLength {name length more : Text} {error : SyntaxError}
    (h : readLength (name ++ ':' :: (length ++ more)) (name.length + 1) length = .error error) :
    error.Fits (name ++ ':' :: (length ++ more)) := by
  unfold readLength at h
  split at h
  · cases h
    exact SyntaxError.fits_locate (by simp [Problem.MarkedBy]) _ _
  · split at h
    · rename_i i hfind
      cases h
      obtain ⟨hi, hdigit, -⟩ := List.findIdx?_eq_some_iff_getElem.mp hfind
      have hmark : Problem.malformedModifier.MarkedBy length[i] := by
        simpa [Problem.MarkedBy] using hdigit
      have hspec : name ++ ':' :: (length ++ more) =
          (name ++ ':' :: length.take i) ++ length[i] :: (length.drop (i + 1) ++ more) := by
        have hsplit : length = length.take i ++ length[i] :: length.drop (i + 1) := by simp
        conv_lhs => rw [hsplit]
        simp only [List.append_assoc, List.cons_append]
      have hplace : name.length + 1 + i + 1 = (name ++ ':' :: length.take i).length + 1 := by
        have htake : (length.take i).length = i := List.length_take_of_le (by omega)
        simp [htake]
        omega
      rw [hspec, hplace]
      exact SyntaxError.fits_locate hmark _ _
    · cases h

/-- Where the body is empty, its spec is empty or the star that was taken off. -/
theorem fits_of_readNamed {body more : Text} {error : SyntaxError}
    (h : readNamed (body ++ more) body = .error error) :
    error.Fits (body ++ more) ∨ body = [] ∧ error = ⟨.emptyVariableName, more.head?, 1, more⟩ := by
  unfold readNamed at h
  split at h
  · split at h
    · rename_i hempty
      cases h
      exact Or.inr ⟨hempty, by simp [hempty]⟩
    · cases h
  · rename_i name length hcut
    obtain ⟨rfl, -⟩ := Text.eq_append_of_cut? hcut
    rw [List.append_assoc, List.cons_append] at h ⊢
    left
    split at h
    · rename_i first rest hsecond
      cases h
      obtain ⟨rfl, -⟩ := Text.eq_append_of_cut? hsecond
      have hspec : name ++ ':' :: (first ++ ':' :: rest ++ more) =
          (name ++ ':' :: first) ++ ':' :: (rest ++ more) := by simp
      have hplace : name.length + first.length + 2 = (name ++ ':' :: first).length + 1 := by
        simp
        omega
      rw [hspec, hplace]
      exact SyntaxError.fits_locate (by simp [Problem.MarkedBy]) _ _
    · split at h
      · rename_i hname
        cases h
        subst hname
        exact ⟨.emptyVariableName, [], ':', length ++ more, by simp [Problem.MarkedBy], rfl, rfl⟩
      · exact fits_of_readLength (map_eq_error.mp h)

theorem fits_of_parse {spec : Text} {error : SyntaxError} (h : parse spec = .error error) :
    error.Fits spec ∨ spec = [] ∧ error = ⟨.emptyVariableName, none, 1, []⟩ := by
  unfold parse at h
  rcases hdrop : Text.dropEnd '*' spec with ⟨body, explode⟩
  rw [hdrop] at h
  simp only at h
  split at h
  · rename_i hnamed
    cases h
    cases explode with
    | false =>
      obtain ⟨rfl, -⟩ := Text.dropEnd_eq_false_iff.mp hdrop
      simpa using @fits_of_readNamed spec [] error (by simpa using hnamed)
    | true =>
      obtain rfl := Text.dropEnd_eq_true_iff.mp hdrop
      left
      rcases fits_of_readNamed hnamed with hfits | ⟨rfl, rfl⟩
      · exact hfits
      · exact ⟨.emptyVariableName, [], '*', [], by simp [Problem.MarkedBy], rfl, rfl⟩
  · split at h
    · rename_i hboth
      cases h
      -- The conflict is reported at the star that was taken off.
      rw [hboth.1, Text.dropEnd_eq_true_iff] at hdrop
      subst hdrop
      exact Or.inl ⟨.conflictingModifiers, body, '*', [], rfl, rfl, by simp⟩
    · cases h

end Term

/-! ## Expressions -/

namespace Expression

theorem fits_of_readTerms {body before : Text} {specs : List Text} {error : SyntaxError}
    (hbody : body = before ++ [','].intercalate specs)
    (h : readTerms body before.length specs = .error error) :
    error.Fits body ∨ error = ⟨.emptyVariableName, none, body.length + 1, body⟩ := by
  induction specs generalizing before with
  | nil => cases h
  | cons spec specs ih =>
    rw [readTerms_cons] at h
    cases hspec : Term.parse spec with
    | error first =>
      rw [hspec] at h
      cases h
      rw [Text.intercalate_cons] at hbody
      rcases Term.fits_of_parse hspec with hfits | ⟨rfl, rfl⟩
      · left
        rw [hbody]
        exact hfits.rebase before _
      · -- The missing name is followed by the next comma or by nothing.
        cases specs with
        | nil =>
          obtain rfl : body = before := by simpa using hbody
          exact Or.inr (by simp [SyntaxError.rebase, SyntaxError.locate])
        | cons next specs =>
          left
          rw [hbody]
          exact SyntaxError.fits_locate (by simp [Problem.MarkedBy]) before _
    | ok term =>
      rw [hspec] at h
      have hmore := map_eq_error.mp h
      cases specs with
      | nil => cases hmore
      | cons next specs =>
        have hoffset : before.length + spec.length + 1 = (before ++ (spec ++ [','])).length := by
          simp [Nat.add_assoc]
        rw [hoffset] at hmore
        exact ih (by simpa [List.append_assoc] using hbody) hmore

theorem fits_of_parse {body : Text} {error : SyntaxError} (h : parse body = .error error) :
    error.Fits body ∨ error = ⟨.emptyVariableName, none, body.length + 1, body⟩ := by
  unfold parse at h
  rcases hop : takeOperator body with ⟨op, list⟩
  obtain ⟨hbody, -⟩ := takeOperator_eq_iff.mp hop
  rw [hop] at h
  refine fits_of_readTerms ?_ (map_eq_error.mp h)
  rw [List.intercalate_splitOn]
  exact hbody

end Expression

/-! ## Templates -/

theorem Obstacle.fits {obstacle : Obstacle} (h : obstacle.Valid) :
    (SyntaxError.locate obstacle.text obstacle.problem obstacle.position).Fits obstacle.text := by
  cases obstacle with
  | strayClosing rest => exact SyntaxError.fits_locate (by simp [problem, Problem.MarkedBy]) [] rest
  | unterminated body =>
    -- The text ends inside the expression, and its last character is reported.
    obtain ⟨before, c, hlast⟩ : ∃ before c, '{' :: body = before ++ [c] :=
      (List.eq_nil_or_concat' ('{' :: body)).resolve_left (List.cons_ne_nil '{' body)
    have hplace : body.length + 1 = before.length + 1 := by
      simpa using congrArg List.length hlast
    have hmark : Problem.unterminatedExpression.MarkedBy c := by
      rintro rfl
      have hmem : '}' ∈ '{' :: body := by simp [hlast]
      exact h.2 (by simpa using hmem)
    rw [text, position, hplace, hlast]
    exact SyntaxError.fits_locate hmark before []
  | nested body rest =>
    exact SyntaxError.fits_locate (by simp [problem, Problem.MarkedBy]) ('{' :: body) rest
  | emptyBraces rest =>
    exact SyntaxError.fits_locate (by simp [problem, Problem.MarkedBy]) ['{'] rest
  | unreadable body rest error =>
    obtain ⟨-, -, herror⟩ := h
    rcases Expression.fits_of_parse herror with hfits | rfl
    · exact hfits.rebase ['{'] ('}' :: rest)
    · have hplace : 1 + (body.length + 1) = ('{' :: body).length + 1 := by
        simp
        omega
      rw [text, position, hplace]
      exact SyntaxError.fits_locate (by simp [problem, Problem.MarkedBy]) ('{' :: body) rest

theorem Template.fits_of_parse {text : Text} {error : SyntaxError}
    (h : parse text = .error error) : error.Fits text := by
  obtain ⟨good, obstacle, rfl, -, hvalid, rfl⟩ := exists_obstacle_of_parse h
  simpa using (Obstacle.fits hvalid).rebase good []

/-- At every level an error shows the character at its position in the text that was read, and a
character that its problem is about. In a template there always is one. In a body there is none
just behind its end, where a name is missing, and in a spec there is none just if the spec is
empty. -/
theorem character_stands_at_position :
    (∀ text error, Template.parse text = .error error →
      error.template = text ∧ 1 ≤ error.position ∧ error.position ≤ text.length ∧
        ∃ c, error.character = some c ∧ text[error.position - 1]? = some c ∧
          error.problem.MarkedBy c) ∧
    (∀ body error, Expression.parse body = .error error →
      error.template = body ∧ 1 ≤ error.position ∧ error.position ≤ body.length + 1 ∧
        error.character = body[error.position - 1]? ∧
        (∀ c, error.character = some c → error.problem.MarkedBy c) ∧
        (error.character = none ↔ error.position = body.length + 1) ∧
        (error.character = none → error.problem = .emptyVariableName)) ∧
    (∀ spec error, Term.parse spec = .error error →
      error.template = spec ∧ 1 ≤ error.position ∧
        error.character = spec[error.position - 1]? ∧
        (∀ c, error.character = some c → error.problem.MarkedBy c) ∧
        (error.character = none ↔ spec = []) ∧
        (error.character = none → error.position = 1)) := by
  refine ⟨?_, ?_, ?_⟩
  · intro text error h
    have hfits := Template.fits_of_parse h
    exact ⟨hfits.template_eq, hfits.position_pos, hfits.position_le, hfits.exists_character⟩
  · intro body error h
    rcases Expression.fits_of_parse h with hfits | rfl
    · obtain ⟨c, hc, hplace, hmark⟩ := hfits.exists_character
      have hle := hfits.position_le
      refine ⟨hfits.template_eq, hfits.position_pos, by omega, by rw [hc, hplace], ?_, ?_, ?_⟩
      · simp [hc, hmark]
      · simp [hc]
        omega
      · simp [hc]
    · simp
  · intro spec error h
    rcases Term.fits_of_parse h with hfits | ⟨rfl, rfl⟩
    · obtain ⟨c, hc, hplace, hmark⟩ := hfits.exists_character
      have hne : spec ≠ [] := by
        rintro rfl
        simp at hplace
      simp [hc, hplace, hmark, hne, hfits.template_eq, hfits.position_pos]
    · simp

/-- A length with a letter in it, a name missing behind the last comma and a star behind a length,
all of them behind letters of two bytes. -/
theorem character_stands_behind_wide_letters :
    let malformed : SyntaxError := ⟨.malformedModifier, some 'x', 12, "é{a}{?ü,b:1x}".toList⟩
    let missing : SyntaxError := ⟨.emptyVariableName, none, 4, "+ü,".toList⟩
    let conflict : SyntaxError := ⟨.conflictingModifiers, some '*', 4, "é:3*".toList⟩
    (Template.parse "é{a}{?ü,b:1x}".toList = .error malformed ∧
      ∃ c, malformed.character = some c ∧ "é{a}{?ü,b:1x}".toList[12 - 1]? = some c) ∧
    (Expression.parse "+ü,".toList = .error missing ∧ missing.position = "+ü,".toList.length + 1) ∧
    Term.parse "é:3*".toList = .error conflict ∧
      conflict.character = "é:3*".toList[4 - 1]? ∧ conflict.problem.MarkedBy '*' := by
  intro malformed missing conflict
  have hmalformed : Template.parse "é{a}{?ü,b:1x}".toList = .error malformed := by decide +kernel
  have hmissing : Expression.parse "+ü,".toList = .error missing := by decide +kernel
  have hconflict : Term.parse "é:3*".toList = .error conflict := by decide +kernel
  obtain ⟨htemplate, hbody, hspec⟩ := character_stands_at_position
  obtain ⟨-, -, -, c, hc, hplace, -⟩ := htemplate _ _ hmalformed
  obtain ⟨-, -, -, -, -, hend, -⟩ := hbody _ _ hmissing
  obtain ⟨-, -, hcharacter, hmark, -⟩ := hspec _ _ hconflict
  exact ⟨⟨hmalformed, c, hc, hplace⟩, ⟨hmissing, hend.mp rfl⟩, hconflict, hcharacter, hmark '*' rfl⟩

end LinkTemplate
