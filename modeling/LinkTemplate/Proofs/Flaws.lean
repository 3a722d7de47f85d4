import Mathlib.Algebra.Group.Nat.Defs
import LinkTemplate.Proofs.Terms
/-!
# The flaws of a spec

A spec can be wrong in several ways at once. Each flaw is described here by itself, whatever else is
wrong with the spec, and the flaws are ranked. A spec without a flaw is a term; of any other the
reader reports the flaw of the first rank.
-/

namespace LinkTemplate

namespace Term

inductive Flaw
  | secondColon
  | noName
  | badLength
  | lengthAndStar
  deriving DecidableEq

namespace Flaw

/-- The flaw of the least rank is the one that is reported. -/
def rank : Flaw → Nat
  | secondColon => 0
  | noName => 1
  | badLength => 2
  | lengthAndStar => 3

def problem : Flaw → Problem
  | secondColon | badLength => .malformedModifier
  | noName => .emptyVariableName
  | lengthAndStar => .conflictingModifiers

/-- A flaw and its place in a body, behind which a star stands if the term explodes. -/
inductive At (explode : Bool) : Text → Flaw → Nat → Prop
  | secondColon {name length rest : Text} : ':' ∉ name → ':' ∉ length →
      At explode (name ++ ':' :: (length ++ ':' :: rest)) .secondColon
        (name.length + length.length + 2)
  | nothing : At explode [] .noName 1
  | onlyLength {length : Text} : At explode (':' :: length) .noName 1
  | noLength {name : Text} : ':' ∉ name → At explode (name ++ [':']) .badLength (name.length + 1)
  | noDigit {name digits rest : Text} {c : Char} : ':' ∉ name → (∀ d ∈ digits, d.isDigit) →
      c.isDigit = false →
      At explode (name ++ ':' :: (digits ++ c :: rest)) .badLength
        (name.length + digits.length + 2)
  | lengthAndStar {name digits : Text} : explode → ':' ∉ name → (∀ d ∈ digits, d.isDigit) →
      0 < Decimal.value digits →
      At explode (name ++ ':' :: digits) .lengthAndStar ((name ++ ':' :: digits).length + 1)

/-- No flaw of the body comes before this one. -/
def First (explode : Bool) (body : Text) (flaw : Flaw) (position : Nat) : Prop :=
  At explode body flaw position ∧
    ∀ other place, At explode body other place → flaw.rank ≤ other.rank

theorem At.exists_first {explode : Bool} {body : Text} {flaw : Flaw} {position : Nat}
    (h : At explode body flaw position) : ∃ flaw position, First explode body flaw position := by
  induction hrank : flaw.rank using Nat.strongRecOn generalizing flaw position with
  | _ rank ih =>
    subst hrank
    by_cases hfirst : First explode body flaw position
    · exact ⟨flaw, position, hfirst⟩
    · simp only [First, h, true_and, not_forall, Nat.not_le] at hfirst
      obtain ⟨other, place, hother, hless⟩ := hfirst
      exact ih _ hless hother rfl

end Flaw

/-! ## What is reported where -/

theorem readLength_no_digit {colon : Nat} {spec digits rest : Text} {c : Char}
    (hdigits : ∀ d ∈ digits, d.isDigit) (hc : c.isDigit = false) :
    readLength spec colon (digits ++ c :: rest) =
      .error (.locate spec .malformedModifier (colon + digits.length + 1)) := by
  have hnone : digits.findIdx? (! ·.isDigit) = none := by
    rw [List.findIdx?_eq_none_iff]
    intro d hd
    simp [hdigits d hd]
  have hfind : (digits ++ c :: rest).findIdx? (! ·.isDigit) = some digits.length := by
    simp [List.findIdx?_append, hnone, List.findIdx?_cons, hc]
  unfold readLength
  rw [if_neg (by simp), hfind]

theorem readNamed_second_colon {spec name length rest : Text} (hname : ':' ∉ name)
    (hlength : ':' ∉ length) :
    readNamed spec (name ++ ':' :: (length ++ ':' :: rest)) =
      .error (.locate spec .malformedModifier (name.length + length.length + 2)) := by
  unfold readNamed
  rw [Text.cut?_append hname]
  simp only [Text.cut?_append hlength]

theorem readNamed_one_colon {spec name length : Text} (hname : ':' ∉ name)
    (hlength : ':' ∉ length) :
    readNamed spec (name ++ ':' :: length) =
      if name = [] then .error (.locate spec .emptyVariableName 1)
      else (readLength spec (name.length + 1) length).map (name, ·) := by
  unfold readNamed
  rw [Text.cut?_append hname, SyntaxError.locate_one]
  simp only [Text.cut?_eq_none_iff.mpr hlength]

section

variable {spec body : Text} {explode : Bool}

theorem parse_of_readNamed_error {error : SyntaxError}
    (hdrop : Text.dropEnd '*' spec = (body, explode)) (h : readNamed spec body = .error error) :
    parse spec = .error error := by
  unfold parse
  rw [hdrop]
  simp only [h]

theorem parse_conflicting {name : Text} {n : Nat} (hdrop : Text.dropEnd '*' spec = (body, true))
    (h : readNamed spec body = .ok (name, n)) (hn : 0 < n) :
    parse spec = .error (.locate spec .conflictingModifiers (body.length + 1)) := by
  have hspec : spec = body ++ ['*'] := Text.dropEnd_eq_true_iff.mp hdrop
  have hlength : spec.length = body.length + 1 := by simp [hspec]
  rw [← hlength, SyntaxError.locate_length]
  unfold parse
  rw [hdrop]
  simp only [h, hn, and_self, if_true]
  simp [hspec]

theorem Flaw.First.no_second_colon {flaw : Flaw} {position : Nat} {name length : Text}
    (h : First explode (name ++ ':' :: length) flaw position) (hflaw : flaw ≠ .secondColon)
    (hname : ':' ∉ name) : ':' ∉ length := by
  intro hmem
  obtain ⟨first, rest, rfl, hfirst⟩ := List.eq_append_cons_of_mem hmem
  have hrank := h.2 _ _ (.secondColon hname hfirst)
  cases flaw <;> simp [rank] at hrank hflaw

theorem Flaw.First.name_ne_nil {flaw : Flaw} {position : Nat} {name length : Text}
    (h : First explode (name ++ ':' :: length) flaw position) (hflaw : 1 < flaw.rank) :
    name ≠ [] := by
  rintro rfl
  have hrank : flaw.rank ≤ 1 := h.2 _ _ .onlyLength
  omega

/-- Nothing of a lower rank stands in the way of the first flaw. -/
theorem Flaw.First.parse_eq {flaw : Flaw} {position : Nat} (h : First explode body flaw position)
    (hdrop : Text.dropEnd '*' spec = (body, explode)) :
    parse spec = .error (.locate spec flaw.problem position) := by
  cases h.1 with
  | secondColon hname hlength =>
    exact parse_of_readNamed_error hdrop (readNamed_second_colon hname hlength)
  | nothing =>
    refine parse_of_readNamed_error hdrop ?_
    rw [problem, SyntaxError.locate_one]
    rfl
  | @onlyLength length =>
    have hcolon := @Flaw.First.no_second_colon _ _ _ [] length h (by decide) (by simp)
    exact parse_of_readNamed_error hdrop (@readNamed_one_colon spec [] length (by simp) hcolon)
  | noLength hname =>
    have hne := h.name_ne_nil (by decide)
    refine parse_of_readNamed_error hdrop ?_
    rw [readNamed_one_colon hname (by simp), if_neg hne]
    rfl
  | noDigit hname hdigits hc =>
    have hne := h.name_ne_nil (by decide)
    have hcolon := h.no_second_colon (by decide) hname
    refine parse_of_readNamed_error hdrop ?_
    rw [readNamed_one_colon hname hcolon, if_neg hne, readLength_no_digit hdigits hc,
      Nat.add_right_comm _ 1]
    rfl
  | @lengthAndStar name digits hexplode hname hdigits hvalue =>
    have hne := h.name_ne_nil (by decide)
    have hdigits_ne : digits ≠ [] := by
      rintro rfl
      cases hvalue
    subst hexplode
    refine parse_conflicting hdrop (readNamed_eq_ok_iff.mpr
      ⟨hne, hname, Or.inr ⟨digits, rfl, hdigits_ne, hdigits, rfl⟩⟩) ?_
    exact Nat.lt_min.mpr ⟨hvalue, by decide⟩

/-! ## Without a flaw -/

theorem exists_no_digit {length : Text} (h : ¬ ∀ c ∈ length, c.isDigit) :
    ∃ digits c rest, length = digits ++ c :: rest ∧ (∀ d ∈ digits, d.isDigit) ∧
      c.isDigit = false := by
  cases hfind : length.find? (! ·.isDigit) with
  | none => exact absurd (by simpa using hfind) h
  | some c =>
    obtain ⟨hc, digits, rest, hlength, hdigits⟩ := List.find?_eq_some_iff_append.mp hfind
    exact ⟨digits, c, rest, hlength, by simpa using hdigits, by simpa using hc⟩

theorem readNamed_eq_ok_or_flaw (explode : Bool) (spec body : Text) :
    (∃ name n, readNamed spec body = .ok (name, n) ∧ ¬ (explode ∧ 0 < n)) ∨
      ∃ flaw position, Flaw.At explode body flaw position := by
  by_cases hcolon : ':' ∈ body
  · obtain ⟨name, length, rfl, hname⟩ := List.eq_append_cons_of_mem hcolon
    by_cases hsecond : ':' ∈ length
    · obtain ⟨first, rest, rfl, hfirst⟩ := List.eq_append_cons_of_mem hsecond
      exact Or.inr ⟨_, _, .secondColon hname hfirst⟩
    by_cases hne : name = []
    · subst hne
      exact Or.inr ⟨_, _, .onlyLength⟩
    by_cases hnil : length = []
    · subst hnil
      exact Or.inr ⟨_, _, .noLength hname⟩
    by_cases hdigits : ∀ c ∈ length, c.isDigit
    · by_cases hboth : explode ∧ 0 < Decimal.value length
      · exact Or.inr ⟨_, _, .lengthAndStar hboth.1 hname hdigits hboth.2⟩
      · refine Or.inl ⟨name, _, readNamed_eq_ok_iff.mpr
          ⟨hne, hname, Or.inr ⟨length, rfl, hnil, hdigits, rfl⟩⟩, ?_⟩
        exact fun h => hboth ⟨h.1, (Nat.lt_min.mp h.2).1⟩
    · obtain ⟨digits, c, rest, rfl, hall, hc⟩ := exists_no_digit hdigits
      exact Or.inr ⟨_, _, .noDigit hname hall hc⟩
  · by_cases hnil : body = []
    · subst hnil
      exact Or.inr ⟨_, _, .nothing⟩
    · exact Or.inl ⟨body, 0, readNamed_eq_ok_iff.mpr ⟨hnil, hcolon, Or.inl ⟨rfl, rfl⟩⟩, by simp⟩

theorem parse_eq_error_iff {error : SyntaxError}
    (hdrop : Text.dropEnd '*' spec = (body, explode)) :
    parse spec = .error error ↔
      ∃ flaw position, Flaw.First explode body flaw position ∧
        error = .locate spec flaw.problem position := by
  constructor
  · intro h
    obtain ⟨name, n, hnamed, hone⟩ | ⟨flaw, position, hflaw⟩ :=
      readNamed_eq_ok_or_flaw explode spec body
    · have hparse : parse spec = .ok ⟨name, explode, n⟩ :=
        parse_eq_ok_iff.mpr ⟨body, hdrop, hnamed, hone⟩
      rw [hparse] at h
      cases h
    · obtain ⟨flaw, position, hfirst⟩ := hflaw.exists_first
      rw [hfirst.parse_eq hdrop] at h
      exact ⟨flaw, position, hfirst, (Except.error.inj h).symm⟩
  · rintro ⟨flaw, position, hfirst, rfl⟩
    exact hfirst.parse_eq hdrop

end

end Term

/-- A spec is a term if and only if a name without a colon stands before its star, if it ends in
one, perhaps with a colon and ASCII digits behind the name, and a star has no positive length beside
it. Otherwise the flaw of the first rank is reported at its place: a second colon, a missing name, a
length that is missing or the first of its characters that is no digit, and last a length and a
star, at the star. -/
theorem parse_spec_or_first_flaw (spec : Text) :
    let explode := decide (spec.getLast? = some '*')
    let body := if explode then spec.dropLast else spec
    (∀ term, Term.parse spec = .ok term ↔
      term.explode = explode ∧ term.name ≠ [] ∧ ':' ∉ term.name ∧
        (body = term.name ∧ term.truncate = 0 ∨
          ∃ digits, body = term.name ++ ':' :: digits ∧ digits ≠ [] ∧
            (∀ c ∈ digits, c.isDigit) ∧
            term.truncate = min (Decimal.value digits) (2 ^ 64 - 1)) ∧
        ¬ (explode ∧ 0 < term.truncate)) ∧
    ∀ error, Term.parse spec = .error error ↔
      ∃ flaw position, Term.Flaw.First explode body flaw position ∧
        error = ⟨flaw.problem, spec[position - 1]?, position, spec⟩ := by
  intro explode body
  have hdrop : Text.dropEnd '*' spec = (body, explode) := by
    by_cases h : spec.getLast? = some '*' <;> simp [Text.dropEnd, body, explode, h]
  refine ⟨fun term => ?_, fun error => ?_⟩
  · rw [Term.parse_eq_ok_iff, hdrop]
    simp only [Term.readNamed_eq_ok_iff, Prod.mk.injEq]
    constructor
    · rintro ⟨_, ⟨rfl, hexplode⟩, ⟨hne, hcolon, hbody⟩, hone⟩
      exact ⟨hexplode.symm, hne, hcolon, hbody, hexplode ▸ hone⟩
    · rintro ⟨hexplode, hne, hcolon, hbody, hone⟩
      exact ⟨body, ⟨rfl, hexplode.symm⟩, ⟨hne, hcolon, hbody⟩, hexplode ▸ hone⟩
  · exact Term.parse_eq_error_iff hdrop

/-- A spec with no name and two colons too many, one whose name ends in a star of its own, and a
length that is too large by one. -/
theorem parse_spec_or_first_flaw_of_several :
    Term.parse ":*:é:*".toList = .error ⟨.malformedModifier, some ':', 3, ":*:é:*".toList⟩ ∧
      Term.parse "a*:00*".toList = .ok ⟨"a*".toList, true, 0⟩ ∧
      Term.parse "é:18446744073709551616".toList = .ok ⟨['é'], false, 2 ^ 64 - 1⟩ := by
  have hflaws := (parse_spec_or_first_flaw ":*:é:*".toList).2
    ⟨.malformedModifier, some ':', 3, ":*:é:*".toList⟩
  have hstar := (parse_spec_or_first_flaw "a*:00*".toList).1 ⟨"a*".toList, true, 0⟩
  have hlarge := (parse_spec_or_first_flaw "é:18446744073709551616".toList).1
    ⟨['é'], false, 2 ^ 64 - 1⟩
  refine ⟨hflaws.mpr ⟨.secondColon, 3, ⟨?_, fun _ _ _ => Nat.zero_le _⟩, rfl⟩, hstar.mpr ?_,
    hlarge.mpr ?_⟩
  · exact @Term.Flaw.At.secondColon true [] ['*'] "é:".toList (by decide) (by decide)
  · exact ⟨by decide, by decide, by decide,
      Or.inr ⟨['0', '0'], by decide, by decide, List.all_eq_true.mp (by decide), by decide⟩,
      by decide⟩
  · exact ⟨by decide, by decide, by decide,
      Or.inr ⟨"18446744073709551616".toList, by decide, by decide,
        List.all_eq_true.mp (by decide), by decide⟩, by decide⟩

end LinkTemplate
