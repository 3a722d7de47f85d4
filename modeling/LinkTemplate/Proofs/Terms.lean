import Mathlib.Data.List.Basic
import LinkTemplate.Term
import LinkTemplate.Proofs.Basics
/-!
# Terms and their texts

Which texts are read as which term, and which terms are read back from their own text. A star at
the end of a text is never part of the name, so a name that ends in one needs a length behind it.
-/

namespace LinkTemplate

namespace Term

/-! ## What a term is read from -/

theorem readLength_eq_ok_iff {spec : Text} {colon n : Nat} {length : Text} :
    readLength spec colon length = .ok n ↔
      length ≠ [] ∧ (∀ c ∈ length, c.isDigit) ∧ n = min (Decimal.value length) maxLength := by
  unfold readLength
  by_cases hne : length = []
  · simp [hne]
  · rw [if_neg hne]
    cases hfind : length.findIdx? (! ·.isDigit) with
    | none =>
      rw [List.findIdx?_eq_none_iff] at hfind
      simp only [Bool.not_eq_false'] at hfind
      simp [hne, eq_comm (a := n)]
      exact fun _ => hfind
    | some i =>
      obtain ⟨hi, hdigit, -⟩ := List.findIdx?_eq_some_iff_getElem.mp hfind
      simp only [reduceCtorEq, false_iff, not_and]
      intro _ hall
      have := hall length[i] (List.getElem_mem hi)
      simp [this] at hdigit

theorem readNamed_eq_ok_iff {spec body name : Text} {n : Nat} :
    readNamed spec body = .ok (name, n) ↔
      name ≠ [] ∧ ':' ∉ name ∧
        (body = name ∧ n = 0 ∨
          ∃ digits, body = name ++ ':' :: digits ∧ digits ≠ [] ∧ (∀ c ∈ digits, c.isDigit) ∧
            n = min (Decimal.value digits) maxLength) := by
  constructor
  · intro h
    unfold readNamed at h
    split at h
    · rename_i hcut
      split at h
      · cases h
      · cases h
        exact ⟨by assumption, Text.cut?_eq_none_iff.mp hcut, Or.inl ⟨rfl, rfl⟩⟩
    · rename_i hcut
      obtain ⟨rfl, hcolon⟩ := Text.eq_append_of_cut? hcut
      split at h
      · cases h
      · split at h
        · cases h
        · obtain ⟨m, hm, heq⟩ := map_eq_ok.mp h
          cases heq
          exact ⟨by assumption, hcolon, Or.inr ⟨_, rfl, readLength_eq_ok_iff.mp hm⟩⟩
  · rintro ⟨hne, hcolon, ⟨rfl, rfl⟩ | ⟨digits, rfl, hdigits, hall, rfl⟩⟩
    · unfold readNamed
      rw [Text.cut?_eq_none_iff.mpr hcolon]
      simp [hne]
    · have hone : Text.cut? ':' digits = none := by
        rw [Text.cut?_eq_none_iff]
        intro hmem
        have := hall _ hmem
        simp at this
      unfold readNamed
      rw [Text.cut?_append hcolon]
      simp only [hone, if_neg hne]
      rw [readLength_eq_ok_iff.mpr ⟨hdigits, hall, rfl⟩]
      rfl

theorem parse_eq_ok_iff {spec : Text} {term : Term} :
    parse spec = .ok term ↔
      ∃ body, Text.dropEnd '*' spec = (body, term.explode) ∧
        readNamed spec body = .ok (term.name, term.truncate) ∧
        ¬ (term.explode ∧ 0 < term.truncate) := by
  constructor
  · intro h
    unfold parse at h
    rcases hdrop : Text.dropEnd '*' spec with ⟨body, explode⟩
    rw [hdrop] at h
    simp only at h
    split at h
    · cases h
    · split at h
      · cases h
      · cases h
        exact ⟨body, rfl, by assumption, by assumption⟩
  · rintro ⟨body, hdrop, hnamed, hone⟩
    unfold parse
    rw [hdrop]
    simp only [hnamed, if_neg hone]

/-! ## The terms that can be read -/

structure WellFormed (term : Term) : Prop where
  name_ne_nil : term.name ≠ []
  comma : ',' ∉ term.name
  colon : ':' ∉ term.name
  braceFree : Text.BraceFree term.name
  one_modifier : ¬ (term.explode ∧ 0 < term.truncate)
  truncate_le : term.truncate ≤ maxLength

theorem name_prefix_of_parse {spec : Text} {term : Term} (h : parse spec = .ok term) :
    term.name <+: spec := by
  obtain ⟨body, hdrop, hnamed, -⟩ := parse_eq_ok_iff.mp h
  obtain ⟨-, -, hbody⟩ := readNamed_eq_ok_iff.mp hnamed
  refine List.IsPrefix.trans ?_ (Text.prefix_of_dropEnd hdrop)
  rcases hbody with ⟨rfl, -⟩ | ⟨digits, rfl, -⟩
  · exact List.prefix_rfl
  · exact List.prefix_append _ _

theorem wellFormed_of_parse {spec : Text} {term : Term} (h : parse spec = .ok term)
    (hcomma : ',' ∉ spec) (hfree : Text.BraceFree spec) : term.WellFormed := by
  have hname : term.name ⊆ spec := (name_prefix_of_parse h).subset
  obtain ⟨body, -, hnamed, hone⟩ := parse_eq_ok_iff.mp h
  obtain ⟨hne, hcolon, hbody⟩ := readNamed_eq_ok_iff.mp hnamed
  refine ⟨hne, fun hmem => hcomma (hname hmem), hcolon, hfree.of_subset hname, hone, ?_⟩
  rcases hbody with ⟨-, hn⟩ | ⟨digits, -, -, -, hn⟩
  · omega
  · omega

/-! ## The text of a term -/

theorem mem_modifiers {term : Term} {c : Char} (h : c ∈ term.modifiers) :
    c = ':' ∨ c = '*' ∨ c.isDigit := by
  unfold modifiers at h
  rcases List.mem_append.mp h with h | h
  · split at h
    · simp at h
    · rcases List.mem_cons.mp h with rfl | h
      · exact Or.inl rfl
      · exact Or.inr (Or.inr (Decimal.isDigit_of_mem_text h))
  · split at h
    · simp at h
      exact Or.inr (Or.inl h)
    · simp at h

theorem not_mem_text {term : Term} {c : Char} (hname : c ∉ term.name) (hc : c ≠ ':' ∧ c ≠ '*')
    (hdigit : c.isDigit = false) : c ∉ term.text := by
  unfold text
  intro h
  rcases List.mem_append.mp h with h | h
  · exact hname h
  · rcases mem_modifiers h with rfl | rfl | h
    · exact hc.1 rfl
    · exact hc.2 rfl
    · simp [h] at hdigit

theorem WellFormed.comma_text {term : Term} (h : term.WellFormed) : ',' ∉ term.text :=
  not_mem_text h.comma (by simp) rfl

theorem WellFormed.braceFree_text {term : Term} (h : term.WellFormed) :
    Text.BraceFree term.text :=
  ⟨not_mem_text h.braceFree.1 (by simp) rfl, not_mem_text h.braceFree.2 (by simp) rfl⟩

/-- The star at the end of the name is taken for an explode modifier. -/
def LooksExploded (term : Term) : Prop :=
  term.explode = false ∧ term.truncate = 0 ∧ term.name.getLast? = some '*'

instance (term : Term) : Decidable term.LooksExploded :=
  inferInstanceAs (Decidable (_ ∧ _ ∧ _))

theorem readNamed_name {term : Term} (h : term.WellFormed) (spec : Text) :
    readNamed spec term.name = .ok (term.name, 0) :=
  readNamed_eq_ok_iff.mpr ⟨h.name_ne_nil, h.colon, Or.inl ⟨rfl, rfl⟩⟩

/-- A length ends in a digit, so no star is found behind it. -/
theorem getLast?_length_ne (before : Text) {digits : Text} (hne : digits ≠ [])
    (hall : ∀ c ∈ digits, c.isDigit) : (before ++ ':' :: digits).getLast? ≠ some '*' := by
  intro h
  rw [List.append_cons, List.getLast?_append_of_ne_nil _ hne] at h
  have := hall _ (List.mem_of_getLast? h)
  simp at this

/-- A length is read however its digits are written. -/
theorem WellFormed.parse_length {term : Term} (h : term.WellFormed)
    (hexplode : term.explode = false) {digits : Text} (hne : digits ≠ [])
    (hall : ∀ c ∈ digits, c.isDigit)
    (hvalue : term.truncate = min (Decimal.value digits) maxLength) :
    parse (term.name ++ ':' :: digits) = .ok term := by
  refine parse_eq_ok_iff.mpr ⟨term.name ++ ':' :: digits, ?_, ?_, h.one_modifier⟩
  · rw [hexplode, Text.dropEnd_eq_false_iff]
    exact ⟨rfl, getLast?_length_ne _ hne hall⟩
  · exact readNamed_eq_ok_iff.mpr
      ⟨h.name_ne_nil, h.colon, Or.inr ⟨digits, rfl, hne, hall, hvalue⟩⟩

/-- A term is read back from its text, unless its name ends in a star with nothing behind it. -/
theorem parse_text_iff {term : Term} (h : term.WellFormed) :
    parse term.text = .ok term ↔ ¬ term.LooksExploded := by
  constructor
  · rintro hread ⟨hexplode, htruncate, hstar⟩
    obtain ⟨body, hdrop, -⟩ := parse_eq_ok_iff.mp hread
    rw [hexplode, Text.dropEnd_eq_false_iff] at hdrop
    simp [text, modifiers, hexplode, htruncate, hstar] at hdrop
  · intro hstar
    by_cases htruncate : term.truncate = 0
    · rw [parse_eq_ok_iff]
      refine ⟨term.name, ?_, by rw [htruncate]; exact readNamed_name h _, h.one_modifier⟩
      cases hexplode : term.explode with
      | true =>
        rw [Text.dropEnd_eq_true_iff]
        simp [text, modifiers, hexplode, htruncate]
      | false =>
        rw [Text.dropEnd_eq_false_iff]
        refine ⟨by simp [text, modifiers, hexplode, htruncate], ?_⟩
        intro hlast
        refine hstar ⟨hexplode, htruncate, ?_⟩
        simpa [text, modifiers, hexplode, htruncate] using hlast
    · have hexplode : term.explode = false := by
        rw [Bool.eq_false_iff]
        exact fun hexplode => h.one_modifier ⟨hexplode, Nat.pos_of_ne_zero htruncate⟩
      have htext : term.text = term.name ++ ':' :: Decimal.text term.truncate := by
        simp [text, modifiers, hexplode, htruncate]
      rw [htext]
      refine h.parse_length hexplode Nat.toDigits_ne_nil (fun c => Decimal.isDigit_of_mem_text) ?_
      rw [Decimal.value_text, Nat.min_eq_left h.truncate_le]

end Term

end LinkTemplate
