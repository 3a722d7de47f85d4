import Mathlib.Algebra.Group.Nat.Defs
import Mathlib.Data.List.Induction
import Mathlib.Data.List.TakeWhile
import LinkTemplate.Proofs.RoundTrip
/-!
# The normal text of what has been read

Writing what has been read gives the text back, but for its lengths: zeros in front of a number are
left out, the number 0 is left out with its colon, and a number that is too large becomes the
largest one. Each change makes the text shorter or keeps its length, so changes never make up for
each other, and the text is the same only if every length in it is.
-/

namespace LinkTemplate

/-! ## Decimal numbers without leading zeros -/

namespace Decimal

theorem exists_digitChar {c : Char} (h : c.isDigit) : ∃ d < 10, c = Nat.digitChar d := by
  obtain ⟨hlow, hhigh⟩ := Char.isDigit_iff_toNat.mp h
  have hzero : '0'.toNat = 48 := rfl
  have hnine : '9'.toNat = 57 := rfl
  refine ⟨c.toNat - 48, by omega, Char.toNat_inj.mp ?_⟩
  rw [Nat.toNat_digitChar_of_lt_ten (by omega)]
  omega

theorem value_append_digit (digits : Text) {d : Nat} (hd : d < 10) :
    value (digits ++ [Nat.digitChar d]) = 10 * value digits + d := by
  unfold value
  rw [Nat.ofDigitChars_append, Nat.ofDigitChars_cons_digitChar_of_lt_ten hd, Nat.ofDigitChars_nil]

theorem text_digit {d : Nat} (hd : d < 10) : text d = [Nat.digitChar d] :=
  Nat.toDigits_of_lt_base hd

theorem text_append_digit {n d : Nat} (hn : 0 < n) (hd : d < 10) :
    text (10 * n + d) = text n ++ [Nat.digitChar d] := by
  unfold text
  rw [← Nat.toDigits_append_toDigits (by decide) hn hd, Nat.toDigits_of_lt_base hd]

theorem value_lt {digits : Text} (h : ∀ c ∈ digits, c.isDigit) :
    value digits < 10 ^ digits.length := by
  induction digits using List.reverseRecOn with
  | nil => simp [value]
  | append_singleton digits c ih =>
    obtain ⟨d, hd, rfl⟩ := exists_digitChar (h c (by simp))
    have hlt := ih fun x hx => h x (List.mem_append_left _ hx)
    rw [value_append_digit digits hd, List.length_append, List.length_singleton, Nat.pow_succ]
    omega

theorem length_text_le {digits : Text} {n : Nat} (hne : digits ≠ [])
    (h : ∀ c ∈ digits, c.isDigit) (hn : n ≤ value digits) :
    (text n).length ≤ digits.length := by
  have hlt := value_lt h
  exact (Nat.length_toDigits_le_iff (by decide) (List.length_pos_iff.mpr hne)).mpr (by omega)

theorem head?_text_ne_zero {n : Nat} (h : 0 < n) : (text n).head? ≠ some '0' := by
  induction n using Nat.strongRecOn with
  | ind n ih =>
    by_cases hlt : n < 10
    · rw [text_digit hlt]
      simp
      omega
    · have hn : n = 10 * (n / 10) + n % 10 := by omega
      have hne : text (n / 10) ≠ [] := Nat.toDigits_ne_nil
      rw [hn, text_append_digit (by omega) (by omega), List.head?_append_of_ne_nil _ hne]
      exact ih (n / 10) (by omega) (by omega)

theorem text_value {digits : Text} (hne : digits ≠ []) (h : ∀ c ∈ digits, c.isDigit)
    (hzero : digits.head? ≠ some '0') : 0 < value digits ∧ text (value digits) = digits := by
  induction digits using List.reverseRecOn with
  | nil => exact absurd rfl hne
  | append_singleton digits c ih =>
    obtain ⟨d, hd, rfl⟩ := exists_digitChar (h c (by simp))
    rw [value_append_digit digits hd]
    by_cases hnil : digits = []
    · subst hnil
      have hvalue : 10 * value [] + d = d := by simp [value]
      rw [hvalue, text_digit hd]
      simp at hzero
      exact ⟨Nat.pos_of_ne_zero hzero, rfl⟩
    · rw [List.head?_append_of_ne_nil _ hnil] at hzero
      obtain ⟨hpos, htext⟩ := ih hnil (fun x hx => h x (List.mem_append_left _ hx)) hzero
      rw [text_append_digit hpos hd, htext]
      exact ⟨by omega, rfl⟩

end Decimal

/-! ## The lengths in a text -/

/-- The digits behind each colon that stands between braces. -/
def Text.lengths (inside : Bool) : Text → List Text
  | [] => []
  | c :: rest =>
    if c = '{' then lengths true rest
    else if c = '}' then lengths false rest
    else if inside ∧ c = ':' then rest.takeWhile Char.isDigit :: lengths inside rest
    else lengths inside rest

/-- A decimal number from 1 to the largest length, without leading zeros. -/
def Term.IsCanonicalLength (length : Text) : Prop :=
  length ≠ [] ∧ length.all Char.isDigit ∧ length.head? ≠ some '0' ∧
    Decimal.value length ≤ 18446744073709551615

instance : DecidablePred Term.IsCanonicalLength :=
  fun _ => inferInstanceAs (Decidable (_ ∧ _ ∧ _ ∧ _))

namespace Text

theorem lengths_append_of_no_colon {inside : Bool} {s : Text} (h : BraceFree s)
    (hcolon : inside → ':' ∉ s) (t : Text) : lengths inside (s ++ t) = lengths inside t := by
  induction s with
  | nil => rfl
  | cons c s ih =>
    rw [braceFree_cons] at h
    have hc : ¬ (inside ∧ c = ':') := by
      rintro ⟨hinside, rfl⟩
      simp at hcolon
      exact absurd hinside (by simpa using hcolon)
    rw [List.cons_append, lengths, if_neg h.1.1, if_neg h.1.2, if_neg hc]
    exact ih h.2 fun hinside hmem => hcolon hinside (List.mem_cons_of_mem c hmem)

theorem lengths_of_no_colon {inside : Bool} {text : Text} (h : BraceFree text)
    (hcolon : inside → ':' ∉ text) : lengths inside text = [] := by
  have hnone := lengths_append_of_no_colon h hcolon []
  rwa [List.append_nil] at hnone

theorem takeWhile_append_cons {p : Char → Bool} {c : Char} (hc : p c = false) (s t : Text) :
    (s ++ c :: t).takeWhile p = s.takeWhile p := by
  induction s with
  | nil => simp [hc]
  | cons d s ih => simp [List.takeWhile_cons, ih]

/-- A run of digits does not go on behind a character that is none. -/
theorem lengths_append {s : Text} (h : BraceFree s) {c : Char} (hc : c.isDigit = false)
    (t : Text) : lengths true (s ++ c :: t) = lengths true s ++ lengths true (c :: t) := by
  induction s with
  | nil => rfl
  | cons d s ih =>
    rw [braceFree_cons] at h
    have hmore := ih h.2
    rw [List.cons_append, lengths, if_neg h.1.1, if_neg h.1.2, lengths, if_neg h.1.1, if_neg h.1.2]
    split
    · rw [takeWhile_append_cons hc, hmore, List.cons_append]
    · exact hmore

theorem lengths_colon {digits : Text} (h : ∀ c ∈ digits, c.isDigit) :
    lengths true (':' :: digits) = [digits] := by
  have hmem : ∀ c, c.isDigit = false → c ∉ digits := by
    intro c hc hmem
    simp [h c hmem] at hc
  have hnone : lengths true digits = [] :=
    lengths_of_no_colon ⟨hmem '{' rfl, hmem '}' rfl⟩ fun _ => hmem ':' rfl
  simp [lengths, hnone, List.takeWhile_eq_self_iff.mpr h]

theorem lengths_braces {body : Text} (h : BraceFree body) (t : Text) :
    lengths false ('{' :: (body ++ '}' :: t)) = lengths true body ++ lengths false t := by
  have hopening : lengths false ('{' :: (body ++ '}' :: t)) = lengths true (body ++ '}' :: t) := by
    simp [lengths]
  rw [hopening, lengths_append h rfl]
  simp [lengths]

theorem lengths_intercalate {specs : List Text} (h : ∀ spec ∈ specs, BraceFree spec) :
    lengths true ([','].intercalate specs) = specs.flatMap (lengths true) := by
  induction specs with
  | nil => rfl
  | cons spec specs ih =>
    obtain ⟨hspec, hspecs⟩ := List.forall_mem_cons.mp h
    cases specs with
    | nil => simp
    | cons next specs =>
      rw [List.intercalate_cons_cons, List.append_assoc, List.singleton_append,
        lengths_append hspec rfl, List.flatMap_cons, ← ih hspecs]
      simp [lengths]

end Text

/-! ## Texts that only get shorter -/

/-- The normal text is no longer than the written one, in which these lengths stand, and it is the
same just if they are all canonical. -/
structure Shortens (written normal : Text) (lengths : List Text) : Prop where
  length_le : normal.length ≤ written.length
  eq_iff : normal = written ↔ ∀ length ∈ lengths, Term.IsCanonicalLength length

namespace Shortens

theorem refl (text : Text) : Shortens text text [] := ⟨Nat.le_refl _, by simp⟩

/-- What one part loses no other part adds, so the whole is the same only if each part is. -/
theorem append {s t s' t' : Text} {lengths lengths' : List Text} (h : Shortens s t lengths)
    (h' : Shortens s' t' lengths') : Shortens (s ++ s') (t ++ t') (lengths ++ lengths') := by
  have hle := h.length_le
  have hle' := h'.length_le
  constructor
  · simp
    omega
  · rw [List.forall_mem_append, ← h.eq_iff, ← h'.eq_iff]
    constructor
    · intro heq
      have hlength := congrArg List.length heq
      simp at hlength
      exact List.append_inj heq (by omega)
    · rintro ⟨rfl, rfl⟩
      rfl

theorem cons {s t : Text} {lengths : List Text} (c : Char) (h : Shortens s t lengths) :
    Shortens (c :: s) (c :: t) lengths :=
  (refl [c]).append h

section Lists

variable {α β : Type} {f : α → Text} {g : β → Text} {lengths : α → List Text}
  {as : List α} {bs : List β}

theorem flatMap (h : List.Forall₂ (fun a b => Shortens (f a) (g b) (lengths a)) as bs) :
    Shortens (as.flatMap f) (bs.flatMap g) (as.flatMap lengths) := by
  induction h with
  | nil => exact refl []
  | cons hfirst _ ih => exact hfirst.append ih

theorem intercalate {mark : Char}
    (h : List.Forall₂ (fun a b => Shortens (f a) (g b) (lengths a)) as bs) :
    Shortens ([mark].intercalate (as.map f)) ([mark].intercalate (bs.map g))
      (as.flatMap lengths) := by
  cases h with
  | nil => exact refl []
  | cons hfirst hmore =>
    rw [List.map_cons, List.map_cons, Text.intercalate_cons, Text.intercalate_cons,
      List.flatMap_map, List.flatMap_map]
    exact hfirst.append (flatMap (hmore.imp fun _ _ hnext => hnext.cons mark))

end Lists

end Shortens

/-! ## What reading and writing shortens -/

namespace Term

theorem shortens_length {digits : Text} (hne : digits ≠ []) (h : ∀ c ∈ digits, c.isDigit) :
    Shortens (':' :: digits)
      (if min (Decimal.value digits) maxLength = 0 then []
        else ':' :: Decimal.text (min (Decimal.value digits) maxLength))
      [digits] := by
  have hmax : maxLength = 18446744073709551615 := rfl
  constructor
  · split
    · exact Nat.zero_le _
    · simpa using Decimal.length_text_le hne h (Nat.min_le_left _ _)
  · rw [List.forall_mem_singleton]
    constructor
    · intro heq
      split at heq
      · cases heq
      · rename_i hn
        have htext := List.tail_eq_of_cons_eq heq
        have hvalue := congrArg Decimal.value htext
        rw [Decimal.value_text] at hvalue
        refine ⟨hne, List.all_eq_true.mpr h, ?_, by omega⟩
        rw [← htext]
        exact Decimal.head?_text_ne_zero (Nat.pos_of_ne_zero hn)
    · rintro ⟨-, -, hzero, hle⟩
      obtain ⟨hpos, htext⟩ := Decimal.text_value hne h hzero
      rw [Nat.min_eq_left (by omega), if_neg (by omega), htext]

theorem shortens_of_readNamed {spec body name : Text} {n : Nat}
    (h : readNamed spec body = .ok (name, n)) (hfree : Text.BraceFree body) :
    Shortens body (name ++ if n = 0 then [] else ':' :: Decimal.text n)
      (Text.lengths true body) := by
  obtain ⟨-, hcolon, ⟨rfl, rfl⟩ | ⟨digits, rfl, hne, hdigits, rfl⟩⟩ := readNamed_eq_ok_iff.mp h
  · rw [Text.lengths_of_no_colon hfree fun _ => hcolon]
    simpa using Shortens.refl body
  · rw [Text.braceFree_append] at hfree
    rw [Text.lengths_append_of_no_colon hfree.1 (fun _ => hcolon), Text.lengths_colon hdigits]
    exact (Shortens.refl name).append (shortens_length hne hdigits)

theorem shortens_of_parse {spec : Text} {term : Term} (h : parse spec = .ok term)
    (hfree : Text.BraceFree spec) : Shortens spec term.text (Text.lengths true spec) := by
  obtain ⟨body, hdrop, hnamed, -⟩ := parse_eq_ok_iff.mp h
  have hbody := shortens_of_readNamed hnamed (hfree.of_subset (Text.prefix_of_dropEnd hdrop).subset)
  unfold text modifiers
  cases hexplode : term.explode with
  | false =>
    rw [hexplode] at hdrop
    obtain ⟨rfl, -⟩ := Text.dropEnd_eq_false_iff.mp hdrop
    simpa using hbody
  | true =>
    rw [hexplode] at hdrop
    obtain rfl := Text.dropEnd_eq_true_iff.mp hdrop
    rw [Text.braceFree_append] at hfree
    rw [Text.lengths_append hfree.1 rfl, ← List.append_assoc]
    exact hbody.append (Shortens.refl ['*'])

end Term

theorem Expression.shortens_of_parse {body : Text} {e : Expression} (h : parse body = .ok e)
    (hfree : Text.BraceFree body) : Shortens body e.body (Text.lengths true body) := by
  obtain ⟨list, hop, hterms⟩ := parse_eq_ok_iff.mp h
  obtain ⟨rfl, -⟩ := takeOperator_eq_iff.mp hop
  rw [Text.braceFree_append] at hfree
  have hspecs : ∀ spec ∈ list.splitOn ',', Text.BraceFree spec := fun spec hspec =>
    hfree.2.of_subset (Text.mem_splitOn hspec).2
  have hcolon : ':' ∉ e.operator.symbol := by
    cases e.operator <;> decide
  have hlist : Shortens ([','].intercalate ((list.splitOn ',').map id)) e.list
      ((list.splitOn ',').flatMap (Text.lengths true)) :=
    Shortens.intercalate <| ((List.forall₂_and_left _ _).mpr ⟨hspecs, hterms⟩).imp
      fun _ _ ⟨hspec, hread⟩ => Term.shortens_of_parse hread hspec
  rw [List.map_id, ← Text.lengths_intercalate hspecs, List.intercalate_splitOn] at hlist
  rw [Text.lengths_append_of_no_colon e.operator.braceFree_symbol fun _ => hcolon]
  exact (Shortens.refl e.operator.symbol).append hlist

namespace Segment

def lengths : Segment → List Text
  | plain _ => []
  | braces body => Text.lengths true body

theorem lengths_append {segment : Segment} (h : Text.BraceFree segment.content) (rest : Text) :
    Text.lengths false (segment.text ++ rest) = segment.lengths ++ Text.lengths false rest := by
  cases segment with
  | plain text =>
    rw [content_plain] at h
    rw [text_plain_append, Text.lengths_append_of_no_colon h (by simp)]
    rfl
  | braces body =>
    rw [content_braces] at h
    rw [text_braces_append, Text.lengths_braces h]
    rfl

theorem lengths_flatMap {segments : List Segment}
    (h : ∀ segment ∈ segments, Text.BraceFree segment.content) :
    Text.lengths false (segments.flatMap text) = segments.flatMap lengths := by
  induction segments with
  | nil => rfl
  | cons segment segments ih =>
    obtain ⟨hsegment, hmore⟩ := List.forall_mem_cons.mp h
    rw [List.flatMap_cons, List.flatMap_cons, lengths_append hsegment, ih hmore]

theorem shortens_of_reads {segment : Segment} {part : Part} (h : segment.Reads part)
    (hfree : Text.BraceFree segment.content) :
    Shortens segment.text part.text segment.lengths := by
  cases segment with
  | plain text =>
    obtain rfl := h
    exact Shortens.refl text
  | braces body =>
    obtain ⟨e, hread, rfl⟩ := h
    have hbody := Expression.shortens_of_parse hread hfree
    have hbraces := (hbody.append (Shortens.refl ['}'])).cons '{'
    rwa [List.append_nil] at hbraces

end Segment

/-- The text that is written for what has been read is never longer than the text that was read.
It is the same text if and only if every length in that text is a number from 1 to the largest
length, written without leading zeros. -/
theorem text_of_parse_shortens (text : Text) (template : Template)
    (h : Template.parse text = .ok template) :
    template.text.length ≤ text.length ∧
      (template.text = text ↔
        ∀ length ∈ Text.lengths false text, Term.IsCanonicalLength length) := by
  obtain ⟨segments, hcut, hparts⟩ := exists_isCut_of_parse h
  have hshort : Shortens (segments.flatMap Segment.text) template.text
      (segments.flatMap Segment.lengths) :=
    Shortens.flatMap <| ((List.forall₂_and_left _ _).mpr ⟨hcut.braceFree, hparts⟩).imp
      fun _ _ ⟨hfree, hreads⟩ => Segment.shortens_of_reads hreads hfree
  rw [hcut.text_eq, Segment.lengths_flatMap hcut.braceFree]
  exact ⟨hshort.length_le, hshort.eq_iff⟩

/-- The largest length is kept and the next one is not. A colon outside of braces has no length
behind it. -/
theorem text_of_largest_length :
    let kept : Template := ⟨[.literal "/p:0".toList,
      .expression ⟨.query, [⟨['x'], false, 7⟩, ⟨['y'], false, 18446744073709551615⟩]⟩]⟩
    let changed : Template := ⟨[.expression ⟨.simple,
      [⟨['x'], true, 0⟩, ⟨['y'], false, 7⟩, ⟨['z'], false, 18446744073709551615⟩]⟩]⟩
    (Template.parse "/p:0{?x:7,y:18446744073709551615}".toList = .ok kept ∧
      kept.text = "/p:0{?x:7,y:18446744073709551615}".toList) ∧
    Template.parse "{x:0*,y:7,z:18446744073709551616}".toList = .ok changed ∧
      changed.text.length ≤ "{x:0*,y:7,z:18446744073709551616}".toList.length ∧
      changed.text ≠ "{x:0*,y:7,z:18446744073709551616}".toList := by
  intro kept changed
  have hkept : Template.parse "/p:0{?x:7,y:18446744073709551615}".toList = .ok kept := by
    decide +kernel
  have hchanged : Template.parse "{x:0*,y:7,z:18446744073709551616}".toList = .ok changed := by
    decide +kernel
  obtain ⟨-, hsame⟩ := text_of_parse_shortens _ _ hkept
  obtain ⟨hle, hother⟩ := text_of_parse_shortens _ _ hchanged
  exact ⟨⟨hkept, hsame.mpr (by decide +kernel)⟩, hchanged, hle,
    mt hother.mp (by decide +kernel)⟩

end LinkTemplate
