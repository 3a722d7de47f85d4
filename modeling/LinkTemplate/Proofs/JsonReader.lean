import Mathlib.Data.List.TakeDrop
import LinkTemplate.Json.Reader
import LinkTemplate.Proofs.JsonGrammar
/-!
# Every JSON text is read as its value

Each reader takes exactly the text that the grammar gives to its part, whatever stands behind it.
Only a number has no end of its own, so what follows a value has to end it: nothing, a blank, a
comma or a closing bracket.
-/

namespace LinkTemplate.Json

/-! ## Blanks -/

theorem isBlank_of_blanks {text : Text} (h : Blanks text) : ∀ c ∈ text, isBlank c := by
  intro c hc
  have hmem := h c hc
  simpa [isBlank, or_assoc] using hmem

theorem skipBlanks_append {blanks : Text} (h : Blanks blanks) (rest : Text) :
    skipBlanks (blanks ++ rest) = skipBlanks rest :=
  List.dropWhile_append_of_pos (isBlank_of_blanks h)

theorem skipBlanks_blanks {blanks : Text} (h : Blanks blanks) : skipBlanks blanks = [] := by
  simpa [skipBlanks] using skipBlanks_append h []

theorem skipBlanks_cons {c : Char} (h : isBlank c = false) (rest : Text) :
    skipBlanks (c :: rest) = c :: rest := by
  simp [skipBlanks, h]

theorem skipBlanks_skipBlanks (text : Text) : skipBlanks (skipBlanks text) = skipBlanks text := by
  induction text with
  | nil => rfl
  | cons c rest ih =>
    by_cases hc : isBlank c
    · simpa [skipBlanks, hc] using ih
    · simp [skipBlanks, hc]

/-! ## Strings -/

theorem value?_of_isHex {c : Char} {n : Nat} (h : IsHex c n) :
    Hexadecimal.value? c = some n := by
  have hdigits : ∀ m < 16, Hexadecimal.value? m.digitChar = some m ∧
      Hexadecimal.value? m.digitChar.toUpper = some m := by decide
  obtain ⟨hn, rfl | rfl⟩ := h
  · exact (hdigits n hn).1
  · exact (hdigits n hn).2

theorem unit?_of_isUnit {a b c d : Char} {n : Nat} (h : IsUnit a b c d n) :
    unit? a b c d = some n := by
  obtain ⟨i, j, k, l, ha, hb, hc, hd, rfl⟩ := h
  simp [unit?, value?_of_isHex ha, value?_of_isHex hb, value?_of_isHex hc,
    value?_of_isHex hd]

theorem unescape?_of_mem_escapes {letter c : Char} (h : (letter, c) ∈ escapes) :
    letter ≠ 'u' ∧ unescape? letter = some c := by
  have hall : ∀ pair ∈ escapes, pair.1 ≠ 'u' ∧ unescape? pair.1 = some pair.2 := by decide
  exact hall _ h

theorem not_surrogate (c : Char) :
    isHighSurrogate c.toNat = false ∧ isLowSurrogate c.toNat = false := by
  have hvalid : c.toNat < 0xD800 ∨ 0xDFFF < c.toNat ∧ c.toNat < 0x110000 := c.valid
  simp only [isHighSurrogate, isLowSurrogate, Bool.and_eq_false_iff, decide_eq_false_iff_not]
  omega

theorem readString_append {text spelled : Text} (h : Letters text spelled) (rest : Text) :
    readString (spelled ++ '"' :: rest) = some (text, rest) := by
  induction h with
  | nil =>
    unfold readString
    simp
  | @plain c text spelled hquote hbackslash hvisible _ ih =>
    have hcontrol : ¬ c.toNat < 0x20 := by omega
    unfold readString
    simp [hquote, hbackslash, hcontrol, ih]
  | short hmem _ ih =>
    obtain ⟨hletter, hchar⟩ := unescape?_of_mem_escapes hmem
    unfold readString
    simp [hletter, hchar, ih]
  | @unit a b c d x text spelled hunit _ ih =>
    obtain ⟨hhigh, hlow⟩ := not_surrogate x
    simp [readString, unit?_of_isUnit hunit, hhigh, hlow, ih]
  | @pair a b c d e f g h x high low text spelled hhigh hlow hh hl hx _ ih =>
    have hishigh : isHighSurrogate (0xD800 + high) = true := by
      simp [isHighSurrogate]
      omega
    have hislow : isLowSurrogate (0xDC00 + low) = true := by
      simp [isLowSurrogate]
      omega
    have hchar : pair (0xD800 + high) (0xDC00 + low) = x := by
      simp [pair, ← hx]
    simp [readString, unit?_of_isUnit hhigh, unit?_of_isUnit hlow, hishigh, hislow, hchar, ih]

/-! ## What follows -/

theorem head?_append_of {P : Char → Prop} {s t : Text} (hs : ∀ c ∈ s.head?, P c)
    (ht : ∀ c ∈ t.head?, P c) : ∀ c ∈ (s ++ t).head?, P c := by
  cases s with
  | nil => exact ht
  | cons c s => simpa using hs

/-- What ends a value, a number among them. -/
def Ends (rest : Text) : Prop := ∀ c ∈ rest.head?, isBlank c ∨ c ∈ [',', ']', '}']

theorem ends_nil : Ends [] := by simp [Ends]

theorem ends_cons {c : Char} (h : c ∈ [',', ']', '}']) (rest : Text) : Ends (c :: rest) := by
  intro d hd
  simp at hd
  exact Or.inr (hd ▸ h)

theorem ends_append {blanks rest : Text} (h : Blanks blanks) (hrest : Ends rest) :
    Ends (blanks ++ rest) :=
  head?_append_of (fun c hc => Or.inl (isBlank_of_blanks h c (List.mem_of_mem_head? hc))) hrest

/-! ## Numbers -/

theorem ne_of_isDigit {c d : Char} (hc : c.isDigit) (hd : d.isDigit = false) : c ≠ d := by
  rintro rfl
  simp [hc] at hd

theorem takeDigits?_append {digits rest : Text} (h : Digits digits)
    (hrest : ∀ c ∈ rest.head?, c.isDigit = false) :
    takeDigits? (digits ++ rest) = some (digits, rest) := by
  have hstop : rest.takeWhile Char.isDigit = [] ∧ rest.dropWhile Char.isDigit = rest := by
    cases rest with
    | nil => simp
    | cons c rest => simp [hrest c (by simp)]
  unfold takeDigits?
  rw [List.span_eq_takeWhile_dropWhile, List.takeWhile_append_of_pos h.2,
    List.dropWhile_append_of_pos h.2, hstop.1, hstop.2, List.append_nil]
  split
  · rename_i hnil
    exact absurd (Prod.mk.inj hnil).1 h.1
  · rfl

theorem takeWhole?_append {whole rest : Text} (h : IsWhole whole)
    (hrest : ∀ c ∈ rest.head?, c.isDigit = false) :
    takeWhole? (whole ++ rest) = some (whole, rest) := by
  obtain rfl | ⟨hdigits, hhead⟩ := h
  · rfl
  · cases whole with
    | nil => exact absurd rfl hdigits.1
    | cons c whole =>
      have hc : c ≠ '0' := by simpa using hhead
      have htaken := takeDigits?_append hdigits hrest
      unfold takeWhole?
      split
      · simp_all
      · exact htaken

theorem takeFraction?_append {fraction rest : Text} (h : IsFraction fraction)
    (hrest : ∀ c ∈ rest.head?, c.isDigit = false ∧ c ≠ '.') :
    takeFraction? (fraction ++ rest) = some (fraction, rest) := by
  obtain rfl | ⟨digits, hdigits, rfl⟩ := h
  · cases rest with
    | nil => rfl
    | cons c rest =>
      have hc := (hrest c (by simp)).2
      unfold takeFraction?
      split <;> simp_all
  · have htaken := takeDigits?_append hdigits fun c hc => (hrest c hc).1
    simp [takeFraction?, htaken]

theorem takeSign_append {sign digits : Text} (h : sign ∈ [[], ['+'], ['-']])
    (hdigits : Digits digits) (rest : Text) :
    takeSign (sign ++ (digits ++ rest)) = (sign, digits ++ rest) := by
  simp at h
  obtain rfl | rfl | rfl := h
  · cases digits with
    | nil => exact absurd rfl hdigits.1
    | cons c digits =>
      have hdigit := hdigits.2 c (by simp)
      have hminus : c ≠ '-' := ne_of_isDigit hdigit (by decide)
      have hplus : c ≠ '+' := ne_of_isDigit hdigit (by decide)
      unfold takeSign
      split <;> simp_all
  · rfl
  · rfl

theorem takeExponent?_append {exponent rest : Text} (h : IsExponent exponent)
    (hrest : ∀ c ∈ rest.head?, c.isDigit = false ∧ c ∉ ['e', 'E']) :
    takeExponent? (exponent ++ rest) = some (exponent, rest) := by
  obtain rfl | ⟨letter, sign, digits, hletter, hsign, hdigits, rfl⟩ := h
  · cases rest with
    | nil => rfl
    | cons c rest =>
      have hc := (hrest c (by simp)).2
      simp at hc
      simp [takeExponent?, hc]
  · have htaken := takeDigits?_append hdigits fun c hc => (hrest c hc).1
    have hsigned := takeSign_append hsign hdigits rest
    simp at hletter
    simp [takeExponent?, hletter, hsigned, htaken]

theorem head?_fraction {fraction : Text} (h : IsFraction fraction) :
    ∀ c ∈ fraction.head?, c = '.' := by
  obtain rfl | ⟨digits, -, rfl⟩ := h <;> simp

theorem head?_exponent {exponent : Text} (h : IsExponent exponent) :
    ∀ c ∈ exponent.head?, c ∈ ['e', 'E'] := by
  obtain rfl | ⟨letter, sign, digits, hletter, -, -, rfl⟩ := h
  · simp
  · simpa using hletter

theorem whole_head {whole : Text} (h : IsWhole whole) :
    ∃ c rest, whole = c :: rest ∧ c.isDigit := by
  obtain rfl | ⟨⟨hne, hall⟩, -⟩ := h
  · exact ⟨'0', [], rfl, by decide⟩
  · obtain ⟨c, rest, rfl⟩ := List.exists_cons_of_ne_nil hne
    exact ⟨c, rest, rfl, hall c (by simp)⟩

theorem number_head {digits : Text} (h : IsNumber digits) :
    ∃ c rest, digits = c :: rest ∧ (c = '-' ∨ c.isDigit) := by
  obtain ⟨sign, whole, fraction, exponent, hsign, hwhole, -, -, rfl⟩ := h
  obtain ⟨c, tail, rfl, hc⟩ := whole_head hwhole
  simp at hsign
  obtain rfl | rfl := hsign
  · exact ⟨c, tail ++ fraction ++ exponent, rfl, Or.inr hc⟩
  · exact ⟨'-', c :: tail ++ fraction ++ exponent, rfl, Or.inl rfl⟩

theorem readNumber_append {digits rest : Text} (h : IsNumber digits) (hrest : Ends rest) :
    readNumber (digits ++ rest) = some (digits, rest) := by
  obtain ⟨sign, whole, fraction, exponent, hsign, hwhole, hfraction, hexponent, rfl⟩ := h
  have hend : ∀ c ∈ rest.head?, c.isDigit = false ∧ c ≠ '.' ∧ c ∉ ['e', 'E'] := by
    intro c hc
    have hstop := hrest c hc
    simp [isBlank, or_assoc] at hstop
    obtain rfl | rfl | rfl | rfl | rfl | rfl | rfl := hstop <;> decide
  -- What follows each part of the number begins with the mark of a later part, or ends it.
  have hmarks : ∀ c ∈ exponent.head?, c.isDigit = false ∧ c ≠ '.' := by
    intro c hc
    have hletter := head?_exponent hexponent c hc
    simp at hletter
    obtain rfl | rfl := hletter <;> decide
  have hafter := head?_append_of hmarks fun c hc => ⟨(hend c hc).1, (hend c hc).2.1⟩
  have hpoint : ∀ c ∈ fraction.head?, c.isDigit = false := by
    intro c hc
    rw [head?_fraction hfraction c hc]
    decide
  have hbehind := head?_append_of hpoint fun c hc => (hafter c hc).1
  have hreadExponent := takeExponent?_append hexponent fun c hc => ⟨(hend c hc).1, (hend c hc).2.2⟩
  have hreadFraction := takeFraction?_append hfraction hafter
  have hreadWhole := takeWhole?_append hwhole hbehind
  simp at hsign
  obtain rfl | rfl := hsign
  · obtain ⟨c, tail, rfl, hc⟩ := whole_head hwhole
    have hminus : c ≠ '-' := ne_of_isDigit hc (by decide)
    unfold readNumber
    split
    rename_i hsigned
    split at hsigned
    · simp_all
    · simp_all
  · simp [readNumber, hreadWhole, hreadFraction, hreadExponent]

/-! ## Scalars -/

theorem readScalar_append {json : Json} {text rest : Text} (h : IsScalar json text)
    (hrest : Ends rest) : readScalar (text ++ rest) = some (json, rest) := by
  cases h with
  | null => rfl
  | true => rfl
  | false => rfl
  | string hletters => simp [readScalar, readString_append hletters]
  | number hnumber =>
    have hread := readNumber_append hnumber hrest
    obtain ⟨c, tail, rfl, hc⟩ := number_head hnumber
    unfold readScalar
    split
    all_goals simp_all

/-! ## Arrays and objects -/

/-- The first character is one that a value or a quoted name can begin with. -/
def Starts (text : Text) : Prop :=
  ∃ c rest, text = c :: rest ∧ isBlank c = false ∧ c ∉ [',', ']', '}']

theorem Starts.skipBlanks_eq {text : Text} (h : Starts text) (rest : Text) :
    skipBlanks (text ++ rest) = text ++ rest := by
  obtain ⟨c, tail, rfl, hblank, -⟩ := h
  exact skipBlanks_cons hblank _

/-- The first character behind the blanks closes nothing. -/
def Opens (text : Text) : Prop := ∃ c rest, skipBlanks text = c :: rest ∧ c ∉ [',', ']', '}']

theorem Starts.opens {blanks text : Text} (h : Starts text) (hblanks : Blanks blanks)
    (rest : Text) : Opens (blanks ++ (text ++ rest)) := by
  have htext := h.skipBlanks_eq rest
  obtain ⟨c, tail, rfl, -, hc⟩ := h
  exact ⟨c, tail ++ rest, (skipBlanks_append hblanks _).trans htext, hc⟩

theorem countP_le_length_skipBlanks (text : Text) :
    text.countP (! isBlank ·) ≤ (skipBlanks text).length := by
  induction text with
  | nil => simp
  | cons c rest ih =>
    by_cases hc : isBlank c
    · simpa [skipBlanks, hc] using ih
    · have hlength := List.countP_le_length (p := fun d => ! isBlank d) (l := rest)
      simpa [skipBlanks, hc] using hlength

/-- There is a comma for each entry but the last. -/
theorem Series.length_le {α : Type} {entry : α → Text → Prop} {as : List α} {text : Text}
    (h : Series entry as text) : as.length ≤ text.countP (! isBlank ·) + 1 := by
  have hcomma : isBlank ',' = false := by decide
  induction h with
  | last _ => simp
  | more _ _ ih =>
    simp [hcomma]
    omega

theorem Series.length_le_skipBlanks {α : Type} {entry : α → Text → Prop} {as : List α}
    {text : Text} (h : Series entry as text) {c : Char} (hc : isBlank c = false) (rest : Text) :
    as.length ≤ (skipBlanks (text ++ c :: rest)).length := by
  have hcount := countP_le_length_skipBlanks (text ++ c :: rest)
  have hlength := h.length_le
  simp [hc] at hcount
  omega

theorem Series.opens {α : Type} {entry : α → Text → Prop} {as : List α} {text : Text}
    (h : Series entry as text) (hentry : ∀ {a t}, entry a t → ∀ rest, Opens (t ++ rest))
    (rest : Text) : Opens (text ++ rest) := by
  cases h with
  | last ha => exact hentry ha rest
  | more ha _ =>
    rw [List.append_assoc]
    exact hentry ha _

/-- What the grammar makes a value is read as that value, whatever ends it. -/
structure Reads (value : Json → Text → Prop) (read : Text → Option (Json × Text)) : Prop where
  starts : ∀ {json text}, value json text → Starts text
  append : ∀ {json text rest}, value json text → Ends rest → read (text ++ rest) = some (json, rest)

section

variable {value : Json → Text → Prop} {read : Text → Option (Json × Text)}

theorem Reads.padded (h : Reads value read) {json : Json} {text : Text} {c : Char}
    (hpadded : Padded value json text) (hc : c ∈ [',', ']', '}']) (rest : Text) :
    ∃ after, read (skipBlanks (text ++ c :: rest)) = some (json, after) ∧
      skipBlanks after = c :: rest := by
  obtain ⟨hbefore, hvalue, hafter⟩ := hpadded
  rename_i before text after
  have hstop : isBlank c = false := by
    simp at hc
    obtain rfl | rfl | rfl := hc <;> decide
  refine ⟨after ++ c :: rest, ?_, ?_⟩
  · rw [List.append_assoc, skipBlanks_append hbefore, List.append_assoc,
      (h.starts hvalue).skipBlanks_eq]
    exact h.append hvalue (ends_append hafter (ends_cons hc rest))
  · rw [skipBlanks_append hafter, skipBlanks_cons hstop]

theorem Reads.opens_padded (h : Reads value read) {json : Json} {text : Text}
    (hpadded : Padded value json text) (rest : Text) : Opens (text ++ rest) := by
  obtain ⟨hbefore, hvalue, -⟩ := hpadded
  rw [List.append_assoc, List.append_assoc]
  exact (h.starts hvalue).opens hbefore _

theorem readItems_skipBlanks (limit : Nat) (text : Text) :
    readItems read limit (skipBlanks text) = readItems read limit text := by
  cases limit with
  | zero => rfl
  | succ limit => simp [readItems, skipBlanks_skipBlanks]

theorem Reads.readItems (h : Reads value read) {items : List Json} {text : Text}
    (hitems : Series (Padded value) items text) (rest : Text) {limit : Nat}
    (hlimit : items.length ≤ limit) :
    readItems read limit (text ++ ']' :: rest) = some (items, rest) := by
  induction hitems generalizing limit with
  | last hitem =>
    obtain ⟨after, hread, hbracket⟩ := h.padded hitem (c := ']') (by simp) rest
    cases limit with
    | zero => simp at hlimit
    | succ limit => simp [Json.readItems, hread, hbracket]
  | @more item items text others hitem _ ih =>
    obtain ⟨after, hread, hcomma⟩ := h.padded hitem (c := ',') (by simp) (others ++ ']' :: rest)
    cases limit with
    | zero => simp at hlimit
    | succ limit =>
      have hothers : items.length ≤ limit := by simpa using hlimit
      simp [Json.readItems, hread, hcomma, ih hothers]

theorem readName_append {name before spelled after : Text} (hbefore : Blanks before)
    (hname : Letters name spelled) (hafter : Blanks after) (rest : Text) :
    readName (before ++ '"' :: (spelled ++ '"' :: (after ++ ':' :: rest))) = some (name, rest) := by
  have hquote := skipBlanks_cons (c := '"') (by decide)
  have hcolon := skipBlanks_cons (c := ':') (by decide)
  simp [readName, skipBlanks_append hbefore, hquote, readString_append hname,
    skipBlanks_append hafter, hcolon]

theorem opens_member {member : Text × Json} {text : Text} (h : IsMember value member text)
    (rest : Text) : Opens (text ++ rest) := by
  obtain ⟨hbefore, -, -, -⟩ := h
  rename_i before spelled after text
  have hquote : Starts ['"'] := ⟨'"', [], rfl, by decide, by decide⟩
  simpa using hquote.opens hbefore (spelled ++ '"' :: (after ++ ':' :: (text ++ rest)))

theorem readMembers_skipBlanks (limit : Nat) (text : Text) :
    readMembers read limit (skipBlanks text) = readMembers read limit text := by
  cases limit with
  | zero => rfl
  | succ limit => simp [readMembers, readName, skipBlanks_skipBlanks]

theorem Reads.readMembers (h : Reads value read) {members : List (Text × Json)} {text : Text}
    (hmembers : Series (IsMember value) members text) (rest : Text) {limit : Nat}
    (hlimit : members.length ≤ limit) :
    readMembers read limit (text ++ '}' :: rest) = some (members, rest) := by
  induction hmembers generalizing limit with
  | last hmember =>
    obtain ⟨hbefore, hname, hafter, hvalue⟩ := hmember
    obtain ⟨after, hread, hbrace⟩ := h.padded hvalue (c := '}') (by simp) rest
    cases limit with
    | zero => simp at hlimit
    | succ limit => simp [Json.readMembers, readName_append hbefore hname hafter, hread, hbrace]
  | @more member members text others hmember _ ih =>
    obtain ⟨hbefore, hname, hafter, hvalue⟩ := hmember
    obtain ⟨after, hread, hcomma⟩ := h.padded hvalue (c := ',') (by simp) (others ++ '}' :: rest)
    cases limit with
    | zero => simp at hlimit
    | succ limit =>
      have hothers : members.length ≤ limit := by simpa using hlimit
      simp [Json.readMembers, readName_append hbefore hname hafter, hread, hcomma, ih hothers]

end

theorem scalar_head {json : Json} {text : Text} (h : IsScalar json text) :
    ∃ c rest, text = c :: rest ∧ c ∉ ['[', '{', ' ', '\t', '\n', '\r', ',', ']', '}'] := by
  cases h with
  | null => exact ⟨'n', _, rfl, by decide⟩
  | true => exact ⟨'t', _, rfl, by decide⟩
  | false => exact ⟨'f', _, rfl, by decide⟩
  | string _ => exact ⟨'"', _, rfl, by decide⟩
  | number hnumber =>
    obtain ⟨c, rest, rfl, hc⟩ := number_head hnumber
    refine ⟨c, rest, rfl, fun hmem => ?_⟩
    simp only [List.mem_cons, List.not_mem_nil, or_false] at hmem
    rcases hmem with rfl | rfl | rfl | rfl | rfl | rfl | rfl | rfl | rfl <;>
      exact absurd hc (by decide)

theorem starts_of_isScalar {json : Json} {text : Text} (h : IsScalar json text) : Starts text := by
  obtain ⟨c, rest, rfl, hc⟩ := scalar_head h
  simp at hc
  exact ⟨c, rest, rfl, by simp [isBlank, hc], by simp [hc]⟩

theorem starts_of_isNested {value : Json → Text → Prop} {json : Json} {text : Text}
    (h : IsNested value json text) : Starts text := by
  cases h with
  | scalar hscalar => exact starts_of_isScalar hscalar
  | emptyArray _ => exact ⟨'[', _, rfl, by decide, by decide⟩
  | array _ => exact ⟨'[', _, rfl, by decide, by decide⟩
  | emptyObject _ => exact ⟨'{', _, rfl, by decide, by decide⟩
  | object _ => exact ⟨'{', _, rfl, by decide, by decide⟩

theorem readValue_of_isScalar (depth : Nat) {json : Json} {text rest : Text}
    (h : IsScalar json text) (hrest : Ends rest) :
    readValue depth (text ++ rest) = some (json, rest) := by
  have hread := readScalar_append h hrest
  cases depth with
  | zero => exact hread
  | succ depth =>
    obtain ⟨c, tail, rfl, hc⟩ := scalar_head h
    simp at hc
    unfold readValue
    split <;> simp_all

theorem reads_value (depth : Nat) : Reads (IsValue depth) (readValue depth) := by
  induction depth with
  | zero => exact ⟨starts_of_isScalar, readScalar_append⟩
  | succ depth ih =>
    refine ⟨starts_of_isNested, fun {json text rest} h hrest => ?_⟩
    cases h with
    | scalar hscalar => exact readValue_of_isScalar (depth + 1) hscalar hrest
    | emptyArray hblanks =>
      have hbracket := skipBlanks_cons (c := ']') (by decide)
      simp [readValue, skipBlanks_append hblanks, hbracket]
    | @array items text hitems =>
      -- The reader skips blanks before it looks for items, and again before the first one.
      have hlimit := hitems.length_le_skipBlanks (c := ']') (by decide) rest
      have hread := ih.readItems hitems rest hlimit
      obtain ⟨c, tail, htail, hc⟩ := hitems.opens ih.opens_padded (']' :: rest)
      rw [← readItems_skipBlanks, htail, List.length_cons] at hread
      simp at hc
      simp [readValue, htail, hc, hread]
    | emptyObject hblanks =>
      have hbrace := skipBlanks_cons (c := '}') (by decide)
      simp [readValue, skipBlanks_append hblanks, hbrace]
    | @object members text hmembers =>
      have hlimit := hmembers.length_le_skipBlanks (c := '}') (by decide) rest
      have hread := ih.readMembers hmembers rest hlimit
      obtain ⟨c, tail, htail, hc⟩ := hmembers.opens opens_member ('}' :: rest)
      rw [← readMembers_skipBlanks, htail, List.length_cons] at hread
      simp at hc
      simp [readValue, htail, hc, hread]

theorem Reads.whole {value : Json → Text → Prop} {read : Text → Option (Json × Text)}
    (h : Reads value read) {json : Json} {text : Text} (hpadded : Padded value json text) :
    ∃ after, read (skipBlanks text) = some (json, after) ∧ skipBlanks after = [] := by
  obtain ⟨hbefore, hvalue, hafter⟩ := hpadded
  rename_i before text after
  have hends : Ends after := by simpa using ends_append hafter ends_nil
  refine ⟨after, ?_, skipBlanks_blanks hafter⟩
  rw [skipBlanks_append hbefore, (h.starts hvalue).skipBlanks_eq]
  exact h.append hvalue hends

/-- A text that holds a value, nested no deeper than the reader allows, is read as that value. -/
theorem read?_of_padded {json : Json} {text : Text} (h : Padded (IsValue maxDepth) json text) :
    read? text = some json := by
  obtain ⟨after, hread, hblanks⟩ := (reads_value maxDepth).whole h
  simp [read?, hread, hblanks]

/-- What is printed is read again, in either layout. -/
theorem read?_print (layout : Layout) {json : Json} (h : json.WellFormed maxDepth) :
    read? (json.print layout) = some json :=
  read?_of_padded (padded_print layout h)

end LinkTemplate.Json
