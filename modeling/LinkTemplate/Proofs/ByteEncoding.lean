import Mathlib.Data.List.Basic
import LinkTemplate.Percent
/-!
# Encoding byte by byte and character by character

A text without reserved characters is written byte by byte, and one with them character by
character. Both ways agree, since no byte of a wide character is the byte of a narrow one, and what
is encoded already has no reserved character in it, so the two modes differ in the reserved
characters of the text alone.
-/

namespace LinkTemplate.Percent

section

variable {allowReserved : Bool}

/-! ## Characters and their bytes -/

theorem toNat_lt_of_isKept {c : Char} (h : isKept allowReserved c) : c.toNat < 128 := by
  unfold isKept at h
  rw [Bool.or_eq_true, Bool.and_eq_true] at h
  rcases h with h | ⟨-, h⟩
  · unfold isUnreserved at h
    delta Char.isAlphanum Char.isAlpha Char.isUpper Char.isLower Char.isDigit at h
    simp only [Bool.or_eq_true, Bool.and_eq_true, decide_eq_true_eq, ge_iff_le,
      UInt32.le_iff_toNat_le, Char.toNat_val, Char.reduceToNat, or_assoc] at h
    rcases h with h | h | h | rfl | rfl | rfl | rfl
    · omega
    · omega
    · omega
    all_goals decide
  · have hall : ∀ d ∈ reserved, d.toNat < 128 := by simp [reserved]
    exact hall c (List.contains_iff_mem.mp h)

theorem isKept_ofNat_of_le {n : Nat} (hlow : 128 ≤ n) (hhigh : n < 256) :
    isKept allowReserved (Char.ofNat n) = false := by
  have hn : (Char.ofNat n).toNat = n := by
    rw [Char.ofNat, dif_pos (Or.inl (by omega))]
    rfl
  rw [← Bool.not_eq_true]
  intro hkept
  have hlt := toNat_lt_of_isKept hkept
  omega

theorem utf8EncodeChar_of_lt {c : Char} (h : c.toNat < 128) :
    String.utf8EncodeChar c = [UInt8.ofNat c.toNat] := by
  unfold String.utf8EncodeChar
  exact if_pos (Nat.le_of_lt_succ h)

/-- A wide character has no byte in common with a narrow one. -/
theorem le_of_mem_utf8EncodeChar {c : Char} (h : 128 ≤ c.toNat) :
    ∀ byte ∈ String.utf8EncodeChar c, 128 ≤ byte.toNat := by
  have hwide : ¬ c.val.toNat ≤ 127 := Nat.not_le.mpr h
  unfold String.utf8EncodeChar
  rw [if_neg hwide]
  -- Two, three or four bytes.
  split
  on_goal 2 => split
  all_goals
    simp only [List.mem_cons, List.not_mem_nil, or_false, forall_eq_or_imp, forall_eq,
      UInt8.toNat_ofNat']
    omega

/-! ## Bytes one by one -/

def encodeOctet (allowReserved : Bool) (byte : UInt8) : Text :=
  if isKept allowReserved (Char.ofNat byte.toNat) then [Char.ofNat byte.toNat]
  else encodeByte byte

theorem flatMap_encodeOctet_utf8EncodeChar (c : Char) :
    (String.utf8EncodeChar c).flatMap (encodeOctet allowReserved) =
      if isKept allowReserved c then [c] else encodeChar c := by
  unfold encodeChar
  rcases Nat.lt_or_ge c.toNat 128 with h | h
  · have hc : Char.ofNat (UInt8.ofNat c.toNat).toNat = c := by
      rw [UInt8.toNat_ofNat_of_lt' (Nat.lt_trans h (by decide)), Char.ofNat_toNat]
    rw [utf8EncodeChar_of_lt h, List.flatMap_singleton, List.flatMap_singleton, encodeOctet, hc]
  · have hchar : ¬ isKept allowReserved c := fun hkept => by
      have hlt := toNat_lt_of_isKept hkept
      omega
    rw [if_neg hchar]
    refine List.flatMap_congr fun byte hbyte => ?_
    have hkept := @isKept_ofNat_of_le allowReserved _ (le_of_mem_utf8EncodeChar h byte hbyte)
      byte.toNat_lt
    simp [encodeOctet, hkept]

theorem isPlain_eq (byte : UInt8) : isPlain byte = isKept false (Char.ofNat byte.toNat) := by
  have hall : ∀ n < 256, isPlain (UInt8.ofNat n) = isKept false (Char.ofNat n) := by
    decide +kernel
  have h := hall byte.toNat byte.toNat_lt
  rwa [UInt8.ofNat_toNat] at h

theorem encodeBytes_eq_flatMap (bytes : List UInt8) :
    encodeBytes bytes = bytes.flatMap (encodeOctet false) := by
  refine List.flatMap_congr fun byte _ => ?_
  rw [isPlain_eq]
  rfl

/-! ## Texts in either mode -/

theorem encode_eq_flatMap_chars (text : Text) :
    encode allowReserved text =
      text.flatMap fun c => if isKept allowReserved c then [c] else encodeChar c := by
  cases allowReserved with
  | true => rfl
  | false =>
    simp only [encode, encodeWith, encodeUtf8, Bool.false_eq_true, if_false]
    rw [encodeBytes_eq_flatMap, List.flatMap_assoc]
    exact List.flatMap_congr fun c _ => flatMap_encodeOctet_utf8EncodeChar c

theorem encode_eq_flatMap (text : Text) :
    encode allowReserved text =
      (text.flatMap String.utf8EncodeChar).flatMap (encodeOctet allowReserved) := by
  rw [encode_eq_flatMap_chars, List.flatMap_assoc]
  simp only [flatMap_encodeOctet_utf8EncodeChar]

end

/-! ## The characters of an encoded character -/

theorem isUnreserved_hexDigit : ∀ n < 16, isUnreserved (hexDigit n) := by decide

theorem mem_encodeChar {c d : Char} (h : d ∈ encodeChar c) : isUnreserved d ∨ d = '%' := by
  obtain ⟨byte, -, hd⟩ := List.mem_flatMap.mp h
  have hlt : byte.toNat < 256 := byte.toNat_lt
  simp only [encodeByte, List.mem_cons, List.not_mem_nil, or_false] at hd
  rcases hd with rfl | rfl | rfl
  · exact Or.inr rfl
  · exact Or.inl (isUnreserved_hexDigit _ (by omega))
  · exact Or.inl (isUnreserved_hexDigit _ (by omega))

theorem isReserved_of_isUnreserved {c : Char} (h : isUnreserved c) : isReserved c = false := by
  have hall : ∀ d ∈ reserved, isUnreserved d = false := by simp [reserved, isUnreserved]
  rw [← Bool.not_eq_true]
  intro hreserved
  rw [hall c (List.contains_iff_mem.mp hreserved)] at h
  cases h

theorem isReserved_of_mem_encodeChar {c d : Char} (h : d ∈ encodeChar c) :
    isReserved d = false := by
  rcases mem_encodeChar h with hd | rfl
  · exact isReserved_of_isUnreserved hd
  · decide

/-! ## From one mode to the other -/

/-- Encodes the reserved characters and leaves all others alone. -/
def encodeReserved (text : Text) : Text :=
  text.flatMap fun c => if isReserved c then encodeChar c else [c]

theorem encodeReserved_encodeChar (c : Char) : encodeReserved (encodeChar c) = encodeChar c := by
  have hsame : encodeReserved (encodeChar c) = (encodeChar c).flatMap fun d => [d] := by
    refine List.flatMap_congr fun d hd => ?_
    rw [isReserved_of_mem_encodeChar hd]
    rfl
  rw [hsame, List.flatMap_singleton']

theorem encodeReserved_kept_or_encoded (c : Char) :
    encodeReserved (if isKept true c then [c] else encodeChar c) =
      if isKept false c then [c] else encodeChar c := by
  by_cases hunreserved : isUnreserved c
  · have hreserved := isReserved_of_isUnreserved hunreserved
    simp [isKept, hunreserved, encodeReserved, hreserved]
  · by_cases hreserved : isReserved c
    · simp [isKept, hunreserved, hreserved, encodeReserved]
    · simp [isKept, hunreserved, hreserved, encodeReserved_encodeChar]

theorem encode_false_eq (text : Text) :
    encode false text = text.flatMap fun c => if isUnreserved c then [c] else encodeChar c := by
  have hkept : ∀ c, isKept false c = isUnreserved c := fun c => by simp [isKept]
  rw [encode_eq_flatMap_chars]
  simp only [hkept]

theorem encode_false_eq_encodeReserved (text : Text) :
    encode false text = encodeReserved (encode true text) := by
  rw [encode_eq_flatMap_chars, encode_eq_flatMap_chars, encodeReserved, List.flatMap_assoc]
  exact List.flatMap_congr fun c _ => (encodeReserved_kept_or_encoded c).symm

/-! ## Any encoder of bytes -/

/-- An encoder that writes the bytes of a text one by one, a plain byte as it is and any other one
as a percent sign and two digits. -/
structure EncodesBytes (encodeAll : Text → Text) (octet : UInt8 → Text) : Prop where
  bytes : ∀ text, encodeAll text = (text.flatMap String.utf8EncodeChar).flatMap octet
  plain : ∀ byte, isPlain byte → octet byte = [Char.ofNat byte.toNat]
  other : ∀ byte, ¬ isPlain byte → octet byte = encodeByte byte

theorem encodesBytes_encodeUtf8 : EncodesBytes encodeUtf8
    (fun byte => if isPlain byte then [Char.ofNat byte.toNat] else encodeByte byte) where
  bytes _ := rfl
  plain _ h := if_pos h
  other _ h := if_neg h

theorem EncodesBytes.encodeWith_eq {encodeAll : Text → Text} {octet : UInt8 → Text}
    (h : EncodesBytes encodeAll octet) : encodeWith encodeAll = encode := by
  have hoctet : ∀ byte,
      octet byte = if isPlain byte then [Char.ofNat byte.toNat] else encodeByte byte := by
    intro byte
    split
    · exact h.plain byte ‹_›
    · exact h.other byte ‹_›
  have hall : encodeAll = encodeUtf8 := by
    funext text
    rw [h.bytes]
    exact List.flatMap_congr fun byte _ => hoctet byte
  rw [hall]
  rfl

/-- A text that is encoded byte by byte is encoded as if its characters were taken one by one, each
as it is if it is unreserved and encoded if not. It is also what comes out if the same text is
encoded with its reserved characters left alone and these are encoded afterwards. -/
theorem encode_bytes_as_characters {encodeAll : Text → Text} {octet : UInt8 → Text}
    (h : EncodesBytes encodeAll octet) (text : Text) :
    encodeWith encodeAll false text =
        (text.flatMap fun c => if isUnreserved c then [c] else encodeChar c) ∧
      encodeWith encodeAll false text = encodeReserved (encodeWith encodeAll true text) := by
  rw [h.encodeWith_eq]
  exact ⟨encode_false_eq text, encode_false_eq_encodeReserved text⟩

/-- A character of two bytes and a percent sign are encoded in both modes, reserved ones in one. -/
theorem encode_bytes_as_characters_of_mixed_text :
    let text := "a~é:%2f".toList
    encode false text = "a~%C3%A9%3A%252f".toList ∧
      encode true text = "a~%C3%A9:%252f".toList ∧
      encode false text = (text.flatMap fun c => if isUnreserved c then [c] else encodeChar c) ∧
      encode false text = encodeReserved (encode true text) := by
  intro text
  have h := encode_bytes_as_characters encodesBytes_encodeUtf8 text
  exact ⟨by decide +kernel, by decide +kernel, h.1, h.2⟩

end LinkTemplate.Percent
