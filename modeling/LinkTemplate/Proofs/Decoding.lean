import LinkTemplate.Text.Hexadecimal
import LinkTemplate.Proofs.ByteEncoding
/-!
# Percent-decoding

What a reader of an encoded text does: each percent sign with its two digits is a byte, any other
character is its UTF-8 bytes, and all the bytes together are read as UTF-8.
-/

namespace LinkTemplate.Percent

/-- The bytes of an encoded text, if each percent sign has two digits behind it. -/
def bytes? : Text → Option (List UInt8)
  | [] => some []
  | '%' :: high :: low :: rest =>
    match Hexadecimal.value? high, Hexadecimal.value? low with
    | some h, some l => (bytes? rest).map (UInt8.ofNat (16 * h + l) :: ·)
    | _, _ => none
  | c :: rest => if c = '%' then none else (bytes? rest).map (String.utf8EncodeChar c ++ ·)

def decode? (text : Text) : Option Text :=
  (bytes? text).bind fun bytes => bytes.toByteArray.utf8Decode?.map Array.toList

/-! ## Decoding what has been encoded -/

theorem value?_hexDigit : ∀ n < 16, Hexadecimal.value? (hexDigit n) = some n := by decide

theorem bytes?_encodeByte_append (byte : UInt8) (rest : Text) :
    bytes? (encodeByte byte ++ rest) = (bytes? rest).map (byte :: ·) := by
  have hlt : byte.toNat < 256 := byte.toNat_lt
  have hhigh := value?_hexDigit (byte.toNat / 16) (by omega)
  have hlow := value?_hexDigit (byte.toNat % 16) (by omega)
  have hbyte : UInt8.ofNat (16 * (byte.toNat / 16) + byte.toNat % 16) = byte := by
    rw [Nat.div_add_mod, UInt8.ofNat_toNat]
  simp only [encodeByte, List.cons_append, List.nil_append, bytes?, hhigh, hlow, hbyte]

theorem bytes?_encodeChar_append (c : Char) (rest : Text) :
    bytes? (encodeChar c ++ rest) = (bytes? rest).map (String.utf8EncodeChar c ++ ·) := by
  unfold encodeChar
  induction String.utf8EncodeChar c with
  | nil => simp
  | cons byte bytes ih =>
    rw [List.flatMap_cons, List.append_assoc, bytes?_encodeByte_append, ih, Option.map_map]
    rfl

theorem bytes?_cons {c : Char} (h : c ≠ '%') (rest : Text) :
    bytes? (c :: rest) = (bytes? rest).map (String.utf8EncodeChar c ++ ·) := by
  rw [bytes?, if_neg h]
  rintro high low rest' rfl
  exact absurd rfl h

theorem isKept_percent (allowReserved : Bool) : isKept allowReserved '%' = false := by
  cases allowReserved <;> decide

theorem bytes?_encode (allowReserved : Bool) (text : Text) :
    bytes? (encode allowReserved text) = some (text.flatMap String.utf8EncodeChar) := by
  rw [encode_eq_flatMap_chars]
  induction text with
  | nil => rfl
  | cons c text ih =>
    rw [List.flatMap_cons, List.flatMap_cons]
    split
    · rename_i hkept
      have hc : c ≠ '%' := by
        rintro rfl
        rw [isKept_percent] at hkept
        cases hkept
      rw [List.singleton_append, bytes?_cons hc, ih]
      rfl
    · rw [bytes?_encodeChar_append, ih]
      rfl

@[simp] theorem decode?_encode (allowReserved : Bool) (text : Text) :
    decode? (encode allowReserved text) = some text := by
  have hutf8 : (text.flatMap String.utf8EncodeChar).toByteArray = text.utf8Encode := rfl
  simp [decode?, bytes?_encode, hutf8]

theorem encode_injective {allowReserved : Bool} {s t : Text}
    (h : encode allowReserved s = encode allowReserved t) : s = t := by
  have hdecode := congrArg decode? h
  simpa using hdecode

/-! ## Texts that decode to themselves -/

theorem ne_percent_of_value? {c : Char} {n : Nat} (h : Hexadecimal.value? c = some n) :
    c ≠ '%' := by
  rintro rfl
  have hnone : Hexadecimal.value? '%' = none := by decide
  simp [hnone] at h

/-- A percent sign and its digits are three characters and stand for one byte. -/
theorem length_bytes?_le {text : Text} {bytes : List UInt8} (h : bytes? text = some bytes) :
    bytes.length + 2 * text.count '%' ≤ (text.flatMap String.utf8EncodeChar).length := by
  fun_induction bytes? text generalizing bytes with
  | case1 => simp_all
  | case2 high low rest _ _ hlow hhigh ih =>
    obtain ⟨more, hmore, rfl⟩ := Option.map_eq_some_iff.mp h
    have hle := ih hmore
    have hhigh' := ne_percent_of_value? hhigh
    have hlow' := ne_percent_of_value? hlow
    have hpercentSize := Char.utf8Size_pos '%'
    have hhighSize := Char.utf8Size_pos high
    have hlowSize := Char.utf8Size_pos low
    simp [hhigh', hlow'] at hle ⊢
    omega
  | case3 => cases h
  | case4 => cases h
  | case5 c rest _ hc ih =>
    obtain ⟨more, hmore, rfl⟩ := Option.map_eq_some_iff.mp h
    have hle := ih hmore
    simp [hc] at hle ⊢
    omega

theorem bytes?_of_no_percent {text : Text} (h : '%' ∉ text) :
    bytes? text = some (text.flatMap String.utf8EncodeChar) := by
  induction text with
  | nil => rfl
  | cons c text ih =>
    rw [List.mem_cons, not_or] at h
    rw [bytes?_cons (Ne.symm h.1), ih h.2]
    rfl

/-- The bytes that are read as UTF-8 are those of the text that comes out. -/
theorem bytes?_of_decode? {text decoded : Text} (h : decode? text = some decoded) :
    bytes? text = some (decoded.flatMap String.utf8EncodeChar) := by
  obtain ⟨bytes, hbytes, hdecode⟩ := Option.bind_eq_some_iff.mp h
  obtain ⟨chars, hchars, rfl⟩ := Option.map_eq_some_iff.mp hdecode
  obtain ⟨hsome, hget⟩ := Option.eq_some_iff_get_eq.mp hchars
  have hutf8 : chars.toList.utf8Encode = bytes.toByteArray := by
    rw [← hget]
    exact ByteArray.utf8Encode_get_utf8Decode?
  rw [hbytes, ← List.toByteArray_inj.mp hutf8]

/-- Decoding takes two bytes or more off for each percent sign. -/
theorem length_decode?_le {text decoded : Text} (h : decode? text = some decoded) :
    (decoded.flatMap String.utf8EncodeChar).length + 2 * text.count '%' ≤
      (text.flatMap String.utf8EncodeChar).length :=
  length_bytes?_le (bytes?_of_decode? h)

theorem decode?_eq_self_iff {text : Text} : decode? text = some text ↔ '%' ∉ text := by
  constructor
  · intro h
    have hle := length_decode?_le h
    rw [← List.count_eq_zero]
    omega
  · intro h
    have hutf8 : (text.flatMap String.utf8EncodeChar).toByteArray = text.utf8Encode := rfl
    simp [decode?, bytes?_of_no_percent h, hutf8]

/-- A text that starts another one decodes to that other one only if they are the same. -/
theorem eq_of_decode?_of_isPrefix {s t : Text} (hstart : s <+: t) (h : decode? s = some t) :
    s = t ∧ '%' ∉ t := by
  obtain ⟨more, rfl⟩ := hstart
  have hle := length_decode?_le h
  have hmore : more = [] := by
    cases more with
    | nil => rfl
    | cons c more =>
      have hsize := Char.utf8Size_pos c
      simp at hle
      omega
  subst hmore
  rw [List.append_nil] at h ⊢
  exact ⟨rfl, decode?_eq_self_iff.mp h⟩

/-! ## The characters of an encoded text -/

theorem mem_encode {allowReserved : Bool} {text : Text} {d : Char}
    (h : d ∈ encode allowReserved text) : isKept allowReserved d ∨ d = '%' := by
  rw [encode_eq_flatMap_chars] at h
  obtain ⟨c, -, hd⟩ := List.mem_flatMap.mp h
  split at hd
  · rename_i hkept
    obtain rfl := List.mem_singleton.mp hd
    exact Or.inl hkept
  · refine (mem_encodeChar hd).imp_left fun hunreserved => ?_
    simp [isKept, hunreserved]

end LinkTemplate.Percent
