import LinkTemplate.Proofs.Decoding
/-!
# The texts that are encoded

What encoding writes is decided byte by byte: a byte that is a kept character is written as that
character, and any other as a percent sign with two digits. So an encoded text is known from its
bytes, and only one text in canonical form has these bytes.
-/

namespace LinkTemplate.Percent

/-! ## Canonical texts -/

section

variable {allowReserved : Bool}

def upperDigits : List Char := "0123456789ABCDEF".toList

variable (allowReserved) in
/-- Characters that are kept, and percent signs with two upper-case digits for bytes that are not
kept as characters. -/
inductive Canonical : Text → Prop
  | nil : Canonical []
  | kept {c : Char} {text : Text} : isKept allowReserved c → Canonical text → Canonical (c :: text)
  | octet {h l : Nat} {high low : Char} {text : Text} : upperDigits[h]? = some high →
      upperDigits[l]? = some low → isKept allowReserved (Char.ofNat (16 * h + l)) = false →
      Canonical text → Canonical ('%' :: high :: low :: text)

theorem upperDigits_getElem? {n : Nat} (h : n < 16) : upperDigits[n]? = some (hexDigit n) := by
  have hall : ∀ n < 16, upperDigits[n]? = some (hexDigit n) := by decide
  exact hall n h

theorem eq_hexDigit_of_upperDigits {n : Nat} {c : Char} (h : upperDigits[n]? = some c) :
    n < 16 ∧ c = hexDigit n := by
  have hn : n < 16 := (List.getElem?_eq_some_iff.mp h).1
  rw [upperDigits_getElem? hn] at h
  exact ⟨hn, (Option.some.inj h).symm⟩

theorem encodeOctet_ofNat {h l : Nat} (hh : h < 16) (hl : l < 16)
    (hkept : isKept allowReserved (Char.ofNat (16 * h + l)) = false) :
    encodeOctet allowReserved (UInt8.ofNat (16 * h + l)) = ['%', hexDigit h, hexDigit l] := by
  have hbyte : (UInt8.ofNat (16 * h + l)).toNat = 16 * h + l :=
    UInt8.toNat_ofNat_of_lt' (show 16 * h + l < 256 by omega)
  have hdigits : (16 * h + l) / 16 = h ∧ (16 * h + l) % 16 = l := by omega
  rw [encodeOctet, encodeByte, hbyte, hkept, hdigits.1, hdigits.2]
  rfl

theorem Canonical.encodeOctet_append {text : Text} (h : Canonical allowReserved text)
    (byte : UInt8) : Canonical allowReserved (encodeOctet allowReserved byte ++ text) := by
  have hlt : byte.toNat < 256 := byte.toNat_lt
  unfold encodeOctet
  split
  · rename_i hkept
    exact .kept hkept h
  · rename_i hkept
    refine .octet (upperDigits_getElem? (n := byte.toNat / 16) (by omega))
      (upperDigits_getElem? (n := byte.toNat % 16) (by omega)) ?_ h
    rw [Nat.div_add_mod]
    simpa using hkept

theorem canonical_flatMap (bytes : List UInt8) :
    Canonical allowReserved (bytes.flatMap (encodeOctet allowReserved)) := by
  induction bytes with
  | nil => exact .nil
  | cons byte bytes ih => exact ih.encodeOctet_append byte

/-- A canonical text is written again from its bytes. -/
theorem Canonical.eq_flatMap {text : Text} (h : Canonical allowReserved text) {bytes : List UInt8}
    (hbytes : bytes? text = some bytes) : text = bytes.flatMap (encodeOctet allowReserved) := by
  induction h generalizing bytes with
  | nil =>
    cases hbytes
    rfl
  | @kept c text hkept _ ih =>
    have hc : c ≠ '%' := by
      rintro rfl
      rw [isKept_percent] at hkept
      cases hkept
    rw [bytes?_cons hc] at hbytes
    obtain ⟨more, hmore, rfl⟩ := Option.map_eq_some_iff.mp hbytes
    rw [List.flatMap_append, flatMap_encodeOctet_utf8EncodeChar, if_pos hkept, ← ih hmore]
    rfl
  | @octet h l high low text hhigh hlow hkept _ ih =>
    obtain ⟨hh, rfl⟩ := eq_hexDigit_of_upperDigits hhigh
    obtain ⟨hl, rfl⟩ := eq_hexDigit_of_upperDigits hlow
    simp only [bytes?, value?_hexDigit h hh, value?_hexDigit l hl] at hbytes
    obtain ⟨more, hmore, rfl⟩ := Option.map_eq_some_iff.mp hbytes
    rw [List.flatMap_cons, ← ih hmore, encodeOctet_ofNat hh hl hkept]
    rfl

theorem encode_eq_iff {text written : Text} :
    encode allowReserved text = written ↔
      Canonical allowReserved written ∧ decode? written = some text := by
  constructor
  · rintro rfl
    rw [decode?_encode, encode_eq_flatMap]
    exact ⟨canonical_flatMap _, rfl⟩
  · rintro ⟨hcanonical, hdecode⟩
    rw [encode_eq_flatMap]
    exact (hcanonical.eq_flatMap (bytes?_of_decode? hdecode)).symm

end

theorem exists_decode?_iff {written : Text} :
    (∃ text, decode? written = some text) ↔
      ∃ bytes, bytes? written = some bytes ∧ bytes.toByteArray.IsValidUTF8 := by
  have hsome : ∀ bytes : List UInt8, bytes.toByteArray.IsValidUTF8 ↔
      ∃ chars, bytes.toByteArray.utf8Decode? = some chars := by
    intro bytes
    rw [← ByteArray.isSome_utf8Decode?_iff, Option.isSome_iff_exists]
  simp only [hsome, decode?, Option.bind_eq_some_iff, Option.map_eq_some_iff]
  constructor
  · rintro ⟨_, bytes, hbytes, chars, hchars, rfl⟩
    exact ⟨bytes, hbytes, chars, hchars⟩
  · rintro ⟨bytes, hbytes, chars, hchars⟩
    exact ⟨chars.toList, bytes, hbytes, chars, hchars, rfl⟩

/-- Decoding undoes encoding, so no two texts are encoded alike. A text is the encoding of some
text if and only if it is in canonical form and its bytes are UTF-8, and what it encodes is then
what it decodes to. -/
theorem encoded_texts_are_canonical (allowReserved : Bool) :
    (∀ text, decode? (encode allowReserved text) = some text) ∧
    (encode allowReserved).Injective ∧
    ∀ written, ((∃ text, encode allowReserved text = written) ↔ Canonical allowReserved written ∧
        ∃ bytes, bytes? written = some bytes ∧ bytes.toByteArray.IsValidUTF8) ∧
      ∀ text, encode allowReserved text = written ↔
        Canonical allowReserved written ∧ decode? written = some text := by
  refine ⟨decode?_encode allowReserved, fun _ _ => encode_injective, fun written => ⟨?_, ?_⟩⟩
  · rw [← exists_decode?_iff]
    simp only [encode_eq_iff, exists_and_left]
  · exact fun text => encode_eq_iff

/-- A text with a lower-case digit can be decoded, but it is not how that text is encoded. -/
example : decode? "%c3%A9".toList = some ['é'] ∧ encode false ['é'] = "%C3%A9".toList := by
  decide

end LinkTemplate.Percent
