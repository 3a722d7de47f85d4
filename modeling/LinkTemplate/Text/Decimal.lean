import LinkTemplate.Text
/-! # Decimal numbers -/

namespace LinkTemplate.Decimal

/-- The decimal digits of a number, with no leading zero. -/
def text (n : Nat) : Text := Nat.toDigits 10 n

/-- What a run of ASCII digits is worth; leading zeros count nothing. -/
def value (digits : Text) : Nat := Nat.ofDigitChars 10 digits 0

@[simp] theorem value_text (n : Nat) : value (text n) = n :=
  Nat.ofDigitChars_toDigits (by decide) (by decide)

theorem isDigit_of_mem_text {n : Nat} {c : Char} (h : c ∈ text n) : c.isDigit :=
  Nat.isDigit_of_mem_toDigits (by decide) (by decide) h

theorem not_mem_text {c : Char} (hc : c.isDigit = false) (n : Nat) : c ∉ text n := fun hmem =>
  Bool.eq_false_iff.mp hc (isDigit_of_mem_text hmem)

end LinkTemplate.Decimal
