import LinkTemplate.Yaml
/-!
# What a plain scalar stands for

The rules are tried in this order: null, a truth value, a number, and else a string. Numbers are
whole numbers in four bases that fit 128 bits, and decimal numbers that have a finite value in
double precision. Digits after a leading zero are a string.
-/

namespace LinkTemplate.Yaml

inductive Kind
  | null
  | bool
  | number
  | string
  deriving DecidableEq

def nulls : List Text := ["", "~", "null", "Null", "NULL"].map String.toList

def bools : List Text := ["true", "True", "TRUE", "false", "False", "FALSE"].map String.toList

/-! ## Whole numbers -/

def digitValue (c : Char) : Nat :=
  if c.isDigit then c.toNat - 48
  else if c.isLower then c.toNat - 87
  else c.toNat - 55

def isDigitOf (base : Nat) (c : Char) : Bool := c.isAlphanum && digitValue c < base

/-- The value of at least one digit of a base. -/
def wholeValue? (base : Nat) (digits : Text) : Option Nat :=
  if digits ≠ [] ∧ digits.all (isDigitOf base) then
    some (digits.foldl (fun value c => value * base + digitValue c) 0)
  else none

/-- The value of a whole number with the mark of its base. -/
def marked? : Text → Option Nat
  | '0' :: 'x' :: digits => wholeValue? 16 digits
  | '0' :: 'o' :: digits => wholeValue? 8 digits
  | '0' :: 'b' :: digits => wholeValue? 2 digits
  | _ => none

/-- Takes a sign off, and says whether it is a minus. -/
def takeSign : Text → Bool × Text
  | '-' :: rest => (true, rest)
  | '+' :: rest => (false, rest)
  | text => (false, text)

def isMarkedNumber (text : Text) : Bool :=
  let (negative, rest) := takeSign text
  match marked? rest with
  | none => false
  | some value => if negative then value ≤ Nat.pow 2 127 else value < Nat.pow 2 128

/-! ## Decimal numbers -/

/-- Digits after a leading zero, such as a postal code. -/
def isZeroLed (text : Text) : Bool :=
  match (takeSign text).2 with
  | '0' :: c :: rest => (c :: rest).all Char.isDigit
  | _ => false

/-- A decimal number: its digits without the point, and the power of ten of the last one. -/
structure Decimal where
  digits : Text
  exponent : Int

/-- The exponent after the digits; nothing stands for zero. -/
def exponent? : Text → Option Int
  | [] => some 0
  | c :: rest =>
    if c = 'e' ∨ c = 'E' then
      let (negative, digits) := takeSign rest
      (wholeValue? 10 digits).map fun value => if negative then -(value : Int) else value
    else none

def decimal? (text : Text) : Option Decimal :=
  let (whole, rest) := text.span Char.isDigit
  let (fraction, rest) := match rest with
    | '.' :: rest => rest.span Char.isDigit
    | rest => ([], rest)
  if whole = [] ∧ fraction = [] then none
  else (exponent? rest).map fun exponent => ⟨whole ++ fraction, exponent - fraction.length⟩

/-- The least number that rounds to infinity in double precision. -/
def infiniteFrom : Nat := Nat.pow 2 1024 - Nat.pow 2 970

/-- Whether a decimal is below `infiniteFrom`. The count of its digits settles most cases. -/
def Decimal.isFinite (decimal : Decimal) : Bool :=
  let digits := decimal.digits.dropWhile (· = '0')
  let size : Int := digits.length + decimal.exponent
  if digits = [] then true
  else if size ≤ 308 then true
  else if size > 309 then false
  else
    let value := digits.foldl (fun value c => value * 10 + digitValue c) 0
    value * Nat.pow 10 decimal.exponent.toNat < infiniteFrom * Nat.pow 10 (-decimal.exponent).toNat

def isDecimalNumber (text : Text) : Bool :=
  !isZeroLed text &&
    match decimal? (takeSign text).2 with
    | none => false
    | some decimal => decimal.isFinite

/-- Infinity has a sign or none, what is not a number has none. -/
def isSpecialNumber (text : Text) : Bool :=
  [".inf", ".Inf", ".INF"].any (·.toList = (takeSign text).2) ||
    [".nan", ".NaN", ".NAN"].any (·.toList = text)

def kind (text : Text) : Kind :=
  if text ∈ nulls then .null
  else if text ∈ bools then .bool
  else if isMarkedNumber text || isDecimalNumber text || isSpecialNumber text then .number
  else .string

example : ["~", "True", "0x1F", "-.5e3", "1e308", "+.inf"].map (kind ·.toList) =
    [.null, .bool, .number, .number, .number, .number] := by decide +kernel

example : ["012", "1e309", "0x", "1_000", "1.2.3", "-.nan", "yes"].map (kind ·.toList) =
    List.replicate 7 .string := by decide +kernel

end LinkTemplate.Yaml
