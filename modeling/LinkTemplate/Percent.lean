import LinkTemplate.Text
/-!
# Percent-encoding

A character that may not stand for itself is written as its UTF-8 bytes, each as a percent sign and
two upper-case hexadecimal digits. The percent sign itself never stands for itself. Where reserved
characters are encoded too, the text is written byte by byte, without a look at its characters.
-/

namespace LinkTemplate.Percent

def isUnreserved (c : Char) : Bool :=
  c.isAlphanum || c = '-' || c = '.' || c = '_' || c = '~'

def reserved : List Char :=
  [':', '/', '?', '#', '[', ']', '@', '!', '$', '&', '\'', '(', ')', '*', '+', ',', ';', '=']

def isReserved (c : Char) : Bool := reserved.contains c

/-- Whether a character is written as it is. -/
def isKept (allowReserved : Bool) (c : Char) : Bool :=
  isUnreserved c || allowReserved && isReserved c

def hexDigit (n : Nat) : Char :=
  if n < 10 then Char.ofNat (48 + n) else Char.ofNat (55 + n)

def encodeByte (byte : UInt8) : Text :=
  ['%', hexDigit (byte.toNat / 16), hexDigit (byte.toNat % 16)]

def encodeChar (c : Char) : Text := (String.utf8EncodeChar c).flatMap encodeByte

/-- The bytes that are written as they are: `0-9`, `A-Z`, `a-z` and `-._~`. -/
def isPlain (byte : UInt8) : Bool :=
  48 ≤ byte && byte ≤ 57 || 65 ≤ byte && byte ≤ 90 || 97 ≤ byte && byte ≤ 122 ||
    [45, 46, 95, 126].contains byte

def encodeBytes (bytes : List UInt8) : Text :=
  bytes.flatMap fun byte => if isPlain byte then [Char.ofNat byte.toNat] else encodeByte byte

def encodeUtf8 (text : Text) : Text := encodeBytes (text.flatMap String.utf8EncodeChar)

/-- Writes a text without a look at its characters, by `encodeAll`, if none but the unreserved ones
may stand for themselves. -/
def encodeWith (encodeAll : Text → Text) (allowReserved : Bool) (text : Text) : Text :=
  if allowReserved then text.flatMap fun c => if isKept true c then [c] else encodeChar c
  else encodeAll text

def encode (allowReserved : Bool) (text : Text) : Text := encodeWith encodeUtf8 allowReserved text

example : encode false "a/é%".toList = "a%2F%C3%A9%25".toList := by decide

example : encode true "a/é%".toList = "a/%C3%A9%25".toList := by decide

end LinkTemplate.Percent
