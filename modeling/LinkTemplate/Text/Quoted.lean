import LinkTemplate.Text.Unprintable
/-!
# Quoted text

A text between double quotes in which every character can be seen: the quote, the backslash and the
usual control characters have a short escape, any other unprintable character is written by its
code point. Which characters are unprintable is a matter of the edition of Unicode.
-/

namespace LinkTemplate.Text

def hexDigits (n : Nat) : Text := Nat.toDigits 16 n

/-- The letter after the backslash, for the characters that have a short escape. -/
def shortEscape? : Char → Option Char
  | '\x00' => some '0'
  | '\t' => some 't'
  | '\r' => some 'r'
  | '\n' => some 'n'
  | '"' => some '"'
  | '\\' => some '\\'
  | _ => none

/-- Of the characters without a short escape the `hidden` ones are written by their code point. -/
def quoteChar (hidden : Char → Bool) (c : Char) : Text :=
  match shortEscape? c with
  | some letter => ['\\', letter]
  | none => if hidden c then '\\' :: 'u' :: '{' :: hexDigits c.toNat ++ ['}'] else [c]

def quotedBy (hidden : Char → Bool) (text : Text) : Text :=
  '"' :: text.flatMap (quoteChar hidden) ++ ['"']

def quoted (text : Text) : Text := quotedBy isUnprintable text

example : quoted "a'b\"\n".toList = "\"a'b\\\"\\n\"".toList := by decide

/-- A combining accent is shown by its code point, a letter with an accent as it is. -/
example : quoted ['e', '\u0301', 'é'] = "\"e\\u\x7b301\x7dé\"".toList := by decide +kernel

end LinkTemplate.Text
