import WebStory.Text.Unprintable
/-
  Strings quoted inside error messages.

  A quote and a backslash are escaped, tab, line feed, carriage return and the null character
  have a letter each, and any other character that would not show is written by its code point
  as `\u{...}`.
-/

namespace WebStory.Text

/-- Hexadecimal digits in lower case. -/
def hexDigits (n : Nat) : List Char := Nat.toDigits 16 n

def quotedChar (c : Char) : List Char :=
  if c = '\x00' then ['\\', '0']
  else if c = '\t' then ['\\', 't']
  else if c = '\r' then ['\\', 'r']
  else if c = '\n' then ['\\', 'n']
  else if c = '"' then ['\\', '"']
  else if c = '\\' then ['\\', '\\']
  else if isPrintable c then [c]
  else ['\\', 'u', '\x7b'] ++ hexDigits c.toNat ++ ['\x7d']

/-- The string between quotes. -/
def quoted (s : String) : String :=
  "\"" ++ String.ofList (s.toList.flatMap quotedChar) ++ "\""

end WebStory.Text
