import ResumableUpload.Text.Hidden

/-!
# Text shown in quotes

`Text.quote` puts a text between double quotes for people to read: quotes and backslashes are
escaped, a few control characters have letters, and every other hidden character is shown by the
hexadecimal digits of its code point.
-/

namespace ResumableUpload.Text

/-- Lower-case hexadecimal digits without leading zeros. -/
def hexDigits (n : Nat) : List Char := Nat.toDigits 16 n

/-- How one character is shown inside quotes. -/
def shown (c : Char) : List Char :=
  if c = '\x00' then ['\\', '0']
  else if c = '\t' then ['\\', 't']
  else if c = '\n' then ['\\', 'n']
  else if c = '\r' then ['\\', 'r']
  else if c = '"' then ['\\', '"']
  else if c = '\\' then ['\\', '\\']
  else if isHidden c then ['\\', 'u', '\x7b'] ++ hexDigits c.toNat ++ ['\x7d']
  else [c]

/-- A text between double quotes. -/
def quote (s : String) : String := String.ofList ('"' :: s.toList.flatMap shown ++ ['"'])

end ResumableUpload.Text
