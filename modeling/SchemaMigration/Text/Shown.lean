import SchemaMigration.Text.HiddenTable
import SchemaMigration.Text.Lowercase

/-!
# Texts shown in messages

A text shown between double quotes so that every character of it can be seen: quotes and
backslashes are escaped, the common control characters have letters, and a character that would
not show is written by its number.
-/
namespace SchemaMigration
namespace Text

example : ascending hiddenRanges = true := by decide +kernel

/-- The number in hexadecimal, lower-case digits, no leading zero. -/
def hex (n : Nat) : List Char :=
  Nat.toDigits 16 n

/-- One character as it stands between double quotes. -/
def showChar (c : Char) : List Char :=
  if c = '\x00' then ['\\', '0']
  else if c = '\t' then ['\\', 't']
  else if c = '\r' then ['\\', 'r']
  else if c = '\n' then ['\\', 'n']
  else if c = '"' then ['\\', '"']
  else if c = '\\' then ['\\', '\\']
  else if inRanges hiddenRanges c then "\\u\x7b".toList ++ hex c.toNat ++ ['\x7d']
  else [c]

example : showChar '\u3164' = ['\\', 'u', '\x7b', '3', '1', '6', '4', '\x7d'] := by decide +kernel

example : showChar '\uff9e' = ['\uff9e'] := by decide +kernel

/-- The text between double quotes, with everything visible. -/
def shown (s : String) : String :=
  String.ofList ('"' :: s.toList.flatMap showChar ++ ['"'])

end Text
end SchemaMigration
