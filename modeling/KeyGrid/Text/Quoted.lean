import KeyGrid.Text.Graphic

/-!
# Quoted text

A text between double quotes, as it is shown to a reader who must be able to tell
any two texts apart. A quote and a backslash get a backslash in front, four
controls have a letter of their own, and whatever has no shape of its own is
written as its number in hexadecimal.
-/

namespace KeyGrid.Text

/-- The number of a character in hexadecimal, without leading zeros. -/
def hexCode (c : Char) : List Char :=
  ['\\', 'u', '\x7b'] ++ Nat.toDigits 16 c.toNat ++ ['\x7d']

/-- One character inside double quotes. -/
def escape (c : Char) : List Char :=
  if c = '\x00' then ['\\', '0']
  else if c = '\t' then ['\\', 't']
  else if c = '\r' then ['\\', 'r']
  else if c = '\n' then ['\\', 'n']
  else if c = '\\' then ['\\', '\\']
  else if c = '"' then ['\\', '"']
  else if isGraphic c then [c]
  else hexCode c

/-- A text between double quotes. -/
def quote (text : String) : String :=
  String.ofList ('"' :: text.toList.flatMap escape ++ ['"'])

end KeyGrid.Text
