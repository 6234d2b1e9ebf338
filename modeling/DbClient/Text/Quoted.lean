import DbClient.Text.Hidden

/-!
# Quoted text

Where a text is shown inside a message it stands between double quotes. Quotes and
backslashes are escaped, four controls have a letter, and every other character
without a mark of its own is written as its code point in braces.
-/

namespace DbClient.Text

/-- The lower-case hexadecimal digits of a number, at least one. -/
def hex (n : Nat) : List Char :=
  Nat.toDigits 16 n

/-- How one character is written between quotes. -/
def quoteChar (c : Char) : List Char :=
  if c = '\x00' then ['\\', '0']
  else if c = '\t' then ['\\', 't']
  else if c = '\r' then ['\\', 'r']
  else if c = '\n' then ['\\', 'n']
  else if c = '"' then ['\\', '"']
  else if c = '\\' then ['\\', '\\']
  else if c.toNat < 0x20 || (0x7F ≤ c.toNat && isHidden c) then
    ['\\', 'u', '\x7b'] ++ hex c.toNat ++ ['\x7d']
  else [c]

/-- A text between quotes. -/
def quote (s : String) : String :=
  String.ofList ('"' :: (s.toList.flatMap quoteChar ++ ['"']))

end DbClient.Text
