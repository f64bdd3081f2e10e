import IconModules.Text.LetterCase
import IconModules.Text.PrintTable
/-!
# Quoted texts

* **`quoted`** writes a text between double quotes so that every character can be seen: quotes,
  backslashes and line breaks get a backslash, and what has no picture of its own is written as its
  number in braces.
-/

namespace IconModules.Text

/-- Lower-case hexadecimal digits of a number, without leading zeros. -/
def hexDigits (n : Nat) : List Char :=
  Nat.toDigits 16 n

/-- A character with a picture of its own. The space is one, and so is any plain letter. -/
def isPrintable (c : Char) : Bool :=
  c == ' ' || !(inRanges unprintableRanges c.toNat || inRanges extenderRanges c.toNat ||
    inRanges fillerRanges c.toNat)

def quoteChar (c : Char) : List Char :=
  if c = '\x00' then ['\\', '0']
  else if c = '\t' then ['\\', 't']
  else if c = '\r' then ['\\', 'r']
  else if c = '\n' then ['\\', 'n']
  else if c = '\\' then ['\\', '\\']
  else if c = '"' then ['\\', '"']
  else if !isPrintable c then
    ['\\', 'u', '{'] ++ hexDigits c.toNat ++ ['}']
  else [c]

/-- The text between double quotes. -/
def quoted (s : String) : String :=
  String.ofList ('"' :: s.toList.flatMap quoteChar ++ ['"'])

end IconModules.Text
