import IconModules.Text.Quoted
import IconModules.Text.Utf8
/-!
# Texts on a terminal

A terminal obeys control characters, and sequences of characters that an escape character begins.
There are two ways to show a text without being obeyed:

* **`masked`** writes each character that steers a terminal as its number.
* **`unsteered`** leaves the sequences out. A `Sequence` says in which one a character stands.
-/

namespace IconModules.Text

/-! ### Controls as numbers -/

/-- The control characters of ASCII that are masked. -/
def isSteering (c : Char) : Bool :=
  c == '\x07' || c == '\x08' || c == '\x0c' || c == '\x1b' || c == '\x7f'

/-- One character of a masked text. Controls behind ASCII are commands as well. -/
def maskChar (c : Char) : List Char :=
  let n := c.toNat
  if isSteering c then ['\\', 'x', Nat.digitChar (n / 16), Nat.digitChar (n % 16)]
  else if 0x80 ≤ n ∧ n ≤ 0x9F then ['\\', 'u', '{'] ++ hexDigits n ++ ['}']
  else [c]

/-- The text with the number in the place of each character that steers a terminal. -/
def masked (s : String) : String :=
  String.ofList (s.toList.flatMap maskChar)

/-! ### Sequences -/

/-- In which sequence a character stands. -/
inductive Sequence where
  | none
  /-- Behind the escape character. -/
  | escape
  /-- In a sequence of two or more characters, the last of which says what to do. -/
  | selector
  /-- In a command: numbers, and a letter that says what to do. -/
  | command
  /-- In a text for the system, such as a title. -/
  | title
  /-- In front of a text for a device. -/
  | header
  /-- In a text for a device or for nobody. -/
  | payload
  deriving DecidableEq, Repr

namespace Sequence

/-- Whether a character is a blank that is shown even where it interrupts a sequence. -/
def isGap (c : Char) : Bool :=
  c == '\t' || c == '\n' || c == '\x0c' || c == '\r'

/-- Whether a character is shown outside of sequences: all but controls of ASCII. -/
def isShown (c : Char) : Bool :=
  isGap c || 0x20 ≤ c.toNat && c != '\x7f'

def showsGaps : Sequence → Bool
  | escape | selector | command => true
  | _ => false

/-- Where the character behind `c` stands, if `c` stands here and is not shown. Two controls end any
sequence, and an escape character begins a new one. A payload also ends at an octet of `9C`, which
only characters behind ASCII have. -/
def next (q : Sequence) (c : Char) : Sequence :=
  let n := c.toNat
  if n = 0x1B then escape
  else if n = 0x18 ∨ n = 0x1A then none
  else if n < 0x20 ∨ 0x7E < n then
    if (q = title ∧ n = 0x07) ∨ (q = payload ∧ 0x9C ∈ encodeChar c) then none else q
  else
    match q with
    | none => none
    | escape =>
      if n < 0x30 then selector
      else if c = '[' then command
      else if c = ']' then title
      else if c = 'P' then header
      else if c = 'X' ∨ c = '^' ∨ c = '_' then payload
      else none
    | selector => if n < 0x30 then selector else none
    | command => if n < 0x40 then command else none
    | title => title
    | header => if n < 0x40 then header else payload
    | payload => payload

/-- The characters that are shown, from a place in a sequence on. A blank may interrupt a sequence;
then characters are shown up to the first that is not, with which the sequence goes on. A character
behind ASCII ends an interrupted sequence. -/
def shown : Sequence → Bool → List Char → List Char
  | _, _, [] => []
  | q, interrupted, c :: cs =>
    if q = none ∨ interrupted then
      if isShown c then c :: shown (if c.toNat < 0x80 then q else none) interrupted cs
      else shown (q.next c) false cs
    else if q.showsGaps && isGap c then c :: shown q true cs
    else shown (q.next c) false cs

end Sequence

/-- The text without sequences and without controls, blanks apart. -/
def unsteered (s : String) : String :=
  String.ofList (Sequence.shown .none false s.toList)

end IconModules.Text
