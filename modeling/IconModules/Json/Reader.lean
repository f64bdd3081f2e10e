import IconModules.Json.Fault
/-!
# Reading JSON octet by octet

* A **`Reader`** is the rest of the input and the number of octets read.
* **`readText`** and **`readNumber`** read the two kinds of value that have an inside,
  **`readWord`** reads the fixed words.
* **`refuse`** is what happens when a value of another kind was expected: a scalar is read first, so
  that the complaint can show it.
-/

namespace IconModules.Json

/-- Where reading stands: the octets to come, how many they are, and how many were read. Their
number is kept so that nobody has to count them. -/
structure Reader where
  rest : Octets
  left : Nat
  offset : Nat
  left_eq : left = rest.length
  deriving DecidableEq, Repr

namespace Reader

def ofOctets (input : Octets) : Reader :=
  ⟨input, input.length, 0, rfl⟩

/-- The next octet as a character. -/
def head? (r : Reader) : Option Char :=
  r.rest.head?.map fun b => Char.ofNat b.toNat

/-- The reader `n` octets on. -/
def skip (r : Reader) (n : Nat) : Reader :=
  ⟨r.rest.drop n, r.left - n, r.offset + n, by rw [r.left_eq, List.length_drop]⟩

def next (r : Reader) : Reader :=
  r.skip 1

def here (r : Reader) (c : Complaint) : Fault :=
  ⟨c, r.offset⟩

/-- A complaint about the next octet, or about the end of the input. -/
def ahead (r : Reader) (c : Complaint) : Fault :=
  ⟨c, r.offset + if r.rest.isEmpty then 0 else 1⟩

/-- The four octets that may stand between tokens. -/
def isSpace (b : UInt8) : Bool :=
  b == 0x20 || b == 0x0A || b == 0x09 || b == 0x0D

/-- The reader at the next token. -/
def trim (r : Reader) : Reader :=
  r.skip (r.rest.takeWhile isSpace).length

end Reader

/-! ### Words -/

def readWord : List Char → Reader → Except Fault Reader
  | [], r => .ok r
  | c :: cs, r =>
    match r.head? with
    | none => .error (r.here .endInValue)
    | some d => if d = c then readWord cs r.next else .error (r.next.here .wordExpected)

/-! ### Texts -/

/-- Octets that stand for themselves in a text. -/
def isPlain (b : UInt8) : Bool :=
  b ≥ 0x20 && b != 0x22 && b != 0x5C

/-- The value of a hexadecimal digit. -/
def hexValue? (b : UInt8) : Option Nat :=
  let n := b.toNat
  if 0x30 ≤ n ∧ n ≤ 0x39 then some (n - 0x30)
  else if 0x41 ≤ n ∧ n ≤ 0x46 then some (n - 0x37)
  else if 0x61 ≤ n ∧ n ≤ 0x66 then some (n - 0x57)
  else none

/-- Reads four hexadecimal digits. -/
def readHex (r : Reader) : Except Fault (Nat × Reader) :=
  let four := r.rest.take 4
  if four.length < 4 then .error ((r.skip four.length).here .endInText)
  else
    match four.mapM hexValue? with
    | some ds => .ok (ds.foldl (fun n d => n * 16 + d) 0, r.skip 4)
    | none => .error ((r.skip 4).here .badEscape)

/-- Reads one fixed character of an escape in two parts. -/
def readLink (c : Char) (r : Reader) : Except Fault Reader :=
  match r.head? with
  | none => .error (r.here .endInText)
  | some d => if d = c then .ok r.next else .error (r.next.here .cutSurrogate)

/-- Whether a number is the second half of a character in two parts. -/
def isTrailing (n : Nat) : Bool :=
  0xDC00 ≤ n && n ≤ 0xDFFF

/-- Whether a number is the first half of a character in two parts. -/
def isLeading (n : Nat) : Bool :=
  0xD800 ≤ n && n ≤ 0xDBFF

/-- Reads a character written as a number. One beyond the first plane is written in two halves. -/
def readNumbered (r : Reader) : Except Fault (Char × Reader) := do
  let (n, r) ← readHex r
  if isTrailing n then throw (r.here .loneSurrogate)
  if isLeading n then
    let r ← readLink '\\' r
    let r ← readLink 'u' r
    let (n', r) ← readHex r
    if isTrailing n' then
      return (Char.ofNat (0x10000 + (n - 0xD800) * 0x400 + (n' - 0xDC00)), r)
    else throw (r.here .loneSurrogate)
  else return (Char.ofNat n, r)

def shortEscapes : List (Char × Char) :=
  [('"', '"'), ('\\', '\\'), ('/', '/'), ('b', '\x08'), ('f', '\x0c'), ('n', '\n'), ('r', '\r'),
   ('t', '\t')]

/-- Reads what follows a backslash. -/
def readEscape (r : Reader) : Except Fault (Char × Reader) :=
  match r.head? with
  | none => .error (r.here .endInText)
  | some 'u' => readNumbered r.next
  | some c =>
    match shortEscapes.lookup c with
    | some d => .ok (d, r.next)
    | none => .error (r.next.here .badEscape)

/-- Collects the octets of a text up to its closing quote, last one first, in front of `seen`. An
escape stands for the octets of its character. There are at most `fuel` escapes. -/
def readOctets : Nat → Octets → Reader → Except Fault (Octets × Reader)
  | 0, _, r => .error (r.here .endInText)
  | fuel + 1, seen, r =>
    let plain := r.rest.takeWhile isPlain
    let seen := plain.reverse ++ seen
    let r := r.skip plain.length
    match r.head? with
    | none => .error (r.here .endInText)
    | some '"' => .ok (seen, r.next)
    | some '\\' =>
      match readEscape r.next with
      | .ok (c, r) => readOctets fuel ((Text.encodeChar c).reverse ++ seen) r
      | .error f => .error f
    | some _ => .error (r.next.here .controlCharacter)

/-- Reads a text from behind its opening quote. Whether its octets are characters is asked when all
are read; the place of the first that is not is counted back from the closing quote, so that escapes
count as what they stand for. -/
def readText (r : Reader) : Except Fault (String × Reader) := do
  let (seen, r) ← readOctets (r.left + 1) [] r
  let octets := seen.reverse
  match Text.decode octets with
  | .ok s => return (s, r)
  | .error m => throw ⟨.badCodePoint, r.offset - (octets.length - m.offset)⟩

/-! ### Numbers -/

/-- A number as it is told apart: whole numbers that sixty-four bits can hold, and all others. -/
inductive Number where
  | whole (n : Int)
  | floating (negative : Bool) (x : Binary64)
  deriving DecidableEq, Repr

/-- The number as a value of the wrong kind. -/
def Number.found : Number → Found
  | whole n => .integer n
  | floating negative x => .floating negative x

def isDigit (b : UInt8) : Bool :=
  0x30 ≤ b && b ≤ 0x39

/-- The digits that come next, and the reader behind them. -/
def readDigits (r : Reader) : List Nat × Reader :=
  let ds := r.rest.takeWhile isDigit
  (ds.map fun b => b.toNat - 0x30, r.skip ds.length)

/-- Adds digits to `n` as long as the number stays within the limit; the digits left over. -/
def absorb (limit : Nat) : Nat → List Nat → Nat × List Nat
  | n, [] => (n, [])
  | n, d :: ds => if n * 10 + d ≤ limit then absorb limit (n * 10 + d) ds else (n, d :: ds)

/-- The greatest number of which all digits are kept. -/
def greatestWhole : Nat := UInt64.size - 1

/-- The greatest exponent that is looked at. -/
def greatestPower : Nat := Nat.pow 2 31 - 1

/-- The digits of a number that are kept, as a whole number and a power of ten. -/
def significand (whole fraction : List Nat) : Nat × Int :=
  let (n, dropped) := absorb greatestWhole 0 whole
  let (n', left) := absorb greatestWhole n fraction
  (n', (dropped.length : Int) - ((fraction.length - left.length : Nat) : Int))

/-- Reads the digits before the point; a zero has no digit behind it. -/
def readWhole (r : Reader) : Except Fault (List Nat × Reader) :=
  match r.head? with
  | none => .error (r.here .endInValue)
  | some '0' =>
    if (r.next.rest.head?.map isDigit).getD false then .error (r.next.ahead .badNumber)
    else .ok ([0], r.next)
  | some c => if c.isDigit then .ok (readDigits r) else .error (r.next.here .badNumber)

/-- Reads a point and the digits behind it, if there is a point. -/
def readFraction (r : Reader) : Except Fault (Option (List Nat) × Reader) :=
  match r.head? with
  | some '.' =>
    match readDigits r.next with
    | ([], r') => .error (r'.ahead (if r'.rest.isEmpty then .endInValue else .badNumber))
    | (ds, r') => .ok (some ds, r')
  | _ => .ok (none, r)

/-- Whether the exponent of a number comes next. -/
def atPower (r : Reader) : Bool :=
  r.head? == some 'e' || r.head? == some 'E'

def readSign (r : Reader) : Bool × Reader :=
  match r.head? with
  | some '-' => (true, r.next)
  | some '+' => (false, r.next)
  | _ => (false, r)

/-- Reads an exponent from behind its letter and scales `n · 10 ^ e` by it. An exponent that is too
long makes any number but zero too large. -/
def readPower (n : Nat) (e : Int) (r : Reader) : Except Fault (Option Binary64 × Reader) :=
  let (negative, r) := readSign r
  match r.head? with
  | none => .error (r.here .endInValue)
  | some c =>
    if c.isDigit then
      let (ds, r') := readDigits r
      match absorb greatestPower 0 ds with
      | (k, []) => .ok (Binary64.ofScientific? n (e + if negative then -(k : Int) else k), r')
      | (_, left) =>
        if n ≠ 0 ∧ ¬negative then
          .error ((r.skip (ds.length - left.length + 1)).here .numberTooLarge)
        else .ok (some .zero, r')
    else .error (r.next.here .badNumber)

def readNumber (negative : Bool) (r : Reader) : Except Fault (Number × Reader) := do
  let (whole, r) ← readWhole r
  let (fraction, r) ← readFraction r
  let (n, e) := significand whole (fraction.getD [])
  if atPower r then
    match ← readPower n e r.next with
    | (some x, r) => return (.floating negative x, r)
    | (none, r) => throw (r.here .numberTooLarge)
  else if fraction.isNone ∧ e = 0 ∧ (¬negative ∨ 0 < n ∧ n ≤ Nat.pow 2 63) then
    return (.whole (if negative then -(n : Int) else n), r)
  else
    match Binary64.ofScientific? n e with
    | some x => return (.floating negative x, r)
    | none => throw (r.here .numberTooLarge)

/-! ### Values of the wrong kind -/

def refuse (expected : String) (r : Reader) : Fault :=
  let wrong (found : Found) (r : Reader) : Fault := r.here (.wrongKind found expected)
  let word (rest : List Char) (found : Found) : Fault :=
    match readWord rest r.next with
    | .ok r => wrong found r
    | .error f => f
  let number (read : Except Fault (Number × Reader)) : Fault :=
    match read with
    | .ok (n, r) => wrong n.found r
    | .error f => f
  match r.head? with
  | none => r.ahead .endInValue
  | some 'n' => word ['u', 'l', 'l'] .null
  | some 't' => word ['r', 'u', 'e'] (.boolean true)
  | some 'f' => word ['a', 'l', 's', 'e'] (.boolean false)
  | some '-' => number (readNumber true r.next)
  | some '"' =>
    match readText r.next with
    | .ok (s, r) => wrong (.text s) r
    | .error f => f
  | some '[' => wrong .list r
  | some '\x7b' => wrong .object r
  | some c => if c.isDigit then number (readNumber false r) else r.ahead .valueExpected

end IconModules.Json
