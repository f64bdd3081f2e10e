import IconModules.Shell.Arithmetic
import IconModules.Text.Utf8
/-!
# Formatted output

* **`echo`** writes its arguments with blanks between them, **`format`** writes them as a format
  says. Both read escapes that begin with a backslash.
* What **`format`** cannot make sense of, it complains about.
-/

namespace IconModules.Shell

/-! ### Escapes -/

def letterEscapes : List (Char × UInt8) :=
  [('a', 7), ('b', 8), ('e', 27), ('f', 12), ('n', 10), ('r', 13), ('t', 9), ('v', 11), ('\\', 92)]

def isOctal (c : Char) : Bool :=
  '0' ≤ c && c ≤ '7'

def octalValue (cs : List Char) : UInt8 :=
  (valueInBase 8 cs).toUInt8

/-- Reads what follows a backslash: a letter, or a number of up to three digits. An unknown escape
stands for itself. -/
def readEscape (cs : List Char) : Octets × List Char :=
  match cs with
  | [] => ([92], [])
  | c :: rest =>
    match letterEscapes.lookup c with
    | some b => ([b], rest)
    | none =>
      let number := (cs.take 3).takeWhile isOctal
      if number.isEmpty then (92 :: Text.encodeChar c, rest)
      else ([octalValue number], cs.drop number.length)

/-! ### Plain output -/

/-- A text with its escapes; `false` if an escape says that the output ends here. A zero may stand
in front of a number. -/
def unescape : Nat → List Char → Octets × Bool
  | 0, _ => ([], true)
  | _ + 1, [] => ([], true)
  | _ + 1, '\\' :: 'c' :: _ => ([], false)
  | fuel + 1, '\\' :: cs =>
    let cs := match cs with
      | '0' :: d :: rest => if isOctal d then d :: rest else cs
      | _ => cs
    let (b, rest) := readEscape cs
    let (bs, more) := unescape fuel rest
    (b ++ bs, more)
  | fuel + 1, c :: cs =>
    let (bs, more) := unescape fuel cs
    (Text.encodeChar c ++ bs, more)

/-- The arguments with blanks between them and a line break at the end, which `-n` leaves out. -/
def echo (arguments : List String) : Octets :=
  let (line, words) : Octets × List String := match arguments with
    | "-n" :: rest => ([], rest)
    | _ => ([10], arguments)
  let text := (" ".intercalate words).toList
  let (bs, more) := unescape (text.length + 1) text
  if more then bs ++ line else bs

/-! ### Formats -/

/-- A width or a precision: a number, or an argument that is one. -/
inductive Extent where
  | given (n : Nat)
  | taken
  deriving DecidableEq, Repr

/-- How an argument is converted: what for, with which flags, and to which extent. -/
structure Conversion where
  letter : Char
  flags : List Char
  width : Extent
  precision : Option Extent
  deriving DecidableEq, Repr

inductive FormatPiece where
  | octets (bs : Octets)
  | argument (c : Conversion)
  | unknown (complaint : String)
  deriving DecidableEq, Repr

def conversions : List Char :=
  ['s', 'b', 'c', 'd', 'i', 'u', 'o', 'x', 'X']

def digitsValue (cs : List Char) : Nat :=
  valueInBase 10 cs

def readExtent (cs : List Char) : Extent × List Char :=
  match cs with
  | '*' :: rest => (.taken, rest)
  | _ =>
    let ds := cs.takeWhile Char.isDigit
    (.given (digitsValue ds), cs.drop ds.length)

def readConversion (cs : List Char) : FormatPiece × List Char :=
  let flags := cs.takeWhile fun c => c == '-' || c == '0' || c == '+' || c == ' ' || c == '#'
  let (width, rest) := readExtent (cs.drop flags.length)
  let (precision, rest) := match rest with
    | '.' :: rest =>
      let (p, rest) := readExtent rest
      (some p, rest)
    | _ => (none, rest)
  match cs, rest with
  | '%' :: rest, _ => (.octets [37], rest)
  | _, [] => (.unknown "missing format character", [])
  | _, c :: more =>
    if c ∈ conversions then (.argument ⟨c, flags, width, precision⟩, more)
    else
      let shown := '%' :: cs.take (cs.length - more.length)
      (.unknown (String.ofList shown ++ ": invalid directive"), more)

def readFormat : Nat → List Char → List FormatPiece
  | 0, _ => []
  | _ + 1, [] => []
  | fuel + 1, '%' :: cs =>
    let (p, rest) := readConversion cs
    p :: readFormat fuel rest
  | fuel + 1, '\\' :: cs =>
    let (bs, rest) := match cs with
      | '"' :: rest => ([34], rest)
      | '\x27' :: rest => ([39], rest)
      | _ => readEscape cs
    .octets bs :: readFormat fuel rest
  | fuel + 1, c :: cs => .octets (Text.encodeChar c) :: readFormat fuel cs

/-! ### Conversions -/

/-- What a format has written, and what it complained about. -/
structure Printed where
  output : Octets
  complaints : List String
  stopped : Bool
  misread : Bool := false

def Printed.andThen (a b : Printed) : Printed :=
  ⟨a.output ++ b.output, a.complaints ++ b.complaints, b.stopped, a.misread || b.misread⟩

def fill (left : Bool) (width : Nat) (bs : Octets) : Octets :=
  let blanks := List.replicate (width - bs.length) 32
  if left then bs ++ blanks else blanks ++ bs

/-- The whole number that an argument is, and what is wrong with it. A quote stands for the number
of the octet behind it. Numbers have sixty-four bits. -/
def wholeNumber (s : String) : Int × List String :=
  let cs := s.toList.dropWhile fun c => c == ' ' || c == '\t' || c == '\n'
  let (negative, digits) := match cs with
    | '-' :: rest => (true, rest)
    | '+' :: rest => (false, rest)
    | _ => (false, cs)
  match cs, takeNumber digits with
  | [], _ => (0, [])
  | '\x27' :: c :: _, _ | '"' :: c :: _, _ => (((Text.encodeChar c).headD 0).toNat, [])
  | _, none => (0, [s ++ ": expected numeric value"])
  | _, some (n, rest) =>
    let limit := if negative then Nat.pow 2 63 else Nat.pow 2 63 - 1
    (if negative then -(min n limit : Int) else min n limit,
      if !rest.isEmpty then [s ++ ": not completely converted"]
      else if limit < n then [s ++ ": Numerical result out of range"] else [])

/-- A number in digits, as a conversion with a width and a precision says. Only signed conversions
know negative numbers. -/
def Conversion.digits (c : Conversion) (left : Bool) (width : Nat) (precision : Option Nat)
    (n : Int) : String :=
  let unsigned : Nat := if n < 0 then (n + UInt64.size).toNat else n.toNat
  let digits := match c.letter with
    | 'o' => Nat.toDigits 8 unsigned
    | 'x' => Nat.toDigits 16 unsigned
    | 'X' => (Nat.toDigits 16 unsigned).map Char.toUpper
    | 'u' => Nat.toDigits 10 unsigned
    | _ => Nat.toDigits 10 n.natAbs
  let digits := if n = 0 ∧ precision = some 0 then [] else digits
  let front :=
    if c.letter = 'd' ∨ c.letter = 'i' then
      if n < 0 then ['-'] else if c.flags.contains '+' then ['+']
      else if c.flags.contains ' ' then [' '] else []
    else if c.flags.contains '#' ∧ n ≠ 0 then
      match c.letter with
      | 'o' => ['0']
      | 'x' => ['0', 'x']
      | 'X' => ['0', 'X']
      | _ => []
    else []
  let least := match precision with
    | some p => p
    | none => if c.flags.contains '0' && !left then width - front.length else 0
  String.ofList (front ++ List.replicate (least - digits.length) '0' ++ digits)

/-- One argument converted. A negative width is a flag. -/
def Conversion.apply (c : Conversion) (width : Int) (precision : Option Nat) (argument : String) :
    Printed :=
  let left := c.flags.contains '-' || width < 0
  let width := width.natAbs
  let put (bs : Octets) : Octets := fill left width bs
  let cut (bs : Octets) : Octets := match precision with
    | some n => bs.take n
    | none => bs
  match c.letter with
  | 's' => ⟨put (cut (Text.encode argument)), [], false, false⟩
  | 'b' =>
    let (bs, more) := unescape (argument.length + 1) argument.toList
    ⟨put (cut bs), [], !more, false⟩
  | 'c' => ⟨put [(Text.encode argument).headD 0], [], false, false⟩
  | _ =>
    let (n, complaints) := wholeNumber argument
    ⟨put (Text.encode (c.digits left width precision n)), complaints, false, false⟩

def Extent.resolve (e : Extent) (arguments : List String) : Int × List String :=
  match e with
  | .given n => (n, arguments)
  | .taken => ((wholeNumber (arguments.headD "")).1, arguments.tail)

/-- Writes all pieces once; the arguments that are left and whether any piece took one. -/
def writeOnce : List FormatPiece → List String → Printed × List String × Bool
  | [], arguments => (⟨[], [], false, false⟩, arguments, false)
  | .octets bs :: ps, arguments =>
    let (rest, left, took) := writeOnce ps arguments
    ({ rest with output := bs ++ rest.output }, left, took)
  | .unknown complaint :: _, arguments => (⟨[], [complaint], true, true⟩, arguments, false)
  | .argument c :: ps, arguments =>
    let (width, arguments) := c.width.resolve arguments
    let (precision, arguments) := match c.precision with
      | none => (none, arguments)
      | some e =>
        let (n, arguments) := e.resolve arguments
        (if n < 0 then none else some n.toNat, arguments)
    let first := c.apply width precision (arguments.headD "")
    if first.stopped then (first, arguments.tail, true)
    else
      let (rest, left, _) := writeOnce ps arguments.tail
      (first.andThen rest, left, true)

def writeAll (ps : List FormatPiece) : Nat → List String → Printed
  | 0, _ => ⟨[], [], true, false⟩
  | fuel + 1, arguments =>
    let (first, left, took) := writeOnce ps arguments
    if took && !left.isEmpty && !first.stopped then first.andThen (writeAll ps fuel left)
    else first

def format (text : String) (arguments : List String) : Printed :=
  writeAll (readFormat (text.length + 1) text.toList) (arguments.length + 1) arguments

end IconModules.Shell
