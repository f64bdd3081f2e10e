import IconModules.Decimal.Shortest
import IconModules.Text.Quoted
import IconModules.Text.Utf8
/-!
# What can be wrong with a JSON text

* A **`Complaint`** says what is wrong, a **`Fault`** also how far reading had come, and an
  **`Error`** gives that place as a line and a column.
* **`Fault.locate`** counts the lines and the octets of the last one.
-/

namespace IconModules.Json

/-- A value of the wrong kind. -/
inductive Found where
  | null
  | boolean (b : Bool)
  | integer (n : Int)
  | floating (negative : Bool) (x : Binary64)
  | text (s : String)
  | list
  | object
  deriving DecidableEq, Repr

def Found.words : Found → String
  | null => "null"
  | boolean b => "boolean `" ++ (if b then "true" else "false") ++ "`"
  | integer n => "integer `" ++ toString n ++ "`"
  | floating negative x => "floating point `" ++ Shortest.write negative x ++ "`"
  | text s => "string " ++ Text.quoted s
  | list => "sequence"
  | object => "map"

/-- What is wrong. -/
inductive Complaint where
  | endInList
  | endInObject
  | endInText
  | endInValue
  | colonExpected
  | listEndExpected
  | objectEndExpected
  | wordExpected
  | valueExpected
  | badEscape
  | badNumber
  | numberTooLarge
  | badCodePoint
  | controlCharacter
  | keyNotText
  | loneSurrogate
  | cutSurrogate
  | trailingComma
  | trailingInput
  | missingField (name : String)
  | repeatedField (name : String)
  | tooFewElements (count : Nat) (expected : String)
  | wrongKind (found : Found) (expected : String)
  | outOfRange (n : Int) (expected : String)
  deriving DecidableEq, Repr

def Complaint.message : Complaint → String
  | endInList => "EOF while parsing a list"
  | endInObject => "EOF while parsing an object"
  | endInText => "EOF while parsing a string"
  | endInValue => "EOF while parsing a value"
  | colonExpected => "expected `:`"
  | listEndExpected => "expected `,` or `]`"
  | objectEndExpected => "expected `,` or `\x7d`"
  | wordExpected => "expected ident"
  | valueExpected => "expected value"
  | badEscape => "invalid escape"
  | badNumber => "invalid number"
  | numberTooLarge => "number out of range"
  | badCodePoint => "invalid unicode code point"
  | controlCharacter => "control character (\\u0000-\\u001F) found while parsing a string"
  | keyNotText => "key must be a string"
  | loneSurrogate => "lone leading surrogate in hex escape"
  | cutSurrogate => "unexpected end of hex escape"
  | trailingComma => "trailing comma"
  | trailingInput => "trailing characters"
  | missingField name => "missing field `" ++ name ++ "`"
  | repeatedField name => "duplicate field `" ++ name ++ "`"
  | tooFewElements n expected => "invalid length " ++ toString n ++ ", expected " ++ expected
  | wrongKind found expected => "invalid type: " ++ found.words ++ ", expected " ++ expected
  | outOfRange n expected =>
    "invalid value: " ++ (Found.integer n).words ++ ", expected " ++ expected

/-- A complaint and the number of octets up to the place it is about. -/
structure Fault where
  complaint : Complaint
  offset : Nat
  deriving DecidableEq, Repr

/-- A complaint with its place. Lines count from one; the column is the number of octets of the line
that were read. -/
structure Error where
  complaint : Complaint
  line : Nat
  column : Nat
  deriving DecidableEq, Repr

def Error.message (e : Error) : String :=
  e.complaint.message ++ " at line " ++ toString e.line ++ " column " ++ toString e.column

def lineBreak : UInt8 := 0x0A

/-- Finds the line and column of a fault in the octets it was found in. -/
def Fault.locate (f : Fault) (input : Octets) : Error :=
  let read := input.take f.offset
  ⟨f.complaint, 1 + read.count lineBreak, (read.reverse.takeWhile (· != lineBreak)).length⟩

end IconModules.Json
