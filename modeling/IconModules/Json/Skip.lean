import IconModules.Json.Reader
/-!
# Skipping a JSON value

Values that nobody asks for are skipped: their form is checked and nothing else, so numbers may be
of any size and texts may hold anything.

* **`skipText`** and **`skipNumber`** skip the values that have an inside.
* **`skipValue`** skips any value. It keeps the open brackets in a list, so the depth is of no
  account.
-/

namespace IconModules.Json

/-! ### Scalars -/

/-- Skips a text up to its closing quote. There are at most `fuel` escapes. -/
def skipTextFrom : Nat → Reader → Except Fault Reader
  | 0, r => .error (r.here .endInText)
  | fuel + 1, r =>
    let r := r.skip (r.rest.takeWhile isPlain).length
    match r.head? with
    | none => .error (r.here .endInText)
    | some '"' => .ok r.next
    | some '\\' =>
      match r.next.head? with
      | none => .error (r.next.here .endInText)
      | some 'u' =>
        match readHex (r.skip 2) with
        | .ok (_, r) => skipTextFrom fuel r
        | .error f => .error f
      | some c =>
        if (shortEscapes.lookup c).isSome then skipTextFrom fuel (r.skip 2)
        else .error ((r.skip 2).here .badEscape)
    | some _ => .error (r.here .controlCharacter)

def skipText (r : Reader) : Except Fault Reader :=
  skipTextFrom (r.left + 1) r

/-- Skips the digits of an exponent, of which there has to be one. -/
def skipPower (r : Reader) : Except Fault Reader :=
  let r := (readSign r).2
  match readDigits r with
  | ([], r) => .error ((if r.rest.isEmpty then r else r.next).here .badNumber)
  | (_, r) => .ok r

/-- Skips a number from behind its sign. -/
def skipNumber (r : Reader) : Except Fault Reader := do
  let r ← match readWhole r with
    | .ok (_, r) => .ok r
    | .error ⟨.endInValue, n⟩ => .error ⟨.badNumber, n⟩
    | .error f => .error f
  let r ← match readFraction r with
    | .ok (_, r) => .ok r
    | .error ⟨_, n⟩ => .error ⟨.badNumber, n⟩
  if atPower r then skipPower r.next else .ok r

/-! ### Values -/

/-- The two kinds of bracket. -/
inductive Bracket where
  | list
  | object
  deriving DecidableEq, Repr

namespace Bracket

def closing : Bracket → Char
  | list => ']'
  | object => '\x7d'

def atEnd : Bracket → Complaint
  | list => .endInList
  | object => .endInObject

/-- The complaint when neither a comma nor the closing form comes. -/
def atOther : Bracket → Complaint
  | list => .listEndExpected
  | object => .objectEndExpected

end Bracket

/-- What is to be skipped next. -/
inductive Pending where
  | value
  /-- The first member in the innermost bracket, or its end. -/
  | opened
  /-- A further member in the innermost bracket, or its end. -/
  | member
  deriving DecidableEq, Repr

/-- Skips a scalar that begins with `c`; brackets are none. -/
def skipScalar (c : Char) (r : Reader) : Except Fault Reader :=
  match c with
  | 'n' => readWord ['u', 'l', 'l'] r.next
  | 't' => readWord ['r', 'u', 'e'] r.next
  | 'f' => readWord ['a', 'l', 's', 'e'] r.next
  | '-' => skipNumber r.next
  | '"' => skipText r.next
  | c => if c.isDigit then skipNumber r else .error (r.ahead .valueExpected)

/-- Skips what comes before the next value in a bracket: in an object, the key and its colon. -/
def skipKey (b : Bracket) (r : Reader) : Except Fault Reader :=
  match b with
  | .list => .ok r
  | .object => do
    let r := r.trim
    let r ← match r.head? with
      | none => throw (r.ahead .endInObject)
      | some '"' => skipText r.next
      | some _ => throw (r.ahead .keyNotText)
    let r := r.trim
    match r.head? with
    | none => throw (r.ahead .endInObject)
    | some ':' => return r.next
    | some _ => throw (r.ahead .colonExpected)

/-- Skips what is pending and closes all open brackets, innermost first. -/
def skipFrom : Nat → Pending → List Bracket → Reader → Except Fault Reader
  | 0, _, _, r => .error (r.here .endInValue)
  | fuel + 1, .value, outer, r =>
    let r := r.trim
    match r.head? with
    | none => .error (r.ahead .endInValue)
    | some '[' => skipFrom fuel .opened (.list :: outer) r.next
    | some '\x7b' => skipFrom fuel .opened (.object :: outer) r.next
    | some c =>
      match skipScalar c r with
      | .ok r => skipFrom fuel .member outer r
      | .error f => .error f
  | _ + 1, _, [], r => .ok r
  | fuel + 1, pending, b :: outer, r =>
    let r := r.trim
    match r.head? with
    | none => .error (r.ahead b.atEnd)
    | some c =>
      if c = b.closing then skipFrom fuel .member outer r.next
      else if pending = .member ∧ c ≠ ',' then .error (r.ahead b.atOther)
      else
        match skipKey b (if pending = .member then r.next else r) with
        | .ok r => skipFrom fuel .value (b :: outer) r
        | .error f => .error f

/-- Skips one value. Every octet is the reason for at most two steps. -/
def skipValue (r : Reader) : Except Fault Reader :=
  skipFrom (2 * r.left + 2) .value [] r

end IconModules.Json
