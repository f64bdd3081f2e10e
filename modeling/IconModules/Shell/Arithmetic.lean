import IconModules.Shell.Syntax
/-!
# Calculations

* **`Expression.read`** reads a calculation over whole numbers and variables.
* **`Expression.eval`** carries it out on numbers of sixty-four bits. It may set variables.
-/

namespace IconModules.Shell

/-! ### Expressions -/

/-- A sign between two numbers. -/
inductive Operator where
  | times | divided | modulo | plus | minus | shiftLeft | shiftRight
  | less | lessEqual | greater | greaterEqual | equal | unequal
  | bitAnd | bitXor | bitOr | allOf | anyOf
  deriving DecidableEq, Repr

/-- A calculation. -/
inductive Expression where
  | number (n : Int64)
  | named (name : String)
  | negative (a : Expression)
  /-- One if the number is zero, else zero. -/
  | isZero (a : Expression)
  | complement (a : Expression)
  | binary (o : Operator) (a b : Expression)
  | choice (test yes no : Expression)
  /-- Sets a variable; with an operator, to what that makes of its value. -/
  | assign (name : String) (o : Option Operator) (a : Expression)
  deriving Repr

/-- What is wrong with a calculation. -/
inductive SumFault where
  | noPrimary
  | noEnd
  | bracketMissing
  | colonMissing
  | divisionByZero
  | noNumber (value : String)
  deriving DecidableEq, Repr

def SumFault.message (text : String) : SumFault → String
  | noPrimary => "arithmetic expression: expecting primary: \"" ++ text ++ "\""
  | noEnd => "arithmetic expression: expecting EOF: \"" ++ text ++ "\""
  | bracketMissing => "arithmetic expression: expecting ')': \"" ++ text ++ "\""
  | colonMissing => "arithmetic expression: expecting ':': \"" ++ text ++ "\""
  | divisionByZero => "arithmetic expression: division by zero: \"" ++ text ++ "\""
  | noNumber value => "Illegal number: " ++ value

/-! ### Numbers -/

def digitValue (c : Char) : Nat :=
  if c.isDigit then c.toNat - 48 else c.toLower.toNat - 87

def valueInBase (base : Nat) (cs : List Char) : Nat :=
  cs.foldl (fun n c => n * base + digitValue c) 0

def isDigitOf (base : Nat) (c : Char) : Bool :=
  (c.isDigit || ('a' ≤ c.toLower && c.toLower ≤ 'f')) && digitValue c < base

/-- A number at the start of a text, and the rest: with `0x` in front to the base sixteen, with a
zero in front to the base eight. Without digits behind it, only the zero of `0x` is a number. -/
def takeNumber (cs : List Char) : Option (Nat × List Char) :=
  let inBase (base : Nat) (cs : List Char) : Option (Nat × List Char) :=
    match cs.takeWhile (isDigitOf base) with
    | [] => none
    | ds => some (valueInBase base ds, cs.drop ds.length)
  match cs with
  | '0' :: 'x' :: rest => (inBase 16 rest).or (some (0, 'x' :: rest))
  | '0' :: 'X' :: rest => (inBase 16 rest).or (some (0, 'X' :: rest))
  | '0' :: _ => inBase 8 cs
  | _ => inBase 10 cs

/-- A number as one of sixty-four bits, the greatest one if there is no room for it. -/
def clamped (n : Nat) : Int64 :=
  Int64.ofNat (min n (Nat.pow 2 63 - 1))

/-- The whole number that a text is, blanks around it and a sign in front allowed. -/
def number? (s : String) : Option Int64 :=
  let blank (c : Char) : Bool := c == ' ' || c == '\t' || c == '\n'
  let cs := s.toList.dropWhile blank
  let (negative, cs) := match cs with
    | '-' :: rest => (true, rest)
    | '+' :: rest => (false, rest)
    | _ => (false, cs)
  match takeNumber cs with
  | some (n, rest) =>
    if rest.all blank then some (if negative then -clamped n else clamped n) else none
  | none => none

/-! ### Reading -/

namespace Expression

def skipBlanks (cs : List Char) : List Char :=
  cs.dropWhile fun c => c == ' ' || c == '\t' || c == '\n'

/-- The signs between numbers, from those that bind least to those that bind most. Of signs that
bind alike, longer ones come first. -/
def levels : List (List (String × Operator)) :=
  [[("||", .anyOf)], [("&&", .allOf)], [("|", .bitOr)], [("^", .bitXor)], [("&", .bitAnd)],
   [("==", .equal), ("!=", .unequal)],
   [("<=", .lessEqual), (">=", .greaterEqual), ("<", .less), (">", .greater)],
   [("<<", .shiftLeft), (">>", .shiftRight)], [("+", .plus), ("-", .minus)],
   [("*", .times), ("/", .divided), ("%", .modulo)]]

def assignments : List (String × Option Operator) :=
  [("<<=", some .shiftLeft), (">>=", some .shiftRight), ("*=", some .times), ("/=", some .divided),
   ("%=", some .modulo), ("+=", some .plus), ("-=", some .minus), ("&=", some .bitAnd),
   ("^=", some .bitXor), ("|=", some .bitOr), ("=", none)]

def longSigns : List String :=
  ["<<=", ">>=", "<<", ">>", "<=", ">=", "==", "!=", "&&", "||", "*=", "/=", "%=", "+=", "-=", "&=",
   "^=", "|="]

def nextSign (cs : List Char) : String :=
  match longSigns.find? fun s => s.toList.isPrefixOf cs with
  | some s => s
  | none => String.ofList (cs.take 1)

abbrev Result := Except SumFault (Expression × List Char)

mutual

def readFull : Nat → List Char → Result
  | 0, _ => .error .noPrimary
  | fuel + 1, cs => do
    let cs := skipBlanks cs
    let name := String.ofList (cs.takeWhile isNameChar)
    let rest := skipBlanks (cs.drop name.length)
    match if isName name then assignments.lookup (nextSign rest) else none with
    | some o =>
      let (a, rest) ← readFull fuel (rest.drop (nextSign rest).length)
      return (assign name o a, rest)
    | none =>
      let (test, rest) ← readLevels fuel levels cs
      match skipBlanks rest with
      | '?' :: rest =>
        let (yes, rest) ← readFull fuel rest
        match skipBlanks rest with
        | ':' :: rest =>
          let (no, rest) ← readFull fuel rest
          return (choice test yes no, rest)
        | _ => throw .colonMissing
      | rest => return (test, rest)

def readLevels : Nat → List (List (String × Operator)) → List Char → Result
  | 0, _, _ => .error .noPrimary
  | fuel + 1, [], cs => readPrimary fuel cs
  | fuel + 1, level :: more, cs => do
    let (a, rest) ← readLevels fuel more cs
    readLinks fuel level more a rest

def readLinks : Nat → List (String × Operator) → List (List (String × Operator)) →
    Expression → List Char → Result
  | 0, _, _, _, _ => .error .noPrimary
  | fuel + 1, level, more, a, cs => do
    let cs := skipBlanks cs
    match level.lookup (nextSign cs) with
    | some o =>
      let (b, rest) ← readLevels fuel more (cs.drop (nextSign cs).length)
      readLinks fuel level more (binary o a b) rest
    | none => return (a, cs)

def readPrimary : Nat → List Char → Result
  | 0, _ => .error .noPrimary
  | fuel + 1, cs => do
    match skipBlanks cs with
    | '+' :: rest => readPrimary fuel rest
    | '-' :: rest => do
      let (a, rest) ← readPrimary fuel rest
      return (negative a, rest)
    | '!' :: rest => do
      let (a, rest) ← readPrimary fuel rest
      return (isZero a, rest)
    | '~' :: rest => do
      let (a, rest) ← readPrimary fuel rest
      return (complement a, rest)
    | '(' :: rest => do
      let (a, rest) ← readFull fuel rest
      match skipBlanks rest with
      | ')' :: rest => return (a, rest)
      | _ => throw .bracketMissing
    | cs =>
      match takeNumber cs with
      | some (n, rest) => return (number (clamped n), rest)
      | none =>
        let name := String.ofList (cs.takeWhile isNameChar)
        if isName name then return (named name, cs.drop name.length) else throw .noPrimary

end

def read (text : String) : Except SumFault Expression :=
  let cs := skipBlanks text.toList
  match readFull (20 * cs.length + 20) cs with
  | .error f => .error f
  | .ok (e, rest) => if (skipBlanks rest).isEmpty then .ok e else .error .noEnd

end Expression

/-! ### Evaluation -/

def truth (b : Bool) : Int64 :=
  if b then 1 else 0

def Operator.apply (o : Operator) (a b : Int64) : Except SumFault Int64 :=
  match o with
  | times => .ok (a * b)
  | divided => if b = 0 then .error .divisionByZero else .ok (a / b)
  | modulo => if b = 0 then .error .divisionByZero else .ok (a % b)
  | plus => .ok (a + b)
  | minus => .ok (a - b)
  | shiftLeft => .ok (a <<< b)
  | shiftRight => .ok (a >>> b)
  | less => .ok (truth (a < b))
  | lessEqual => .ok (truth (a ≤ b))
  | greater => .ok (truth (b < a))
  | greaterEqual => .ok (truth (b ≤ a))
  | equal => .ok (truth (a = b))
  | unequal => .ok (truth (a ≠ b))
  | bitAnd => .ok (a &&& b)
  | bitXor => .ok (a ^^^ b)
  | bitOr => .ok (a ||| b)
  | allOf => .ok (truth (a ≠ 0 ∧ b ≠ 0))
  | anyOf => .ok (truth (a ≠ 0 ∨ b ≠ 0))

/-- The number that a variable stands for: one that was set, or the value that `value` finds. -/
def numberOf (value : String → String) (known : List (String × Int64)) (name : String) :
    Except SumFault Int64 :=
  match known.lookup name with
  | some n => .ok n
  | none =>
    let text := value name
    if text.isEmpty then .ok 0
    else
      match number? text with
      | some n => .ok n
      | none => .error (.noNumber text)

/-- Carries out a calculation. `value` finds the variables that are not set here; `known` are those
that are, last one first. A side that does not matter is left alone. -/
def Expression.eval (value : String → String) :
    Expression → List (String × Int64) → Except SumFault (Int64 × List (String × Int64))
  | number n, known => .ok (n, known)
  | named name, known => do
    let n ← numberOf value known name
    return (n, known)
  | negative a, known => do
    let (n, known) ← a.eval value known
    return (-n, known)
  | isZero a, known => do
    let (n, known) ← a.eval value known
    return (truth (n = 0), known)
  | complement a, known => do
    let (n, known) ← a.eval value known
    return (~~~n, known)
  | binary o a b, known => do
    let (m, known) ← a.eval value known
    if o = .allOf ∧ m = 0 then return (0, known)
    if o = .anyOf ∧ m ≠ 0 then return (1, known)
    let (n, known) ← b.eval value known
    let x ← o.apply m n
    return (x, known)
  | choice test yes no, known => do
    let (n, known) ← test.eval value known
    if n = 0 then no.eval value known else yes.eval value known
  | assign name o a, known => do
    let (n, known) ← a.eval value known
    match o with
    | none => return (n, (name, n) :: known)
    | some o =>
      let m ← numberOf value known name
      let x ← o.apply m n
      return (x, (name, x) :: known)

end IconModules.Shell
