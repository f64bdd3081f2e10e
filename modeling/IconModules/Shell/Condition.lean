import IconModules.Files.Disk
import IconModules.Shell.Arithmetic
/-!
# Conditions

* **`Condition.holds`** is what the arguments of a test say: about texts, numbers and files. It
  fails with a complaint if they make no sense.
-/

namespace IconModules.Shell.Condition

abbrev Result := Except String (Bool × List String)

def unary : List String :=
  ["-b", "-c", "-d", "-e", "-f", "-G", "-g", "-h", "-k", "-L", "-n", "-O", "-p", "-r", "-S", "-s",
   "-t", "-u", "-w", "-x", "-z"]

def binary : List String :=
  ["=", "!=", "<", ">", "-eq", "-ne", "-ge", "-gt", "-le", "-lt", "-nt", "-ot", "-ef"]

/-- Answers a question about one argument. All files can be read and written, and only folders can
be entered. -/
def askOne (d : Disk) (question a : String) : Bool :=
  match question with
  | "-n" => !a.isEmpty
  | "-z" => a.isEmpty
  | "-d" | "-x" => d.holdsFolder ⟨a⟩
  | "-e" | "-r" | "-w" | "-O" | "-G" => d.holds ⟨a⟩
  | "-f" => (d.read ⟨a⟩).isOk
  | "-s" => match d.find true ⟨a⟩ with
    | .ok (_, .file bs) => !bs.isEmpty
    | .ok _ => true
    | .error _ => false
  | "-h" | "-L" => match d.find false ⟨a⟩ with
    | .ok (_, .link _) => true
    | _ => false
  | _ => false

def number (s : String) : Except String Int :=
  let cs := s.toList.dropWhile fun c => c == ' ' || c == '\t' || c == '\n'
  let (negative, cs) := match cs with
    | '-' :: rest => (true, rest)
    | '+' :: rest => (false, rest)
    | _ => (false, cs)
  let digits := cs.takeWhile Char.isDigit
  if digits.isEmpty || !(cs.drop digits.length).all [' ', '\t', '\n'].contains then
    .error ("Illegal number: " ++ s)
  else
    let n : Int := valueInBase 10 digits
    .ok (if negative then -n else n)

def askTwo (d : Disk) (a question b : String) : Except String Bool := do
  match question with
  | "=" => return a == b
  | "!=" => return a != b
  | "<" => return a < b
  | ">" => return b < a
  | "-nt" | "-ot" => return false
  | "-ef" => return (d.find true ⟨a⟩).isOk &&
      ((d.locate true ⟨a⟩).toOption == (d.locate true ⟨b⟩).toOption)
  | _ =>
    let m ← number a
    let n ← number b
    match question with
    | "-eq" => return m == n
    | "-ne" => return m != n
    | "-ge" => return m ≥ n
    | "-gt" => return m > n
    | "-le" => return m ≤ n
    | _ => return m < n

/-- Whether the first argument is a question about the next one: there is a next one, and that is no
question about the first and the third. -/
def asksOne : List String → Bool
  | _ :: b :: _ :: _ => !binary.contains b
  | [_, _] => true
  | _ => false

mutual

def readAny (d : Disk) : Nat → List String → Result
  | 0, _ => .error "too long"
  | fuel + 1, ts => do
    let (a, rest) ← readAll d fuel ts
    match rest with
    | "-o" :: rest =>
      let (b, rest) ← readAny d fuel rest
      return (a || b, rest)
    | _ => return (a, rest)

def readAll (d : Disk) : Nat → List String → Result
  | 0, _ => .error "too long"
  | fuel + 1, ts => do
    let (a, rest) ← readNot d fuel ts
    match rest with
    | "-a" :: rest =>
      let (b, rest) ← readAll d fuel rest
      return (a && b, rest)
    | _ => return (a, rest)

def readNot (d : Disk) : Nat → List String → Result
  | 0, _ => .error "too long"
  | fuel + 1, "!" :: rest => do
    let (a, rest) ← readNot d fuel rest
    return (!a, rest)
  | fuel + 1, ts => readOne d fuel ts

def readOne (d : Disk) : Nat → List String → Result
  | 0, _ => .error "too long"
  | _ + 1, [] => .ok (false, [])
  | _ + 1, [a] => .ok (!a.isEmpty, [])
  | fuel + 1, a :: b :: rest =>
    if a = "(" then
      if b = ")" then .ok (false, rest)
      else do
        let (x, rest) ← readAny d fuel (b :: rest)
        match rest with
        | ")" :: rest => return (x, rest)
        | _ => throw "closing paren expected"
    else if unary.contains a && asksOne (a :: b :: rest) then .ok (askOne d a b, rest)
    else if binary.contains b then
      match rest with
      | c :: rest => (askTwo d a b c).map (·, rest)
      | [] => .error (b ++ ": argument expected")
    else .ok (!a.isEmpty, b :: rest)

end

def readFull (d : Disk) (ts : List String) : Except String Bool := do
  let (x, rest) ← readAny d (4 * ts.length + 4) ts
  if rest.isEmpty then return x
  else throw ((ts[ts.length - rest.length - 1]?).getD "" ++ ": unexpected operator")

/-- What the arguments of a test say. Up to four are told apart by their number. -/
def holds (d : Disk) : List String → Except String Bool
  | [] => .ok false
  | [a, b, c] =>
    if binary.contains b then askTwo d a b c
    else if a = "(" ∧ c = ")" then readFull d [b]
    else if a = "!" then (holds d [b, c]).map (!·)
    else readFull d [a, b, c]
  | [a, b, c, e] =>
    if a = "(" ∧ e = ")" then readFull d [b, c]
    else if a = "!" then (holds d [b, c, e]).map (!·)
    else readFull d [a, b, c, e]
  | ts => readFull d ts

end IconModules.Shell.Condition
