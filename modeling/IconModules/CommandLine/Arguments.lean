import IconModules.CommandLine.Help
import IconModules.Text.Terminal
/-!
# Reading arguments

* **`Request.ofArguments`** says what a list of arguments asks for, or what is wrong with it.

Options are taken in the order in which they are given. One that waits for its value is settled when
the next one comes or the arguments end; an argument that cannot be understood at all is complained
about first.
-/

namespace IconModules.CommandLine

/-! ### Complaints -/

/-- Why a text is no number. -/
inductive NumberFault where
  | empty
  | digit
  | tooLarge
  | tooSmall
  | outside (n : Int)
  deriving DecidableEq, Repr

def greatestAttempts : Nat := UInt32.size - 1

def NumberFault.message : NumberFault → String
  | empty => "cannot parse integer from empty string"
  | digit => "invalid digit found in string"
  | tooLarge => "number too large to fit in target type"
  | tooSmall => "number too small to fit in target type"
  | outside n => toString n ++ " is not in 0..=" ++ toString greatestAttempts

/-- What is wrong with arguments. -/
inductive UsageError where
  | nothingAsked
  | unexpected (argument : String)
  | unknownCommand (name : String)
  | valueMissing (o : Choice)
  | badValue (o : Choice) (value : String)
  | badNumber (o : Choice) (value : String) (fault : NumberFault)
  | surplusValue (o : Choice) (value : String)
  | repeated (o : Choice)
  | rivals (o p : Choice)
  deriving DecidableEq, Repr

/-- What was given, as a complaint shows it. -/
def shownValue (value : String) : String :=
  "'" ++ Text.unsteered value ++ "'"

/-- The first line of the complaint. -/
def UsageError.message : UsageError → String
  | nothingAsked => programPurpose
  | unexpected a => "error: unexpected argument " ++ shownValue a ++ " found"
  | unknownCommand a => "error: unrecognized subcommand " ++ shownValue a
  | valueMissing o => "error: a value is required for '" ++ o.shown ++ "' but none was supplied"
  | badValue o v => "error: invalid value " ++ shownValue v ++ " for '" ++ o.shown ++ "'"
  | badNumber o v f =>
    "error: invalid value " ++ shownValue v ++ " for '" ++ o.shown ++ "': " ++ f.message
  | surplusValue o v =>
    "error: unexpected value " ++ shownValue v ++ " for '" ++ o.shown ++
      "' found; no more were expected"
  | repeated o => "error: the argument '" ++ o.shown ++ "' cannot be used multiple times"
  | rivals o p => "error: the argument '" ++ o.shown ++ "' cannot be used with '" ++ p.shown ++ "'"

/-! ### Numbers -/

/-- Adds digits to a number that may not exceed a limit. -/
def readDigits (limit : Nat) (beyond : NumberFault) : Nat → List Char → Except NumberFault Nat
  | n, [] => .ok n
  | n, c :: cs =>
    if !c.isDigit then .error .digit
    else
      let m := n * 10 + (c.toNat - 48)
      if m ≤ limit then readDigits limit beyond m cs else .error beyond

/-- Reads a whole number from `-least` to `most`; a number without a least value has no sign but
plus. -/
def readInteger (least : Option Nat) (most : Nat) (cs : List Char) : Except NumberFault Int :=
  match cs, least with
  | [], _ => .error .empty
  | ['+'], _ | ['-'], _ => .error .digit
  | '+' :: cs, _ => (readDigits most .tooLarge 0 cs).map Int.ofNat
  | '-' :: cs, some least => (readDigits least .tooSmall 0 cs).map fun n => -(n : Int)
  | cs, _ => (readDigits most .tooLarge 0 cs).map Int.ofNat

def readAttempts (s : String) : Except NumberFault Nat :=
  match readInteger (some (Nat.pow 2 63)) (Nat.pow 2 63 - 1) s.toList with
  | .ok n => if 0 ≤ n ∧ n ≤ greatestAttempts then .ok n.toNat else .error (.outside n)
  | .error f => .error f

def readSeconds (s : String) : Except NumberFault Nat :=
  (readInteger none (UInt64.size - 1) s.toList).map Int.toNat

/-! ### Options -/

structure Options where
  root : Option Path := none
  edition : Edition := .current
  purgeCache : Bool := false
  keepCache : Bool := false
  maxAttempts : Option Nat := none
  /-- In seconds. -/
  retryDelay : Nat := 5
  translator : Option Path := none
  formatter : Option Path := none
  verbose : Bool := false
  deriving DecidableEq, Repr

/-- What arguments ask for. -/
inductive Request where
  | generate (o : Options)
  | help (text : String)
  deriving DecidableEq, Repr

/-- A request or a complaint that ends the reading of arguments. -/
inductive Stop where
  | help (text : String)
  | error (e : UsageError)
  deriving DecidableEq, Repr

/-- The options read so far: what they say, which ones were given, first one first, and the one that
waits to be settled, with its value if it has come. -/
structure Reading where
  options : Options := {}
  given : List Choice := []
  waiting : Option (Choice × Option String) := none

def readPath (o : Choice) (value : String) : Except UsageError Path :=
  if value.isEmpty then .error (.valueMissing o) else .ok ⟨value⟩

/-- What options say with one more, whose value is empty if it takes none. -/
def Options.set (x : Options) (o : Choice) (value : String) : Except UsageError Options :=
  match o with
  | .root => (readPath o value).map fun p => { x with root := some p }
  | .profile =>
    if value = "legacy" then .ok { x with edition := .legacy }
    else if value = "current" then .ok { x with edition := .current }
    else if value.isEmpty then .error (.valueMissing o)
    else .error (.badValue o value)
  | .purgeCache => .ok { x with purgeCache := true }
  | .keepCache => .ok { x with keepCache := true }
  | .maxAttempts =>
    match readAttempts value with
    | .ok n => .ok { x with maxAttempts := some n }
    | .error f => .error (.badNumber o value f)
  | .retryDelay =>
    match readSeconds value with
    | .ok n => .ok { x with retryDelay := n }
    | .error f => .error (.badNumber o value f)
  | .translator => (readPath o value).map fun p => { x with translator := some p }
  | .formatter => (readPath o value).map fun p => { x with formatter := some p }
  | .verbose => .ok { x with verbose := true }
  | .help => .ok x

namespace Reading

def accept (r : Reading) (o : Choice) (value : Option String) : Except UsageError Reading := do
  if o.valueName?.isSome ∧ value.isNone then throw (.valueMissing o)
  if o ∈ r.given then throw (.repeated o)
  return { r with options := ← r.options.set o (value.getD ""), given := r.given ++ [o] }

/-- Takes the option that waits. -/
def settle (r : Reading) : Except UsageError Reading :=
  match r.waiting with
  | none => .ok r
  | some (o, value) => { r with waiting := none }.accept o value

/-- Takes an option that has no value, or has it attached. The help option ends the reading. -/
def take (r : Reading) (o : Choice) (value : Option String) (long : Bool) :
    Except Stop Reading := do
  let r ← r.settle.mapError .error
  if o = .help then throw (.help (commandHelp long))
  (r.accept o value).mapError .error

/-- Leaves an option to wait for its value. -/
def await (r : Reading) (o : Choice) : Except Stop Reading := do
  let r ← r.settle.mapError .error
  return { r with waiting := some (o, none) }

/-- Reads letters behind one dash. A letter that needs a value takes the rest, without an equals
sign in front. -/
def letters (r : Reading) : List Char → Except Stop Reading
  | [] => .ok r
  | c :: cs =>
    match Choice.ofShort? c with
    | none => .error (.error (.unexpected ("-" ++ String.singleton c)))
    | some o =>
      if o.valueName?.isSome then
        match cs with
        | [] => r.await o
        | '=' :: value => r.take o (some (String.ofList value)) false
        | value => r.take o (some (String.ofList value)) false
      else
        match r.take o none false with
        | .ok r => letters r cs
        | stop => stop

/-- Reads what stands behind two dashes: a name, and behind an equals sign a value. -/
def word (r : Reading) (cs : List Char) : Except Stop Reading :=
  let name := String.ofList (cs.takeWhile (· != '='))
  match Choice.ofLong? name, cs.dropWhile (· != '=') with
  | none, _ => .error (.error (.unexpected ("--" ++ name)))
  | some o, [] => if o.valueName?.isSome then r.await o else r.take o none true
  | some o, _ :: value =>
    if o.valueName?.isSome then r.take o (some (String.ofList value)) true
    else .error (.error (.surplusValue o (String.ofList value)))

def argument (r : Reading) (a : String) : Except Stop Reading :=
  match a.toList with
  | '-' :: '-' :: cs => r.word cs
  | '-' :: c :: cs => r.letters (c :: cs)
  | _ =>
    match r.waiting with
    | some (o, none) => .ok { r with waiting := some (o, some a) }
    | _ => .error (.error (.unexpected a))

/-- Reads arguments. Behind a double dash there must be none. -/
def arguments (r : Reading) : List String → Except Stop Reading
  | [] => .ok r
  | "--" :: rest =>
    match rest with
    | [] => .ok r
    | a :: _ => .error (.error (.unexpected a))
  | a :: rest =>
    match r.argument a with
    | .ok r => arguments r rest
    | stop => stop

/-- The complaint about two options that exclude each other, about the first given of them. -/
def rivals? (r : Reading) : Option UsageError :=
  r.given.findSome? fun o => match o.rival? with
    | some p => if p ∈ r.given then some (.rivals o p) else none
    | none => none

end Reading

def readOptions (arguments : List String) : Except Stop Options := do
  let r ← Reading.arguments {} arguments
  let r ← r.settle.mapError .error
  match r.rivals? with
  | some e => throw (.error e)
  | none => return r.options

/-! ### Requests -/

/-- The text that explains what some names name. -/
def helpFor : List String → Except UsageError String
  | [] => .ok programHelp
  | name :: rest =>
    let text :=
      if name = commandName then some (commandHelp true)
      else if name = helpName then some helpHelp
      else none
    match text, rest with
    | none, _ => .error (.unknownCommand name)
    | some _, next :: _ => .error (.unknownCommand next)
    | some text, [] => .ok text

/-- What arguments ask for before a command has been named. -/
def readCommand : List String → Except Stop Request
  | [] => .error (.error .nothingAsked)
  | a :: rest =>
    if a = commandName then (readOptions rest).map .generate
    else if a = helpName then
      match helpFor rest with
      | .ok text => .error (.help text)
      | .error e => .error (.error e)
    else
      match a.toList with
      | ['-', '-'] =>
        match rest with
        | [] => .error (.error .nothingAsked)
        | b :: _ =>
          if b = commandName ∨ b = helpName then .error (.error (.unexpected b))
          else .error (.error (.unknownCommand b))
      | '-' :: '-' :: cs =>
        let name := String.ofList (cs.takeWhile (· != '='))
        if name = Choice.help.long then
          match cs.dropWhile (· != '=') with
          | [] => .error (.help programHelp)
          | _ :: value => .error (.error (.surplusValue .help (String.ofList value)))
        else .error (.error (.unexpected ("--" ++ name)))
      | '-' :: c :: _ =>
        if Choice.help.short? = some c then .error (.help programHelp)
        else .error (.error (.unexpected ("-" ++ String.singleton c)))
      | _ => .error (.error (.unknownCommand a))

def Request.ofArguments (arguments : List String) : Except UsageError Request :=
  match readCommand arguments with
  | .ok request => .ok request
  | .error (.help text) => .ok (.help text)
  | .error (.error e) => .error e

end IconModules.CommandLine
