import IconModules.Files.Disk
import IconModules.Shell.Printing
import IconModules.Tools.Outcome
/-!
# What a running script knows and has done

* A **`State`** holds variables, functions and options, and the **`Channel`**s over which commands
  read and write. What is written is kept under the number of the output it went to.
* **`State.value?`** is the value of a parameter.
* **`State.write`** and **`State.readLine`** use channels, **`State.connect`** opens them.
* **`State.within`** leaves a shell inside a shell.
-/

namespace IconModules.Shell

/-! ### States -/

/-- What a number of a channel stands for. -/
inductive Channel where
  | output (number : Nat)
  | file (p : Path)
  | input (number : Nat)
  | nowhere
  deriving DecidableEq, Repr

/-- Why a script does not go on with the next command. -/
inductive Jump where
  | exit
  | killed (signal : Nat)
  /-- So many loops end. -/
  | leave (loops : Nat)
  /-- The last of so many loops goes on, the ones inside end. -/
  | again (loops : Nat)
  | back
  deriving DecidableEq, Repr

/-- What a script has asked the shell for. -/
structure Options where
  strict : Bool := false
  known : Bool := false
  verbatim : Bool := false
  traced : Bool := false
  deriving DecidableEq, Repr

/-- What a running script knows and has done. -/
structure State where
  disk : Disk
  folder : String
  program : String
  arguments : List String
  bindings : List (String × String) := []
  constants : List String := []
  functions : List (String × Command) := []
  called : Bool := false
  /-- How many functions are running. -/
  depth : Nat := 0
  /-- The variables of the function at hand, with their values outside. -/
  locals : List (String × Option String) := []
  /-- What is done at a signal, or at the end, which is signal zero. -/
  traps : List (Nat × String) := []
  options : Options := {}
  status : Nat := 0
  inner : Nat := 0
  line : Nat := 0
  /-- What complaints begin with, if the text at hand is not the script itself. -/
  speaker : String := ""
  loops : Nat := 0
  channels : List (Nat × Channel)
  /-- What was written to which output, the last piece first. -/
  written : List (Nat × Octets) := []
  inputs : List (Nat × Octets) := []
  /-- A number that no output or input has. -/
  fresh : Nat
  jump : Option Jump := none

namespace State

def ended (s : State) (status : Nat) : State :=
  { s with status := status }

def exited (s : State) (status : Nat) : State :=
  { s with status := status, jump := some .exit }

/-! ### Writing -/

def write (s : State) (number : Nat) (bs : Octets) : State :=
  if bs.isEmpty then s
  else
    match s.channels.lookup number with
    | some (.output n) => { s with written := (n, bs) :: s.written }
    | some (.file p) =>
      match s.disk.append p bs with
      | .ok d => { s with disk := d }
      | .error _ => s
    | _ => s

def collected (s : State) (n : Nat) : Octets :=
  (s.written.filter (·.1 == n)).reverse.flatMap (·.2)

def complainAs (s : State) (speaker text : String) : State :=
  s.write 2 <| Text.encode <|
    s.program ++ ": " ++ toString s.line ++ ": " ++ speaker ++ text ++ "\n"

def complain (s : State) (text : String) : State :=
  s.complainAs s.speaker text

def failed (s : State) (text : String) : State :=
  (s.complain text).exited 2

def depthLimit : Nat := 1000

def deeper (f : State → State) (s : State) : State :=
  if s.depth < depthLimit then { f { s with depth := s.depth + 1 } with depth := s.depth }
  else s.failed ("Maximum function recursion depth (" ++ toString depthLimit ++ ") reached")

/-! ### Reading -/

/-- Takes a line from a channel, without its end; `false` if the input ends before that. -/
def readLine (s : State) (number : Nat) : (Octets × Bool) × State :=
  match s.channels.lookup number with
  | some (.input n) =>
    let rest := (s.inputs.lookup n).getD []
    let line := rest.takeWhile (· != 10)
    let rest := rest.drop line.length
    ((line, !rest.isEmpty), { s with inputs := (n, rest.drop 1) :: s.inputs })
  | _ => (([], false), s)

/-! ### Parameters -/

def processNumber : String := "4242"

def separators (s : State) : List Char :=
  match s.bindings.lookup "IFS" with
  | some v => v.toList
  | none => [' ', '\t', '\n']

def joint (s : State) : String :=
  String.ofList (s.separators.take 1)

def optionLetters (s : State) : String :=
  (if s.options.strict then "e" else "") ++ (if s.options.verbatim then "f" else "") ++
    (if s.options.traced then "x" else "") ++ if s.options.known then "u" else ""

def value? (s : State) (name : String) : Option String :=
  match name with
  | "@" => if s.arguments.isEmpty then none else some (" ".intercalate s.arguments)
  | "*" => if s.arguments.isEmpty then none else some (s.joint.intercalate s.arguments)
  | "#" => some (toString s.arguments.length)
  | "?" => some (toString s.status)
  | "$" => some processNumber
  | "!" => none
  | "-" => some s.optionLetters
  | "0" => some s.program
  | _ =>
    match s.bindings.lookup name with
    | some v => some v
    | none =>
      match name with
      | "PWD" => some s.folder
      | "IFS" => some " \t\n"
      | "OPTIND" | "PPID" => some "1"
      | _ =>
        if name.toList.all Char.isDigit then s.arguments[digitsValue name.toList - 1]? else none

def value (s : State) (name : String) : String :=
  (s.value? name).getD ""

/-- The state with a variable set. A constant cannot be set. -/
def bind (s : State) (name value : String) : State :=
  if s.constants.contains name then s.failed (name ++ ": is read only")
  else { s with bindings := (name, value) :: s.bindings.filter (·.1 != name) }

def restore (s : State) (name : String) (old : Option String) : State :=
  { s with bindings := (old.toList.map (name, ·)) ++ s.bindings.filter (·.1 != name) }

/-! ### Shells inside -/

/-- The state of a shell behind one that ran inside it. Files and what was written remain. -/
def within (outer inner : State) : State :=
  { outer with
    disk := outer.disk.withTree inner.disk.tree
    written := inner.written
    inputs := inner.inputs
    fresh := inner.fresh
    status := inner.status
    jump := match inner.jump with
      | some (.killed n) => some (.killed n)
      | _ => outer.jump }

def apart (s : State) (run : State → State) : State :=
  s.within (run { s with traps := [] })

def capture (s : State) (run : State → State) : Octets × State :=
  let n := s.fresh
  let inner := s.apart fun s =>
    run { s with fresh := n + 1, channels := (1, .output n) :: s.channels }
  (inner.collected n, { inner with written := inner.written.filter (·.1 != n) })

def feed (s : State) (bs : Octets) : State :=
  { s with
    fresh := s.fresh + 1
    inputs := (s.fresh, bs) :: s.inputs
    channels := (0, .input s.fresh) :: s.channels }

/-! ### Files as channels -/

def reason (e : FileError) (missing : String) : String :=
  if e = .noSuchFile ∨ e = .notFolder then missing
  else
    match e with
    | .system n => systemText n
    | e => e.message

def device? (s : State) (name : String) : Option Channel :=
  match name with
  | "/dev/null" => some .nowhere
  | "/dev/stdin" => s.channels.lookup 0
  | "/dev/stdout" => s.channels.lookup 1
  | "/dev/stderr" => s.channels.lookup 2
  | _ => none

def connect (s : State) (number : Nat) (c : Channel) : State :=
  { s with channels := (number, c) :: s.channels.filter (·.1 != number) }

def disconnect (s : State) (number : Nat) : State :=
  { s with channels := s.channels.filter (·.1 != number) }

/-- Connects a channel to a file that is written; fails with a complaint. -/
def openToWrite (s : State) (number : Nat) (name : String) (behind : Bool) :
    Except String State :=
  match s.device? name with
  | some c => .ok (s.connect number c)
  | none =>
    match if behind then s.disk.append ⟨name⟩ [] else s.disk.write ⟨name⟩ [] with
    | .ok d => .ok ({ s with disk := d }.connect number (.file ⟨name⟩))
    | .error e => .error ("cannot create " ++ name ++ ": " ++ reason e "Directory nonexistent")

def openText (s : State) (number : Nat) (bs : Octets) : State :=
  { s with fresh := s.fresh + 1, inputs := (s.fresh, bs) :: s.inputs }.connect number
    (.input s.fresh)

/-- Connects a channel to a file that is read; fails with a complaint. -/
def openToRead (s : State) (number : Nat) (name : String) : Except String State :=
  match s.device? name with
  | some c => .ok (s.connect number c)
  | none =>
    match s.disk.read ⟨name⟩ with
    | .ok bs => .ok (s.openText number bs)
    | .error e =>
      if e = .isFolder then .ok (s.connect number .nowhere)
      else .error ("cannot open " ++ name ++ ": " ++ reason e "No such file")

end State
end IconModules.Shell
