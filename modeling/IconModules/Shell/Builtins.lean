import IconModules.Shell.Condition
import IconModules.Shell.Reader
import IconModules.Shell.Words
/-!
# The commands of the shell itself

* **`builtin?`** is what a command of the shell does. Those that run commands are given the function
  that does so.
* **`isSpecial`** tells the commands whose failure ends the shell.
-/

namespace IconModules.Shell

/-- The commands that belong to the language. Their failures end the shell, and variables that are
set in front of them remain set. -/
def isSpecial (name : String) : Bool :=
  [":", ".", "break", "continue", "eval", "exec", "exit", "export", "readonly", "return", "set",
   "shift", "times", "trap", "unset"].contains name

def ordinary : List String :=
  ["true", "false", "echo", "printf", "test", "[", "cd", "pwd", "read", "kill", "local", "umask",
   "wait", "hash", "type", "command", "alias", "unalias", "jobs"]

def isDigits (s : String) : Bool :=
  !s.isEmpty && s.toList.all Char.isDigit

def illegalOption (c : Char) : String :=
  "Illegal option -" ++ String.singleton c

namespace State

/-! ### Output and conditions -/

def say (name : String) (bs : Octets) (s : State) : State :=
  if (s.channels.lookup 1).isSome then (s.write 1 bs).ended 0
  else (s.complainAs (name ++ ": ") (name ++ ": I/O error")).ended 1

def doEcho (arguments : List String) (s : State) : State :=
  s.say "echo" (echo arguments)

def doPrintf (arguments : List String) (s : State) : State :=
  let put (text : String) (rest : List String) : State :=
    let p := format text rest
    let s := p.complaints.foldl (fun s c => s.complainAs "printf: " c) (s.say "printf" p.output)
    if p.complaints.isEmpty then s else s.ended (if p.misread then 2 else 1)
  match arguments with
  | "--" :: text :: rest => put text rest
  | text :: rest =>
    match text.toList with
    | '-' :: c :: _ => (s.complainAs "printf: " (illegalOption c)).ended 2
    | _ => put text rest
  | [] => (s.complainAs "printf: " "usage: printf format [arg ...]").ended 2

def doTest (name : String) (arguments : List String) (s : State) : State :=
  match Condition.holds s.disk arguments with
  | .ok true => s.ended 0
  | .ok false => s.ended 1
  | .error text => (s.complainAs (name ++ ": ") text).ended 2

/-! ### Folders -/

def tidy (path : String) : String :=
  let parts := ((⟨path⟩ : Path).steps).foldl (fun (parts : List String) step =>
    match step with
    | .stay => parts
    | .up => parts.dropLast
    | .into n => parts ++ [n]) []
  "/" ++ "/".intercalate parts

def doChange (arguments : List String) (s : State) : State :=
  let arguments := arguments.dropWhile fun a => a == "-L" || a == "-P" || a == "--"
  let (target, shown) := match arguments with
    | [] => (s.value "HOME", false)
    | "-" :: _ => (s.value "OLDPWD", true)
    | a :: _ => (a, false)
  match target.toList with
  | '-' :: c :: _ => (s.complainAs "cd: " (illegalOption c)).ended 2
  | _ =>
  let full := if (⟨target⟩ : Path).isAbsolute then target else s.folder ++ "/" ++ target
  let folder := tidy full
  match s.disk.find true ⟨folder⟩ with
  | .ok (l, .folder) =>
    let s := s.bind "OLDPWD" s.folder
    let s := { s with folder := folder, disk := { s.disk with home := l } }
    (if shown then s.write 1 (Text.encode (folder ++ "\n")) else s).ended 0
  | _ => (s.complainAs "cd: " ("can't cd to " ++ target)).ended 2

def doPwd (arguments : List String) (s : State) : State :=
  let folder := if arguments.contains "-P" then "/" ++ "/".intercalate s.disk.home else s.folder
  (s.write 1 (Text.encode (folder ++ "\n"))).ended 0

/-! ### Reading -/

def unquote : List Char → Field
  | '\\' :: c :: cs => (c, true) :: unquote cs
  | c :: cs => (c, false) :: unquote cs
  | [] => []

/-- Reads a line; one that ends with a backslash goes on with the next one. -/
def takeInput (raw : Bool) : Nat → State → (Field × Bool) × State
  | 0, s => (([], false), s)
  | fuel + 1, s =>
    let ((bs, whole), s) := s.readLine 0
    let cs := (Text.decodeLossy (bs.filter (· != 0))).toList
    if raw then ((cs.map (·, false), whole), s)
    else
      let slashes := (cs.reverse.takeWhile (· == '\\')).length
      if whole && slashes % 2 == 1 then
        let ((more, whole), s) := takeInput raw fuel s
        ((unquote cs.dropLast ++ more, whole), s)
      else ((unquote cs, whole), s)

/-- Shares a line among variables; the last one gets what is left. -/
def share (separators : List Char) : List String → Field → List (String × String)
  | [], _ => []
  | name :: names, f =>
    let isBlank (c : Char × Bool) : Bool :=
      !c.2 && separators.contains c.1 && Fields.isBlank c.1
    let isSign (c : Char × Bool) : Bool :=
      !c.2 && separators.contains c.1 && !Fields.isBlank c.1
    let f := f.dropWhile isBlank
    if names.isEmpty then [(name, Field.text (f.reverse.dropWhile isBlank).reverse)]
    else
      let first := f.takeWhile fun c => !isBlank c && !isSign c
      let rest := (f.drop first.length).dropWhile isBlank
      let rest := match rest with
        | c :: more => if isSign c then more else rest
        | [] => []
      (name, Field.text first) :: share separators names rest

def doRead (raw : Bool) : List String → State → State
  | "-r" :: rest, s => doRead true rest s
  | "-p" :: _ :: rest, s => doRead raw rest s
  | [], s => (s.complainAs "read: " "arg count").ended 2
  | name :: names, s =>
    match name.toList with
    | '-' :: c :: _ => (s.complainAs "read: " (illegalOption c)).ended 2
    | _ =>
      let ((f, whole), s) := s.takeInput raw 10000
      let s := (share s.separators (name :: names) f).foldl (fun s x => s.bind x.1 x.2) s
      if s.jump.isSome then s else s.ended (if whole then 0 else 1)

/-! ### Variables and options -/

def splitAssignment (a : String) : String × Option String :=
  let name := a.toList.takeWhile (· != '=')
  match a.toList.drop name.length with
  | _ :: value => (String.ofList name, some (String.ofList value))
  | [] => (a, none)

def forNames (speaker : String) (f : String → State → State) : List String → State → State
  | [], s => s.ended 0
  | a :: rest, s =>
    match a.toList with
    | ['-', 'p'] => forNames speaker f rest s
    | '-' :: c :: _ => (s.complainAs speaker (illegalOption c)).exited 2
    | _ =>
      let (name, value) := splitAssignment a
      if !isName name then (s.complainAs speaker (name ++ ": bad variable name")).exited 2
      else
        let s := f name s
        let s := match value with
          | some v =>
            if s.constants.contains name then
              (s.complainAs speaker (name ++ ": is read only")).exited 2
            else s.bind name v
          | none => s
        if s.jump.isSome then s else forNames speaker f rest s

def keepLocal (name : String) (s : State) : State :=
  { s with locals := (name, s.bindings.lookup name) :: s.locals }

def doLocal (arguments : List String) (s : State) : State :=
  if s.called then s.forNames "local: " keepLocal arguments
  else (s.complainAs "local: " "not in a function").exited 2

def doReadonly (arguments : List String) (s : State) : State :=
  let before := s.constants
  let s := s.forNames "readonly: " (fun _ s => s) arguments
  if s.jump.isSome then s
  else
    let names := (arguments.map fun a => (splitAssignment a).1).filter isName
    { s with constants := names ++ before }

def doUnset : Bool → List String → State → State
  | _, [], s => s.ended 0
  | _, "-f" :: rest, s => doUnset true rest s
  | _, "-v" :: rest, s => doUnset false rest s
  | functions, a :: rest, s =>
    match a.toList with
    | '-' :: c :: _ => (s.complainAs "unset: " (illegalOption c)).exited 2
    | _ =>
      if functions then
        doUnset true rest { s with functions := s.functions.filter (·.1 != a) }
      else if !isName a then (s.complainAs "unset: " (a ++ ": bad variable name")).exited 2
      else if s.constants.contains a then
        (s.complainAs "unset: " (a ++ ": is read only")).exited 2
      else doUnset false rest { s with bindings := s.bindings.filter (·.1 != a) }

def switch (o : Options) (on : Bool) (letter : Char) : Option Options :=
  match letter with
  | 'e' => some { o with strict := on }
  | 'u' => some { o with known := on }
  | 'f' => some { o with verbatim := on }
  | 'x' => some { o with traced := on }
  | c => if ['a', 'b', 'C', 'h', 'm', 'n', 'v', 'E'].contains c then some o else none

def optionLetter (name : String) : Char :=
  (([("errexit", 'e'), ("nounset", 'u'), ("noglob", 'f'), ("xtrace", 'x'), ("allexport", 'a'),
    ("notify", 'b'), ("noclobber", 'C'), ("verbose", 'v'), ("noexec", 'n')] :
      List (String × Char)).lookup name).getD '?'

def doSet : Nat → List String → State → State
  | 0, _, s => s
  | _ + 1, [], s => s.ended 0
  | fuel + 1, a :: rest, s =>
    let switchAll (on : Bool) (letters : List Char) : State :=
      match letters.foldlM (fun o c => switch o on c) s.options with
      | some o => doSet fuel rest { s with options := o }
      | none => (s.complainAs "set: " ("Illegal option " ++ a)).exited 2
    match a.toList with
    | ['-'] | ['-', '-'] => { s with arguments := rest }.ended 0
    | ['-', 'o'] | ['+', 'o'] =>
      match rest with
      | name :: rest =>
        match switch s.options (a == "-o") (optionLetter name) with
        | some o => doSet fuel rest { s with options := o }
        | none => (s.complainAs "set: " ("Illegal option -o " ++ name)).exited 2
      | [] => s.ended 0
    | '-' :: c :: cs => switchAll true (c :: cs)
    | '+' :: c :: cs => switchAll false (c :: cs)
    | _ => { s with arguments := a :: rest }.ended 0

def doShift (arguments : List String) (s : State) : State :=
  let n := arguments.head?.getD "1"
  if !isDigits n then (s.complainAs "shift: " ("Illegal number: " ++ n)).exited 2
  else if digitsValue n.toList > s.arguments.length then
    (s.complainAs "shift: " "can't shift that many").exited 2
  else { s with arguments := s.arguments.drop (digitsValue n.toList) }.ended 0

/-! ### Jumps -/

def givenStatus (speaker : String) (arguments : List String) (s : State) (go : Nat → State) :
    State :=
  match arguments with
  | [] => go s.status
  | a :: _ =>
    if isDigits a then go (digitsValue a.toList % 256)
    else (s.complainAs speaker ("Illegal number: " ++ a)).exited 2

def doLoops (name : String) (jump : Nat → Jump) (arguments : List String) (s : State) : State :=
  let a := arguments.head?.getD "1"
  if !isDigits a || digitsValue a.toList = 0 then
    (s.complainAs (name ++ ": ") ("Illegal number: " ++ a)).exited 2
  else if s.loops = 0 then s.ended 0
  else { s with jump := some (jump (min (digitsValue a.toList) s.loops)) }.ended 0

/-! ### Signals -/

def harmless : List Nat := [17, 18, 23, 28]

def greatestSignal : Nat := 64

/-- The number of a signal by number or name, in small or capital letters. Zero is the end. -/
def signal? (name : String) : Option Nat :=
  if isDigits name then
    let n := digitsValue name.toList
    if n ≤ greatestSignal then some n else none
  else
    let name := String.ofList (name.toList.map Char.toUpper)
    if name = "EXIT" then some 0
    else if Tools.signalNames.contains name then some (Tools.signalNames.idxOf name + 1)
    else none

def signalName (n : Nat) : String :=
  match n with
  | 0 => "EXIT"
  | k + 1 => (Tools.signalNames[k]?).getD (toString n)

/-- Runs the action for a signal. It is a text of its own. -/
def runAction (runText : String → State → State) (action : String) (s : State) : State :=
  let inner := runText action { s with line := 1 }
  if inner.jump.isSome then inner else { inner with status := s.status, line := s.line }

def receive (runText : String → State → State) (n : Nat) (s : State) : State :=
  match (if n = 9 then none else s.traps.lookup n) with
  | some action => if action.isEmpty then s else s.runAction runText action
  | none =>
    if n = 0 ∨ harmless.contains n then s else { s with jump := some (.killed n) }

/-- Sends a signal; only the script itself gets it, but there is always a first program. -/
def send (runText : String → State → State) (n : Nat) : List String → State → State
  | [], s => s
  | target :: rest, s =>
    if !isDigits target then
      (s.complainAs "kill: " ("Illegal number: " ++ target)).ended 2
    else if target = processNumber then send runText n rest (s.receive runText n)
    else if target = "1" then send runText n rest s
    else send runText n rest ((s.complainAs "kill: " "No such process\n").ended 1)

def doKill (runText : String → State → State) (arguments : List String) (s : State) : State :=
  let usage :=
    "Usage: kill [-s sigspec | -signum | -sigspec] [pid | job]... or\nkill -l [exitstatus]"
  let trySend (name : String) (targets : List String) (unknown : String) : State :=
    match signal? name with
    | none => (s.complainAs "kill: " unknown).ended 2
    | some n =>
      if targets.isEmpty then (s.complainAs "kill: " usage).ended 2
      else s.ended 0 |>.send runText n targets
  match arguments with
  | [] => (s.complainAs "kill: " usage).ended 2
  | "-l" :: names =>
    let names := names.filterMap fun n => (signal? n).map fun n => signalName (n % 128)
    s.say "kill" (Text.encode (String.join (names.map (· ++ "\n"))))
  | "-s" :: name :: targets =>
    trySend name targets ("invalid signal number or name: " ++ name)
  | "--" :: targets => trySend "TERM" targets ""
  | first :: targets =>
    match first.toList with
    | '-' :: c :: cs => trySend (String.ofList (c :: cs)) targets (illegalOption c)
    | _ => trySend "TERM" arguments ""

def singleQuoted (s : String) : String :=
  "\x27" ++ s.replace "\x27" "\x27\"\x27\"\x27" ++ "\x27"

def showTraps (s : State) : State :=
  let lines := (List.range (greatestSignal + 1)).filterMap fun n =>
    (s.traps.lookup n).map fun action =>
      "trap -- " ++ singleQuoted action ++ " " ++ signalName n ++ "\n"
  s.say "trap" (Text.encode (String.join lines))

def doTrap (arguments : List String) (s : State) : State :=
  let put (action : Option String) (names : List String) : State :=
    names.foldl (fun s name =>
      match signal? name with
      | some n =>
        { s with traps := action.toList.map (n, ·) ++ s.traps.filter (·.1 != n) }
      | none => (s.write 2 (Text.encode ("trap: " ++ name ++ ": bad trap\n"))).ended 1)
      (s.ended 0)
  match arguments with
  | [] => s.showTraps
  | "--" :: action :: names => put (some action) names
  | "-" :: names => put none names
  | [name] => put none [name]
  | action :: names =>
    if isDigits action then put none (action :: names) else put (some action) names

/-! ### Names -/

def meaning? (s : State) (name : String) : Option String :=
  if keywords.contains name then some " is a shell keyword"
  else if isSpecial name then some " is a special shell builtin"
  else if (s.functions.lookup name).isSome then some " is a shell function"
  else if ordinary.contains name then some " is a shell builtin"
  else none

def doType (names : List String) (s : State) : State :=
  names.foldl (fun s name =>
    match s.meaning? name with
    | some m => s.write 1 (Text.encode (name ++ m ++ "\n"))
    | none => (s.write 1 (Text.encode (name ++ ": not found\n"))).ended 127) (s.ended 0)

def doWhich (names : List String) (s : State) : State :=
  names.foldl (fun s name =>
    match s.meaning? name with
    | some _ => s.write 1 (Text.encode (name ++ "\n"))
    | none => s.ended 127) (s.ended 0)

/-! ### All of them -/

def doSource (runText : String → State → State) (arguments : List String) (s : State) : State :=
  match arguments with
  | [] => s.ended 0
  | name :: _ =>
    match s.disk.read ⟨name⟩ with
    | .error _ => (s.complainAs ".: " ("cannot open " ++ name ++ ": No such file")).exited 2
    | .ok bs =>
      let inner := runText (Text.decodeLossy bs)
        { s.ended 0 with speaker := name ++ ": ", line := 1 }
      { inner with
        speaker := s.speaker
        jump := if inner.jump = some .back then none else inner.jump }

/-- What a command of the shell does. `runText` runs the commands in a text. -/
def builtin? (runText : String → State → State) (name : String) (arguments : List String) :
    Option (State → State) :=
  match name with
  | ":" | "true" | "wait" | "hash" | "times" | "alias" | "unalias" | "jobs" =>
    some fun s => s.ended 0
  | "false" => some fun s => s.ended 1
  | "umask" => some fun s =>
    (if arguments.isEmpty then s.write 1 (Text.encode "0022\n") else s).ended 0
  | "echo" => some (doEcho arguments)
  | "printf" => some (doPrintf arguments)
  | "test" => some (doTest "test" arguments)
  | "[" => some fun s =>
    if arguments.getLast? = some "]" then s.doTest "[" arguments.dropLast
    else (s.complainAs "[: " "missing ]").ended 2
  | "cd" => some (doChange arguments)
  | "pwd" => some (doPwd arguments)
  | "read" => some (doRead false arguments)
  | "export" => some (forNames "export: " (fun _ s => s) arguments)
  | "readonly" => some (doReadonly arguments)
  | "local" => some (doLocal arguments)
  | "unset" => some (doUnset false arguments)
  | "set" => some (doSet (arguments.length + 1) arguments)
  | "shift" => some (doShift arguments)
  | "exit" => some fun s => s.givenStatus "exit: " arguments s.exited
  | "return" => some fun s =>
    s.givenStatus "return: " arguments fun n => { s.ended n with jump := some .back }
  | "break" => some (doLoops "break" .leave arguments)
  | "continue" => some (doLoops "continue" .again arguments)
  | "kill" => some (doKill runText arguments)
  | "trap" => some (doTrap arguments)
  | "type" => some (doType arguments)
  | "eval" => some fun s =>
    let inner := runText (" ".intercalate arguments)
      { s.ended 0 with speaker := "eval: ", line := 1 }
    { inner with speaker := s.speaker }
  | "." => some (doSource runText arguments)
  | _ => none

end State
end IconModules.Shell
