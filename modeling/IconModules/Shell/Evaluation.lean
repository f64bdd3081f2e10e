import IconModules.Shell.Builtins
/-!
# Running shell scripts

* **`eval`** runs a command. Its first argument bounds the depth of the calls and the rounds of each
  loop; a script that uses it up is killed.
* **`runLines`** runs a script line by line.
* **`Script.run`** starts a script as a program.
-/

namespace IconModules.Shell

open Tools (Ending Outcome StartError)

namespace State

/-! ### Redirections -/

/-- Connects channels; `false` if one could not be connected, about which there is a complaint. -/
def redirect (run : Command → State → State) (fuel : Nat) :
    List Redirection → State → Bool × State
  | [], s => (true, s)
  | (number, target) :: rest, s =>
    let finish (r : Except String State) (s : State) : Bool × State :=
      match r with
      | .ok s => redirect run fuel rest s
      | .error text => (false, (s.complain text).ended 2)
    match target with
    | .read w =>
      let (name, s) := s.text run fuel w
      finish (s.openToRead number name) s
    | .write w behind =>
      let (name, s) := s.text run fuel w
      finish (s.openToWrite number name behind) s
    | .document w =>
      let (text, s) := s.text run fuel w
      finish (.ok (s.openText number (Text.encode text))) s
    | .channel w =>
      let (name, s) := s.text run fuel w
      if name = "-" then finish (.ok (s.disconnect number)) s
      else if isDigits name then
        match s.channels.lookup (digitsValue name.toList) with
        | some c => finish (.ok (s.connect number c)) s
        | none => finish (.error (name ++ ": Bad file descriptor")) s
      else finish (.error "Bad fd number") s

def withRedirections (run : Command → State → State) (fuel : Nat) (rs : List Redirection)
    (f : State → State) (s : State) : State :=
  let channels := s.channels
  match s.redirect run fuel rs with
  | (true, s) => { if s.jump.isSome then s else f s with channels := channels }
  | (false, s) => { s with channels := channels }

/-! ### Simple commands -/

def strictly (tested : Bool) (s : State) : State :=
  if s.options.strict && !tested && s.jump.isNone && s.status != 0 then s.exited s.status else s

def trace (assignments : List (String × String)) (arguments : List String) (s : State) : State :=
  if s.options.traced then
    let words := assignments.map (fun a => a.1 ++ "=" ++ a.2) ++ arguments
    s.write 2 (Text.encode ("+ " ++ " ".intercalate words ++ "\n"))
  else s

/-- Sets variables one after the other. A value may use the ones before it. -/
def assign (run : Command → State → State) (fuel : Nat) :
    List (String × Word) → State → List (String × String) × State
  | [], s => ([], s)
  | (name, w) :: rest, s =>
    if s.jump.isSome then ([], s)
    else
      let (v, s) := s.text run fuel w
      if s.jump.isSome then ([], s)
      else
        let (more, s) := assign run fuel rest (s.bind name v)
        ((name, v) :: more, s)

def call (body : State → State) (arguments : List String) (s : State) : State :=
  let inner := body { s with arguments := arguments, locals := [], loops := 0, called := true }
  let back := inner.locals.foldl (fun s x => s.restore x.1 x.2) inner
  { back with
    arguments := s.arguments
    locals := s.locals
    called := s.called
    loops := s.loops
    jump := if back.jump = some .back then none else back.jump }

def noProgram (name : String) (s : State) : State :=
  if name.toList.contains '/' && s.disk.holds ⟨name⟩ then
    (s.complain (name ++ ": Permission denied")).ended 126
  else (s.complain (name ++ ": not found")).ended 127

/-- Runs a command by name. `run` runs a command and `runText` the commands in a text. -/
def command (run : Command → State → State) (runText : String → State → State)
    (functionsToo : Bool) : List String → State → State
  | [], s => s
  | name :: arguments, s =>
    match name, arguments with
    | "command", "-v" :: names => s.doWhich names
    | "command", "-V" :: names => s.doType names
    | "command", [] => s.ended 0
    | "command", name :: rest => command run runText false (name :: rest) s
    | "exec", [] => s.ended 0
    | "exec", name :: _ =>
      if name.toList.contains '/' && s.disk.holds ⟨name⟩ then
        (s.complainAs "exec: " (name ++ ": Permission denied")).exited 126
      else (s.complainAs "exec: " (name ++ ": not found")).exited 127
    | _, _ =>
      match (if functionsToo && !isSpecial name then s.functions.lookup name else none) with
      | some body => s.deeper (call (run body) arguments)
      | none =>
        match builtin? runText name arguments with
        | some f => f s
        | none => s.noProgram name

/-- Runs a simple command: words come first, then channels, then variables. What stands in a word
runs `inside`. -/
def simple (run inside : Command → State → State) (runText : String → State → State) (fuel : Nat)
    (assignments : List (String × Word)) (words : List Word) (redirections : List Redirection)
    (s : State) : State :=
  let channels := s.channels
  let (arguments, s) := expand inside fuel words { s with inner := 0 }
  if s.jump.isSome then s
  else
    let special := (arguments.head?.map isSpecial).getD false
    match s.redirect inside fuel redirections with
    | (false, s) =>
      let s := { s with channels := channels }
      if special && s.jump.isNone then s.exited 2 else s
    | (true, s) =>
      let old := assignments.map fun a => (a.1, s.bindings.lookup a.1)
      let (values, s) := s.assign inside fuel assignments
      if s.jump.isSome then { s with channels := channels }
      else
        let s := s.trace values arguments
        if arguments.isEmpty then { s.ended s.inner with channels := channels }
        else
          let permanent := arguments == ["exec"]
          let s := s.command run runText true arguments
          let s := if permanent then s else { s with channels := channels }
          if special then s else old.foldl (fun s x => s.restore x.1 x.2) s

/-! ### Loops and pipelines -/

def turn (s : State) : Bool × State :=
  match s.jump with
  | none => (true, s)
  | some (.leave n) => (false, { s with jump := if n ≤ 1 then none else some (.leave (n - 1)) })
  | some (.again n) =>
    if n ≤ 1 then (true, { s with jump := none })
    else (false, { s with jump := some (.again (n - 1)) })
  | some _ => (false, s)

/-- Runs the body of a loop as long as the test says. `last` is the status of the last round. -/
def rounds (wanted : Bool) (test body : State → State) : Nat → Nat → State → State
  | 0, _, s => { s with jump := some (.killed 9) }
  | fuel + 1, last, s =>
    match (test s).turn with
    | (false, s) => if s.jump.isSome then s else s.ended last
    | (true, s) =>
      if (s.status == 0) != wanted then s.ended last
      else
        match (body s).turn with
        | (false, s) => s
        | (true, s) => rounds wanted test body fuel s.status s

def forTexts (name : String) (body : State → State) : List String → State → State
  | [], s => s
  | v :: vs, s =>
    let s := s.bind name v
    if s.jump.isSome then s
    else
      match (body s).turn with
      | (false, s) => s
      | (true, s) => forTexts name body vs s

def looping (f : State → State) (s : State) : State :=
  { f { s with loops := s.loops + 1 } with loops := s.loops }

def pipe (run : Command → State → State) : List Command → State → State
  | [], s => s
  | [c], s => s.apart (run c)
  | c :: cs, s =>
    let (bs, s') := s.capture (run c)
    { pipe run cs (s'.feed bs) with channels := s.channels }

def chosen (run : Command → State → State) (fuel : Nat) (text : String) :
    List (List Word × Command) → State → Command × State
  | [], s => (.nothing, s)
  | (patterns, body) :: rest, s =>
    let (found, s) := patterns.foldl (fun (found, s) w =>
      if found then (true, s)
      else
        let (f, s) := State.field run fuel w s
        (f.covers text.toList, s)) (false, s)
    if found then (body, s) else chosen run fuel text rest s

end State

/-! ### Commands -/

def runLines (run : Command → State → State) (l : Listing) (s : State) : State :=
  let s := l.commands.foldl (fun s c => if s.jump.isSome then s else run c s) s
  match l.fault with
  | some e =>
    if s.jump.isSome then s else { s with line := e.line }.failed ("Syntax error: " ++ e.text)
  | none => s

def atEnd (runText : String → State → State) (s : State) : State :=
  match s.jump, s.traps.lookup 0 with
  | some (.killed _), _ => s
  | _, none => s
  | jump, some action =>
    let inner := { s with jump := none, traps := [] }.runAction runText action
    if inner.jump.isSome then inner else { inner with jump := jump }

/-- Runs a command. What fails is `tested` if somebody looks at how it ends. -/
def eval : Nat → Bool → Command → State → State
  | 0, _, _, s => { s with jump := some (.killed 11) }
  | fuel + 1, tested, c, s =>
    let run := eval fuel
    let runText (text : String) (s : State) : State :=
      runLines (run false) (Listing.ofText s.line text) s
    let inside (tested : Bool) (c : Command) (s : State) : State :=
      atEnd runText (run tested c s)
    if s.jump.isSome then s
    else
      match c with
      | .nothing => s.ended 0
      | .simple line assignments words redirections =>
        ({ s with line := line }.simple (run tested) (inside false) runText fuel assignments words
          redirections).strictly tested
      | .sequence a b => run tested b (run tested a s)
      | .background a =>
        (s.apart fun s => inside tested a (s.connect 0 .nowhere)).ended 0
      | .pipeline cs => (s.pipe (inside tested) cs).strictly tested
      | .negation a =>
        let s := run true a s
        if s.jump.isSome then s else s.ended (if s.status = 0 then 1 else 0)
      | .both a b =>
        let s := run true a s
        if s.status = 0 then run tested b s else s
      | .either a b =>
        let s := run true a s
        if s.status = 0 then s else run tested b s
      | .loop wanted test body =>
        s.looping (State.rounds wanted (run true test) (run tested body) fuel 0)
      | .forEach name words body =>
        let (texts, s) := match words with
          | some ws => State.expand (inside false) fuel ws s
          | none => (s.arguments, s)
        if s.jump.isSome then s
        else (s.ended 0).looping (State.forTexts name (run tested body) texts)
      | .choice test yes no =>
        let s := run true test s
        if s.jump.isSome then s else run tested (if s.status = 0 then yes else no) s
      | .selection w cases =>
        let (text, s) := s.text (inside false) fuel w
        let (body, s) := s.chosen (inside false) fuel text cases
        run tested body s
      | .function name body =>
        { s with functions := (name, body) :: s.functions }.ended 0
      | .subshell a => (s.apart (inside tested a)).strictly tested
      | .redirected a rs =>
        (s.withRedirections (inside false) fuel rs (run tested a)).strictly tested

/-! ### Programs -/

/-- A program of a rehearsal: one that is not there, a file that is no program, or a script. -/
inductive Script where
  | missing
  | notExecutable
  | script (text : String)
  deriving DecidableEq, Repr

def argumentLimit : Nat := 131072

def patience : Nat := 1000000

/-- The number of the first line of a script, which follows the one that names the shell. -/
def firstLine : Nat := 2

/-- Runs a script from its start to its end. Its last line has an end like any other. -/
def runScript (text : String) (s : State) : State :=
  let run := eval patience false
  atEnd (fun text s => runLines run (Listing.ofText s.line text) s)
    (runLines run (Listing.ofText firstLine (text ++ "\n")) s)

def Script.run (p : Script) (name : String) (arguments : List String) (folder : Path) (d : Disk) :
    Except StartError Outcome × Disk :=
  if (folder.text :: arguments).any fun a => a.toList.contains '\x00' then
    (.error .nulInArgument, d)
  else
    match d.find true folder with
    | .error e => (.error (.system e), d)
    | .ok (home, .folder) =>
      match p with
      | .missing => (.error (.system .noSuchFile), d)
      | .notExecutable => (.error (.system .notAllowed), d)
      | .script text =>
        if arguments.any fun a => argumentLimit < a.utf8ByteSize + 1 then
          (.error (.system .argumentsTooLong), d)
        else
          let s := runScript text
            { disk := { d with home := home }
              folder := "/" ++ "/".intercalate home
              program := name
              arguments := arguments
              channels := [(0, .nowhere), (1, .output 0), (2, .output 1)]
              fresh := 2 }
          let ending : Ending := match s.jump with
            | some (.killed n) => .signal n
            | _ => .code s.status
          (.ok ⟨ending, s.collected 0, s.collected 1⟩, d.withTree s.disk.tree)
    | .ok _ => (.error (.system .notFolder), d)

end IconModules.Shell
