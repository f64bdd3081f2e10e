import IconModules.Generation.Failure
import IconModules.Text.Blank
import IconModules.Text.Utf8
/-!
# What programs answer

* An **`Outcome`** is what is left of a program that ran: how it ended and what it wrote.
* **`writtenCode`**, **`formatting`** and **`projectFolder`** say what the outcome means for the
  three programs that are used.
-/

namespace IconModules.Tools

/-! ### Endings -/

/-- How a program ended: by itself or by a signal. -/
inductive Ending where
  | code (n : Nat)
  | signal (n : Nat)
  deriving DecidableEq, Repr

def signalNames : List String :=
  ["HUP", "INT", "QUIT", "ILL", "TRAP", "ABRT", "BUS", "FPE", "KILL", "USR1", "SEGV", "USR2",
   "PIPE", "ALRM", "TERM", "STKFLT", "CHLD", "CONT", "STOP", "TSTP", "TTIN", "TTOU", "URG", "XCPU",
   "XFSZ", "VTALRM", "PROF", "WINCH", "IO", "PWR", "SYS"]

def Ending.words : Ending → String
  | code n => "exit status: " ++ toString n
  | signal n =>
    "signal: " ++ toString n ++
      match n with
      | 0 => ""
      | k + 1 => match signalNames[k]? with
        | some name => " (SIG" ++ name ++ ")"
        | none => ""

/-- What a program leaves behind. -/
structure Outcome where
  ending : Ending
  output : Octets
  errors : Octets
  deriving DecidableEq, Repr

/-- Why a program could not be started. -/
inductive StartError where
  /-- An argument or the name of the folder holds the character that ends texts. -/
  | nulInArgument
  | system (e : FileError)
  deriving DecidableEq, Repr

def StartError.message : StartError → String
  | nulInArgument => "nul byte found in provided data"
  | system e => e.message

/-- What a program wrote as errors, without blanks around it. -/
def Outcome.complaint (o : Outcome) : String :=
  Text.trim (Text.decodeLossy o.errors)

/-! ### Meanings -/

/-- An outcome that is a success; any other is the failure of the program called `name`. -/
def succeeded (name : String) (r : Except StartError Outcome) : Except Failure Outcome :=
  match r with
  | .error e => .error (.tool name e.message)
  | .ok o =>
    if o.ending = .code 0 then .ok o
    else .error (.tool name ("exited with " ++ o.ending.words ++ ": " ++ o.complaint))

/-- The code that a translator wrote. -/
def writtenCode (name : String) (r : Except StartError Outcome) : Except Failure String := do
  let o ← succeeded name r
  match Text.decode o.output with
  | .ok s => return s
  | .error m => throw (.tool name m.message)

/-- Whether a formatter did its work. -/
def formatting (name : String) (r : Except StartError Outcome) : Except Failure Unit := do
  let _ ← succeeded name r

/-- What a version control program is asked for the folder of the project. -/
def rootArguments : List String := ["rev-parse", "--show-toplevel"]

/-- The folder of the project that a version control program named. -/
def projectFolder (r : Except StartError Outcome) : Except Failure Path :=
  match r with
  | .error e => .error (.noProject e.message)
  | .ok o =>
    if o.ending = .code 0 then
      let text := Text.trim (Text.decodeLossy o.output)
      if text.isEmpty then .error (.noProject "git returned an empty path") else .ok ⟨text⟩
    else .error (.noProject o.complaint)

end IconModules.Tools
