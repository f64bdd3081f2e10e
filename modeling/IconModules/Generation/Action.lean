import IconModules.Files.Disk
import IconModules.Generation.Failure
import IconModules.Generation.Journal
/-!
# Actions

* A **`Site`** is what an action works on: files, and the journal of what happened so far.
* An **`Action`** ends with a value or a failure. In both cases what it did to the site remains
  done.
* **`Partners`** are the partners of a run outside this library. What they answer may depend on
  all that happened before, so any behaviour over time is a value of this type.
-/

namespace IconModules

/-- Files and the journal, oldest event first. -/
structure Site where
  disk : Disk
  journal : List Event

/-- Something that is done on a site. -/
abbrev Action := ExceptT Failure (StateM Site)

structure Partners where
  /-- Answers an address with its content. -/
  fetch : List Event → String → Except Failure Octets
  /-- Turns markup into code. -/
  translate : List Event → String → Except Failure String
  /-- Formats all sources in a folder. -/
  format : List Event → Path → Disk → Except Failure Unit × Disk
  /-- How many repairs of one drawing are waited for if there is no other limit. -/
  patience : Nat

namespace Action

def perform {α : Type} (a : Action α) (site : Site) : Except Failure α × Site :=
  (ExceptT.run a).run site

/-- Enters an event into the journal. -/
def record (e : Event) : Action Unit :=
  modify fun s => { s with journal := s.journal ++ [e] }

/-- Enters a note into the journal. -/
def note (n : Note) : Action Unit :=
  record (.noted n)

/-- The value, or the failure that took its place. -/
def attempt {α : Type} : Except Failure α → Action α
  | .ok x => pure x
  | .error f => throw f

/-- Looks at the files. A failure is that of a path. -/
def inspect {α : Type} (p : Path) (look : Disk → Except FileError α) : Action α := do
  attempt ((look (← get).disk).mapError (.files p))

/-- Changes the files. A failure is that of a path and changes nothing. -/
def change (p : Path) (f : Disk → Except FileError Disk) : Action Unit := do
  let d ← inspect p f
  modify fun s => { s with disk := d }

/-- Changes the files in several steps. A failure is that of a path; the steps before it are
done. -/
def carryOut (p : Path) (f : Disk → Option FileError × Disk) : Action Unit := do
  let (error, d) := f (← get).disk
  modify fun s => { s with disk := d }
  match error with
  | some e => throw (.files p e)
  | none => pure ()

/-- Whether a path leads to something. -/
def holds (p : Path) : Action Bool :=
  return (← get).disk.holds p

/-! ### Files -/

def makeFolders (p : Path) : Action Unit :=
  carryOut p (·.makeFolders p)

def makeParent (p : Path) : Action Unit :=
  match p.parent? with
  | some above => makeFolders above
  | none => pure ()

/-- Removes a folder with all that it holds, if it is there. -/
def clearIfPresent (p : Path) : Action Unit := do
  if ← holds p then carryOut p (·.clear p)

/-- Moves a file and makes the folder for it. -/
def moveTo (old new : Path) : Action Unit := do
  note (.moving old new)
  makeParent new
  change old (·.move old new)

/-! ### Partners -/

/-- Downloads the content of an address. -/
def download (partners : Partners) (url : String) : Action Octets := do
  let before := (← get).journal
  record (.fetched url)
  attempt (partners.fetch before url)

def translate (partners : Partners) (markup : String) : Action String := do
  let before := (← get).journal
  record (.translated markup)
  attempt (partners.translate before markup)

def format (partners : Partners) (folder : Path) : Action Unit := do
  let before := (← get).journal
  record (.formatted folder)
  let (result, disk) := partners.format before folder (← get).disk
  modify fun s => { s with disk := disk }
  attempt result

/-- Makes a pause. -/
def sleep (delay : Nat) : Action Unit :=
  record (.slept delay)

end Action
end IconModules
