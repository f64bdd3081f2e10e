import IconModules.Generation.Action
import IconModules.Settings.Basic
/-!
# Installing the modules

* **`install`** puts the assembled modules among the sources. The modules written by hand are parked
  at the top of the sources while the scaffold folder is replaced, and then put back. If a step
  fails, what was done before remains.
-/

namespace IconModules.Installation

variable (s : Settings)

/-- Parks the modules written by hand that are there; gives where each is and where it belongs. -/
def park : List String → Action (List (Path × Path))
  | [] => return []
  | m :: ms => do
    let home := (s.sourceFolder.join s.manualFolder).under m
    let parked := s.sourceFolder.under m
    if ← Action.holds home then
      Action.moveTo home parked
      return (parked, home) :: (← park ms)
    else
      Action.note (.manualModuleMissing home)
      park ms

def listing (p : Path) : Action (List (String × Entry)) :=
  Action.inspect p fun d => (d.list p).mapError (.listing p)

/-- Moves all files among the entries of a folder, and with `below` those in the folders among them;
gives their number. Links stay where they are. -/
def moveEntries (below : Path → Path → Action Nat) (old new : Path) :
    List (String × Entry) → Action Nat
  | [] => return 0
  | (name, .file _) :: rest => do
    Action.moveTo (old.under name) (new.under name)
    return 1 + (← moveEntries below old new rest)
  | (name, .folder) :: rest => do
    let n ← below (old.under name) (new.under name)
    return n + (← moveEntries below old new rest)
  | (_, .link _) :: rest => moveEntries below old new rest

/-- Moves all files in and below a folder to the same places in and below another; gives their
number. The depth of the folders is at most `fuel`. -/
def moveBelow : Nat → Path → Path → Action Nat
  | 0, old, _ => throw (.files old (.listing old .nameTooLong))
  | fuel + 1, old, new => do moveEntries (moveBelow fuel) old new (← listing old)

/-- Moves all files below a folder. The folder has to be there; if it is a file, nothing is below
it. A path has no room for more folders than it has octets. -/
def moveAll (old new : Path) : Action Nat := do
  match ← Action.inspect old fun d => (d.find true old).mapError (.listing old) with
  | (_, .folder) => moveBelow Disk.pathLimit old new
  | _ => return 0

/-- Puts the modules written by hand back. -/
def restore : List (Path × Path) → Action Unit
  | [] => return
  | (parked, home) :: rest => do
    Action.moveTo parked home
    restore rest

/-- Puts the assembled modules among the sources; gives their number. -/
def install : Action Nat := do
  let parked ← park s s.manualModules
  Action.clearIfPresent (s.sourceFolder.join s.scaffold)
  let moved ← moveAll s.outFolder s.sourceFolder
  Action.clearIfPresent s.outFolder
  restore parked
  Action.note (.installed moved s.sourceFolder)
  return moved

end IconModules.Installation
