import IconModules.CommandLine.Arguments
import IconModules.Generation.Run
import IconModules.Settings.Presets
import IconModules.Tools.Outcome
/-!
# The program as a whole

* **`settingsFor`** are the settings that options ask for.
* **`launch`** reads the arguments and does what they ask for.
* **`offline`** are the partners of a program without a network.
-/

namespace IconModules.CommandLine

/-! ### Settings -/

def settingsFor (o : Options) (root : Path) : Settings :=
  let s := Settings.preset o.edition root
  { s with
    cacheStart :=
      if o.purgeCache then .purge else if o.keepCache then .keep else s.cacheStart
    repairs := ⟨o.maxAttempts, o.retryDelay * 1000⟩
    translator := o.translator.getD s.translator
    formatter := o.formatter.getD s.formatter }

/-! ### Endings -/

/-- How the program ends. -/
inductive Ending where
  | explained (text : String)
  | misused (e : UsageError)
  | noProject (f : Failure)
  | stopped (f : Failure)
  | finished (r : RunReport)
  deriving DecidableEq, Repr

namespace Ending

/-- The code that the caller gets. -/
def code : Ending → UInt32
  | explained _ | finished _ => 0
  | noProject _ | stopped _ => 1
  | misused _ => 2

/-- The complaint, if the program did not do what was asked. -/
def complaint? : Ending → Option String
  | explained _ | finished _ => none
  | misused e => some e.message
  | noProject f => some ("Error: " ++ f.message)
  | stopped _ => some "Error: Icon generation failed"

/-- The reason behind the complaint, if it is not the complaint itself. -/
def cause? : Ending → Option String
  | stopped f => some f.message
  | _ => none

end Ending

/-- What is said about a finished run that took some milliseconds. -/
def report (r : RunReport) (elapsed : Nat) : String :=
  String.join (r.families.map fun f =>
    "Generated: " ++ f.moduleName ++ " from " ++ f.family ++ " (" ++ toString f.icons ++
      " icons)\n") ++
  "\nDone! " ++ toString r.installed ++ " modules, " ++ toString r.icons ++ " icons in " ++
    toString elapsed ++ "ms.\n"

/-! ### Launching -/

/-- Finds the project: it is given, or the version control program `ask` is asked for it. -/
def findProject (ask : Disk → Except Tools.StartError Tools.Outcome × Disk) (o : Options)
    (site : Site) : Except Failure Path × Site :=
  match o.root with
  | some root => (.ok root, site)
  | none =>
    let (answer, d) := ask site.disk
    (Tools.projectFolder answer, { site with disk := d })

/-- Does what arguments ask for. `ask` runs the version control program. -/
def launch (ask : Disk → Except Tools.StartError Tools.Outcome × Disk)
    (partners : Settings → Partners) (arguments : List String) (site : Site) :
    Ending × Site :=
  match Request.ofArguments arguments with
  | .error e => (.misused e, site)
  | .ok (.help text) => (.explained text, site)
  | .ok (.generate o) =>
    match findProject ask o site with
    | (.error f, site) => (.noProject f, site)
    | (.ok root, site) =>
      let s := settingsFor o root
      match (Generation.run s (partners s)).perform site with
      | (.ok r, site) => (.finished r, site)
      | (.error f, site) => (.stopped f, site)

/-- Partners without a network: nothing can be downloaded, so nothing else is ever asked for. -/
def offline : Partners where
  fetch _ url := .error (.download url ("error sending request for url (" ++ url ++ ")"))
  translate _ markup := .ok markup
  format _ _ d := (.ok (), d)
  patience := 0

end IconModules.CommandLine
