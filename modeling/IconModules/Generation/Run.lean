import IconModules.Catalogue.Reader
import IconModules.Generation.Assembly
import IconModules.Generation.Installation
/-!
# A whole run

* **`writeAll`** prepares the folders, downloads the catalogue and writes the module of every
  family.
* **`run`** does so, installs the modules and has them formatted. The first failure ends it.
-/

namespace IconModules

structure RunReport where
  families : List ModuleReport
  installed : Nat
  deriving DecidableEq, Repr

/-- The number of icons in all modules. -/
def RunReport.icons (r : RunReport) : Nat :=
  r.families.foldl (fun n m => n + m.icons) 0

namespace Generation

variable (s : Settings) (partners : Partners)

/-- Prepares the folders: the cache is purged if the settings say so, the output always. -/
def makeReady : Action Unit := do
  if s.cacheStart = .purge then Action.clearIfPresent s.cacheFolder
  Action.makeFolders s.iconsFolder
  Action.clearIfPresent s.outFolder
  Action.makeFolders s.outFolder

/-- Downloads the catalogue, keeps a copy and reads it. -/
def loadCatalogue : Action Catalogue := do
  Action.note (.downloadingCatalogue s.catalogueUrl)
  let raw ← Action.download partners s.catalogueUrl
  Action.change s.catalogueFile (·.write s.catalogueFile raw)
  Action.attempt ((Catalogue.read raw).mapError .catalogue)

/-- The finish that the settings ask for. -/
def finish : Except Failure Finish :=
  match Finish.ofRules? s.rootCall s.extraRules s.indent with
  | some f => .ok f
  | none => .error .badRenaming

def writeModules (f : Finish) (catalogue : Catalogue) (categories : List Category) :
    List String → Action (List ModuleReport)
  | [] => return []
  | family :: rest => do
    let report ← Assembly.writeModule s partners f family catalogue categories
    Action.note (.moduleWritten report.path)
    return report :: (← writeModules f catalogue categories rest)

/-- The part of a run that comes before the installation: makes everything ready, loads the
catalogue and writes the modules of all its families. -/
def writeAll : Action (List ModuleReport) := do
  makeReady s
  let catalogue ← loadCatalogue s partners
  let categories := Category.ofIcons catalogue.icons
  Action.note (.catalogueLoaded catalogue.icons.length catalogue.families.length
    categories.length)
  let f ← Action.attempt (finish s)
  writeModules s partners f catalogue categories catalogue.families

def run : Action RunReport := do
  let families ← writeAll s partners
  let installed ← Installation.install s
  Action.note (.formatting s.sourceFolder)
  Action.format partners s.sourceFolder
  return ⟨families, installed⟩

end Generation
end IconModules
