import IconModules.Generation.Cache
import IconModules.Generation.ModuleText
import IconModules.Renaming.Finish
/-!
# Assembling the module of a family

* **`writeModule`** writes the module of one family. The names of all icons are checked before the
  first piece is written; each drawing is fetched, translated and written before the next one is
  looked at.
-/

namespace IconModules

/-- What was made of a family. -/
structure ModuleReport where
  family : String
  moduleName : String
  path : Path
  icons : Nat
  deriving DecidableEq, Repr

namespace Settings

def moduleName (s : Settings) (family : String) : String :=
  Naming.moduleName family s.familyLead

def moduleFile (s : Settings) (family : String) : Path :=
  s.outFolder.under (Naming.moduleFile family s.familyLead s.extension)

end Settings

namespace Assembly

variable (s : Settings) (partners : Partners) (f : Finish)

/-- The identifier of an icon; a name that has none is a failure. -/
def symbol (name : String) : Except Failure String :=
  match Naming.symbol? s.digitNames name with
  | some symbol => .ok symbol
  | none => .error (.digitName name)

/-- The identifiers of icons, in their order; the first name that has none is a failure. -/
def symbols (icons : List Icon) : Except Failure (List String) :=
  icons.mapM fun i => symbol s i.name

/-- Writes a piece of text behind the end of a file. -/
def append (p : Path) (piece : String) : Action Unit := do
  Action.makeParent p
  Action.change p (·.append p (Text.encode piece))

def writeSection (p : Path) (names : List String) (category : Category) : Action Unit := do
  append p (ModuleText.heading category.name)
  let symbols ← Action.attempt (symbols s (ModuleText.documented names category))
  append p (ModuleText.docs s.docStyle symbols)

def writeIcon (p : Path) (family : String) (i : Icon) : Action Unit := do
  let symbol ← Action.attempt (symbol s i.name)
  Action.note (.processingIcon family symbol)
  let svg ← Cache.drawing s partners family i
  let code ← Action.translate partners svg
  append p (ModuleText.block symbol s.signature (f.apply code))

def writeModule (family : String) (catalogue : Catalogue) (categories : List Category) :
    Action ModuleReport := do
  let path := s.moduleFile family
  let icons := catalogue.supported family
  Action.note (.processingFamily family icons.length)
  let exposed ← Action.attempt (symbols s icons)
  append path (ModuleText.header (s.moduleName family) exposed)
  categories.forM (writeSection s path (icons.map (·.name)))
  append path (ModuleText.imports s.preamble)
  icons.forM (writeIcon s partners f path family)
  return ⟨family, s.moduleName family, path, icons.length⟩

end Assembly
end IconModules
