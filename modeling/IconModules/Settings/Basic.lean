import IconModules.Files.Path
import IconModules.Renaming.Basic
import IconModules.Text.LetterCase
/-!
# Settings of a run

* **`Settings`** holds everything that a run has to know.
* The folders of a project follow from its root: **`cacheFolder`**, **`outFolder`**,
  **`sourceFolder`** and what lies in them.
* **`drawingUrl`** is the address from which one drawing is downloaded.
-/

namespace IconModules

/-- The two generations of generated code. -/
inductive Edition where
  /-- Modules built on colouring, one documentation line for each icon. -/
  | legacy
  /-- Modules of icon values with short attribute names and joined documentation lines. -/
  | current
  deriving DecidableEq, Repr

/-- How the icons of a section are listed. -/
inductive DocStyle where
  | onePerLine
  | joined
  deriving DecidableEq, Repr

inductive CacheStart where
  | keep
  | purge
  deriving DecidableEq, Repr

/-- How often a broken drawing is downloaded again, as often as it takes if there is no limit, and
how many milliseconds pass before each time. -/
structure Repairs where
  limit : Option Nat
  pause : Nat
  deriving DecidableEq, Repr

/-- Everything that a run has to know. -/
structure Settings where
  root : Path
  catalogueUrl : String
  /-- The address of a drawing, with places for family, icon and version. -/
  drawingTemplate : String
  /-- The leading words of families that become a path of modules. -/
  familyLead : String
  extension : String
  denylist : List String
  rootCall : String
  extraRules : List Renaming
  /-- What is put in front of continued lines. -/
  indent : String
  /-- Identifiers of icons whose names begin with a digit. -/
  digitNames : List (String × String)
  docStyle : DocStyle
  preamble : String
  /-- The type of every icon. -/
  signature : String
  cacheStart : CacheStart
  repairs : Repairs
  manualFolder : Path
  manualModules : List String
  /-- The folder among the sources that an installation replaces as a whole. -/
  scaffold : Path
  translator : Path
  formatter : Path
  deriving DecidableEq, Repr

namespace Settings

/-! ### Folders -/

/-- Where downloads are kept. -/
def cacheFolder (s : Settings) : Path :=
  ((s.root.under "gen").under "tmp").under "sot"

/-- Where modules are assembled. -/
def outFolder (s : Settings) : Path :=
  ((s.root.under "gen").under "tmp").under "out"

/-- Where modules end up. -/
def sourceFolder (s : Settings) : Path :=
  s.root.under "src"

def catalogueFile (s : Settings) : Path :=
  s.cacheFolder.under "icons.json"

/-- Where drawings are kept. -/
def iconsFolder (s : Settings) : Path :=
  s.cacheFolder.under "icons"

/-! ### Addresses -/

/-- The address of one drawing. Family, icon and version are put into the template in this order. -/
def drawingUrl (s : Settings) (family name : String) (version : UInt32) : String :=
  Text.replace "\x7bversion\x7d" (toString version.toNat) <|
    Text.replace "\x7bicon\x7d" name <|
      Text.replace "\x7bfamily\x7d" (Text.replace " " "" (Text.lowerCase family)) s.drawingTemplate

end Settings
end IconModules
