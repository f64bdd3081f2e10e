import IconModules.Catalogue.Basic
import IconModules.Generation.Action
import IconModules.Markup.Volatile
import IconModules.Settings.Basic
/-!
# The cache of drawings

Every drawing has an entry of its own, named by family, version and name.

* **`cachePath`** is where the entry is stored.
* **`ensure`** downloads an entry that is missing, or any entry if it is forced to.
* **`drawing`** gives the drawing without volatile markup. As long as the entry holds something else
  than a drawing, it is downloaded again, each time after a pause.
-/

namespace IconModules

def Icon.entryName (i : Icon) : String :=
  "v" ++ toString i.version.toNat ++ "-" ++ i.name ++ ".svg"

/-- Where the drawing of an icon is stored. -/
def Settings.cachePath (s : Settings) (family : String) (i : Icon) : Path :=
  (s.iconsFolder.under family).under i.entryName

namespace Cache

variable (s : Settings) (partners : Partners)

/-- Writes a file and makes the folder for it. -/
def store (p : Path) (content : Octets) : Action Unit := do
  Action.makeParent p
  Action.change p (·.write p content)

/-- Sees to it that an entry is there, and downloads it if it is missing or if `force` says so. -/
def ensure (family : String) (i : Icon) (force : Bool) : Action Path := do
  let path := s.cachePath family i
  if force || !(← Action.holds path) then
    let url := s.drawingUrl family i.name i.version
    Action.note (.downloadingIcon url force)
    let content ← Action.download partners url
    store path content
  return path

/-- What an entry holds, without volatile markup. -/
def contents (path : Path) : Action String := do
  let content ← Action.inspect path (·.read path)
  return Markup.strip s.denylist (Text.decodeLossy content)

/-- What happens when there is no attempt left. -/
def giveUp (i : Icon) : Failure :=
  match s.repairs.limit with
  | some n => .stillBroken i.name n
  | none => .abandoned i.name

/-- Looks at an entry and downloads it again up to `left` times. -/
def repair (family : String) (i : Icon) : Nat → Path → Action String
  | left, path => do
    let svg ← contents s path
    if Markup.isDrawing svg then return svg
    match left with
    | 0 => throw (giveUp s i)
    | left + 1 =>
      Action.note (.waiting s.repairs.pause i.name family)
      Action.sleep s.repairs.pause
      repair family i left (← ensure s partners family i true)

/-- The drawing of an icon, without volatile markup. -/
def drawing (family : String) (i : Icon) : Action String := do
  repair s partners family i (s.repairs.limit.getD partners.patience)
    (← ensure s partners family i false)

end Cache
end IconModules
