/-!
# The catalogue of icons

* An **`Icon`** has a name, a version, its categories, of which the first one counts, and the
  families it is not drawn for.
* A **`Catalogue`** lists icons and families.
-/

namespace IconModules

/-- One entry of the catalogue. -/
structure Icon where
  name : String
  version : UInt32
  categories : List String
  unsupported : List String
  deriving DecidableEq, Repr, Inhabited

namespace Icon

/-- The category that the icon is filed under, the empty one if it has none. -/
def category (i : Icon) : String :=
  i.categories.head?.getD ""

def supports (i : Icon) (family : String) : Bool :=
  !i.unsupported.contains family

@[simp] theorem supports_iff {i : Icon} {family : String} :
    i.supports family = true ↔ family ∉ i.unsupported := by
  simp [supports]

end Icon

/-- The icons and the families that there are. -/
structure Catalogue where
  icons : List Icon
  families : List String
  deriving DecidableEq, Repr, Inhabited

def Catalogue.supported (c : Catalogue) (family : String) : List Icon :=
  c.icons.filter (·.supports family)

end IconModules
