import IconModules.Catalogue.Basic
/-!
# Categories

* **`Category.ofIcons`** files icons under their categories. The categories come in the order of
  their names, each once; the icons of a category keep the order in which they were given.
-/

namespace IconModules

/-- Icons that are filed under one name. -/
structure Category where
  name : String
  icons : List Icon
  deriving DecidableEq, Repr

namespace Category

def file (i : Icon) : List Category → List Category
  | [] => [⟨i.category, [i]⟩]
  | c :: cs =>
    if i.category < c.name then ⟨i.category, [i]⟩ :: c :: cs
    else if i.category = c.name then { c with icons := c.icons ++ [i] } :: cs
    else c :: file i cs

def ofIcons (icons : List Icon) : List Category :=
  icons.foldl (fun cs i => file i cs) []

end Category
end IconModules
