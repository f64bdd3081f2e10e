import IconModules.Catalogue.Grouping
import IconModules.Naming
import IconModules.Settings.Basic
/-!
# The text of a module

A module is written piece by piece, each behind the last: header, sections of the documentation,
imports, and one block for each icon.
-/

namespace IconModules.ModuleText

/-- The first line and the beginning of the documentation. -/
def header (name : String) (symbols : List String) : String :=
  "module " ++ name ++ " exposing (" ++ ", ".intercalate symbols ++ ")\n\n\x7b-|\n"

def heading (category : String) : String :=
  "\n# " ++ Naming.title category ++ "\n\n"

def docs (layout : DocStyle) (symbols : List String) : String :=
  match layout with
  | .onePerLine => String.join (symbols.map fun s => "@docs " ++ s ++ "\n")
  | .joined => if symbols.isEmpty then "" else "@docs " ++ ", ".intercalate symbols ++ "\n"

/-- The end of the documentation and the import lines. -/
def imports (preamble : String) : String :=
  "-\x7d\n\n" ++ preamble

/-- The definition of one icon. -/
def block (symbol signature code : String) : String :=
  "\n\n\x7b-|-\x7d\n" ++ symbol ++ " : " ++ signature ++ "\n" ++
    symbol ++ " =\n    " ++ code ++ "\n"

/-- The icons of a category that are documented: those whose names are among the given ones, in the
order of their names. -/
def documented (names : List String) (c : Category) : List Icon :=
  (c.icons.filter fun i => names.contains i.name).mergeSort fun a b => decide (a.name ≤ b.name)

end IconModules.ModuleText
