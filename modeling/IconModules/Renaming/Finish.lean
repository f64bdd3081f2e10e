import IconModules.Pattern.Reader
import IconModules.Pattern.Replace
import IconModules.Renaming.Basic
import IconModules.Text.Blank
/-!
# Finishing translated code

* **`Finish.ofRules?`** prepares renamings; it fails if the pattern of one is not well formed.
* **`Finish.apply`** applies the rules one after the other, indents all lines but the first and
  trims the ends, so that the code fits under the name of an icon.
-/

namespace IconModules

/-- Rules ready for use, and what is put in front of continued lines. -/
structure Finish where
  rules : List (Pattern × Template)
  indent : String
  deriving Repr

/-- A renaming ready for use. -/
def Renaming.prepare? (r : Renaming) : Option (Pattern × Template) :=
  (Pattern.read? r.pattern).map (·, Template.read r.template)

namespace Finish

/-- Prepares the usual rules and some more. -/
def ofRules? (rootCall : String) (extra : List Renaming) (indent : String) : Option Finish :=
  ((Renaming.base rootCall ++ extra).mapM Renaming.prepare?).map (⟨·, indent⟩)

/-- The code after all rules. -/
def rename (f : Finish) (code : String) : String :=
  String.ofList <| f.rules.foldl (fun s r => r.1.replaceAll r.2 s) code.toList

/-- The code with the indentation behind every line break. -/
def indented (indent code : String) : String :=
  Text.replace "\n" ("\n" ++ indent) code

/-- The code renamed, indented and trimmed. -/
def apply (f : Finish) (code : String) : String :=
  Text.trim (indented f.indent (f.rename code))

end Finish
end IconModules
