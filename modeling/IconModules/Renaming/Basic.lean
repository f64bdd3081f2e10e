import IconModules.Text.Replace
/-!
# Renamings

A `Renaming` is a rule: a pattern and a template, both as texts. Two kinds of rule are written
often:

* **`Renaming.everywhere`** replaces a text wherever it stands.
* **`Renaming.call`** renames a function where it is called with a quoted argument.

In both, characters that a pattern or a template would read as signs are escaped, so the texts given
stand for themselves.
-/

namespace IconModules

/-- A pattern and the template for what takes the place of its matches. -/
structure Renaming where
  pattern : String
  template : String
  deriving DecidableEq, Repr

namespace Renaming

/-- The characters that mean something of their own in a pattern. -/
def signs : List Char :=
  "\\.+*?()|[]\x7b\x7d^$#&-~".toList

/-- The text as a pattern for itself. -/
def escape (s : String) : String :=
  String.ofList <| s.toList.flatMap fun c => if c ∈ signs then ['\\', c] else [c]

/-- The text as a template for itself. -/
def verbatim (s : String) : String :=
  String.ofList <| s.toList.flatMap fun c => if c = '$' then ['$', '$'] else [c]

/-- Replaces the text `old` by the text `new` wherever it stands. -/
def everywhere (old new : String) : Renaming :=
  ⟨escape old, verbatim new⟩

/-- Renames the function `old` to `new` where a call begins: at the start of a line, behind a blank
or behind an opening bracket, and with blanks and a quoted argument following. -/
def call (old new : String) : Renaming :=
  ⟨"(?m)(^|[\\s\\[])" ++ escape old ++ "(\\s+\")",
    "$\x7b1\x7d" ++ verbatim new ++ "$\x7b2\x7d"⟩

/-- Renames the root call, which stands at the start of a line. -/
def root (new : String) : Renaming :=
  ⟨"(?m)^svg", verbatim new⟩

/-- The spellings that differ between markup and the generated code. -/
def spellings : List (String × String) :=
  [("baseprofile", "baseProfile"), ("clip-rule", "clipRule"), ("clippath", "Svg.clipPath"),
   ("enable-background", "enableBackground"), ("fill-opacity", "fillOpacity"),
   ("fill-rule", "fillRule"), ("viewbox", "viewBox"), ("xlink:href", "xlinkHref")]

/-- The rules that apply to all translated code: the root call first, then the spellings. -/
def base (rootCall : String) : List Renaming :=
  root rootCall :: spellings.map fun s => everywhere s.1 s.2

end Renaming
end IconModules
