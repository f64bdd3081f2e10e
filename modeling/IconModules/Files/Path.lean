/-!
# Paths as texts

A `Path` is kept exactly as it was written: nothing is simplified, so two paths may lead to the same
place.

* **`join`** puts one path behind another; a path from the root stands for itself.
* **`parent?`** leaves the last part out.
* **`steps`** reads a path as directions, **`approach`** reads it as the way to a folder and a last
  part in it.
-/

namespace IconModules

structure Path where
  text : String
  deriving DecidableEq, Repr, Inhabited

namespace Path

/-- A path that begins at the root. -/
def isAbsolute (p : Path) : Bool :=
  p.text.toList.head? == some '/'

/-! ### Joining -/

/-- What stands between a path and the next one: a slash, unless there is one already or nothing
to divide. -/
def divider (p : Path) : String :=
  match p.text.toList.getLast? with
  | none => ""
  | some c => if c = '/' then "" else "/"

/-- The second path seen from the first. -/
def join (p q : Path) : Path :=
  if q.isAbsolute then q else ⟨p.text ++ p.divider ++ q.text⟩

def under (p : Path) (part : String) : Path :=
  p.join ⟨part⟩

/-! ### Parts -/

/-- The texts between the slashes. -/
def parts (p : Path) : List String :=
  (p.text.toList.splitOn '/').map String.ofList

/-- A part that leads nowhere. -/
def isIdle (part : String) : Bool :=
  part == "" || part == "."

/-- The parts without the idle ones at the end, last part first. -/
def busy (parts : List String) : List String :=
  parts.reverse.dropWhile isIdle

/-- What stands in front of a path's parts and stays as it is: the root or a leading dot. -/
def lead (p : Path) : List String :=
  if p.isAbsolute then [""] else if p.parts.head? == some "." then ["."] else []

def ofParts (parts : List String) : Path :=
  ⟨if parts = [""] then "/" else "/".intercalate parts⟩

/-- The path without its last part; the root and the empty path have none. A leading dot is a part,
other dots and repeated slashes at the end are passed over. -/
def parent? (p : Path) : Option Path :=
  match busy (p.parts.drop p.lead.length) with
  | _ :: rest => some (ofParts (p.lead ++ (busy rest.reverse).reverse))
  | [] => if p.lead = ["."] then some ⟨""⟩ else none

/-! ### Directions -/

/-- One direction: into a named place, to the folder above, or nowhere. Every direction has to start
in a folder. -/
inductive Step where
  | into (name : String)
  | up
  | stay
  deriving DecidableEq, Repr

/-- The direction that a part stands for. -/
def Step.ofPart (part : String) : Step :=
  if isIdle part then .stay else if part == ".." then .up else .into part

def steps (p : Path) : List Step :=
  p.parts.map Step.ofPart

/-- What a path says about the last place on its way: its name in a folder, the folder itself, the
folder above it, or the root. -/
inductive Ending where
  | name (n : String)
  | here
  | up
  | root
  deriving DecidableEq, Repr

/-- A path as the way to a folder and what is meant in it. `slashed` tells that slashes follow. -/
structure Approach where
  steps : List Step
  ending : Ending
  slashed : Bool
  deriving Repr

def Ending.ofPart (part : String) : Ending :=
  if part == "." then .here else if part == ".." then .up else .name part

/-- Takes the last part of a path apart from the way to it. -/
def approach (p : Path) : Approach :=
  match p.parts.reverse.dropWhile (· == "") with
  | [] => ⟨[], .root, true⟩
  | last :: rest =>
    ⟨rest.reverse.map Step.ofPart, Ending.ofPart last, p.text.toList.getLast? == some '/'⟩

end Path
end IconModules
