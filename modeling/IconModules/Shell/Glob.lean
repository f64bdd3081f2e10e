import IconModules.Files.Disk
/-!
# Patterns for names

* A **`Field`** is a text of which each character may be quoted. One that is not quoted may be a
  sign of a pattern: `*`, `?`, or a set in brackets.
* **`Field.covers`** says whether a field, as a pattern, stands for a text.
* **`Field.files`** are the paths that a field, as a pattern, stands for.
* **`cutFront`** and **`cutEnd`** cut off what a pattern stands for.
-/

namespace IconModules.Shell

abbrev Field := List (Char × Bool)

/-- One sign of a pattern. -/
inductive GlobItem where
  | any
  | one
  | oneOf (negated : Bool) (ranges : List (Char × Char))
  | char (c : Char)
  deriving DecidableEq, Repr

namespace GlobItem

def holds : GlobItem → Char → Bool
  | any, _ => false
  | one, _ => true
  | oneOf negated ranges, c => (ranges.any fun r => r.1 ≤ c && c ≤ r.2) != negated
  | char d, c => c == d

def cover : List GlobItem → List Char → Bool
  | [], name => name.isEmpty
  | p :: ps, [] => p == any && cover ps []
  | p :: ps, c :: cs =>
    if p = any then cover ps (c :: cs) || cover (p :: ps) cs else p.holds c && cover ps cs
termination_by ps name => ps.length + name.length

end GlobItem

namespace Field

def ofString (quoted : Bool) (s : String) : Field :=
  s.toList.map (·, quoted)

def text (f : Field) : String :=
  String.ofList (f.map (·.1))

def ranges : List Char → List (Char × Char)
  | a :: '-' :: b :: cs => (a, b) :: ranges cs
  | a :: cs => (a, a) :: ranges cs
  | [] => []

/-- Reads a set from behind its opening bracket. A closing bracket right there belongs to it. -/
def readSet (f : Field) : Option (GlobItem × Field) :=
  let (negated, f) := match f with
    | ('!', false) :: rest => (true, rest)
    | _ => (false, f)
  match f with
  | [] => none
  | first :: rest =>
    let more := rest.takeWhile (· != (']', false))
    match rest.drop more.length with
    | [] => none
    | _ :: rest => some (.oneOf negated (ranges (text (first :: more)).toList), rest)

def items : Nat → Field → List GlobItem
  | 0, _ => []
  | _ + 1, [] => []
  | fuel + 1, (c, quoted) :: f =>
    if quoted then .char c :: items fuel f
    else if c = '*' then .any :: items fuel f
    else if c = '?' then .one :: items fuel f
    else if c = '[' then
      match readSet f with
      | some (item, rest) => item :: items fuel rest
      | none => .char c :: items fuel f
    else .char c :: items fuel f

def covers (f : Field) (name : List Char) : Bool :=
  GlobItem.cover (items (f.length + 1) f) name

def isPattern (f : Field) : Bool :=
  f.any fun c => !c.2 && (c.1 == '*' || c.1 == '?' || c.1 == '[')

/-! ### Files -/

def parts : Field → List Field
  | [] => [[]]
  | c :: f =>
    if c.1 = '/' then [] :: parts f
    else match parts f with
      | [] => [[c]]
      | p :: ps => (c :: p) :: ps

/-- Goes on with some paths by one part. Names that begin with a dot are only found by a dot. -/
def extend (d : Disk) (part : Field) (paths : List String) : List String :=
  if part.isPattern then
    paths.flatMap fun path =>
      match d.list ⟨if path.isEmpty then "." else path⟩ with
      | .error _ => []
      | .ok names =>
        let hidden := (part.head?.map (·.1)) == some '.'
        (names.filter fun n =>
          part.covers n.1.toList && (hidden || n.1.toList.head? != some '.')).map (path ++ ·.1)
  else paths.map (· ++ part.text)

/-- The paths that a pattern stands for, or the pattern itself if there are none. -/
def files (d : Disk) (f : Field) : List String :=
  if f.isPattern then
    let found := match f.parts with
      | [] => []
      | p :: ps =>
        ps.foldl (fun paths q => extend d q (paths.map (· ++ "/"))) (extend d p [""])
    match found.filter fun p => d.holds ⟨p⟩ with
    | [] => [f.text]
    | ps => ps
  else [f.text]

end Field

/-! ### Cutting -/

/-- The text without a piece at its front that a pattern stands for: the longest or the shortest
one, if there is any. -/
def cutFront (longest : Bool) (f : Field) (cs : List Char) : List Char :=
  let sizes := List.range (cs.length + 1)
  match (if longest then sizes.reverse else sizes).find? fun n => f.covers (cs.take n) with
  | some n => cs.drop n
  | none => cs

def cutEnd (longest : Bool) (f : Field) (cs : List Char) : List Char :=
  let sizes := List.range (cs.length + 1)
  match (if longest then sizes else sizes.reverse).find? fun n => f.covers (cs.drop n) with
  | some n => cs.take n
  | none => cs

end IconModules.Shell
