import IconModules.Files.FileError
import IconModules.Files.Tree
/-!
# Files and the paths to them

* A **`Disk`** is a tree of files and the folder from which relative paths are read.
* **`locate`** follows a path. Every step has to start in a folder; a link on the way is followed,
  and one at the end if `follow` says so.
* **`read`**, **`write`**, **`append`**, **`makeFolder`**, **`removeFolder`**, **`remove`**,
  **`move`** and **`list`** do one thing each or fail and change nothing.
* **`makeFolders`** and **`clear`** take several steps, so they may fail half done; they give the
  disk in any case.
-/

namespace IconModules

/-! ### Following steps -/

namespace Tree

/-- Where steps lead before a link has to be followed. -/
inductive Stop where
  /-- To the end. -/
  | at (place : Location)
  /-- To a link in a folder, with more steps behind it. -/
  | link (folder : Location) (target : Path) (rest : List Path.Step)

/-- The greatest number of octets in a name. -/
def nameLimit : Nat := 255

/-- Takes steps up to the first link that has to be followed. `near` is what stands at `here` and
below it, so that each step looks at no more than that. -/
def strideNear (t : Tree) (follow : Bool) :
    Tree → Location → List Path.Step → Except FileError Stop
  | _, here, [] => .ok (.at here)
  | near, here, step :: rest =>
    match near.get? [] with
    | none => .error .noSuchFile
    | some .folder =>
      match step with
      | .stay => strideNear t follow near here rest
      | .up => strideNear t follow (t.branch here.dropLast) here.dropLast rest
      | .into n =>
        if nameLimit < n.utf8ByteSize then .error .nameTooLong
        else match (near.branch [n]).get? [] with
          | some (.link target) =>
            if rest.isEmpty && !follow then .ok (.at (here ++ [n]))
            else .ok (.link here ⟨target⟩ rest)
          | _ => strideNear t follow (near.branch [n]) (here ++ [n]) rest
    | some _ => .error .notFolder

/-- Takes steps up to the first link that has to be followed. -/
def stride (t : Tree) (follow : Bool) (here : Location) (steps : List Path.Step) :
    Except FileError Stop :=
  t.strideNear follow (t.branch here) here steps

@[simp] theorem stride_nil (t : Tree) (follow : Bool) (here : Location) :
    t.stride follow here [] = .ok (.at here) := rfl

/-- What a step does depends on what stands at its start and at its end. -/
theorem stride_cons (t : Tree) (follow : Bool) (here : Location) (step : Path.Step)
    (rest : List Path.Step) :
    t.stride follow here (step :: rest) =
      match t.get? here with
      | none => .error .noSuchFile
      | some .folder =>
        match step with
        | .stay => t.stride follow here rest
        | .up => t.stride follow here.dropLast rest
        | .into n =>
          if nameLimit < n.utf8ByteSize then .error .nameTooLong
          else match t.get? (here ++ [n]) with
            | some (.link target) =>
              if rest.isEmpty && !follow then .ok (.at (here ++ [n]))
              else .ok (.link here ⟨target⟩ rest)
            | _ => t.stride follow (here ++ [n]) rest
      | some _ => .error .notFolder := by
  simp only [stride, strideNear, branch_branch, get?_branch_nil]

/-- The greatest number of links on one way. -/
def linkLimit : Nat := 40

/-- Takes steps and follows up to `links` links. The place may be empty, but then it is in a
folder. -/
def seek (t : Tree) (follow : Bool) (links : Nat) (here : Location) (steps : List Path.Step) :
    Except FileError Location :=
  match t.stride follow here steps with
  | .error e => .error e
  | .ok (.at place) => .ok place
  | .ok (.link folder target rest) =>
    match links with
    | 0 => .error .tooManyLinks
    | links + 1 =>
      seek t follow links (if target.isAbsolute then [] else folder) (target.steps ++ rest)

/-- The names and entries in a folder, in order. -/
def children (t : Tree) (l : Location) : List (String × Entry) :=
  t.entries.filterMap fun x =>
    if l.isPrefixOf x.1 then
      match x.1.drop l.length with
      | [n] => some (n, x.2)
      | _ => none
    else none

end Tree

/-! ### Disks -/

/-- A tree of files and the folder in which a program works. -/
structure Disk where
  tree : Tree
  home : Location

namespace Disk

/-- The same folder with another tree. -/
def withTree (d : Disk) (t : Tree) : Disk :=
  { d with tree := t }

/-! ### Finding places -/

/-- The greatest number of octets in a path. -/
def pathLimit : Nat := 4095

/-- Whether the system can be given a path, and for a good path `ok`. -/
def acceptPath (p : Path) : Except FileError Unit :=
  if p.text.toList.contains '\x00' then .error .nulInPath
  else if p.text.isEmpty then .error .noSuchFile
  else if pathLimit < p.text.utf8ByteSize then .error .nameTooLong
  else .ok ()

/-- The place of some steps, seen from where the path `p` begins. -/
def seek (d : Disk) (follow : Bool) (p : Path) (steps : List Path.Step) :
    Except FileError Location :=
  d.tree.seek follow Tree.linkLimit (if p.isAbsolute then [] else d.home) steps

/-- The place to which a path leads. -/
def locate (d : Disk) (follow : Bool) (p : Path) : Except FileError Location := do
  acceptPath p
  d.seek follow p p.steps

/-- What stands where a path leads. -/
def find (d : Disk) (follow : Bool) (p : Path) : Except FileError (Location × Entry) := do
  let l ← d.locate follow p
  match d.tree.get? l with
  | some e => return (l, e)
  | none => throw .noSuchFile

/-- Whether a path leads to something. -/
def holds (d : Disk) (p : Path) : Bool :=
  (d.find true p).isOk

def holdsFolder (d : Disk) (p : Path) : Bool :=
  match d.find true p with
  | .ok (_, .folder) => true
  | _ => false

def folderOf (d : Disk) (p : Path) : Except FileError Location := do
  acceptPath p
  let l ← d.seek true p p.approach.steps
  match d.tree.get? l with
  | some .folder => return l
  | some _ => throw .notFolder
  | none => throw .noSuchFile

/-- Fails on a name that is too long. -/
def acceptName (n : String) : Except FileError Unit :=
  if Tree.nameLimit < n.utf8ByteSize then .error .nameTooLong else .ok ()

/-! ### Files -/

def read (d : Disk) (p : Path) : Except FileError Octets := do
  match ← d.find true p with
  | (_, .file content) => return content
  | _ => throw .isFolder

/-- The place at which a file can be written, behind up to `links` links. -/
def placeToWriteFrom : Nat → Disk → Path → Except FileError Location
  | links, d, p => do
    let folder ← d.folderOf p
    match p.approach.ending, p.approach.slashed with
    | .name n, false =>
      acceptName n
      match d.tree.get? (folder ++ [n]) with
      | some .folder => throw .isFolder
      | some (.link target) =>
        match links with
        | 0 => throw .tooManyLinks
        | links + 1 => placeToWriteFrom links { d with home := folder } ⟨target⟩
      | _ => return folder ++ [n]
    | _, _ => throw .isFolder

/-- The place at which a file can be written: that of a file, or an empty one. A link there is
followed. What is written with a slash at the end, also in a link, is taken for a folder. -/
def placeToWrite (d : Disk) (p : Path) : Except FileError Location :=
  placeToWriteFrom Tree.linkLimit d p

/-- The content of the file at a place, none if it is empty. -/
def contentAt (d : Disk) (l : Location) : Octets :=
  match d.tree.get? l with
  | some (.file content) => content
  | _ => []

/-- Writes a file, in the place of one that is there. -/
def write (d : Disk) (p : Path) (content : Octets) : Except FileError Disk := do
  let l ← d.placeToWrite p
  return d.withTree (d.tree.graft l (.single (.file content)))

/-- Writes behind the end of a file, which is made if it is not there. -/
def append (d : Disk) (p : Path) (content : Octets) : Except FileError Disk := do
  let l ← d.placeToWrite p
  return d.withTree (d.tree.graft l (.single (.file (d.contentAt l ++ content))))

/-! ### Folders -/

def makeFolder (d : Disk) (p : Path) : Except FileError Disk := do
  let folder ← d.folderOf p
  match p.approach.ending with
  | .name n =>
    acceptName n
    if (d.tree.get? (folder ++ [n])).isSome then throw .alreadyThere
    return d.withTree (d.tree.graft (folder ++ [n]) (.single .folder))
  | _ => throw .alreadyThere

/-- The disk after an operation, and the error if there was one, for a folder that may be there
already. -/
def settle (d : Disk) (p : Path) (r : Except FileError Disk) : Option FileError × Disk :=
  match r with
  | .ok d => (none, d)
  | .error e => (if e = .alreadyThere ∧ d.holdsFolder p then none else some e, d)

/-- Makes a folder and the folders above it that are missing; `fuel` bounds their number. -/
def makeFoldersFrom : Nat → Path → Disk → Option FileError × Disk
  | 0, _, d => (some .nameTooLong, d)
  | fuel + 1, p, d =>
    match p.parent? with
    | none => (none, d)
    | some above =>
      let r := d.makeFolder p
      match r with
      | .error e =>
        if e = .noSuchFile then
          match makeFoldersFrom fuel above d with
          | (none, d) => d.settle p (d.makeFolder p)
          | failed => failed
        else d.settle p r
      | .ok _ => d.settle p r

/-- Makes a folder and the folders above it that are missing. If one of them cannot be made, the
ones above it remain. No path has more parts than characters. -/
def makeFolders (d : Disk) (p : Path) : Option FileError × Disk :=
  makeFoldersFrom (p.text.length + 1) p d

def removeFolder (d : Disk) (p : Path) : Except FileError Disk := do
  let folder ← d.folderOf p
  match p.approach.ending with
  | .here => throw .invalid
  | .up => throw .notEmpty
  | .root => throw .busy
  | .name n =>
    acceptName n
    match d.tree.get? (folder ++ [n]) with
    | none => throw .noSuchFile
    | some .folder =>
      if (d.tree.children (folder ++ [n])).isEmpty then
        return d.withTree (d.tree.prune (folder ++ [n]))
      else throw .notEmpty
    | some _ => throw .notFolder

/-- Removes a folder with all that it holds. A link is removed instead of what it leads to. If the
folder itself cannot be removed, it is left empty. The way to it may lead through what it held; then
it is left empty as well, and that is no failure. -/
def clear (d : Disk) (p : Path) : Option FileError × Disk :=
  match d.find false p with
  | .error e => (some e, d)
  | .ok (l, .link _) => (none, d.withTree (d.tree.prune l))
  | .ok (_, .file _) => (some .notFolder, d)
  | .ok (l, .folder) =>
    let emptied := d.withTree (d.tree.graft l (.single .folder))
    match emptied.removeFolder p with
    | .ok d => (none, d)
    | .error e => (if e = .noSuchFile then none else some e, emptied)

def remove (d : Disk) (p : Path) : Except FileError Disk := do
  let (l, _) ← d.find false p
  return d.withTree (d.tree.prune l)

/-- The names and entries in a folder, in order. -/
def list (d : Disk) (p : Path) : Except FileError (List (String × Entry)) := do
  match ← d.find true p with
  | (l, .folder) => return d.tree.children l
  | _ => throw .notFolder

def makeLink (d : Disk) (p : Path) (target : String) : Except FileError Disk := do
  let folder ← d.folderOf p
  match p.approach.ending with
  | .name n =>
    acceptName n
    if (d.tree.get? (folder ++ [n])).isSome then throw .alreadyThere
    return d.withTree (d.tree.graft (folder ++ [n]) (.single (.link target)))
  | _ => throw .alreadyThere

/-! ### Moving -/

/-- Why the entry `e` cannot take the place `new`, where something may stand. -/
def obstacle? (t : Tree) (new : Location) (e : Entry) : Option FileError :=
  match t.get? new with
  | none => none
  | some there =>
    if e = .folder then
      if there ≠ .folder then some .notFolder
      else if (t.children new).isEmpty then none else some .notEmpty
    else if there = .folder then some .isFolder else none

/-- Moves a file, link or folder; it takes the place of a file, a link or an empty folder of its own
kind. -/
def move (d : Disk) (old new : Path) : Except FileError Disk := do
  let oldFolder ← d.folderOf old
  let newFolder ← d.folderOf new
  match old.approach.ending, new.approach.ending with
  | .name m, .name n =>
    let a := oldFolder ++ [m]
    let b := newFolder ++ [n]
    acceptName m
    match d.tree.get? a with
    | none => throw .noSuchFile
    | some e =>
      acceptName n
      if e ≠ .folder ∧ (old.approach.slashed ∨ new.approach.slashed) then throw .notFolder
      if a.isPrefixOf newFolder then throw .invalid
      if b.isPrefixOf oldFolder then throw .notEmpty
      if a = b then return d
      match obstacle? d.tree b e with
      | some error => throw error
      | none => return d.withTree ((d.tree.prune a).graft b (d.tree.branch a))
  | _, _ => throw .busy

end Disk
end IconModules
