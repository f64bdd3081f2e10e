import IconModules.Catalogue.Basic
import IconModules.Json.Skip
/-!
# Reading a catalogue

A catalogue is stored as JSON, with or without a guard in front. Records may be written as objects,
where fields may come in any order and unknown ones are skipped, or as lists of their fields in
order, where the last ones may be left out if they are lists.

* **`readRecord`** reads either form. What is wrong with a record as a whole is found when it is all
  read, so such a complaint is placed behind the record's end.
* **`Catalogue.read`** reads a stored catalogue.
-/

namespace IconModules

namespace Json

/-! ### Lists and members -/

/-- Whether another element of a list follows, and the reader at it or at the closing bracket. -/
def nextElement (first : Bool) (r : Reader) : Except Fault (Bool × Reader) :=
  let r := r.trim
  match r.head? with
  | none => .error (r.ahead .endInList)
  | some ']' => .ok (false, r)
  | some c =>
    if first then .ok (true, r)
    else if c = ',' then
      let r := r.next.trim
      match r.head? with
      | none => .error (r.ahead .endInValue)
      | some ']' => .error (r.ahead .trailingComma)
      | some _ => .ok (true, r)
    else .error (r.ahead .listEndExpected)

def nextKey (first : Bool) (r : Reader) : Except Fault (Option String × Reader) :=
  let r := r.trim
  let key (r : Reader) := (readText r.next).map fun k => (some k.1, k.2)
  match r.head? with
  | none => .error (r.ahead .endInObject)
  | some '\x7d' => .ok (none, r)
  | some c =>
    if first then if c = '"' then key r else .error (r.ahead .keyNotText)
    else if c = ',' then
      let r := r.next.trim
      match r.head? with
      | none => .error (r.ahead .endInValue)
      | some '"' => key r
      | some '\x7d' => .error (r.ahead .trailingComma)
      | some _ => .error (r.ahead .keyNotText)
    else .error (r.ahead .objectEndExpected)

def readColon (r : Reader) : Except Fault Reader :=
  let r := r.trim
  match r.head? with
  | none => .error (r.ahead .endInObject)
  | some ':' => .ok r.next
  | some _ => .error (r.ahead .colonExpected)

/-- Looks for the end of a list; the reader gets as far as it can. -/
def closeList (r : Reader) : Option Fault × Reader :=
  let r := r.trim
  match r.head? with
  | none => (some (r.ahead .endInList), r)
  | some ']' => (none, r.next)
  | some ',' =>
    let r := r.next.trim
    (some (r.ahead (if r.head? = some ']' then .trailingComma else .trailingInput)), r)
  | some _ => (some (r.ahead .trailingInput), r)

/-- Looks for the end of an object; the reader gets as far as it can. -/
def closeObject (r : Reader) : Option Fault × Reader :=
  let r := r.trim
  match r.head? with
  | none => (some (r.ahead .endInObject), r)
  | some '\x7d' => (none, r.next)
  | some ',' => (some (r.ahead .trailingComma), r)
  | some _ => (some (r.ahead .trailingInput), r)

/-! ### Values -/

/-- Something that reads a value. -/
abbrev Read (α : Type) := Reader → Except Fault (α × Reader)

def text : Read String := fun r =>
  let r := r.trim
  match r.head? with
  | some '"' => readText r.next
  | _ => .error (refuse "a string" r)

/-- The complaint about a number that thirty-two bits cannot hold. -/
def word32 (n : Number) : Except Complaint UInt32 :=
  match n with
  | .whole n =>
    if 0 ≤ n ∧ n < UInt32.size then .ok n.toNat.toUInt32 else .error (.outOfRange n "u32")
  | .floating negative x => .error (.wrongKind (.floating negative x) "u32")

/-- Reads a whole number that thirty-two bits can hold. -/
def number32 : Read UInt32 := fun r => do
  let r := r.trim
  let (n, r) ← match r.head? with
    | some '-' => readNumber true r.next
    | some c => if c.isDigit then readNumber false r else throw (refuse "u32" r)
    | none => throw (refuse "u32" r)
  match word32 n with
  | .ok w => return (w, r)
  | .error c => throw (r.here c)

def elements {α : Type} (element : Read α) : Nat → Bool → Read (List α)
  | 0, _, r => .error (r.here .endInList)
  | fuel + 1, first, r =>
    match nextElement first r with
    | .error f => .error f
    | .ok (false, r) => .ok ([], r)
    | .ok (true, r) => do
      let (x, r) ← element r
      let (xs, r) ← elements element fuel false r
      return (x :: xs, r)

def list {α : Type} (element : Read α) : Read (List α) := fun r => do
  let r := r.trim
  match r.head? with
  | some '[' =>
    let (xs, r) ← elements element (r.left + 1) true r.next
    match closeList r with
    | (none, r) => return (xs, r)
    | (some f, _) => throw f
  | _ => throw (refuse "a sequence" r)

/-! ### Records -/

/-- The outcome of reading the inside of a record: a value or a complaint about the record, and the
reader in either case. -/
abbrev Inside (α : Type) := Except Complaint α × Reader

/-- Reads the fields of an object one by one into a value. -/
def members {σ : Type} (member : σ → String → Reader → Except Fault (Inside σ)) :
    Nat → Bool → σ → Reader → Except Fault (Inside σ)
  | 0, _, _, r => .error (r.here .endInObject)
  | fuel + 1, first, s, r =>
    match nextKey first r with
    | .error f => .error f
    | .ok (none, r) => .ok (.ok s, r)
    | .ok (some key, r) =>
      match member s key r with
      | .ok (.ok s, r) => members member fuel false s r
      | other => other

/-- Reads the value of a field that may come once. -/
def field {α σ : Type} (name : String) (old : Option α) (value : Read α) (put : α → σ)
    (r : Reader) : Except Fault (Inside σ) := do
  if old.isSome then return (.error (.repeatedField name), r)
  let r ← readColon r
  let (x, r) ← value r
  return (.ok (put x), r)

/-- Reads a field of a list form, if there is one more. -/
def position {α : Type} (first : Bool) (value : Read α) (r : Reader) :
    Except Fault (Option α × Reader) := do
  match ← nextElement first r with
  | (false, r) => return (none, r)
  | (true, r) =>
    let (x, r) ← value r
    return (some x, r)

/-- Reads a record in one of its two forms. -/
def readRecord {α : Type} (expected : String) (asList asObject : Reader → Except Fault (Inside α)) :
    Read α := fun r => do
  let r := r.trim
  let finish (inside : Inside α) (close : Reader → Option Fault × Reader) :
      Except Fault (α × Reader) :=
    match inside.1, close inside.2 with
    | .error c, (_, r) => .error (r.here c)
    | .ok _, (some f, _) => .error f
    | .ok x, (none, r) => .ok (x, r)
  match r.head? with
  | some '[' => finish (← asList r.next) closeList
  | some '\x7b' => finish (← asObject r.next) closeObject
  | _ => throw (refuse expected r)

end Json

open Json

/-! ### Icons -/

structure Icon.Fields where
  name : Option String := none
  version : Option UInt32 := none
  categories : Option (List String) := none
  unsupported : Option (List String) := none

namespace Icon

def member (s : Fields) (key : String) (r : Reader) : Except Fault (Inside Fields) :=
  match key with
  | "name" => field key s.name Json.text (fun x => { s with name := some x }) r
  | "version" => field key s.version number32 (fun x => { s with version := some x }) r
  | "categories" =>
    field key s.categories (list Json.text) (fun x => { s with categories := some x }) r
  | "unsupported_families" =>
    field key s.unsupported (list Json.text) (fun x => { s with unsupported := some x }) r
  | _ => do
    let r ← skipValue (← readColon r)
    return (.ok s, r)

/-- The icon with these fields. Lists may be missing, name and version may not. -/
def ofFields (s : Fields) : Except Complaint Icon :=
  match s.name, s.version with
  | none, _ => .error (.missingField "name")
  | _, none => .error (.missingField "version")
  | some name, some version =>
    .ok ⟨name, version, s.categories.getD [], s.unsupported.getD []⟩

def asObject (r : Reader) : Except Fault (Inside Icon) := do
  let (s, r) ← members member (r.left + 1) true {} r
  return (s.bind ofFields, r)

def listForm : String := "struct Icon with 4 elements"

def asList (r : Reader) : Except Fault (Inside Icon) := do
  match ← position true Json.text r with
  | (none, r) => return (.error (.tooFewElements 0 listForm), r)
  | (some name, r) =>
    match ← position false number32 r with
    | (none, r) => return (.error (.tooFewElements 1 listForm), r)
    | (some version, r) =>
      let (categories, r) ← position false (list Json.text) r
      let (unsupported, r) ← position false (list Json.text) r
      return (.ok ⟨name, version, categories.getD [], unsupported.getD []⟩, r)

def read : Read Icon :=
  readRecord "struct Icon" asList asObject

end Icon

/-! ### Catalogues -/

structure Catalogue.Fields where
  icons : Option (List Icon) := none
  families : Option (List String) := none

namespace Catalogue

def member (s : Fields) (key : String) (r : Reader) : Except Fault (Inside Fields) :=
  match key with
  | "icons" => field key s.icons (list Icon.read) (fun x => { s with icons := some x }) r
  | "families" => field key s.families (list Json.text) (fun x => { s with families := some x }) r
  | _ => do
    let r ← skipValue (← readColon r)
    return (.ok s, r)

def asObject (r : Reader) : Except Fault (Inside Catalogue) := do
  let (s, r) ← members member (r.left + 1) true {} r
  return (s.map fun s => ⟨s.icons.getD [], s.families.getD []⟩, r)

def asList (r : Reader) : Except Fault (Inside Catalogue) := do
  let (icons, r) ← position true (list Icon.read) r
  let (families, r) ← position icons.isNone (list Json.text) r
  return (.ok ⟨icons.getD [], families.getD []⟩, r)

/-- Reads a catalogue and the end of the input. -/
def readBody (body : Octets) : Except Fault Catalogue := do
  let (c, r) ← readRecord "struct Index" asList asObject (.ofOctets body)
  let r := r.trim
  if r.rest.isEmpty then return c else throw (r.ahead .trailingInput)

/-- What may stand in front of a stored catalogue, so that it is no program. -/
def guardText : String := ")]\x7d'\n"

/-- The stored catalogue without the guard. -/
def unguarded (raw : Octets) : Octets :=
  let g := Text.encode guardText
  if g.isPrefixOf raw then raw.drop g.length else raw

/-- Reads a stored catalogue. Lines and columns are counted behind the guard. -/
def read (raw : Octets) : Except Json.Error Catalogue :=
  (readBody (unguarded raw)).mapError (·.locate (unguarded raw))

end Catalogue
end IconModules
