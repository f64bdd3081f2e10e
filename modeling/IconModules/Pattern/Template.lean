import IconModules.Text.Replace
/-!
# Templates

What takes the place of a match is written with references to the groups of the pattern.

* **`Template.read`** reads `$name`, where the name is as long as letters, digits and underscores
  go, `${name}`, where it goes to the brace, and `$$` for the sign itself. Any other `$` stands for
  itself, so every text is a template.
* **`Template.fill`** puts the texts of the groups in. A group that does not exist is empty.
-/

namespace IconModules

/-- One piece of a template: a character, or the name of a group. -/
inductive TemplatePiece where
  | char (c : Char)
  | group (name : List Char)
  deriving DecidableEq, Repr

/-- What takes the place of a match. -/
abbrev Template := List TemplatePiece

namespace Template

def isNameChar (c : Char) : Bool :=
  c.isAlphanum || c == '_'

/-- Reads a template. The number is what is left to pass over of a reference just read. -/
def readFrom : Nat → List Char → Template
  | _, [] => []
  | left + 1, _ :: cs => readFrom left cs
  | 0, '$' :: cs =>
    match cs with
    | '$' :: _ => .char '$' :: readFrom 1 cs
    | '\x7b' :: rest =>
      let name := rest.takeWhile (· != '\x7d')
      if name.length < rest.length then .group name :: readFrom (name.length + 2) cs
      else .char '$' :: readFrom 0 cs
    | _ =>
      match cs.takeWhile isNameChar with
      | [] => .char '$' :: readFrom 0 cs
      | name => .group name :: readFrom name.length cs
  | 0, c :: cs => .char c :: readFrom 0 cs

def read (text : String) : Template :=
  readFrom 0 text.toList

/-- The number that a name is, if it is one; a plus sign may come first. -/
def number? (name : List Char) : Option Nat :=
  let digits := match name with
    | '+' :: rest => rest
    | _ => name
  if digits ≠ [] ∧ digits.all Char.isDigit then
    some (digits.foldl (fun n d => n * 10 + (d.toNat - 48)) 0)
  else none

/-- The text of a template, where `groups n` is the text of the group numbered `n`. -/
def fill (t : Template) (groups : Nat → List Char) : List Char :=
  t.flatMap fun
    | .char c => [c]
    | .group name => (number? name).elim [] groups

/-! ### Verbatim texts -/

/-- A text in which every dollar sign is doubled reads as itself, whatever follows it. -/
theorem readFrom_doubled (s rest : List Char) :
    readFrom 0 ((s.flatMap fun c => if c = '$' then ['$', '$'] else [c]) ++ rest) =
      s.map .char ++ readFrom 0 rest := by
  induction s with
  | nil => rfl
  | cons c cs ih =>
    by_cases h : c = '$'
    · subst h
      simpa [readFrom] using ih
    · have : ∀ r, readFrom 0 (c :: r) = .char c :: readFrom 0 r := by
        intro r
        rw [readFrom]
        exact h
      simp [h, this, ih]

theorem fill_map_char (s : List Char) (groups : Nat → List Char) :
    fill (s.map .char) groups = s := by
  induction s with
  | nil => rfl
  | cons c cs ih => simpa [fill] using ih

end Template
end IconModules
