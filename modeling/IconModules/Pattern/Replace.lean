import IconModules.Pattern.Basic
import IconModules.Pattern.Template
/-!
# Replacing the matches of a pattern

* **`Pattern.replaceAll`** goes through a text from left to right and puts a template in the place
  of every match. Matches do not overlap, and an empty match does not count right behind another
  match.
-/

namespace IconModules

/-- The text of a numbered group in a match that begins `s` and ends at `k`; group zero is the whole
match, and a group that took no part is empty. -/
def Cursor.groupText (k : Cursor) (s : List Char) (number : Nat) : List Char :=
  if number = 0 then s.take k.taken
  else match k.groups.lookup number with
    | some (first, last) => (s.drop first).take (last - first)
    | none => []

namespace Pattern

/-- Replaces matches. `left` is what is left to pass over of the match just replaced, `barred` says
that an empty match would stand right behind it, `before` is the character read last. -/
def replaceFrom (p : Pattern) (t : Template) (before : Option Char) (left : Nat) (barred : Bool) :
    List Char → List Char
  | [] =>
    if barred then []
    else match p.match? before [] with
      | some k => t.fill (k.groupText [])
      | none => []
  | c :: cs =>
    match left with
    | left + 1 => replaceFrom p t (some c) left barred cs
    | 0 =>
      match p.match? before (c :: cs) with
      | none => c :: replaceFrom p t (some c) 0 false cs
      | some k =>
        match k.taken with
        | 0 =>
          (if barred then [] else t.fill (k.groupText (c :: cs)))
            ++ c :: replaceFrom p t (some c) 0 false cs
        | n + 1 => t.fill (k.groupText (c :: cs)) ++ replaceFrom p t (some c) n true cs

theorem replaceFrom_end (p : Pattern) (t : Template) (before : Option Char) (left : Nat) (barred : Bool) :
    replaceFrom p t before left barred [] =
      if barred then []
      else match p.match? before [] with
        | some k => t.fill (k.groupText [])
        | none => [] := rfl

/-- A character of the match just replaced is passed over. -/
theorem replaceFrom_over (p : Pattern) (t : Template) (before : Option Char) (left : Nat) (barred : Bool)
    (c : Char) (cs : List Char) :
    replaceFrom p t before (left + 1) barred (c :: cs) = replaceFrom p t (some c) left barred cs := rfl

/-- Where nothing is left to pass over, the next match is looked for. -/
theorem replaceFrom_at (p : Pattern) (t : Template) (before : Option Char) (barred : Bool)
    (c : Char) (cs : List Char) :
    replaceFrom p t before 0 barred (c :: cs) =
      match p.match? before (c :: cs) with
      | none => c :: replaceFrom p t (some c) 0 false cs
      | some k =>
        match k.taken with
        | 0 =>
          (if barred then [] else t.fill (k.groupText (c :: cs)))
            ++ c :: replaceFrom p t (some c) 0 false cs
        | n + 1 => t.fill (k.groupText (c :: cs)) ++ replaceFrom p t (some c) n true cs := rfl

/-- The text with the template in the place of every match. -/
def replaceAll (p : Pattern) (t : Template) (s : List Char) : List Char :=
  replaceFrom p t none 0 false s

end Pattern
end IconModules
