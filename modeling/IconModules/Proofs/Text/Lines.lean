import IconModules.Text.Utf8.Lemmas

/-! # Reading texts by lines and by commas

How a text that was put together from pieces is taken apart again.

* `Text.lines` are the lines of a text. A piece of whole lines (`Whole`) can be read on its own,
  whatever follows it.
* `Text.listed` are the names in a list with commas, `Text.behind` finds what follows a word. -/

namespace IconModules.Text

variable {s t line piece piece' : String} {ls ls' : List String} {word front rest : List Char}

/-! ### Lines -/

/-- The lines of a text. -/
def lines (s : String) : List String :=
  (s.toList.splitOn '\n').map String.ofList

/-- A piece of text that consists of whole lines, these. -/
def Whole (piece : String) (ls : List String) : Prop :=
  ∀ rest, lines (piece ++ rest) = ls ++ lines rest

theorem lines_of_noBreak (h : '\n' ∉ line.toList) : lines line = [line] := by
  simp [lines, List.splitOn_eq_singleton h]

theorem whole_empty : Whole "" [] := by
  intro rest
  simp

theorem Whole.append (h : Whole piece ls) (h' : Whole piece' ls') :
    Whole (piece ++ piece') (ls ++ ls') := by
  intro rest
  rw [String.append_assoc, h, h', List.append_assoc]

/-- A line break ends the last line of a text. -/
theorem whole_lines (s : String) : Whole (s ++ "\n") (lines s) := by
  intro rest
  have e : (s ++ "\n" ++ rest).toList = s.toList ++ '\n' :: rest.toList := by simp
  rw [lines, e, List.splitOn_append_cons_self, List.map_append]
  rfl

theorem whole_line (h : '\n' ∉ line.toList) : Whole (line ++ "\n") [line] := by
  rw [← lines_of_noBreak h]
  exact whole_lines line

theorem whole_break : Whole "\n" [""] :=
  whole_lines ""

theorem whole_join {α : Type} {f : α → String} {g : α → List String} {xs : List α}
    (h : ∀ x ∈ xs, Whole (f x) (g x)) : Whole (String.join (xs.map f)) (xs.flatMap g) := by
  induction xs with
  | nil => exact whole_empty
  | cons x xs ih =>
    rw [List.map_cons, String.join_cons, List.flatMap_cons]
    exact (h x List.mem_cons_self).append (ih fun y hy => h y (List.mem_cons_of_mem _ hy))

theorem Whole.lines (h : Whole piece ls) : lines piece = ls ++ [""] := by
  have h' := h ""
  rwa [String.append_empty] at h'

/-! ### Words -/

/-- What follows the first occurrence of a word, nothing if there is none. -/
def behind (word : List Char) : List Char → List Char
  | [] => []
  | c :: cs => if word.isPrefixOf (c :: cs) then (c :: cs).drop word.length else behind word cs

/-- A word is not found in front of its first character. -/
theorem behind_append {c : Char} (h : c ∉ front) :
    behind (c :: word) (front ++ (c :: word ++ rest)) = rest := by
  induction front with
  | nil => simp [behind]
  | cons x front ih =>
    have hx : c ≠ x := by
      rintro rfl
      exact h List.mem_cons_self
    rw [List.cons_append, behind, if_neg (by simp [hx])]
    exact ih fun hm => h (List.mem_cons_of_mem _ hm)

/-! ### Lists -/

/-- The pieces between commas that a space follows. -/
def splitCommas : List Char → List (List Char)
  | [] => [[]]
  | ',' :: ' ' :: cs => [] :: splitCommas cs
  | c :: cs => (splitCommas cs).modifyHead (c :: ·)

/-- The names in a list with commas. The empty text lists nothing. -/
def listed (s : List Char) : List String :=
  if s = [] then [] else (splitCommas s).map String.ofList

theorem splitCommas_cons {c : Char} {cs : List Char} (h : c ≠ ',') :
    splitCommas (c :: cs) = (splitCommas cs).modifyHead (c :: ·) := by
  rw [splitCommas.eq_def]
  split
  · simp_all
  · rename_i heq
    exact absurd (List.cons.inj heq).1 h
  · rename_i heq
    obtain ⟨rfl, rfl⟩ := List.cons.inj heq
    rfl

theorem splitCommas_of_noComma (h : ',' ∉ front) : splitCommas front = [front] := by
  induction front with
  | nil => rfl
  | cons c cs ih =>
    rw [List.mem_cons, not_or] at h
    rw [splitCommas_cons (Ne.symm h.1), ih h.2]
    rfl

theorem splitCommas_append (h : ',' ∉ front) :
    splitCommas (front ++ ',' :: ' ' :: rest) = front :: splitCommas rest := by
  induction front with
  | nil => rfl
  | cons c cs ih =>
    rw [List.mem_cons, not_or] at h
    rw [List.cons_append, splitCommas_cons (Ne.symm h.1), ih h.2]
    rfl

theorem splitCommas_intercalate {x : List Char} {xs : List (List Char)}
    (h : ∀ y ∈ x :: xs, ',' ∉ y) : splitCommas ([',', ' '].intercalate (x :: xs)) = x :: xs := by
  induction xs generalizing x with
  | nil =>
    rw [List.intercalate_singleton]
    exact splitCommas_of_noComma (h x List.mem_cons_self)
  | cons y xs ih =>
    have e : [',', ' '].intercalate (x :: y :: xs) =
        x ++ ',' :: ' ' :: [',', ' '].intercalate (y :: xs) := by
      simp [List.intercalate]
    rw [e, splitCommas_append (h x List.mem_cons_self), ih fun z hz => h z (List.mem_cons_of_mem _ hz)]

/-- Names that are written with commas between them are read again. -/
theorem listed_intercalate {names : List String} (h : ∀ n ∈ names, n ≠ "" ∧ ',' ∉ n.toList) :
    listed (", ".intercalate names).toList = names := by
  have hsep : ", ".toList = [',', ' '] := by decide
  rw [String.toList_intercalate, hsep]
  cases names with
  | nil => rfl
  | cons n names =>
    have hne : [',', ' '].intercalate ((n :: names).map String.toList) ≠ [] := by
      have hn := (h n List.mem_cons_self).1
      cases names <;> simp [List.intercalate, hn]
    rw [listed, if_neg hne, List.map_cons, splitCommas_intercalate]
    · simp [Function.comp_def]
    · intro y hy
      rw [← List.map_cons] at hy
      obtain ⟨m, hm, rfl⟩ := List.mem_map.1 hy
      exact (h m hm).2

end IconModules.Text
