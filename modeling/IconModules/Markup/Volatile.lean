import IconModules.Text.Replace
/-!
# Volatile markup

A drawing as it is served holds markup that says nothing about its shape and changes from one
download to the next: the declaration in front, comments, definition blocks, clipping paths and the
attributes of a denylist.

* A **`Stretch`** tells where a piece of such markup begins and how long it is.
* **`withoutBlock`** takes out the one block that a text has, **`replaceSpans_block`** says that no
  other stretch of that kind is left.
* A **`Pass`** puts a fixed text in the place of every stretch of one kind, or takes out a block.
* **`strip`** runs the passes one after the other, each on the result of the one before.
* **`isDrawing`** tells a drawing from the page that a server sends when something went wrong.
-/

namespace IconModules.Markup

/-! ### Stretches -/

/-- The length of the stretch with which a text begins, if it begins with one. -/
abbrev Stretch := List Char → Option Nat

/-- The number of characters in front of the first `stop`, if there is one. -/
def lengthTo (stop : Char) (s : List Char) : Option Nat :=
  s.findIdx? (· == stop)

/-- A tag that has a line's end to itself: `opening`, at least one character, the first `>` behind
it and a line break right after that. -/
def tagLine (opening : List Char) : Stretch := fun s =>
  if opening.isPrefixOf s then
    match lengthTo '>' (s.drop opening.length) with
    | some (n + 1) =>
      match s.drop (opening.length + (n + 2)) with
      | '\n' :: _ => some (opening.length + (n + 3))
      | _ => none
    | _ => none
  else none

/-- The number of characters up to the end of the last occurrence of `word`. -/
def lastEnd (word : List Char) : List Char → Option Nat
  | [] => none
  | c :: cs =>
    match lastEnd word cs with
    | some n => some (n + 1)
    | none => if word.isPrefixOf (c :: cs) then some word.length else none

/-- A block: from `opening` to the end of the last `closing` behind it. -/
def block (opening closing : List Char) : Stretch := fun s =>
  if opening.isPrefixOf s then
    (lastEnd closing (s.drop opening.length)).map (opening.length + ·)
  else none

/-- An attribute with a space in front: the name, an equals sign and a value in double quotes. -/
def valueOf (name : List Char) : Stretch := fun s =>
  let opening := ' ' :: name ++ ['=', '"']
  if opening.isPrefixOf s then
    (lengthTo '"' (s.drop opening.length)).map (opening.length + · + 1)
  else none

/-! ### Blocks -/

/-- The text without its block: what stands from the first `opening` to the end of the last
`closing` behind it. There is at most one, since no `closing` is left behind it. -/
def withoutBlock (opening closing : List Char) : List Char → List Char
  | [] => []
  | c :: cs =>
    if opening.isPrefixOf (c :: cs) then
      match lastEnd closing ((c :: cs).drop opening.length) with
      | some n => (c :: cs).drop (opening.length + n)
      | none => c :: cs
    else c :: withoutBlock opening closing cs

theorem lastEnd_drop_of_none {word s : List Char} (h : lastEnd word s = none) (n : Nat) :
    lastEnd word (s.drop n) = none := by
  induction s generalizing n with
  | nil => simp [lastEnd]
  | cons c cs ih => cases n with
    | zero => exact h
    | succ n =>
      refine ih ?_ n
      unfold lastEnd at h
      split at h <;> simp_all

/-- No word is left behind its last occurrence. -/
theorem lastEnd_drop_of_some {word s : List Char} (hw : word ≠ []) {n : Nat}
    (h : lastEnd word s = some n) : lastEnd word (s.drop n) = none := by
  induction s generalizing n with
  | nil => simp [lastEnd] at h
  | cons c cs ih =>
    unfold lastEnd at h
    split at h
    · rename_i m hm
      obtain rfl : m + 1 = n := by simpa using h
      exact ih hm
    · rename_i hm
      obtain ⟨-, rfl⟩ : word.isPrefixOf (c :: cs) = true ∧ word.length = n := by simpa using h
      obtain ⟨k, hk⟩ := Nat.exists_eq_add_one.2 (List.length_pos_iff.2 hw)
      rw [hk, List.drop_succ_cons]
      exact lastEnd_drop_of_none hm k

/-- Where no `closing` stands behind an `opening`, there is no block. -/
theorem replaceSpans_block_of_none {opening closing put s : List Char}
    (h : lastEnd closing (s.drop opening.length) = none) :
    Text.replaceSpans (block opening closing) put 0 s = s := by
  induction s with
  | nil => simp
  | cons c cs ih =>
    have hs : block opening closing (c :: cs) = none := by simp [block, h]
    have ht : lastEnd closing (cs.drop opening.length) = none := by
      have h1 := lastEnd_drop_of_none h 1
      rwa [List.drop_drop, List.drop_succ_cons] at h1
    rw [Text.replaceSpans, hs, ih ht]

/-- Taking out all blocks is the same as taking out the one that there is. -/
theorem replaceSpans_block {opening closing : List Char} (ho : opening ≠ []) (hc : closing ≠ [])
    (s : List Char) :
    Text.replaceSpans (block opening closing) [] 0 s = withoutBlock opening closing s := by
  induction s with
  | nil => rfl
  | cons c cs ih =>
    rw [withoutBlock]
    split
    · rename_i hp
      split
      · rename_i n hn
        obtain ⟨k, hk⟩ := Nat.exists_eq_add_one.2 (List.length_pos_iff.2 ho)
        have hs : block opening closing (c :: cs) = some (k + n + 1) := by
          rw [block, if_pos hp, hn, Option.map_some, hk, Nat.add_right_comm]
        have hd : (c :: cs).drop (opening.length + n) = cs.drop (k + n) := by
          rw [hk, Nat.add_right_comm, List.drop_succ_cons]
        simp only [Text.replaceSpans, hs, List.nil_append]
        rw [Text.replaceSpans_drop, hd]
        refine replaceSpans_block_of_none (lastEnd_drop_of_none ?_ _)
        rw [← hd, ← List.drop_drop]
        exact lastEnd_drop_of_some hc hn
      · rename_i hn
        exact replaceSpans_block_of_none hn
    · rename_i hp
      have hs : block opening closing (c :: cs) = none := by simp [block, hp]
      rw [Text.replaceSpans, hs, ih]

/-! ### Passes -/

/-- What is done to a text in one go. -/
inductive Pass where
  /-- A text is put in the place of every stretch of one kind. -/
  | everywhere (stretch : Stretch) (put : List Char)
  /-- A block is taken out. -/
  | once (opening closing : List Char)

/-- The text after a pass. -/
def Pass.run : Pass → List Char → List Char
  | everywhere stretch put => Text.replaceSpans stretch put 0
  | once opening closing => withoutBlock opening closing

/-- The declaration in front of a document. -/
def declarationPass : Pass := .everywhere (tagLine "<?xml".toList) []

/-- Comments. A comment is taken to end at its first `>`. -/
def commentPass : Pass := .everywhere (tagLine "<!--".toList) []

/-- Definitions, from the first opening tag to the last closing tag. -/
def definitionsPass : Pass := .once "<defs".toList "</defs>".toList

/-- Clipping paths, from the first opening tag to the last closing tag. -/
def clippingPass : Pass := .once "<clipPath".toList "</clipPath>".toList

/-- One attribute of the denylist; a space stays in its place. -/
def attributePass (name : String) : Pass := .everywhere (valueOf name.toList) [' ']

/-- All passes in their order. -/
def passes (denylist : List String) : List Pass :=
  [declarationPass, commentPass, definitionsPass, clippingPass] ++ denylist.map attributePass

/-! ### Drawings -/

/-- The drawing without its volatile markup. -/
def strip (denylist : List String) (raw : String) : String :=
  String.ofList <| (passes denylist).foldl (fun s p => p.run s) raw.toList

/-- Whether a text looks like a drawing: the root element or a declaration comes first. -/
def isDrawing (svg : String) : Bool :=
  "<svg".toList.isPrefixOf svg.toList || "<?xml".toList.isPrefixOf svg.toList

end IconModules.Markup
