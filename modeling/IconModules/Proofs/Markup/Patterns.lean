import IconModules.Proofs.Markup.Repeated
import IconModules.Proofs.Pattern.Matching
import Mathlib.Data.List.Forall2

/-! # The patterns of volatile markup

* `Markup.patterns` are the patterns of volatile markup, each with what takes the place of its matches.
* Every pass replaces the matches of its pattern, the blocks included, which a pass takes out in one piece
  (`replaces_passes`). So stripping a drawing is replacing the matches of all patterns, one after the other
  (`strip_eq_replaceAll`).
* Where such a pattern matches is said without a match, too: it occurs in a text exactly if the text holds a
  piece that is made up as the pattern tells (`between_occurs_iff`). -/

namespace IconModules

namespace CharSet

/-- All characters. -/
def any : CharSet :=
  ⟨true, []⟩

/-- All characters but one. -/
def but (c : Char) : CharSet :=
  ⟨true, [.range c c]⟩

@[simp] theorem holds_any (c : Char) : any.holds c = true := rfl

@[simp] theorem holds_but (a c : Char) : (but a).holds c = (c != a) := by
  have h : (but a).holds c = !(single a).holds c := by
    simp [but, single, holds]
  rw [h, holds_single]
  rfl

end CharSet

namespace Pattern

variable {set : CharSet} {opening closing inner s : List Char} {least : Nat}

/-- A match begins somewhere in the text. -/
def Occurs (p : Pattern) (s : List Char) : Prop :=
  ∃ front rest, s = front ++ rest ∧ p.match? front.getLast? rest ≠ none

theorem runTo_ne_none_iff :
    runTo set closing least s ≠ none ↔
      ∃ inner, least ≤ inner.length ∧ (∀ x ∈ inner, set.holds x = true) ∧ inner ++ closing <+: s := by
  induction s generalizing least with
  | nil =>
    rw [runTo]
    constructor
    · intro h
      split at h
      · rename_i hnil
        exact ⟨[], by simp [hnil.1], by simp, by simp [hnil.2]⟩
      · exact absurd rfl h
    · rintro ⟨inner, hleast, -, hp⟩
      obtain ⟨rfl, rfl⟩ := List.append_eq_nil_iff.1 (List.prefix_nil.1 hp)
      simp [Nat.le_zero.1 hleast]
  | cons c s ih =>
    rw [runTo, ne_eq, Option.or_eq_none_iff, not_and_or]
    constructor
    · rintro (h | h)
      · split at h
        · rename_i hc
          rw [Option.map_eq_none_iff] at h
          obtain ⟨inner, hleast, hinner, hp⟩ := ih.1 h
          refine ⟨c :: inner, Nat.le_succ_of_pred_le hleast, ?_, List.cons_prefix_cons.2 ⟨rfl, hp⟩⟩
          exact List.forall_mem_cons.2 ⟨hc, hinner⟩
        · exact absurd rfl h
      · split at h
        · rename_i hp
          exact ⟨[], by simp [hp.1], by simp, hp.2⟩
        · exact absurd rfl h
    · rintro ⟨_ | ⟨x, inner⟩, hleast, hinner, hp⟩
      · right
        rw [if_pos ⟨Nat.le_zero.1 hleast, hp⟩]
        exact Option.some_ne_none _
      · left
        rw [List.cons_append] at hp
        obtain ⟨rfl, hs⟩ := List.cons_prefix_cons.1 hp
        rw [List.forall_mem_cons] at hinner
        rw [if_pos hinner.1, Option.map_eq_none_iff]
        exact ih.2 ⟨inner, Nat.pred_le_iff.2 hleast, hinner.2, hs⟩

theorem betweenSpan_ne_none_iff :
    betweenSpan opening set least closing s ≠ none ↔
      ∃ inner, least ≤ inner.length ∧ (∀ x ∈ inner, set.holds x = true) ∧
        opening ++ (inner ++ closing) <+: s := by
  unfold betweenSpan
  split
  · rename_i hp
    obtain ⟨rest, rfl⟩ := hp
    rw [ne_eq, Option.map_eq_none_iff, ← ne_eq, List.drop_left, runTo_ne_none_iff]
    simp only [List.prefix_append_right_inj]
  · rename_i hp
    refine ⟨fun h => absurd rfl h, ?_⟩
    rintro ⟨inner, -, -, hs⟩
    exact absurd ((List.prefix_append _ _).trans hs) hp

theorem match?_between_ne_none_iff {before : Option Char} :
    (between opening set least closing).match? before s ≠ none ↔
      betweenSpan opening set least closing s ≠ none := by
  rw [← match?_between opening set least closing before, ne_eq, ne_eq, Option.map_eq_none_iff]

/-- The text holds what the pattern tells. -/
theorem between_occurs_iff :
    (between opening set least closing).Occurs s ↔
      ∃ inner, least ≤ inner.length ∧ (∀ x ∈ inner, set.holds x = true) ∧
        opening ++ (inner ++ closing) <:+: s := by
  constructor
  · rintro ⟨front, rest, rfl, h⟩
    obtain ⟨inner, hleast, hinner, hp⟩ :=
      betweenSpan_ne_none_iff.1 (match?_between_ne_none_iff.1 h)
    exact ⟨inner, hleast, hinner, hp.isInfix.trans (List.suffix_append _ _).isInfix⟩
  · rintro ⟨inner, hleast, hinner, front, rest, rfl⟩
    refine ⟨front, _, List.append_assoc .., ?_⟩
    exact match?_between_ne_none_iff.2 (betweenSpan_ne_none_iff.2
      ⟨inner, hleast, hinner, List.prefix_append _ _⟩)

end Pattern

namespace Markup

open Pattern (between betweenSpan runTo)

variable {denylist : List String} {opening closing name put s : List Char} {x : Char} {n least : Nat}
  {set : CharSet} {stretch : Stretch}

/-! ### Stretches as runs -/

theorem lastEnd_eq_runTo (h : closing ≠ []) (s : List Char) :
    lastEnd closing s = runTo .any closing 0 s := by
  induction s with
  | nil => simp [lastEnd, runTo, h]
  | cons c s ih =>
    rw [lastEnd, runTo, ih]
    cases runTo .any closing 0 s <;> simp

theorem lengthTo_cons (x c : Char) (s : List Char) :
    lengthTo x (c :: s) = if c = x then some 0 else (lengthTo x s).map (· + 1) := by
  simp [lengthTo, List.findIdx?_cons]

theorem drop_of_lengthTo (h : lengthTo x s = some n) : s.drop n = x :: s.drop (n + 1) := by
  obtain ⟨hn, hx, -⟩ := List.findIdx?_eq_some_iff_getElem.1 h
  rw [List.drop_eq_getElem_cons hn, beq_iff_eq.1 hx]

/-- A run that ends in front of a character goes to the first one. -/
theorem runTo_but (x : Char) (closing : List Char) (least : Nat) (s : List Char) :
    runTo (.but x) (x :: closing) least s = (lengthTo x s).bind fun n =>
      if least ≤ n ∧ x :: closing <+: s.drop n then some (n + (closing.length + 1)) else none := by
  induction s generalizing least with
  | nil => simp [runTo, lengthTo]
  | cons c s ih =>
    rw [runTo, CharSet.holds_but, ih, lengthTo_cons]
    by_cases hc : c = x
    · simp [hc]
    · cases lengthTo x s with
      | none => simp [hc, Ne.symm hc]
      | some n =>
        simp [hc, Ne.symm hc, Nat.add_right_comm]

theorem block_eq (h : closing ≠ []) (s : List Char) :
    block opening closing s = betweenSpan opening .any 0 closing s := by
  simp only [block, betweenSpan, lastEnd_eq_runTo h, List.isPrefixOf_iff_prefix]

theorem valueOf_eq (s : List Char) :
    valueOf name s = betweenSpan (' ' :: name ++ ['=', '"']) (.but '"') 0 ['"'] s := by
  simp only [valueOf, betweenSpan, runTo_but, List.isPrefixOf_iff_prefix]
  congr 1
  generalize s.drop (' ' :: name ++ ['=', '"']).length = rest
  cases h : lengthTo '"' rest with
  | none => rfl
  | some n =>
    have hquote : ['"'] <+: rest.drop n := by simp [drop_of_lengthTo h]
    simp [hquote, Nat.add_assoc]

theorem tagLine_eq (s : List Char) :
    tagLine opening s = betweenSpan opening (.but '>') 1 ['>', '\n'] s := by
  have hdrop : ∀ n, s.drop (opening.length + n) = (s.drop opening.length).drop n := fun n =>
    List.drop_drop.symm
  simp only [tagLine, betweenSpan, runTo_but, List.isPrefixOf_iff_prefix, hdrop]
  congr 1
  generalize s.drop opening.length = rest
  cases h : lengthTo '>' rest with
  | none => rfl
  | some n =>
    cases n with
    | zero => rfl
    | succ n =>
      rw [Option.bind_some, drop_of_lengthTo h]
      dsimp only
      rcases rest.drop (n + 2) with _ | ⟨c, rest⟩
      · simp
      · by_cases hc : c = '\n' <;> simp [hc, eq_comm]

/-! ### Passes as replacements -/

/-- The pattern of a tag that has a line's end to itself. -/
def tagPattern (opening : List Char) : Pattern :=
  between opening (.but '>') 1 ['>', '\n']

/-- The pattern of a block: anything may stand between the two words. -/
def blockPattern (opening closing : List Char) : Pattern :=
  between opening .any 0 closing

/-- The pattern of an attribute. -/
def valuePattern (name : List Char) : Pattern :=
  between (' ' :: name ++ ['=', '"']) (.but '"') 0 ['"']

/-- The patterns of volatile markup, each with what takes the place of its matches. -/
def patterns (denylist : List String) : List (Pattern × List Char) :=
  [(tagPattern "<?xml".toList, []), (tagPattern "<!--".toList, []),
    (blockPattern "<defs".toList "</defs>".toList, []),
    (blockPattern "<clipPath".toList "</clipPath>".toList, [])] ++
      denylist.map fun name => (valuePattern name.toList, [' '])

/-- The pass replaces the matches of a pattern, and a text is clean if there are none. -/
structure Pass.Replaces (p : Pass) (r : Pattern × List Char) : Prop where
  run : ∀ s, p.run s = r.1.replaceAll (r.2.map .char) s
  clean : ∀ s, p.Clean s ↔ ¬ r.1.Occurs s

theorem silent_iff_not_occurs (h : ∀ s, stretch s = betweenSpan opening set least closing s)
    (hnil : stretch [] = none) :
    Text.Silent stretch s [] ↔ ¬ (between opening set least closing).Occurs s := by
  constructor
  · rintro hs ⟨front, rest, rfl, hmatch⟩
    rw [Pattern.match?_between_ne_none_iff, ← h] at hmatch
    have hne : rest ≠ [] := by
      rintro rfl
      exact hmatch hnil
    exact hmatch (by simpa using hs rest (List.suffix_append _ _) hne)
  · rintro hno t ⟨front, rfl⟩ -
    rw [List.append_nil, h]
    apply Classical.byContradiction
    intro hspan
    exact hno ⟨front, t, rfl, Pattern.match?_between_ne_none_iff.2 hspan⟩

section

variable (h : ∀ s, stretch s = betweenSpan opening set least closing s)
  (hshrinks : Text.Shrinks stretch put)
include h hshrinks

theorem replaceSpans_eq_replaceAll (s : List Char) :
    Text.replaceSpans stretch put 0 s =
      (between opening set least closing).replaceAll (put.map .char) s := by
  refine (Pattern.replaceAll_eq_replaceSpans (fun before s => ?_) (fun s n hn => ?_) put s).symm
  · rw [Pattern.match?_between, h]
  · obtain ⟨hput, hle⟩ := hshrinks s n hn
    exact ⟨Nat.zero_lt_of_lt hput, hle⟩

theorem replaces_everywhere :
    (Pass.everywhere stretch put).Replaces (between opening set least closing, put) :=
  ⟨replaceSpans_eq_replaceAll h hshrinks, fun _ =>
    silent_iff_not_occurs h hshrinks.nil⟩

end

theorem replaces_once {c c' : Char} :
    (Pass.once (c :: opening) (c' :: closing)).Replaces
      (blockPattern (c :: opening) (c' :: closing), []) := by
  have h : ∀ s, block (c :: opening) (c' :: closing) s =
      betweenSpan (c :: opening) .any 0 (c' :: closing) s := block_eq (List.cons_ne_nil _ _)
  refine ⟨fun s => ?_, fun _ => silent_iff_not_occurs h shrinks_block.nil⟩
  exact (replaceSpans_block (List.cons_ne_nil _ _) (List.cons_ne_nil _ _) s).symm.trans
    (replaceSpans_eq_replaceAll h shrinks_block s)

/-- Every pass replaces the matches of its pattern. -/
theorem replaces_passes (denylist : List String) :
    List.Forall₂ Pass.Replaces (passes denylist) (patterns denylist) := by
  have hnames : List.Forall₂ Pass.Replaces (denylist.map attributePass)
      (denylist.map fun name => (valuePattern name.toList, [' '])) := by
    rw [List.forall₂_map_left_iff, List.forall₂_map_right_iff, List.forall₂_same]
    exact fun name _ => replaces_everywhere valueOf_eq shrinks_valueOf
  have htags : ∀ opening, (Pass.everywhere (tagLine ('<' :: opening)) []).Replaces
      (tagPattern ('<' :: opening), []) := fun opening =>
    replaces_everywhere tagLine_eq shrinks_tagLine
  exact .cons (htags _) (.cons (htags _) (.cons replaces_once (.cons replaces_once hnames)))

/-- Stripping a drawing replaces the matches of all patterns, one pattern after the other. -/
theorem strip_eq_replaceAll (denylist : List String) (raw : String) :
    strip denylist raw = String.ofList
      ((patterns denylist).foldl (fun s r => r.1.replaceAll (r.2.map .char) s) raw.toList) := by
  have hall : ∀ {ps rs}, List.Forall₂ Pass.Replaces ps rs → ∀ s,
      ps.foldl (fun s p => p.run s) s =
        rs.foldl (fun s r => r.1.replaceAll (r.2.map .char) s) s := by
    intro ps rs h
    induction h with
    | nil => exact fun s => rfl
    | cons h _ ih =>
      intro s
      rw [List.foldl_cons, List.foldl_cons, h.run, ih]
  rw [strip, hall (replaces_passes denylist)]

end Markup
end IconModules
