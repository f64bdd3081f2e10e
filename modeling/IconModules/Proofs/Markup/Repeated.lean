import IconModules.Proofs.Markup.Stretches
import IconModules.Settings.Presets
import Mathlib.Logic.Function.Iterate

/-! # Stripping a drawing more than once

Each pass reads the text once, from left to right, so what is left can hold new volatile markup: the text
in front of a removed piece and the text behind it come together.

* `Markup.Clean` says of a text that it holds no volatile markup. Stripping leaves clean texts as they are
  (`strip_of_clean`) and makes all others shorter (`length_strip_lt`).
* Stripping twice is stripping once exactly if the first time left a clean text, and stripping again and
  again comes to an end with one (`strip_again`). Once is not always enough (`strip_splices`). -/

namespace IconModules.Markup

open Text (Silent)

variable {denylist : List String} {p : Pass} {ps : List Pass} {s : List Char} {svg : String}

/-! ### Passes -/

/-- Nothing in the text is a stretch for the pass, or a block that it takes out. -/
def Pass.Clean : Pass → List Char → Prop
  | .everywhere stretch _, s => Silent stretch s []
  | .once opening closing, s => Silent (block opening closing) s []

/-- A pass that leaves clean texts as they are and makes all others shorter. -/
structure Pass.Shrinking (p : Pass) : Prop where
  same : ∀ s, p.Clean s → p.run s = s
  shorter : ∀ s, ¬ p.Clean s → (p.run s).length < s.length

theorem shrinking_everywhere {stretch : Stretch} {put : List Char} (h : Text.Shrinks stretch put) :
    (Pass.everywhere stretch put).Shrinking :=
  ⟨fun _ => Text.replaceSpans_of_silent, fun _ => Text.length_replaceSpans_lt h⟩

theorem shrinking_once {c c' : Char} {opening closing : List Char} :
    (Pass.once (c :: opening) (c' :: closing)).Shrinking := by
  have hrun : ∀ s, (Pass.once (c :: opening) (c' :: closing)).run s =
      Text.replaceSpans (block (c :: opening) (c' :: closing)) [] 0 s := fun s =>
    (replaceSpans_block (List.cons_ne_nil c opening) (List.cons_ne_nil c' closing) s).symm
  refine ⟨fun s hs => ?_, fun s hs => ?_⟩
  · rw [hrun]
    exact Text.replaceSpans_of_silent hs
  · rw [hrun]
    exact Text.length_replaceSpans_lt shrinks_block hs

theorem shrinking_of_mem_passes (hp : p ∈ passes denylist) : p.Shrinking := by
  rcases List.mem_append.1 hp with hp | hp
  · simp only [List.mem_cons, List.not_mem_nil, or_false] at hp
    rcases hp with rfl | rfl | rfl | rfl
    · exact shrinking_everywhere shrinks_tagLine
    · exact shrinking_everywhere shrinks_tagLine
    · exact shrinking_once
    · exact shrinking_once
  · obtain ⟨name, -, rfl⟩ := List.mem_map.1 hp
    exact shrinking_everywhere shrinks_valueOf

/-- Several passes leave a text as it is that is clean for all of them. -/
theorem foldl_run_of_clean (h : ∀ p ∈ ps, p.Shrinking) (hs : ∀ p ∈ ps, p.Clean s) :
    ps.foldl (fun s p => p.run s) s = s := by
  induction ps with
  | nil => rfl
  | cons p ps ih =>
    rw [List.forall_mem_cons] at h hs
    rw [List.foldl_cons, h.1.same s hs.1]
    exact ih h.2 hs.2

/-- Several passes make a text shorter that is not clean for one of them. -/
theorem length_foldl_run (h : ∀ p ∈ ps, p.Shrinking) (s : List Char) :
    (ps.foldl (fun s p => p.run s) s).length ≤ s.length ∧
      ((∃ p ∈ ps, ¬ p.Clean s) → (ps.foldl (fun s p => p.run s) s).length < s.length) := by
  induction ps generalizing s with
  | nil => simp
  | cons p ps ih =>
    rw [List.forall_mem_cons] at h
    obtain ⟨hle, hlt⟩ := ih h.2 (p.run s)
    rw [List.foldl_cons]
    by_cases hp : p.Clean s
    · rw [h.1.same s hp] at hle hlt ⊢
      refine ⟨hle, fun ⟨q, hq, hdirty⟩ => hlt ⟨q, ?_, hdirty⟩⟩
      rcases List.mem_cons.1 hq with rfl | hq
      · exact absurd hp hdirty
      · exact hq
    · have hshort := Nat.lt_of_le_of_lt hle (h.1.shorter s hp)
      exact ⟨Nat.le_of_lt hshort, fun _ => hshort⟩

/-! ### Texts -/

/-- The text holds no volatile markup. -/
def Clean (denylist : List String) (svg : String) : Prop :=
  ∀ p ∈ passes denylist, p.Clean svg.toList

theorem strip_of_clean (h : Clean denylist svg) : strip denylist svg = svg := by
  unfold strip
  rw [foldl_run_of_clean (fun _ => shrinking_of_mem_passes) h, String.ofList_toList]

theorem length_strip_lt (h : ¬ Clean denylist svg) : (strip denylist svg).length < svg.length := by
  obtain ⟨p, hp⟩ := Classical.not_forall.1 h
  have hlt := (length_foldl_run (fun _ => shrinking_of_mem_passes) svg.toList).2
    ⟨p, Classical.not_imp.1 hp⟩
  rw [← String.length_toList, ← String.length_toList, strip, String.toList_ofList]
  exact hlt

/-- The clean texts are those that stripping leaves as they are. -/
theorem strip_eq_self_iff : strip denylist svg = svg ↔ Clean denylist svg := by
  refine ⟨fun h => ?_, strip_of_clean⟩
  apply Classical.byContradiction
  intro hdirty
  have hlt := length_strip_lt hdirty
  rw [h] at hlt
  exact Nat.lt_irrefl _ hlt

/-- Stripping a text as many times as it has characters leaves a clean one, or fewer times do. -/
theorem exists_clean (denylist : List String) (svg : String) :
    ∃ n ≤ svg.length, Clean denylist ((strip denylist)^[n] svg) := by
  induction hlength : svg.length using Nat.strongRecOn generalizing svg with
  | ind length ih =>
    by_cases hclean : Clean denylist svg
    · exact ⟨0, Nat.zero_le _, hclean⟩
    · have hlt := length_strip_lt hclean
      obtain ⟨n, hn, hclean⟩ := ih _ (hlength ▸ hlt) _ rfl
      refine ⟨n + 1, by omega, ?_⟩
      rwa [Function.iterate_succ_apply]

/-- Stripping twice is stripping once if, and only if, no volatile markup was left the first time. Stripping
again and again comes to an end: after at most as many times as the text has characters no volatile markup is
left, and nothing changes from then on. -/
theorem strip_again (denylist : List String) (raw : String) :
    (strip denylist (strip denylist raw) = strip denylist raw ↔
      Clean denylist (strip denylist raw)) ∧
    ∃ n ≤ raw.length, Clean denylist ((strip denylist)^[n] raw) ∧
      ∀ m, (strip denylist)^[m] ((strip denylist)^[n] raw) = (strip denylist)^[n] raw := by
  obtain ⟨n, hn, hclean⟩ := exists_clean denylist raw
  exact ⟨strip_eq_self_iff, n, hn, hclean, Function.iterate_fixed (strip_of_clean hclean)⟩

/-- Taking out one attribute can put a space in front of another one that was looked for before it. -/
theorem strip_splices :
    let raw := "<svg> width=\"1\"class=\"2\"</svg>"
    strip Edition.legacy.denylist (strip Edition.legacy.denylist raw) ≠
        strip Edition.legacy.denylist raw ∧
      strip Edition.current.denylist (strip Edition.current.denylist raw) ≠
        strip Edition.current.denylist raw := by
  decide

end IconModules.Markup
