import IconModules.Proofs.Markup.Patterns
import IconModules.Proofs.Text.Words

/-! # Blocks that are taken out

* `Markup.BlockTaken opening closing s t` says how `t` comes from `s`: what stands from the first `opening`
  to the last `closing` is deleted, if a `closing` follows that `opening` at all.
* What is left encloses nothing any more (`BlockTaken.not_encloses`): an `opening` that was put together at
  the seam has no `closing` behind it.
* The passes for definitions and clipping paths are of this kind. The passes for attributes, which come
  after them, put a space where they delete something, so no clipping path comes back
  (`blocks_taken_out`). -/

namespace IconModules.Markup

open Text (FirstAt LastAt Silent wordSpan)

variable {opening closing front inner back rest s t : List Char} {c : Char} {n : Nat}
  {denylist : List String}

/-! ### What taking out a block means -/

/-- An `opening` stands in the text and, somewhere behind it, a `closing`. -/
def Encloses (opening closing s : List Char) : Prop :=
  ∃ front inner back, s = front ++ (opening ++ (inner ++ (closing ++ back)))

/-- The text `s` loses what stands from its first `opening` to its last `closing` behind that. -/
inductive BlockTaken (opening closing s : List Char) : List Char → Prop
  | taken {front inner back : List Char}
      (text : s = front ++ (opening ++ (inner ++ (closing ++ back))))
      (first : FirstAt opening front s) (last : LastAt closing back s) :
      BlockTaken opening closing s (front ++ back)
  | kept (h : ∀ front rest, FirstAt opening front s → s = front ++ (opening ++ rest) →
        ¬ closing <:+: rest) :
      BlockTaken opening closing s s

/-- Nothing is enclosed where a block was taken out. -/
theorem BlockTaken.not_encloses (hc : closing ≠ []) (h : BlockTaken opening closing s t) :
    ¬ Encloses opening closing t := by
  rintro ⟨a, b, d, ht⟩
  have hpos := List.length_pos_iff.2 hc
  cases h with
  | taken text first last =>
    rename_i front inner back
    have hlength := congrArg List.length ht
    simp only [List.length_append] at hlength
    rcases Nat.lt_or_ge back.length (closing.length + d.length) with hlt | hge
    · -- the closing word begins in front of the seam, so the opening word stands there as a whole
      have hfront : a ++ opening <+: front := by
        have ha : a ++ opening <+: front ++ back :=
          ⟨_, by rw [List.append_assoc]; exact ht.symm⟩
        refine List.prefix_of_prefix_length_le ha (List.prefix_append _ _) ?_
        rw [List.length_append]
        omega
      have hs : a ++ opening <+: s := by
        rw [text]
        exact hfront.trans (List.prefix_append _ _)
      have hle := first.2 a hs
      omega
    · -- the closing word stands behind the seam, where the last one was taken out
      have hback : closing ++ d <:+ back := by
        have hd : closing ++ d <:+ front ++ back := ⟨a ++ (opening ++ b), by rw [ht]; simp⟩
        refine List.suffix_of_suffix_length_le hd (List.suffix_append _ _) ?_
        rw [List.length_append]
        omega
      have hs : closing ++ d <:+ s := by
        rw [text]
        exact hback.trans ⟨front ++ (opening ++ (inner ++ closing)), by simp⟩
      have hle := last.2 d hs
      omega
  | kept h =>
    have hin : opening <:+: s := ⟨a, b ++ (closing ++ d), by rw [ht, List.append_assoc]⟩
    obtain ⟨front, hfirst⟩ := Text.exists_firstAt hin
    obtain ⟨rest, hrest⟩ := hfirst.1
    have hle := hfirst.2 a ⟨b ++ (closing ++ d), by rw [ht, List.append_assoc]⟩
    have hlength := congrArg List.length (hrest.trans ht)
    simp only [List.length_append] at hlength
    have hsuffix : closing ++ d <:+ rest := by
      have hd : closing ++ d <:+ s := ⟨a ++ (opening ++ b), by rw [ht]; simp⟩
      refine List.suffix_of_suffix_length_le hd ⟨_, hrest⟩ ?_
      rw [List.length_append]
      omega
    exact h front rest hfirst (by rw [← hrest, List.append_assoc])
      ((List.prefix_append _ _).isInfix.trans hsuffix.isInfix)

/-! ### How a block is found -/

theorem lastEnd_eq_none_iff (hc : closing ≠ []) : lastEnd closing s = none ↔ ¬ closing <:+: s := by
  rw [lastEnd_eq_runTo hc, ← not_iff_not, ← ne_eq, Pattern.runTo_ne_none_iff, not_not]
  constructor
  · rintro ⟨inner, -, -, hp⟩
    exact (List.suffix_append _ _).isInfix.trans hp.isInfix
  · rintro ⟨inner, back, rfl⟩
    exact ⟨inner, Nat.zero_le _, fun _ _ => rfl, List.prefix_append _ _⟩

/-- What is found is the last occurrence of the word. -/
theorem lastAt_of_lastEnd (hc : closing ≠ []) (h : lastEnd closing s = some n) :
    ∃ inner back, s = inner ++ (closing ++ back) ∧ n = inner.length + closing.length ∧
      LastAt closing back s := by
  induction s generalizing n with
  | nil => cases h
  | cons c s ih =>
    rw [lastEnd] at h
    split at h
    · rename_i m hm
      obtain rfl := Option.some.inj h
      obtain ⟨inner, back, rfl, rfl, hlast⟩ := ih hm
      refine ⟨c :: inner, back, rfl, by rw [List.length_cons, Nat.add_right_comm],
        hlast.1.trans (List.suffix_cons _ _), fun b hb => ?_⟩
      rcases List.suffix_cons_iff.1 hb with he | hb
      · have hlength := congrArg List.length he
        simp only [List.length_cons, List.length_append] at hlength
        omega
      · exact hlast.2 b hb
    · rename_i hnone
      split at h
      · rename_i hp
        obtain rfl := Option.some.inj h
        obtain ⟨back, hback⟩ := List.isPrefixOf_iff_prefix.1 hp
        refine ⟨[], back, hback.symm, by simp, ⟨[], hback⟩, fun b hb => ?_⟩
        rcases List.suffix_cons_iff.1 hb with he | hb
        · have hlength := congrArg List.length (he.trans hback.symm)
          rw [List.length_append, List.length_append] at hlength
          omega
        · -- the word does not stand any later
          exact absurd ((List.prefix_append _ _).isInfix.trans hb.isInfix)
            ((lastEnd_eq_none_iff hc).1 hnone)
      · cases h

/-- Nothing is taken out in front of the first `opening`. -/
theorem withoutBlock_append (h : Silent (wordSpan opening) front rest) :
    withoutBlock opening closing (front ++ rest) = front ++ withoutBlock opening closing rest := by
  induction front with
  | nil => rfl
  | cons c front ih =>
    obtain ⟨hc, hfront⟩ := Text.silent_cons_iff.1 h
    rw [Text.wordSpan_eq_none_iff, ← List.isPrefixOf_iff_prefix] at hc
    rw [List.cons_append, withoutBlock, if_neg hc, ih hfront, List.cons_append]

/-- From an `opening` on, all is deleted to the end of the last `closing`. -/
theorem withoutBlock_opening (ho : opening ≠ []) (rest : List Char) :
    withoutBlock opening closing (opening ++ rest) =
      ((lastEnd closing rest).map rest.drop).getD (opening ++ rest) := by
  obtain ⟨c, opening, rfl⟩ := List.exists_cons_of_ne_nil ho
  have hp : (c :: opening).isPrefixOf (c :: opening ++ rest) = true :=
    List.isPrefixOf_iff_prefix.2 (List.prefix_append _ _)
  have hdrop : (c :: opening ++ rest).drop (c :: opening).length = rest := List.drop_left
  rw [List.cons_append] at hp hdrop ⊢
  rw [withoutBlock, if_pos hp, hdrop]
  cases lastEnd closing rest with
  | none => rfl
  | some n =>
    dsimp only [Option.map_some, Option.getD_some]
    rw [← List.drop_drop, hdrop]

theorem blockTaken_withoutBlock (ho : opening ≠ []) (hc : closing ≠ []) (s : List Char) :
    BlockTaken opening closing s (withoutBlock opening closing s) := by
  by_cases hin : opening <:+: s
  · obtain ⟨front, hfirst⟩ := Text.exists_firstAt hin
    obtain ⟨rest, hrest⟩ := hfirst.1
    rw [List.append_assoc] at hrest
    subst hrest
    rw [withoutBlock_append hfirst.silent, withoutBlock_opening ho]
    cases hend : lastEnd closing rest with
    | none =>
      rw [Option.map_none, Option.getD_none]
      refine .kept fun front' rest' hfirst' hs => ?_
      obtain rfl := hfirst.unique hfirst'
      rw [List.append_cancel_left_eq, List.append_cancel_left_eq] at hs
      exact hs ▸ (lastEnd_eq_none_iff hc).1 hend
    | some n =>
      obtain ⟨inner, back, rfl, rfl, hlast⟩ := lastAt_of_lastEnd hc hend
      have hdrop : (inner ++ (closing ++ back)).drop (inner.length + closing.length) = back := by
        rw [← List.length_append, ← List.append_assoc, List.drop_left]
      rw [Option.map_some, Option.getD_some, hdrop]
      refine .taken rfl hfirst ?_
      rw [← List.append_assoc]
      exact hlast.append _
  · have hsame : withoutBlock opening closing s = s := by
      have hsilent := (Text.silent_wordSpan_iff ho).2 hin
      simpa [withoutBlock] using @withoutBlock_append opening closing s [] hsilent
    rw [hsame]
    exact .kept fun front rest hfirst _ => absurd hfirst.occurs hin

/-! ### The passes -/

/-- A pass that takes out the block between two words. -/
structure Pass.TakesBlock (p : Pass) (opening closing : List Char) : Prop where
  /-- It deletes from the first `opening` to the last `closing` behind it. -/
  taken : ∀ s, BlockTaken opening closing s (p.run s)
  /-- No `opening` with a `closing` behind it is left. -/
  gone : ∀ s, ¬ Encloses opening closing (p.run s)
  /-- It is what replacing all matches does, anything standing between the two words. -/
  replaced : ∀ s, p.run s = (blockPattern opening closing).replaceAll [] s

theorem takesBlock_once {c c' : Char} :
    (Pass.once (c :: opening) (c' :: closing)).TakesBlock (c :: opening) (c' :: closing) := by
  have htaken : ∀ s, BlockTaken (c :: opening) (c' :: closing) s
      (withoutBlock (c :: opening) (c' :: closing) s) :=
    blockTaken_withoutBlock (List.cons_ne_nil _ _) (List.cons_ne_nil _ _)
  exact ⟨htaken, fun s => (htaken s).not_encloses (List.cons_ne_nil _ _), replaces_once.run⟩

/-- Taking out an attribute does not enclose anything between two words without a space. -/
theorem encloses_of_attributePass {name : String} (ho : ' ' ∉ opening ∧ opening ≠ [])
    (hc : ' ' ∉ closing ∧ closing ≠ [])
    (h : Encloses opening closing ((attributePass name).run s)) : Encloses opening closing s := by
  have hfree : ∀ {word : List Char}, ' ' ∉ word → ∀ x ∈ [' '], x ∉ word := by simp
  obtain ⟨a, b, d, h⟩ := h
  obtain ⟨front, rest, rfl, hrest⟩ :=
    Text.exists_of_replaceSpans (hfree ho.1) (List.cons_ne_nil _ _) ho.2 h
  obtain ⟨inner, back, rfl, -⟩ :=
    Text.exists_of_replaceSpans (hfree hc.1) (List.cons_ne_nil _ _) hc.2 hrest
  exact ⟨front, inner, back, rfl⟩

theorem encloses_of_attributePasses (ho : ' ' ∉ opening ∧ opening ≠ [])
    (hc : ' ' ∉ closing ∧ closing ≠ [])
    (h : Encloses opening closing ((denylist.map attributePass).foldl (fun s p => p.run s) s)) :
    Encloses opening closing s := by
  induction denylist generalizing s with
  | nil => exact h
  | cons name denylist ih => exact encloses_of_attributePass ho hc (ih h)

/-- Definitions and clipping paths are taken out from the first opening tag to the last closing tag behind
it. No pass that follows makes a clipping path again. -/
theorem blocks_taken_out :
    definitionsPass.TakesBlock "<defs".toList "</defs>".toList ∧
    clippingPass.TakesBlock "<clipPath".toList "</clipPath>".toList ∧
    ∀ denylist raw,
      ¬ Encloses "<clipPath".toList "</clipPath>".toList (strip denylist raw).toList := by
  have hclipping : clippingPass.TakesBlock "<clipPath".toList "</clipPath>".toList :=
    takesBlock_once
  refine ⟨takesBlock_once, hclipping, fun denylist raw h => ?_⟩
  have hstrip : (strip denylist raw).toList = (passes denylist).foldl (fun s p => p.run s) raw.toList :=
    String.toList_ofList
  rw [hstrip, passes, List.foldl_append] at h
  exact hclipping.gone _ (encloses_of_attributePasses (by decide) (by decide) h)

example : definitionsPass.run "<de<defs>a</defs>fs></svg>".toList = "<defs></svg>".toList := by
  decide

end IconModules.Markup
