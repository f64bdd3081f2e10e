import IconModules.Text.LetterCase

/-! # Characters that changing the case does not make

A character that no entry of the tables leads to is `Caseless`, as line breaks and braces are. It stands in a
text in small letters, or in the capital form of a character, only if it stood there before
(`not_mem_lowerCase`, `not_mem_upperChar`). -/

namespace IconModules.Text

variable {c x : Char} {runs : List (Nat × Nat × Nat × Nat)} {before cs : List Char} {n : Nat} {s : String}

/-- No member of a run becomes the character. -/
def Avoids (runs : List (Nat × Nat × Nat × Nat)) (x : Char) : Prop :=
  ∀ r ∈ runs, r.2.2.2 + (r.2.1 - r.1) < x.toNat ∨ x.toNat < r.2.2.2

/-- No other character becomes this one when the case is changed. -/
structure Caseless (x : Char) : Prop where
  /-- A number that is no character counts as this one. -/
  notNull : x ≠ '\x00'
  /-- These are the small letters that are not in the table. -/
  notSpecial : x ∉ ['i', '\u0307', 'ς', 'σ']
  lower : Avoids lowerRuns x
  upper : Avoids upperRuns x
  longUpper : ∀ entry ∈ longUppers, x.toNat ∉ entry.2

instance (runs : List (Nat × Nat × Nat × Nat)) (x : Char) : Decidable (Avoids runs x) :=
  List.decidableBAll _ runs

instance (x : Char) : Decidable (Caseless x) :=
  have : Decidable (∀ entry ∈ longUppers, x.toNat ∉ entry.2) := List.decidableBAll _ longUppers
  decidable_of_iff (x ≠ '\x00' ∧ x ∉ ['i', '\u0307', 'ς', 'σ'] ∧ Avoids lowerRuns x ∧ Avoids upperRuns x ∧
      ∀ entry ∈ longUppers, x.toNat ∉ entry.2)
    ⟨fun ⟨h₁, h₂, h₃, h₄, h₅⟩ => ⟨h₁, h₂, h₃, h₄, h₅⟩,
      fun ⟨h₁, h₂, h₃, h₄, h₅⟩ => ⟨h₁, h₂, h₃, h₄, h₅⟩⟩

theorem caseless_lineBreak : Caseless '\n' := by
  decide +kernel

theorem caseless_openingBrace : Caseless '\x7b' := by
  decide +kernel

theorem caseless_closingBrace : Caseless '\x7d' := by
  decide +kernel

/-! ### Characters -/

theorem ofNat_ne (hx : x ≠ '\x00') (hn : n ≠ x.toNat) : Char.ofNat n ≠ x := by
  by_cases hvalid : n.isValidChar
  · rw [Char.ofNat, dif_pos hvalid]
    exact fun he => hn (congrArg Char.toNat he)
  · rw [Char.ofNat, dif_neg hvalid]
    exact hx.symm

theorem Avoids.mapByRuns_ne (h : Avoids runs x) (hx : x ≠ '\x00') (hc : c ≠ x) :
    mapByRuns runs c ≠ x := by
  unfold mapByRuns
  split
  · rename_i r hr
    have hrange := List.find?_some hr
    have hr := h r (List.mem_of_find?_eq_some hr)
    simp only [Bool.and_eq_true, decide_eq_true_eq] at hrange
    exact ofNat_ne hx (by omega)
  · exact hc

theorem Caseless.not_mem_lowerChar (h : Caseless x) (hc : c ≠ x) : x ∉ lowerChar c := by
  unfold lowerChar
  split
  · exact fun hm => h.notSpecial (List.mem_append_left ['ς', 'σ'] hm)
  · rw [List.mem_singleton]
    exact (h.lower.mapByRuns_ne h.notNull hc).symm

theorem Caseless.not_mem_upperChar (h : Caseless x) (hc : c ≠ x) : x ∉ upperChar c := by
  unfold upperChar
  split
  · rename_i ns hns
    obtain ⟨l₁, l₂, hl, -⟩ := List.lookup_eq_some_iff.1 hns
    have hmem : (c.toNat, ns) ∈ longUppers := by simp [hl]
    intro hm
    obtain ⟨n, hn, he⟩ := List.mem_map.1 hm
    exact ofNat_ne h.notNull (ne_of_mem_of_not_mem hn (h.longUpper _ hmem)) he
  · rw [List.mem_singleton]
    exact (h.upper.mapByRuns_ne h.notNull hc).symm

/-! ### Texts -/

theorem Caseless.not_mem_lowerFrom (h : Caseless x) (hcs : x ∉ cs) : x ∉ lowerFrom before cs := by
  induction cs generalizing before with
  | nil => exact List.not_mem_nil
  | cons c cs ih =>
    rw [List.mem_cons, not_or] at hcs
    unfold lowerFrom
    rw [List.mem_append, not_or]
    refine ⟨?_, ih hcs.2⟩
    split
    · rw [List.mem_singleton]
      split
      · exact fun he => h.notSpecial (by simp [he])
      · exact fun he => h.notSpecial (by simp [he])
    · exact h.not_mem_lowerChar (Ne.symm hcs.1)

theorem Caseless.not_mem_lowerCase (h : Caseless x) (hs : x ∉ s.toList) : x ∉ (lowerCase s).toList := by
  rw [lowerCase, String.toList_ofList]
  exact h.not_mem_lowerFrom hs

end IconModules.Text
