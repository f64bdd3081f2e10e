import IconModules.Text.Blank
import Mathlib.Data.List.Basic
import Mathlib.Data.List.TakeWhile

/-! # Trimmed texts

* A text is `Text.Tight` if no white space is at its ends. Trimming a text gives the tight text between two
  stretches of white space (`exists_trimmed`), and there is only one (`trimmed_of_tight`).
* So white space in front of a text and behind it makes no difference to the trimmed text
  (`trimmed_append`). -/

namespace IconModules.Text

variable {s t v w x : List Char} {c : Char}

/-- Nothing but white space. -/
def Blank (s : List Char) : Prop :=
  ∀ c ∈ s, isBlank c = true

instance (s : List Char) : Decidable (Blank s) :=
  List.decidableBAll _ s

/-- No white space at the ends. -/
structure Tight (s : List Char) : Prop where
  first : ∀ c ∈ s.head?, isBlank c = false
  last : ∀ c ∈ s.getLast?, isBlank c = false

theorem tight_of_solid (h : ∀ c ∈ s, isBlank c = false) : Tight s :=
  ⟨fun c hc => h c (List.mem_of_head? hc), fun c hc => h c (List.mem_of_getLast? hc)⟩

/-- The text without leading and trailing blanks. -/
def trimmed (s : List Char) : List Char :=
  dropTrailingBlanks (dropBlanks s)

theorem toList_trim (s : String) : (trim s).toList = trimmed s.toList :=
  String.toList_ofList

theorem Blank.append (hv : Blank v) (hw : Blank w) : Blank (v ++ w) := by
  intro c hc
  exact (List.mem_append.1 hc).elim (hv c) (hw c)

theorem Blank.not_mem (hv : Blank v) (hsolid : ∀ c ∈ x, isBlank c = false) : ∀ c ∈ v, c ∉ x := by
  intro c hc hm
  have hblank := hv c hc
  rw [hsolid c hm] at hblank
  cases hblank

theorem dropBlanks_append (hv : Blank v) (s : List Char) : dropBlanks (v ++ s) = dropBlanks s :=
  List.dropWhile_append_of_pos hv

theorem dropBlanks_of_first (h : ∀ c ∈ s.head?, isBlank c = false) : dropBlanks s = s := by
  cases s with
  | nil => rfl
  | cons c s => rw [dropBlanks, List.dropWhile_cons_of_neg (by simp [h c rfl])]

theorem dropTrailingBlanks_eq (s : List Char) : dropTrailingBlanks s = (dropBlanks s.reverse).reverse :=
  rfl

theorem dropTrailingBlanks_append (hw : Blank w) (s : List Char) :
    dropTrailingBlanks (s ++ w) = dropTrailingBlanks s := by
  rw [dropTrailingBlanks_eq, List.reverse_append,
    dropBlanks_append fun c hc => hw c (List.mem_reverse.1 hc), dropTrailingBlanks_eq]

theorem dropTrailingBlanks_of_last (h : ∀ c ∈ s.getLast?, isBlank c = false) :
    dropTrailingBlanks s = s := by
  rw [dropTrailingBlanks_eq, dropBlanks_of_first (by rwa [List.head?_reverse]), List.reverse_reverse]

/-- The tight text between two stretches of white space is what trimming leaves. -/
theorem trimmed_of_tight (hv : Blank v) (h : Tight s) (hw : Blank w) : trimmed (v ++ (s ++ w)) = s := by
  cases s with
  | nil =>
    have hblank := hv.append hw
    have hnone := dropBlanks_append hblank []
    rw [List.append_nil] at hnone
    rw [List.nil_append, trimmed, hnone]
    rfl
  | cons c s =>
    have hfirst : ∀ d ∈ (c :: s ++ w).head?, isBlank d = false := h.first
    rw [trimmed, dropBlanks_append hv, dropBlanks_of_first hfirst, dropTrailingBlanks_append hw,
      dropTrailingBlanks_of_last h.last]

theorem exists_leading (s : List Char) :
    ∃ v, Blank v ∧ (∀ c ∈ (dropBlanks s).head?, isBlank c = false) ∧ s = v ++ dropBlanks s := by
  refine ⟨s.takeWhile isBlank, fun c hc => List.mem_takeWhile_imp hc, fun c hc => ?_,
    List.takeWhile_append_dropWhile.symm⟩
  have hhead := List.head?_dropWhile_not isBlank s
  rw [← dropBlanks, hc] at hhead
  exact hhead

theorem exists_trailing (s : List Char) :
    ∃ t w, (∀ c ∈ t.getLast?, isBlank c = false) ∧ Blank w ∧ s = t ++ w := by
  obtain ⟨v, hv, hlast, hs⟩ := exists_leading s.reverse
  refine ⟨(dropBlanks s.reverse).reverse, v.reverse, ?_, fun c hc => hv c (List.mem_reverse.1 hc), ?_⟩
  · rwa [List.getLast?_reverse]
  · rw [← List.reverse_append, ← hs, List.reverse_reverse]

theorem exists_tight (s : List Char) :
    ∃ v t w, Blank v ∧ Tight t ∧ Blank w ∧ s = v ++ (t ++ w) := by
  obtain ⟨v, hv, hfirst, hs⟩ := exists_leading s
  obtain ⟨t, w, hlast, hw, ht⟩ := exists_trailing (dropBlanks s)
  refine ⟨v, t, w, hv, ⟨fun c hc => hfirst c ?_, hlast⟩, hw, ht ▸ hs⟩
  obtain ⟨rest, rfl⟩ := List.head?_eq_some_iff.1 hc
  rw [ht]
  rfl

/-- Trimming takes two stretches of white space off. -/
theorem exists_trimmed (s : List Char) :
    ∃ v w, Blank v ∧ Tight (trimmed s) ∧ Blank w ∧ s = v ++ (trimmed s ++ w) := by
  obtain ⟨v, t, w, hv, ht, hw, rfl⟩ := exists_tight s
  rw [trimmed_of_tight hv ht hw]
  exact ⟨v, w, hv, ht, hw, rfl⟩

/-- White space around a text is trimmed off. -/
theorem trimmed_append (hv : Blank v) (hw : Blank w) (s : List Char) :
    trimmed (v ++ (s ++ w)) = trimmed s := by
  obtain ⟨v', t, w', hv', ht, hw', rfl⟩ := exists_tight s
  have hsplit : v ++ ((v' ++ (t ++ w')) ++ w) = (v ++ v') ++ (t ++ (w' ++ w)) := by
    simp only [List.append_assoc]
  rw [hsplit, trimmed_of_tight (hv.append hv') ht (hw'.append hw), trimmed_of_tight hv' ht hw']

/-- A tight text at the front is kept. -/
theorem prefix_trimmed (hx : Tight x) (hne : x ≠ []) (hp : x <+: s) : x <+: trimmed s := by
  obtain ⟨rest, rfl⟩ := hp
  obtain ⟨t, w, hlast, hw, rfl⟩ := exists_trailing rest
  have htight : Tight (x ++ t) := by
    constructor
    · rw [List.head?_append_of_ne_nil x hne]
      exact hx.first
    · cases t with
      | nil =>
        rw [List.append_nil]
        exact hx.last
      | cons c t =>
        rw [List.getLast?_append_of_ne_nil x (List.cons_ne_nil c t)]
        exact hlast
  have htrimmed := @trimmed_of_tight (x ++ t) [] w (by simp [Blank]) htight hw
  rw [List.nil_append, List.append_assoc] at htrimmed
  rw [htrimmed]
  exact List.prefix_append x t

end IconModules.Text
