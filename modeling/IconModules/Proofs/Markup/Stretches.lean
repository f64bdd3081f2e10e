import IconModules.Markup.Volatile

/-! # Where stretches begin

What replacing the stretches of one kind does to a text is read off from where stretches begin.

* `Text.Silent span u v` says that none begins in `u` when `v` follows. Replacing leaves `u` as it is
  then (`replaceSpans_silent`).
* A stretch at the front is replaced as a whole (`replaceSpans_stretch`).
* `Text.Shrinks span put` says that what is put in is shorter than any stretch. Replacing makes a text
  shorter then, if a stretch begins in it (`length_replaceSpans_lt`). -/

namespace IconModules

namespace Text

variable {span span' : List Char → Option Nat} {put s u v w word : List Char} {c : Char} {n : Nat}

/-! ### Silence -/

/-- No stretch begins in `u` when `v` follows it. -/
def Silent (span : List Char → Option Nat) (u v : List Char) : Prop :=
  ∀ t, t <:+ u → t ≠ [] → span (t ++ v) = none

@[simp] theorem silent_nil : Silent span [] v := by
  intro t ht hne
  exact absurd (List.suffix_nil.1 ht) hne

@[simp] theorem silent_cons_iff :
    Silent span (c :: u) v ↔ span (c :: (u ++ v)) = none ∧ Silent span u v := by
  constructor
  · intro h
    exact ⟨h (c :: u) List.suffix_rfl (List.cons_ne_nil c u),
      fun t ht => h t (ht.trans (List.suffix_cons c u))⟩
  · rintro ⟨hc, hu⟩ t ht hne
    rcases List.suffix_cons_iff.1 ht with rfl | ht
    · exact hc
    · exact hu t ht hne

theorem silent_append_iff :
    Silent span (u ++ w) v ↔ Silent span u (w ++ v) ∧ Silent span w v := by
  induction u with
  | nil => simp
  | cons c u ih => simp [ih, and_assoc]

theorem Silent.mono (h : Silent span u v) (hspan : ∀ t, span t = none → span' t = none) :
    Silent span' u v :=
  fun t ht hne => hspan _ (h t ht hne)

/-- If every stretch begins with one character, none begins where it does not occur. -/
theorem silent_of_not_mem (hspan : ∀ t, span t ≠ none → t.head? = some c) (hc : c ∉ u) :
    Silent span u v := by
  rintro t ht hne
  obtain ⟨x, t, rfl⟩ := List.exists_cons_of_ne_nil hne
  apply Classical.byContradiction
  intro hsome
  obtain rfl : x = c := by simpa using hspan _ hsome
  exact hc (ht.subset List.mem_cons_self)

/-! ### Words -/

/-- What stands in front of the first `x` is determined. -/
theorem eq_of_append_cons {x : Char} {a b s t : List Char} (ha : x ∉ a) (hb : x ∉ b)
    (h : a ++ x :: s = b ++ x :: t) : a = b ∧ s = t := by
  induction a generalizing b with
  | nil =>
    cases b with
    | nil => exact ⟨rfl, (List.cons.inj h).2⟩
    | cons y b =>
      obtain ⟨rfl, -⟩ := List.cons.inj h
      exact absurd List.mem_cons_self hb
  | cons y a ih =>
    cases b with
    | nil =>
      obtain ⟨rfl, -⟩ := List.cons.inj h
      exact absurd List.mem_cons_self ha
    | cons z b =>
      rw [List.cons_append, List.cons_append, List.cons.injEq] at h
      rw [List.mem_cons, not_or] at ha hb
      obtain ⟨rfl, h⟩ := h
      obtain ⟨rfl, rfl⟩ := ih ha.2 hb.2 h
      exact ⟨rfl, rfl⟩

theorem head?_of_wordSpan (h : wordSpan (c :: word) s ≠ none) : s.head? = some c := by
  unfold wordSpan at h
  split at h
  · rename_i hp
    obtain ⟨rest, rfl⟩ := List.isPrefixOf_iff_prefix.1 hp
    rfl
  · exact absurd rfl h

theorem wordSpan_eq_none_iff : wordSpan word s = none ↔ ¬ word <+: s := by
  rw [← List.isPrefixOf_iff_prefix]
  unfold wordSpan
  split <;> simp_all

/-- A word that begins nowhere in a text does not occur in it. -/
theorem not_infix_of_silent (hw : word ≠ []) (h : Silent (wordSpan word) s []) : ¬ word <:+: s := by
  rintro ⟨front, rest, rfl⟩
  have hnone := h (word ++ rest) ⟨front, by simp⟩ (by simp [hw])
  simp [wordSpan] at hnone

/-! ### Replacing -/

/-- Where no stretch begins, nothing is replaced. -/
theorem replaceSpans_silent (h : Silent span u v) :
    replaceSpans span put 0 (u ++ v) = u ++ replaceSpans span put 0 v := by
  induction u with
  | nil => rfl
  | cons c u ih =>
    obtain ⟨hc, hu⟩ := silent_cons_iff.1 h
    rw [List.cons_append, replaceSpans, hc]
    exact congrArg (c :: ·) (ih hu)

theorem replaceSpans_of_silent (h : Silent span s []) : replaceSpans span put 0 s = s := by
  simpa using replaceSpans_silent h

/-- A stretch at the front is replaced. -/
theorem replaceSpans_stretch (h : span (u ++ v) = some u.length) (hu : u ≠ []) :
    replaceSpans span put 0 (u ++ v) = put ++ replaceSpans span put 0 v := by
  obtain ⟨c, u, rfl⟩ := List.exists_cons_of_ne_nil hu
  rw [List.cons_append, List.length_cons] at h
  rw [List.cons_append, replaceSpans, h]
  dsimp only
  rw [replaceSpans_drop, List.drop_left]

/-! ### Lengths -/

/-- Every stretch lies in its text, and what is put in its place is shorter. -/
def Shrinks (span : List Char → Option Nat) (put : List Char) : Prop :=
  ∀ s n, span s = some n → put.length < n ∧ n ≤ s.length

theorem Shrinks.nil (h : Shrinks span put) : span [] = none := by
  cases hn : span [] with
  | none => rfl
  | some n =>
    obtain ⟨hput, hle⟩ := h [] n hn
    exact absurd hput (Nat.not_lt_of_le (Nat.le_trans hle (Nat.zero_le _)))

theorem length_replaceSpans_le (h : Shrinks span put) (n : Nat) (s : List Char) :
    (replaceSpans span put n s).length ≤ s.length - n := by
  induction s generalizing n with
  | nil => simp
  | cons c cs ih =>
    cases n with
    | succ n =>
      rw [replaceSpans, List.length_cons, Nat.add_sub_add_right]
      exact ih n
    | zero =>
      rw [replaceSpans]
      split
      · rename_i n hn
        obtain ⟨hput, hlen⟩ := h _ _ hn
        have hrest := ih n
        rw [List.length_cons] at hlen ⊢
        rw [List.length_append]
        omega
      · have hrest := ih 0
        rw [List.length_cons, List.length_cons]
        omega

/-- A text in which a stretch begins becomes shorter. -/
theorem length_replaceSpans_lt (h : Shrinks span put) (hs : ¬ Silent span s []) :
    (replaceSpans span put 0 s).length < s.length := by
  induction s with
  | nil => exact absurd silent_nil hs
  | cons c cs ih =>
    rw [replaceSpans]
    split
    · rename_i n hn
      obtain ⟨hput, hlen⟩ := h _ _ hn
      have hrest := length_replaceSpans_le h n cs
      rw [List.length_cons] at hlen ⊢
      rw [List.length_append]
      omega
    · rename_i hno
      have hnone : span (c :: cs) = none := by
        rcases hn : span (c :: cs) with _ | ⟨_ | n⟩
        · rfl
        · exact absurd (h _ _ hn).1 (Nat.not_lt_zero _)
        · exact absurd hn (hno n)
      refine Nat.succ_lt_succ (ih fun hcs => hs (silent_cons_iff.2 ⟨?_, hcs⟩))
      rwa [List.append_nil]

end Text

namespace Markup

variable {opening closing name s : List Char} {n : Nat} {stop c : Char}

/-! ### Lengths of volatile markup -/

theorem lengthTo_lt (h : lengthTo stop s = some n) : n < s.length :=
  (List.findIdx?_eq_some_iff_getElem.1 h).1

/-- What a tag line takes up: its opening, at least one character, the `>` and the line break. -/
theorem tagLine_le (h : tagLine opening s = some n) : opening.length < n ∧ n ≤ s.length := by
  unfold tagLine at h
  split at h
  · split at h
    · split at h
      · rename_i m _ _ rest hrest
        obtain rfl : opening.length + (m + 3) = n := by simpa using h
        have hlen := congrArg List.length hrest
        rw [List.length_drop, List.length_cons] at hlen
        omega
      · cases h
    · cases h
  · cases h

theorem lastEnd_le (h : lastEnd closing s = some n) : n ≤ s.length := by
  induction s generalizing n with
  | nil => cases h
  | cons c cs ih =>
    unfold lastEnd at h
    split at h
    · rename_i m hm
      obtain rfl : m + 1 = n := by simpa using h
      exact Nat.succ_le_succ (ih hm)
    · split at h
      · rename_i hp
        obtain rfl : closing.length = n := by simpa using h
        exact (List.isPrefixOf_iff_prefix.1 hp).length_le
      · cases h

theorem block_le (h : block opening closing s = some n) : opening.length ≤ n ∧ n ≤ s.length := by
  unfold block at h
  split at h
  · rename_i hp
    obtain ⟨m, hm, rfl⟩ := Option.map_eq_some_iff.1 h
    have hlen := lastEnd_le hm
    have hfront := (List.isPrefixOf_iff_prefix.1 hp).length_le
    rw [List.length_drop] at hlen
    omega
  · cases h

/-- What an attribute takes up: a space, its name, an equals sign and two quotes at least. -/
theorem valueOf_le (h : valueOf name s = some n) : name.length + 4 ≤ n ∧ n ≤ s.length := by
  unfold valueOf at h
  dsimp only at h
  split at h
  · obtain ⟨m, hm, rfl⟩ := Option.map_eq_some_iff.1 h
    have hlen := lengthTo_lt hm
    rw [List.length_drop] at hlen
    simp only [List.length_cons, List.length_append, List.length_nil] at hlen ⊢
    omega
  · cases h

theorem shrinks_tagLine : Text.Shrinks (tagLine (c :: opening)) [] := by
  intro s n h
  obtain ⟨hlow, hhigh⟩ := tagLine_le h
  exact ⟨Nat.zero_lt_of_lt hlow, hhigh⟩

theorem shrinks_block : Text.Shrinks (block (c :: opening) closing) [] := by
  intro s n h
  obtain ⟨hlow, hhigh⟩ := block_le h
  rw [List.length_cons] at hlow
  exact ⟨by simp; omega, hhigh⟩

theorem shrinks_valueOf : Text.Shrinks (valueOf name) [' '] := by
  intro s n h
  obtain ⟨hlow, hhigh⟩ := valueOf_le h
  exact ⟨by simp; omega, hhigh⟩

end Markup
end IconModules
