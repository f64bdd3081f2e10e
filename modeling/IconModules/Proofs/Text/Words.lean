import IconModules.Proofs.Markup.Stretches

/-! # Words in a text

* `Text.FirstAt word front s` and `Text.LastAt word back s` say what stands in front of the first
  occurrence of a word and behind the last one. A word that occurs has a first occurrence
  (`exists_firstAt`).
* `Text.Replaced word put s t` says that `t` is `s` with `put` in the place of the leftmost occurrences
  of the word that do not overlap. That is what replacing the word as a stretch does (`replaced_iff`).
* A word with which what is put in shares no character stands in the result only where it stood before
  (`exists_of_replaceSpans`). -/

namespace IconModules.Text

variable {span : List Char → Option Nat} {put word front back rest a b s t t' : List Char} {c : Char}

/-! ### First and last occurrences -/

/-- The text begins with `front` and the word, which does not begin any earlier. -/
def FirstAt (word front s : List Char) : Prop :=
  front ++ word <+: s ∧ ∀ a, a ++ word <+: s → front.length ≤ a.length

/-- The text ends with the word and `back`; the word does not end any later. -/
def LastAt (word back s : List Char) : Prop :=
  word ++ back <:+ s ∧ ∀ b, word ++ b <:+ s → back.length ≤ b.length

theorem exists_firstAt (h : word <:+: s) : ∃ front, FirstAt word front s := by
  induction s with
  | nil => exact ⟨[], by simpa using h, fun a _ => Nat.zero_le _⟩
  | cons c s ih =>
    by_cases hp : word <+: c :: s
    · exact ⟨[], hp, fun a _ => Nat.zero_le _⟩
    · obtain ⟨front, hfront, hleast⟩ := ih ((List.infix_cons_iff.1 h).resolve_left hp)
      refine ⟨c :: front, List.cons_prefix_cons.2 ⟨rfl, hfront⟩, ?_⟩
      rintro (_ | ⟨x, a⟩) ha
      · exact absurd ha hp
      · exact Nat.succ_le_succ (hleast a (List.cons_prefix_cons.1 ha).2)

/-- What stands in front of the first occurrence is determined. -/
theorem FirstAt.unique (h : FirstAt word front s) (h' : FirstAt word a s) : front = a := by
  have hlength := Nat.le_antisymm (h.2 a h'.1) (h'.2 front h.1)
  have hfront : front <+: s := (List.prefix_append _ _).trans h.1
  have ha : a <+: s := (List.prefix_append _ _).trans h'.1
  rw [List.prefix_iff_eq_take] at hfront ha
  rw [hfront, ha, hlength]

theorem FirstAt.occurs (h : FirstAt word front s) : word <:+: s :=
  (List.suffix_append front word).isInfix.trans h.1.isInfix

/-- The last occurrence in the end of a text is the last one in the text. -/
theorem LastAt.append (h : LastAt word back s) (front : List Char) : LastAt word back (front ++ s) := by
  refine ⟨h.1.trans (List.suffix_append _ _), fun b hb => ?_⟩
  rcases Nat.lt_or_ge b.length back.length with hlt | hge
  · have hlength := h.1.length_le
    rw [List.length_append] at hlength
    refine h.2 b (List.suffix_of_suffix_length_le hb (List.suffix_append _ _) ?_)
    rw [List.length_append]
    omega
  · exact hge

theorem FirstAt.silent (h : FirstAt word front (front ++ (word ++ rest))) :
    Silent (wordSpan word) front (word ++ rest) := by
  rintro t ⟨a, rfl⟩ hne
  rw [wordSpan_eq_none_iff]
  intro hp
  have hle := h.2 a (by rw [List.append_assoc]; exact (List.prefix_append_right_inj a).2 hp)
  rw [List.length_append] at hle
  exact hne (List.length_eq_zero_iff.1 (by omega))

/-- A word begins nowhere in a text exactly if it does not occur in it. -/
theorem silent_wordSpan_iff (hw : word ≠ []) : Silent (wordSpan word) s [] ↔ ¬ word <:+: s := by
  refine ⟨not_infix_of_silent hw, fun h t ht _ => ?_⟩
  rw [List.append_nil, wordSpan_eq_none_iff]
  exact fun hp => h (hp.isInfix.trans ht.isInfix)

/-! ### Replaced words -/

/-- From left to right every occurrence of the word that begins behind the one before is replaced. -/
inductive Replaced (word put : List Char) : List Char → List Char → Prop
  | done {s : List Char} (h : ¬ word <:+: s) : Replaced word put s s
  | more {front rest t : List Char} (h : FirstAt word front (front ++ (word ++ rest)))
      (ht : Replaced word put rest t) :
      Replaced word put (front ++ (word ++ rest)) (front ++ (put ++ t))

theorem Replaced.unique (h : Replaced word put s t) (h' : Replaced word put s t') : t = t' := by
  induction h generalizing t' with
  | done h =>
    cases h' with
    | done => rfl
    | more h' => exact absurd h'.occurs h
  | @more front rest t h ht ih =>
    generalize hs : front ++ (word ++ rest) = s at h h'
    cases h' with
    | done hs' => exact absurd h.occurs hs'
    | more h' ht' =>
      obtain rfl := h.unique h'
      rw [List.append_cancel_left_eq, List.append_cancel_left_eq] at hs
      subst hs
      rw [ih ht']

/-- Replacing the word as a stretch replaces its leftmost occurrences. -/
theorem replaced_replaceSpans (hw : word ≠ []) (put s : List Char) :
    Replaced word put s (replaceSpans (wordSpan word) put 0 s) := by
  induction hlength : s.length using Nat.strongRecOn generalizing s with
  | ind length ih =>
    by_cases hin : word <:+: s
    · obtain ⟨front, hfirst⟩ := exists_firstAt hin
      obtain ⟨rest, hrest⟩ := hfirst.1
      rw [List.append_assoc] at hrest
      subst hrest
      have hword : wordSpan word (word ++ rest) = some word.length := by simp [wordSpan]
      rw [replaceSpans_silent hfirst.silent, replaceSpans_stretch hword hw]
      refine .more hfirst (ih rest.length ?_ rest rfl)
      have hpos := List.length_pos_iff.2 hw
      simp only [List.length_append] at hlength
      omega
    · rw [replaceSpans_of_silent ((silent_wordSpan_iff hw).2 hin)]
      exact .done hin

/-- There is one way to replace a word. -/
theorem replaced_iff (hw : word ≠ []) :
    Replaced word put s t ↔ t = replaceSpans (wordSpan word) put 0 s :=
  ⟨fun h => h.unique (replaced_replaceSpans hw put s), fun h => h ▸ replaced_replaceSpans hw put s⟩

/-! ### Words that are not made -/

section

variable (hfree : ∀ c ∈ put, c ∉ word)
include hfree

/-- A word that shares no character with what stands in front of `s` stands in `s`. -/
theorem exists_of_append_eq (hw : word ≠ []) (h : put ++ s = a ++ (word ++ b)) :
    ∃ a', s = a' ++ (word ++ b) := by
  rcases List.append_eq_append_iff.1 h with ⟨a', -, hs⟩ | ⟨m, rfl, hm⟩
  · exact ⟨a', hs⟩
  · cases m with
    | nil => exact ⟨[], hm.symm⟩
    | cons x m =>
      obtain ⟨y, word, rfl⟩ := List.exists_cons_of_ne_nil hw
      obtain ⟨rfl, -⟩ := List.cons.inj hm
      exact absurd List.mem_cons_self (hfree y (by simp))

variable (hput : put ≠ [])
include hput

/-- A word at the front of the result was at the front of the text. -/
theorem prefix_of_replaceSpans {s : List Char} (h : replaceSpans span put 0 s = word ++ b) :
    ∃ b', s = word ++ b' ∧ replaceSpans span put 0 b' = b := by
  induction word generalizing s with
  | nil => exact ⟨s, rfl, h⟩
  | cons x word ih =>
    cases s with
    | nil => simp at h
    | cons c s =>
      rw [replaceSpans] at h
      split at h
      · -- what is put in does not begin with a character of the word
        obtain ⟨y, put, rfl⟩ := List.exists_cons_of_ne_nil hput
        obtain ⟨rfl, -⟩ := List.cons.inj h
        exact absurd List.mem_cons_self (hfree y List.mem_cons_self)
      · obtain ⟨rfl, hrest⟩ := List.cons.inj h
        obtain ⟨b', rfl, hb⟩ := ih (fun d hd hm => hfree d hd (List.mem_cons_of_mem _ hm)) hrest
        exact ⟨b', rfl, hb⟩

/-- An occurrence of the word in the result comes from one in the text, and what follows it is what the
rest of the text becomes. -/
theorem exists_of_replaceSpans (hw : word ≠ []) {s : List Char}
    (h : replaceSpans span put 0 s = a ++ (word ++ b)) :
    ∃ a' b', s = a' ++ (word ++ b') ∧ replaceSpans span put 0 b' = b := by
  induction hlength : s.length using Nat.strongRecOn generalizing s a with
  | ind length ih =>
    cases s with
    | nil => simp [hw] at h
    | cons c s =>
      rw [List.length_cons] at hlength
      have hcons := h
      rw [replaceSpans] at h
      split at h
      · rename_i n _
        rw [replaceSpans_drop] at h
        obtain ⟨a', ha⟩ := exists_of_append_eq hfree hw h
        obtain ⟨a'', b', hs, hb⟩ := ih (s.drop n).length (by rw [List.length_drop]; omega) ha rfl
        refine ⟨c :: s.take n ++ a'', b', ?_, hb⟩
        rw [List.append_assoc, ← hs, List.cons_append, List.take_append_drop]
      · cases a with
        | nil =>
          obtain ⟨b', hs, hb⟩ := prefix_of_replaceSpans hfree hput hcons
          exact ⟨[], b', hs, hb⟩
        | cons x a =>
          obtain ⟨-, hrest⟩ := List.cons.inj h
          obtain ⟨a', b', rfl, hb⟩ := ih s.length (by omega) hrest rfl
          exact ⟨c :: a', b', rfl, hb⟩

/-- A word does not come into a text by what is put in if that shares no character with it. -/
theorem infix_of_replaceSpans (hw : word ≠ []) {s : List Char}
    (h : word <:+: replaceSpans span put 0 s) : word <:+: s := by
  obtain ⟨a, b, h⟩ := h
  rw [List.append_assoc] at h
  obtain ⟨a', b', rfl, -⟩ := exists_of_replaceSpans hfree hput hw h.symm
  exact ⟨a', b', List.append_assoc ..⟩

end

end IconModules.Text
