import IconModules.Proofs.Text.Words
import Mathlib.Data.List.Infix

/-! # Words that are respelled

Several words are replaced one after the other, each in what the one before has left. It does not matter in
which order if the words overlap in one letter at most, the last one, and that is the last letter of the
new spelling too.

* `Text.respelled word put s` is the text with `put` in the place of the word. `Respells word put` says that
  the two end in the same letter, with which the word does not begin.
* `Unmade word put x` says that `x` does not come into a text by this (`Unmade.occurs`). The word itself is
  then gone.
* `Spares word put x` says in addition that the word is not cut into where `x` is replaced. Two words that
  spare each other are replaced in any order (`respelled_comm`).

These conditions are about the letters of the words alone, so they can be decided. -/

namespace IconModules.Text

variable {word put word' put' front x s t u v : List Char} {c z : Char}

/-! ### Replacing a word -/

/-- The text with `put` in the place of every occurrence of the word. -/
def respelled (word put s : List Char) : List Char :=
  replaceSpans (wordSpan word) put 0 s

@[simp] theorem respelled_nil (word put : List Char) : respelled word put [] = [] :=
  replaceSpans_nil _ _ _

theorem respelled_append (h : Silent (wordSpan word) front s) :
    respelled word put (front ++ s) = front ++ respelled word put s :=
  replaceSpans_silent h

theorem respelled_cons (h : ¬ word <+: c :: s) :
    respelled word put (c :: s) = c :: respelled word put s := by
  have hsilent : Silent (wordSpan word) [c] s :=
    silent_cons_iff.2 ⟨wordSpan_eq_none_iff.2 h, silent_nil⟩
  exact respelled_append hsilent

theorem respelled_word (hw : word ≠ []) (put s : List Char) :
    respelled word put (word ++ s) = put ++ respelled word put s := by
  have hspan : wordSpan word (word ++ s) = some word.length := by simp [wordSpan]
  exact replaceSpans_stretch hspan hw

/-- A word that begins nowhere in the front of a text occurs in the rest of it. -/
theorem Silent.infix_right (h : Silent (wordSpan x) front s) (hx : x <:+: front ++ s) : x <:+: s := by
  induction front with
  | nil => exact hx
  | cons c front ih =>
    obtain ⟨hc, hfront⟩ := silent_cons_iff.1 h
    rcases List.infix_cons_iff.1 hx with hp | hx
    · exact absurd hp (wordSpan_eq_none_iff.1 hc)
    · exact ih hfront hx

/-! ### Words that do not overlap -/

/-- Neither text begins with the other. -/
def Clash (u v : List Char) : Prop :=
  ¬ u <+: v ∧ ¬ v <+: u

instance (u v : List Char) : Decidable (Clash u v) :=
  inferInstanceAs (Decidable (_ ∧ _))

theorem Clash.not_starts (h : Clash u v) (s : List Char) : ¬ u <+: v ++ s := fun hu =>
  (List.prefix_or_prefix_of_prefix hu (List.prefix_append v s)).elim h.1 h.2

/-- A text that begins nowhere in a word but perhaps at its last letter. -/
theorem silent_of_clash (h : ∀ u, u <:+ front ++ [z] → 2 ≤ u.length → Clash x u) (s : List Char) :
    Silent (wordSpan x) front (z :: s) := by
  rintro u ⟨a, rfl⟩ hne
  have hlong : 2 ≤ (u ++ [z]).length := by
    have hpos := List.length_pos_iff.2 hne
    rw [List.length_append, List.length_singleton]
    omega
  have hclash := h (u ++ [z]) ⟨a, (List.append_assoc ..).symm⟩ hlong
  rw [wordSpan_eq_none_iff, List.append_cons]
  exact hclash.not_starts s

/-- Replacing the word at the front of a text makes no difference to whether the text begins with `v`. -/
def Agrees (word put v : List Char) : Prop :=
  Clash v word ∧ Clash v put ∨ v <+: word ∧ v <+: put

instance (word put v : List Char) : Decidable (Agrees word put v) :=
  inferInstanceAs (Decidable (_ ∨ _))

theorem Agrees.prefix_iff (h : Agrees word put v) (s t : List Char) :
    v <+: put ++ s ↔ v <+: word ++ t := by
  rcases h with ⟨hword, hput⟩ | ⟨hword, hput⟩
  · exact iff_of_false (hput.not_starts s) (hword.not_starts t)
  · exact iff_of_true (hput.trans (List.prefix_append _ _)) (hword.trans (List.prefix_append _ _))

/-! ### Conditions on spellings -/

/-- A word and its new spelling end in the same letter. The word does not begin with it. -/
structure Respells (word put : List Char) : Prop where
  word_long : 2 ≤ word.length
  put_long : 2 ≤ put.length
  last : put.getLast? = word.getLast?
  first : word.head? ≠ word.getLast?

/-- Replacing the word makes no `x`: what `x` ends in stands at the front of a text before as after, and in
the new spelling `x` cannot begin but at the last letter. -/
structure Unmade (word put x : List Char) : Prop where
  ends : ∀ v, v <:+ x.tail → v ≠ [] → Agrees word put v
  inside : ∀ u, u <:+ put → 2 ≤ u.length → Clash x u

/-- Moreover `x` cannot begin in the word but at the last letter. -/
structure Spares (word put x : List Char) : Prop extends Unmade word put x where
  outside : ∀ u, u <:+ word → 2 ≤ u.length → Clash x u

instance (word put : List Char) : Decidable (Respells word put) :=
  decidable_of_iff (2 ≤ word.length ∧ 2 ≤ put.length ∧ put.getLast? = word.getLast? ∧
      word.head? ≠ word.getLast?)
    ⟨fun ⟨h1, h2, h3, h4⟩ => ⟨h1, h2, h3, h4⟩, fun ⟨h1, h2, h3, h4⟩ => ⟨h1, h2, h3, h4⟩⟩

instance (word put x : List Char) : Decidable (Unmade word put x) :=
  decidable_of_iff ((∀ v ∈ x.tail.tails, v ≠ [] → Agrees word put v) ∧
      ∀ u ∈ put.tails, 2 ≤ u.length → Clash x u)
    ⟨fun ⟨h1, h2⟩ => ⟨fun v hv => h1 v ((List.mem_tails _ _).2 hv),
        fun u hu => h2 u ((List.mem_tails _ _).2 hu)⟩,
      fun ⟨h1, h2⟩ => ⟨fun v hv => h1 v ((List.mem_tails _ _).1 hv),
        fun u hu => h2 u ((List.mem_tails _ _).1 hu)⟩⟩

instance (word put x : List Char) : Decidable (Spares word put x) :=
  decidable_of_iff (Unmade word put x ∧ ∀ u ∈ word.tails, 2 ≤ u.length → Clash x u)
    ⟨fun ⟨h1, h2⟩ => ⟨h1, fun u hu => h2 u ((List.mem_tails _ _).2 hu)⟩,
      fun ⟨h1, h2⟩ => ⟨h1, fun u hu => h2 u ((List.mem_tails _ _).1 hu)⟩⟩

theorem Respells.word_ne_nil (h : Respells word put) : word ≠ [] :=
  List.length_pos_iff.1 (Nat.lt_of_lt_of_le Nat.zero_lt_two h.word_long)

/-- The last letter stays. The word does not begin there. -/
theorem Respells.exists_last (h : Respells word put) :
    ∃ front back z, word = front ++ [z] ∧ put = back ++ [z] ∧ [z] <:+ word.tail ∧
      ∀ s, respelled word put (z :: s) = z :: respelled word put s := by
  have hput : put ≠ [] := List.length_pos_iff.1 (Nat.lt_of_lt_of_le Nat.zero_lt_two h.put_long)
  obtain ⟨front, z, rfl⟩ := (List.eq_nil_or_concat' word).resolve_left h.word_ne_nil
  obtain ⟨back, y, rfl⟩ := (List.eq_nil_or_concat' put).resolve_left hput
  have hlast := h.last
  rw [List.getLast?_concat, List.getLast?_concat] at hlast
  obtain rfl := Option.some.inj hlast
  cases front with
  | nil => exact absurd h.word_long (by simp)
  | cons x front =>
    refine ⟨x :: front, back, y, rfl, rfl, List.suffix_append front [y], fun s => ?_⟩
    refine respelled_cons fun hp => h.first ?_
    rw [List.getLast?_concat, ← (List.cons_prefix_cons.1 hp).1]
    rfl

/-! ### Nothing is made -/

section

variable (hr : Respells word put)
include hr

/-- If all that a text ends in stands at the front of another as before, so does the text. -/
theorem prefix_respelled_iff (h : ∀ v, v <:+ x → v ≠ [] → Agrees word put v) (s : List Char) :
    x <+: respelled word put s ↔ x <+: s := by
  induction x generalizing s with
  | nil => simp
  | cons d x ih =>
    cases s with
    | nil => rw [respelled_nil]
    | cons c s =>
      by_cases hp : word <+: c :: s
      · obtain ⟨t, ht⟩ := hp
        rw [← ht, respelled_word hr.word_ne_nil]
        exact (h (d :: x) List.suffix_rfl (List.cons_ne_nil d x)).prefix_iff _ _
      · have htail : ∀ v, v <:+ x → v ≠ [] → Agrees word put v := fun v hv =>
          h v (hv.trans (List.suffix_cons d x))
        rw [respelled_cons hp, List.cons_prefix_cons, List.cons_prefix_cons, ih htail]

theorem Unmade.starts (h : Unmade word put x) (hx : x ≠ []) (hp : x <+: respelled word put s) :
    x <+: s ∧ ¬ word <+: s := by
  obtain ⟨d, x, rfl⟩ := List.exists_cons_of_ne_nil hx
  cases s with
  | nil => simp at hp
  | cons c s =>
    by_cases hword : word <+: c :: s
    · obtain ⟨t, ht⟩ := hword
      rw [← ht, respelled_word hr.word_ne_nil] at hp
      exact absurd hp ((h.inside put List.suffix_rfl hr.put_long).not_starts _)
    · rw [respelled_cons hword, List.cons_prefix_cons] at hp
      have hrest := (prefix_respelled_iff hr h.ends s).1 hp.2
      exact ⟨List.cons_prefix_cons.2 ⟨hp.1, hrest⟩, hword⟩

/-- An occurrence in the result is one in the text, and not where the word stands. -/
theorem Unmade.occurs (h : Unmade word put x) (hx : x ≠ []) (hin : x <:+: respelled word put s) :
    ∃ t, t <:+ s ∧ x <+: t ∧ ¬ word <+: t := by
  obtain ⟨front, back, z, hword, hput, -, hlast⟩ := hr.exists_last
  induction hn : s.length using Nat.strongRecOn generalizing s with
  | ind n ih =>
    cases s with
    | nil => exact absurd (List.infix_nil.1 (respelled_nil word put ▸ hin)) hx
    | cons c s =>
      by_cases hp : word <+: c :: s
      · obtain ⟨t, ht⟩ := hp
        -- the last letter may begin an occurrence, so it is counted to the rest
        have hsplit : respelled word put (c :: s) = back ++ z :: respelled word put t := by
          rw [← ht, respelled_word hr.word_ne_nil, hput, List.append_assoc]
          rfl
        have hsuffix : z :: t <:+ c :: s := ⟨front, by rw [← ht, hword, List.append_assoc]; rfl⟩
        have hshort : (z :: t).length < n := by
          have hlong := hr.word_long
          rw [← hn, ← ht, List.length_append, List.length_cons]
          omega
        have hback := silent_of_clash (hput ▸ h.inside) (respelled word put t)
        rw [hsplit] at hin
        have hrest := hback.infix_right hin
        rw [← hlast] at hrest
        obtain ⟨u, hu, hxu, hnot⟩ := ih _ hshort hrest rfl
        exact ⟨u, hu.trans hsuffix, hxu, hnot⟩
      · have hcons := hin
        rw [respelled_cons hp] at hin
        rcases List.infix_cons_iff.1 hin with hfront | hrest
        · rw [← respelled_cons hp] at hfront
          obtain ⟨hxs, hnot⟩ := h.starts hr hx hfront
          exact ⟨c :: s, List.suffix_rfl, hxs, hnot⟩
        · obtain ⟨u, hu, hxu, hnot⟩ := ih s.length (by simp [← hn]) hrest rfl
          exact ⟨u, hu.trans (List.suffix_cons c s), hxu, hnot⟩

theorem Unmade.infix_of_respelled (h : Unmade word put x) (hx : x ≠ [])
    (hin : x <:+: respelled word put s) : x <:+: s := by
  obtain ⟨t, ht, hp, -⟩ := h.occurs hr hx hin
  exact hp.isInfix.trans ht.isInfix

/-- No occurrence of the word is left. -/
theorem Unmade.gone (h : Unmade word put word) (s : List Char) :
    ¬ word <:+: respelled word put s := by
  intro hin
  obtain ⟨t, -, hp, hnot⟩ := h.occurs hr hr.word_ne_nil hin
  exact hnot hp

/-! ### The order of two words -/

/-- At the front of a text both words are replaced at once up to the last letter, in either order. -/
theorem Spares.respelled_front (h : Spares word put word') (h' : Unmade word' put' word)
    (hr' : Respells word' put') :
    ∃ back z, ∀ t,
      respelled word put (respelled word' put' (word ++ t)) =
        back ++ respelled word put (respelled word' put' (z :: t)) ∧
      respelled word' put' (respelled word put (word ++ t)) =
        back ++ respelled word' put' (respelled word put (z :: t)) := by
  obtain ⟨front, back, z, hword, hput, hz, hlast⟩ := hr.exists_last
  -- the other word is not replaced before the last letter, which stays
  have hfront : ∀ t, respelled word' put' (word ++ t) = front ++ respelled word' put' (z :: t) := by
    intro t
    rw [hword, List.append_assoc]
    exact respelled_append (silent_of_clash (hword ▸ h.outside) t)
  have hback : ∀ t, respelled word' put' (put ++ t) = back ++ respelled word' put' (z :: t) := by
    intro t
    rw [hput, List.append_assoc]
    exact respelled_append (silent_of_clash (hput ▸ h.inside) t)
  have hstays : ∀ t, ∃ q, respelled word' put' (z :: t) = z :: q := by
    intro t
    obtain ⟨q, hq⟩ := (prefix_respelled_iff hr' (fun v hv => h'.ends v (hv.trans hz)) (z :: t)).2
      (List.prefix_append [z] t)
    exact ⟨q, hq.symm⟩
  refine ⟨back, z, fun t => ⟨?_, ?_⟩⟩
  · obtain ⟨q, hq⟩ := hstays t
    have hjoin : front ++ z :: q = word ++ q := by rw [hword, List.append_assoc]; rfl
    rw [hfront, hq, hjoin, respelled_word hr.word_ne_nil, hlast, hput, List.append_assoc]
    rfl
  · rw [respelled_word hr.word_ne_nil, hback, hlast]

end

/-- Two words that spare each other are replaced in any order. -/
theorem respelled_comm (hr : Respells word put) (hr' : Respells word' put')
    (h : Spares word put word') (h' : Spares word' put' word) (s : List Char) :
    respelled word put (respelled word' put' s) = respelled word' put' (respelled word put s) := by
  obtain ⟨back, z, hfirst⟩ := h.respelled_front hr h'.toUnmade hr'
  obtain ⟨back', z', hfirst'⟩ := h'.respelled_front hr' h.toUnmade hr
  have hlong := hr.word_long
  have hlong' := hr'.word_long
  -- a word at the front is replaced up to its last letter, with which the other word may begin
  induction hn : s.length using Nat.strongRecOn generalizing s with
  | ind n ih =>
    cases s with
    | nil => simp only [respelled_nil]
    | cons c s =>
      by_cases hp : word <+: c :: s
      · obtain ⟨t, ht⟩ := hp
        have hlength := congrArg List.length ht
        rw [List.length_append, hn] at hlength
        rw [← ht, (hfirst t).1, (hfirst t).2, ih _ (by rw [List.length_cons]; omega) (z :: t) rfl]
      · by_cases hp' : word' <+: c :: s
        · obtain ⟨t, ht⟩ := hp'
          have hlength := congrArg List.length ht
          rw [List.length_append, hn] at hlength
          rw [← ht, (hfirst' t).1, (hfirst' t).2, ih _ (by rw [List.length_cons]; omega) (z' :: t) rfl]
        · have hq : ¬ word <+: c :: respelled word' put' s := by
            rw [← respelled_cons hp']
            exact fun hq => hp (h'.starts hr' hr.word_ne_nil hq).1
          have hq' : ¬ word' <+: c :: respelled word put s := by
            rw [← respelled_cons hp]
            exact fun hq => hp' (h.starts hr hr'.word_ne_nil hq).1
          rw [respelled_cons hp, respelled_cons hp', respelled_cons hq, respelled_cons hq',
            ih s.length (by simp [← hn]) s rfl]

end IconModules.Text
