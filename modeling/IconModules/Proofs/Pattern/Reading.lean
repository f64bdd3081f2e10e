import IconModules.Pattern.Reader
import IconModules.Proofs.Pattern.Matching
import IconModules.Renaming.Basic
import Mathlib.Data.Bool.AllAny

/-! # Reading escaped texts

* `Pattern.escaped` is a text with a backslash in front of every sign. Each of its characters is read as
  itself, whatever follows (`readSequence_escaped`).
* So an escaped text is read as the pattern of that text, unless that is too large (`read?_escape`). It is
  never nested too deep (`depth_wordThen_le`). -/

namespace IconModules.Pattern

variable {each : Bool} {set : CharSet} {c : Char} {w tail cs : List Char} {fuel next : Nat}

/-! ### Escaped texts -/

/-- The text with a backslash in front of every sign. -/
def escaped (w : List Char) : List Char :=
  w.flatMap fun c => if c ∈ Renaming.signs then ['\\', c] else [c]

theorem escaped_cons (c : Char) (w : List Char) :
    escaped (c :: w) = (if c ∈ Renaming.signs then ['\\', c] else [c]) ++ escaped w :=
  List.flatMap_cons

theorem length_le_escaped (w : List Char) : w.length ≤ (escaped w).length := by
  induction w with
  | nil => exact Nat.le_refl 0
  | cons c w ih =>
    rw [escaped_cons, List.length_append, List.length_cons]
    split <;> simp <;> omega

/-- A backslash or a character that is no sign comes first. -/
theorem escaped_head (c : Char) (w : List Char) :
    ∃ d rest, escaped (c :: w) = d :: rest ∧ (d = '\\' ∨ d ∉ Renaming.signs) := by
  rw [escaped_cons]
  split
  · exact ⟨'\\', c :: escaped w, rfl, .inl rfl⟩
  · rename_i hc
    exact ⟨c, escaped w, rfl, .inr hc⟩

/-! ### Reading -/

/-- A character is read as itself, with a backslash if it is a sign. -/
theorem readSet_escaped (c : Char) (cs : List Char) :
    readSet ((if c ∈ Renaming.signs then ['\\', c] else [c]) ++ cs) = some (.single c, cs) := by
  by_cases hc : c ∈ Renaming.signs
  · have hall : ∀ c ∈ Renaming.signs, escaped? c = some (.range c c) :=
      List.all_iff_forall_prop.1 (by decide)
    rw [if_pos hc, List.cons_append, List.cons_append, readSet, hall c hc]
    rfl
  · have hne : ∀ d ∈ Renaming.signs, c ≠ d := fun d hd he => hc (he ▸ hd)
    have hrefused : ∀ d ∈ "\\*+?\x7b()|^$".toList, d ∈ Renaming.signs :=
      List.all_iff_forall_prop.1 (by decide)
    rw [if_neg hc, List.cons_append, readSet, if_neg fun hm => hc (hrefused c hm)]
    · rfl
    · exact fun _ _ he _ => hne _ (by decide) he
    · exact hne _ (by decide)
    · exact hne _ (by decide)

theorem readRepetition_of_not_repeats (h : repeats cs = false) :
    readRepetition set cs = some (one set, cs) := by
  unfold readRepetition
  split
  all_goals first | rfl | exact absurd h (by simp [repeats])

/-- Nothing that was escaped is taken for a sign of repetition. -/
theorem not_repeats_escaped (h : repeats tail = false) (w : List Char) :
    repeats (escaped w ++ tail) = false := by
  cases w with
  | nil => exact h
  | cons c w =>
    have hrepeats : ∀ d ∈ "*+?\x7b".toList, d ∈ Renaming.signs ∧ d ≠ '\\' :=
      List.all_iff_forall_prop.1 (by decide)
    obtain ⟨d, rest, hd, hfirst⟩ := escaped_head c w
    rw [hd, List.cons_append, repeats, decide_eq_false_iff_not]
    intro hm
    obtain ⟨hsign, hne⟩ := hrepeats d hm
    exact hfirst.elim hne fun h => h hsign

/-- The characters of an escaped text are read as themselves, one after the other. -/
theorem readSequence_escaped (htail : repeats tail = false) (w : List Char) (fuel next : Nat) :
    readSequence each (fuel + w.length) next (escaped w ++ tail) =
      (readSequence each fuel next tail).map fun r => (wordThen w r.1, r.2) := by
  induction w with
  | nil => cases h : readSequence each fuel next tail <;> simp [escaped, wordThen, h]
  | cons c w ih =>
    have hset := readSet_escaped c (escaped w ++ tail)
    rw [← List.append_assoc, ← escaped_cons] at hset
    obtain ⟨d, rest, hd, hfirst⟩ := escaped_head c w
    have hne : ∀ x ∈ Renaming.signs, x ≠ '\\' → d ≠ x := by
      rintro x hx hslash rfl
      exact hfirst.elim hslash fun h => h hx
    rw [hd, List.cons_append] at hset
    rw [hd, List.cons_append, List.length_cons, ← Nat.add_assoc, readSequence, hset]
    · dsimp only
      rw [readRepetition_of_not_repeats (not_repeats_escaped htail w)]
      dsimp only
      rw [ih, Option.map_map]
      rfl
    all_goals exact hne _ (by decide) (by decide)

/-! ### How deep characters are nested -/

theorem depth_one_seq_le (set : CharSet) (q : Pattern) : (seq (one set) q).depth ≤ q.depth + 1 := by
  cases q with
  | empty => exact Nat.zero_le _
  | seq p r =>
    cases r with
    | empty => exact Nat.succ_le_succ (Nat.max_le.2 ⟨Nat.zero_le _, Nat.le_refl _⟩)
    | _ => exact Nat.max_le.2 ⟨Nat.le_add_left 1 _, Nat.le_succ _⟩
  | _ => exact Nat.max_le.2 ⟨Nat.le_add_left 1 _, Nat.le_succ _⟩

/-- Characters in front of a pattern nest it at most one level deeper, however many they are. -/
theorem depth_wordThen_le (w : List Char) (q : Pattern) : (wordThen w q).depth ≤ q.depth + 1 := by
  induction w with
  | nil => exact Nat.le_succ _
  | cons c w ih =>
    cases w with
    | nil => exact depth_one_seq_le (.single c) q
    | cons d w =>
      refine Nat.le_trans ?_ (Nat.max_le.2 ⟨Nat.le_add_left 1 _, ih⟩)
      simp only [wordThen, List.foldr_cons]
      generalize w.foldr (fun c p => seq (one (.single c)) p) q = rest
      cases rest with
      | empty => exact Nat.le_max_left 1 _
      | _ => exact Nat.le_refl _

theorem depth_word_le (w : List Char) : (word w).depth ≤ 1 := by
  rw [word_eq_wordThen]
  exact depth_wordThen_le w empty

/-! ### Whole patterns -/

/-- An escaped text is read as the pattern of that text, if that is not too large. -/
theorem read?_escape {s : String} (hs : s ≠ "") :
    read? (Renaming.escape s) =
      if (word s.toList).size ≤ greatestSize then some (word s.toList) else none := by
  have htext : (Renaming.escape s).toList = escaped s.toList := String.toList_ofList
  obtain ⟨c, w, hw⟩ := List.exists_cons_of_ne_nil (mt String.toList_eq_nil_iff.1 hs)
  obtain ⟨d, rest, hd, hfirst⟩ := escaped_head c w
  have hopen : d ≠ '(' := by
    rintro rfl
    exact hfirst.elim (by decide) fun h => h (by decide)
  have hlong := length_le_escaped s.toList
  obtain ⟨fuel, hfuel⟩ : ∃ fuel, 2 * (escaped s.toList).length + 1 = fuel + 1 + s.toList.length :=
    ⟨2 * (escaped s.toList).length - s.toList.length, by omega⟩
  have hread : readAlternatives false (2 * (escaped s.toList).length + 2) 1 (escaped s.toList) =
      some (word s.toList, 1, []) := by
    have hsequence := @readSequence_escaped false [] rfl s.toList (fuel + 1) 1
    rw [List.append_nil, ← hfuel] at hsequence
    rw [readAlternatives, hsequence, readSequence, word_eq_wordThen]
    rfl
  have hdepth : (word s.toList).depth ≤ greatestDepth :=
    Nat.le_trans (depth_word_le s.toList) (by decide)
  rw [read?, htext]
  split
  rename_i heq
  split at heq
  · -- no escaped text begins with a flag
    rename_i htext
    rw [hw, hd] at htext
    exact absurd (List.cons.inj htext).1 hopen
  · obtain ⟨rfl, rfl⟩ := Prod.mk.inj heq
    rw [hread]
    simp only [hdepth, true_and]

/-- A text with the flag in front is read as a pattern in which every line has a start. -/
theorem read?_flagged {text : String} {p : Pattern} (htext : text.toList = '(' :: '?' :: 'm' :: ')' :: cs)
    (hread : readAlternatives true (2 * cs.length + 2) 1 cs = some (p, next, []))
    (hdepth : p.depth ≤ greatestDepth) :
    read? text = if p.size ≤ greatestSize then some p else none := by
  rw [read?, htext]
  simp only [hread, hdepth, true_and]

end IconModules.Pattern
