import IconModules.Proofs.Text.Lines
import IconModules.Renaming.Finish

/-! # Finished code stays below the name of its icon

Whatever the translator answers, only the first line of finished code can begin at the margin, and that
one is written behind an indentation. The proof follows a text through its indentation and the
trimming of both ends: each line break is followed by a space (`Hanging`). -/

namespace IconModules

namespace Text

variable {s t front rest blanks : List Char}

/-- Each line break is followed by a space. -/
def Hanging (s : List Char) : Prop :=
  ∀ rest, '\n' :: rest <:+ s → rest.head? = some ' '

theorem Hanging.suffix (h : Hanging s) (hs : t <:+ s) : Hanging t :=
  fun rest hr => h rest (hr.trans hs)

theorem suffix_of_noBreak (h : '\n' ∉ front) (hs : '\n' :: rest <:+ front ++ s) :
    '\n' :: rest <:+ s := by
  induction front with
  | nil => exact hs
  | cons c front ih =>
    rw [List.mem_cons, not_or] at h
    rcases List.suffix_cons_iff.1 hs with he | hs
    · exact absurd (List.cons.inj he).1 h.1
    · exact ih h.2 hs

/-- Line breaks that are written with an indentation behind them are followed by a space. -/
theorem hanging_replaceSpans (hb : '\n' ∉ blanks) (s : List Char) :
    Hanging (replaceSpans (wordSpan ['\n']) ('\n' :: ' ' :: blanks) 0 s) := by
  induction s with
  | nil => simp [Hanging]
  | cons c s ih =>
    intro rest hrest
    unfold replaceSpans at hrest
    by_cases hc : c = '\n'
    · subst hc
      have hspan : wordSpan ['\n'] ('\n' :: s) = some 1 := by
        simp [wordSpan]
      simp only [hspan, List.cons_append] at hrest
      rcases List.suffix_cons_iff.1 hrest with he | hrest
      · rw [(List.cons.inj he).2]
        rfl
      · rw [← List.cons_append] at hrest
        have hindent : '\n' ∉ ' ' :: blanks := by simp [hb]
        exact ih rest (suffix_of_noBreak hindent hrest)
    · have hspan : wordSpan ['\n'] (c :: s) = none := by
        simp [wordSpan, List.isPrefixOf, Ne.symm hc]
      simp only [hspan] at hrest
      rcases List.suffix_cons_iff.1 hrest with he | hrest
      · exact absurd (List.cons.inj he).1.symm hc
      · exact ih rest hrest

/-- A text that was trimmed does not end in a blank. -/
theorem not_isBlank_of_dropTrailingBlanks {c : Char} (h : dropTrailingBlanks s = front ++ [c]) :
    isBlank c = false := by
  have hr : s.reverse.dropWhile isBlank = c :: front.reverse := by
    rw [← List.reverse_reverse (s.reverse.dropWhile isBlank)]
    exact (congrArg List.reverse h).trans (by simp)
  have hhead := List.head?_dropWhile_not isBlank s.reverse
  rw [hr] at hhead
  simpa using hhead

theorem exists_blanks (s : List Char) : ∃ blanks, s = dropTrailingBlanks s ++ blanks := by
  refine ⟨(s.reverse.takeWhile isBlank).reverse, ?_⟩
  rw [dropTrailingBlanks, ← List.reverse_append, List.takeWhile_append_dropWhile, List.reverse_reverse]

theorem infix_of_trim {s : String} (h : t <:+: (trim s).toList) : t <:+: s.toList := by
  rw [trim, String.toList_ofList] at h
  obtain ⟨blanks, hblanks⟩ := exists_blanks (dropBlanks s.toList)
  have hfront : dropTrailingBlanks (dropBlanks s.toList) <+: dropBlanks s.toList := ⟨blanks, hblanks.symm⟩
  exact h.trans (hfront.isInfix.trans (List.dropWhile_suffix _).isInfix)

/-- Trimming the end of a text leaves no line break there, so the others are still followed by
spaces. -/
theorem Hanging.dropTrailingBlanks (h : Hanging s) : Hanging (dropTrailingBlanks s) := by
  intro rest ⟨front, hfront⟩
  obtain ⟨blanks, hblanks⟩ := exists_blanks s
  have hhead := h (rest ++ blanks) ⟨front, by rw [hblanks, ← hfront]; simp⟩
  cases rest with
  | nil =>
    have hbreak := not_isBlank_of_dropTrailingBlanks hfront.symm
    exact absurd hbreak (by decide)
  | cons c rest => exact hhead

/-- All lines but the first begin with a space. -/
theorem Hanging.lines {s : String} (h : Hanging s.toList) {line : String}
    (hl : line ∈ (lines s).tail) : line.toList.head? = some ' ' := by
  rw [Text.lines, ← List.map_tail] at hl
  obtain ⟨q, hq, rfl⟩ := List.mem_map.1 hl
  rw [String.toList_ofList]
  generalize s.toList = cs at h hq
  induction cs with
  | nil => simp at hq
  | cons c cs ih =>
    obtain ⟨p, ps, hp⟩ := List.exists_cons_of_ne_nil (List.splitOn_ne_nil '\n' cs)
    have htail : q ∈ ps → q.head? = some ' ' := by
      intro hm
      refine ih (h.suffix (List.suffix_cons _ _)) ?_
      rwa [hp]
    rw [List.splitOn_cons_eq_if_modifyHead, hp] at hq
    by_cases hc : c = '\n'
    · subst hc
      rw [if_pos (by simp)] at hq
      rcases List.mem_cons.1 hq with rfl | hq
      · -- the line behind the break begins as the rest of the text does
        obtain ⟨cs', rfl⟩ := List.head?_eq_some_iff.1 (h cs (List.suffix_refl _))
        rw [List.splitOn_cons_eq_if_modifyHead, if_neg (by decide)] at hp
        obtain ⟨p', ps', hp'⟩ := List.exists_cons_of_ne_nil (List.splitOn_ne_nil '\n' cs')
        rw [hp', List.modifyHead_cons] at hp
        rw [← (List.cons.inj hp).1]
        rfl
      · exact htail hq
    · rw [if_neg (by simpa using hc)] at hq
      exact htail hq

end Text

namespace Finish

/-- Only the first line of finished code can begin without a space. -/
theorem hanging_apply {f : Finish} (h : f.indent = "    ") (code : String) :
    Text.Hanging (f.apply code).toList := by
  have hbreak : ("\n" ++ "    ").toList = '\n' :: ' ' :: [' ', ' ', ' '] := by decide
  have hword : "\n".toList = ['\n'] := by decide
  rw [apply, Text.trim, String.toList_ofList, indented, h, Text.replace, String.toList_ofList, hbreak,
    hword]
  have hblanks : '\n' ∉ [' ', ' ', ' '] := by decide
  have hindented := Text.hanging_replaceSpans hblanks (f.rename code).toList
  exact (hindented.suffix (List.dropWhile_suffix _)).dropTrailingBlanks

end Finish
end IconModules
