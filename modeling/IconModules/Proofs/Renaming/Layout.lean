import IconModules.Proofs.Renaming.Verbatim
import IconModules.Proofs.Text.Lines
import IconModules.Proofs.Text.Trimmed
import IconModules.Renaming.Finish

/-! # The layout of finished code

Code is indented first and trimmed afterwards, so that blanks which come in at the ends are trimmed off again.

* `Text.continued indent s` is the text with an indentation behind every line break. It keeps white space white
  and tight texts tight, so it does not matter which comes first (`trimmed_continued`).
* Its lines are the lines of the text, all but the first with the indentation in front
  (`splitOn_continued`), and they can be read back (`restored_continued`). -/

namespace IconModules

namespace Text

variable {indent s v w line : List Char} {ls : List (List Char)} {c : Char}

/-- The text with an indentation behind every line break. -/
def continued (indent s : List Char) : List Char :=
  s.flatMap fun c => if c = '\n' then '\n' :: indent else [c]

theorem continued_append (indent s t : List Char) :
    continued indent (s ++ t) = continued indent s ++ continued indent t :=
  List.flatMap_append

theorem continued_break (indent s : List Char) :
    continued indent ('\n' :: s) = '\n' :: indent ++ continued indent s :=
  rfl

theorem continued_cons (hc : c ≠ '\n') (indent s : List Char) :
    continued indent (c :: s) = c :: continued indent s := by
  rw [continued, List.flatMap_cons, if_neg hc]
  rfl

theorem continued_of_not_mem (hs : '\n' ∉ s) : continued indent s = s := by
  induction s with
  | nil => rfl
  | cons c s ih =>
    rw [List.mem_cons, not_or] at hs
    rw [continued_cons (Ne.symm hs.1), ih hs.2]

theorem wordSpan_break (s : List Char) : wordSpan ('\n' :: indent) ('\n' :: indent ++ s) =
    some ('\n' :: indent).length := by
  simp [wordSpan]

theorem wordSpan_of_ne (hc : c ≠ '\n') (s : List Char) : wordSpan ('\n' :: indent) (c :: s) = none := by
  simp [wordSpan, List.isPrefixOf, Ne.symm hc]

/-- Indenting puts the indentation behind every line break. -/
theorem replaceSpans_break (indent s : List Char) :
    replaceSpans (wordSpan ['\n']) ('\n' :: indent) 0 s = continued indent s := by
  induction s with
  | nil => rfl
  | cons c s ih =>
    by_cases hc : c = '\n'
    · subst hc
      rw [continued_break, ← ih]
      exact replaceSpans_stretch (u := ['\n']) (wordSpan_break s) (List.cons_ne_nil _ _)
    · rw [replaceSpans, wordSpan_of_ne hc, continued_cons hc, ← ih]

/-- One indentation taken out behind every line break gives the text back. -/
theorem restored_continued (indent s : List Char) :
    replaceSpans (wordSpan ('\n' :: indent)) ['\n'] 0 (continued indent s) = s := by
  induction s with
  | nil => rfl
  | cons c s ih =>
    by_cases hc : c = '\n'
    · subst hc
      rw [continued_break, replaceSpans_stretch (wordSpan_break _) (List.cons_ne_nil _ _), ih]
      rfl
    · rw [continued_cons hc, replaceSpans, wordSpan_of_ne hc]
      dsimp only
      rw [ih]

/-! ### Lines -/

/-- The lines behind the first one are indented. -/
theorem splitOn_continued (hindent : '\n' ∉ indent) (h : s.splitOn '\n' = line :: ls) :
    (continued indent s).splitOn '\n' = line :: ls.map (indent ++ ·) := by
  induction s generalizing line ls with
  | nil =>
    rw [List.splitOn_nil] at h
    obtain ⟨rfl, rfl⟩ := List.cons.inj h
    rfl
  | cons c s ih =>
    obtain ⟨l, ls', hl⟩ := List.exists_cons_of_ne_nil (List.splitOn_ne_nil '\n' s)
    rw [List.splitOn_cons_eq_if_modifyHead, hl] at h
    by_cases hc : c = '\n'
    · subst hc
      rw [if_pos (by simp)] at h
      obtain ⟨rfl, rfl⟩ := List.cons.inj h
      rw [continued_break, List.cons_append, List.splitOn_cons_eq_if_modifyHead, if_pos (by simp),
        Pattern.splitOn_append hindent (ih hl), List.map_cons]
    · rw [if_neg (by simpa using hc), List.modifyHead_cons] at h
      obtain ⟨rfl, rfl⟩ := List.cons.inj h
      rw [continued_cons hc, List.splitOn_cons_eq_if_modifyHead, if_neg (by simpa using hc), ih hl,
        List.modifyHead_cons]

/-! ### Trimming -/

theorem Blank.continued (hs : Blank s) (hindent : Blank indent) : Blank (continued indent s) := by
  intro c hc
  obtain ⟨d, hd, hc⟩ := List.mem_flatMap.1 hc
  split at hc
  · rename_i hbreak
    rcases List.mem_cons.1 hc with rfl | hc
    · decide
    · exact hindent c hc
  · rw [List.mem_singleton.1 hc]
    exact hs d hd

/-- The ends of a tight text are no line breaks. -/
theorem Tight.continued (hs : Tight s) (indent : List Char) : Tight (continued indent s) := by
  have hbreak : ∀ c, isBlank c = false → c ≠ '\n' := by
    rintro _ hblank rfl
    exact absurd hblank (by decide)
  constructor
  · cases s with
    | nil => simp [Text.continued]
    | cons c s =>
      have hc := hs.first c rfl
      rw [continued_cons (hbreak c hc)]
      rintro _ ⟨⟩
      exact hc
  · rcases List.eq_nil_or_concat s with rfl | ⟨s, c, rfl⟩
    · simp [Text.continued]
    · have hc := hs.last c (by simp)
      have hempty : Text.continued indent [] = [] := rfl
      rw [List.concat_eq_append, continued_append, continued_cons (hbreak c hc), hempty,
        List.getLast?_concat]
      rintro _ ⟨⟩
      exact hc

/-- Indenting and trimming can change places. -/
theorem trimmed_continued (hindent : Blank indent) (s : List Char) :
    trimmed (continued indent s) = continued indent (trimmed s) := by
  obtain ⟨v, w, hv, ht, hw, hs⟩ := exists_trimmed s
  have hsplit := congrArg (continued indent) hs
  rw [continued_append, continued_append] at hsplit
  rw [hsplit, trimmed_of_tight (hv.continued hindent) (ht.continued indent) (hw.continued hindent)]

end Text

namespace Finish

theorem toList_break_append (s : String) : ("\n" ++ s).toList = '\n' :: s.toList :=
  String.toList_append

theorem toList_indented (indent code : String) :
    (indented indent code).toList = Text.continued indent.toList code.toList := by
  rw [indented, Text.replace, String.toList_ofList, toList_break_append]
  exact Text.replaceSpans_break indent.toList code.toList

theorem apply_eq_indented {f : Finish} (hindent : Text.Blank f.indent.toList) (code : String) :
    f.apply code = indented f.indent (Text.trim (f.rename code)) := by
  rw [← String.toList_inj, apply, Text.toList_trim, toList_indented, toList_indented, Text.toList_trim,
    Text.trimmed_continued hindent]

/-- Finished code is the trimmed code with the indentation behind every line break, whatever the rules are: it has
the same lines, all but the first indented, gives the trimmed code when one indentation is taken out behind every
line break, and has no white space at its ends. -/
theorem layout_kept (f : Finish) (hindent : ∀ c ∈ f.indent.toList, Text.isBlank c = true ∧ c ≠ '\n')
    (code : String) :
    f.apply code = indented f.indent (Text.trim (f.rename code)) ∧
      (∃ first rest, Text.lines (Text.trim (f.rename code)) = first :: rest ∧
        Text.lines (f.apply code) = first :: rest.map (f.indent ++ ·)) ∧
      Text.replace ("\n" ++ f.indent) "\n" (f.apply code) = Text.trim (f.rename code) ∧
      Text.Tight (f.apply code).toList := by
  have hbreak : '\n' ∉ f.indent.toList := fun hm => (hindent _ hm).2 rfl
  have happly := apply_eq_indented (fun c hc => (hindent c hc).1) code
  have hlist : (f.apply code).toList =
      Text.continued f.indent.toList (Text.trim (f.rename code)).toList := by
    rw [happly, toList_indented]
  refine ⟨happly, ?_, ?_, ?_⟩
  · obtain ⟨line, ls, hl⟩ :=
      List.exists_cons_of_ne_nil (List.splitOn_ne_nil '\n' (Text.trim (f.rename code)).toList)
    refine ⟨String.ofList line, ls.map String.ofList, ?_, ?_⟩
    · rw [Text.lines, hl, List.map_cons]
    · rw [Text.lines, hlist, Text.splitOn_continued hbreak hl]
      simp [Function.comp_def]
  · rw [Text.replace, hlist, toList_break_append]
    exact (congrArg String.ofList (Text.restored_continued _ _)).trans String.ofList_toList
  · obtain ⟨-, -, -, htight, -, -⟩ := Text.exists_trimmed (f.rename code).toList
    rw [hlist, Text.toList_trim]
    exact htight.continued _

theorem layout_kept_breaks :
    (∀ c ∈ "\t".toList, Text.isBlank c = true ∧ c ≠ '\n') ∧
      (⟨[(Pattern.word "svg".toList, "icon\n".toList.map .char)], "\t"⟩ : Finish).apply " svg\n\nsvg" =
        indented "\t" (Text.trim
          ((⟨[(Pattern.word "svg".toList, "icon\n".toList.map .char)], "\t"⟩ : Finish).rename " svg\n\nsvg")) ∧
      (⟨[(Pattern.word "svg".toList, "icon\n".toList.map .char)], "\t"⟩ : Finish).apply " svg\n\nsvg" =
        "icon\n\t\n\t\n\ticon" := by
  have hindent : ∀ c ∈ "\t".toList, Text.isBlank c = true ∧ c ≠ '\n' :=
    List.all_iff_forall_prop.1 (by decide)
  exact ⟨hindent, (layout_kept ⟨[_], "\t"⟩ hindent " svg\n\nsvg").1, by decide⟩

end Finish
end IconModules
