import IconModules.Proofs.Pattern.Reading
import IconModules.Proofs.Text.Words
import IconModules.Renaming.Finish

/-! # Rules that replace texts verbatim

* The pattern of a text replaces the text as a stretch (`replaceAll_word`). With the start of a line in
  front of it, it replaces the text at the start of every line (`replaceAll_lineStart`).
* These are the patterns as which rules are prepared, and their templates are texts too, whatever signs are
  in the rules (`prepare?_everywhere`, `prepare?_root`). So rules replace verbatim (`renamed_verbatim`). -/

namespace IconModules

namespace Pattern

variable {t : Template} {before : Option Char} {w put s line rest : List Char} {c : Char}

/-! ### Fixed texts -/

theorem match?_word (w : List Char) (before : Option Char) (s : List Char) :
    ((word w).match? before s).map Cursor.taken = Text.wordSpan w s := by
  rw [match?, ways_word, Text.wordSpan]
  by_cases hp : w <+: s
  · rw [if_pos (show w <+: (Cursor.origin before s).rest from hp),
      if_pos (List.isPrefixOf_iff_prefix.2 hp)]
    simp [Cursor.behind, Cursor.origin]
  · rw [if_neg (show ¬ w <+: (Cursor.origin before s).rest from hp),
      if_neg (mt List.isPrefixOf_iff_prefix.1 hp)]
    rfl

theorem wordSpan_le (hw : w ≠ []) {n : Nat} (h : Text.wordSpan w s = some n) :
    0 < n ∧ n ≤ s.length := by
  unfold Text.wordSpan at h
  split at h
  · rename_i hp
    obtain rfl := Option.some.inj h
    exact ⟨List.length_pos_iff.2 hw, (List.isPrefixOf_iff_prefix.1 hp).length_le⟩
  · cases h

/-- Replacing the pattern of a word replaces the word as a stretch. -/
theorem replaceAll_word (hw : w ≠ []) (put s : List Char) :
    (word w).replaceAll (put.map .char) s = Text.replaceSpans (Text.wordSpan w) put 0 s :=
  replaceAll_eq_replaceSpans (match?_word w) (fun _ _ => wordSpan_le hw) put s

/-! ### Words at the start of lines -/

/-- The pattern of a word at the start of a line. -/
def lineStart (w : List Char) : Pattern :=
  seq (start true) (word w)

/-- The line with `put` in the place of the word at its start, if it starts with the word. -/
def replaceStart (w put line : List Char) : List Char :=
  if w <+: line then put ++ line.drop w.length else line

/-- No line starts behind any character but a line break. -/
theorem match?_lineStart (w : List Char) (before : Option Char) (s : List Char) :
    ((lineStart w).match? before s).map Cursor.taken =
      if before = none ∨ before = some '\n' then Text.wordSpan w s else none := by
  rw [match?, lineStart, ways_seq, ways_start, ← match?_word w before, match?]
  cases before with
  | none => simp [Cursor.origin]
  | some c => by_cases hc : c = '\n' <;> simp [Cursor.origin, hc]

theorem consumes_lineStart (hw : w ≠ []) : (lineStart w).Consumes := by
  intro before s k hk
  have htaken := match?_lineStart w before s
  rw [hk, Option.map_some] at htaken
  split at htaken
  · exact wordSpan_le hw htaken.symm
  · cases htaken

theorem match?_lineStart_eq_none (h : ¬ ((before = none ∨ before = some '\n') ∧ w <+: s)) :
    (lineStart w).match? before s = none := by
  rw [← Option.map_eq_none_iff, match?_lineStart, Text.wordSpan]
  by_cases hbefore : before = none ∨ before = some '\n'
  · rw [if_pos hbefore, if_neg]
    exact fun hp => h ⟨hbefore, List.isPrefixOf_iff_prefix.1 hp⟩
  · rw [if_neg hbefore]

theorem replaceFrom_lineStart_word (hw : w ≠ []) (put rest : List Char)
    (hbefore : before = none ∨ before = some '\n') :
    replaceFrom (lineStart w) (put.map .char) before 0 false (w ++ rest) =
      put ++ replaceFrom (lineStart w) (put.map .char) w.getLast? 0 false rest := by
  have htaken := match?_lineStart w before (w ++ rest)
  rw [if_pos hbefore, Text.wordSpan, if_pos (by simp), Option.map_eq_some_iff] at htaken
  obtain ⟨k, hk, hlength⟩ := htaken
  rw [replaceFrom_of_match (consumes_lineStart hw) hk hlength, Template.fill_map_char]

/-! ### Lines -/

/-- A text without line break that is put in front joins the first line. -/
theorem splitOn_append (hw : '\n' ∉ w) {ls : List (List Char)} (h : s.splitOn '\n' = line :: ls) :
    (w ++ s).splitOn '\n' = (w ++ line) :: ls := by
  induction w with
  | nil => exact h
  | cons c w ih =>
    rw [List.mem_cons, not_or] at hw
    rw [List.cons_append, List.splitOn_cons_eq_if_modifyHead, if_neg (by simpa using Ne.symm hw.1),
      ih hw.2, List.modifyHead_cons, List.cons_append]

theorem intercalate_append (w line : List Char) (ls : List (List Char)) :
    ['\n'].intercalate ((w ++ line) :: ls) = w ++ ['\n'].intercalate (line :: ls) := by
  cases ls with
  | nil => rw [List.intercalate_singleton, List.intercalate_singleton]
  | cons l ls =>
    rw [List.intercalate_cons_cons, List.intercalate_cons_cons]
    simp only [List.append_assoc]

/-- The first line is what the text begins with. -/
theorem prefix_of_splitOn {ls : List (List Char)} (h : s.splitOn '\n' = line :: ls) : line <+: s := by
  rw [← @List.intercalate_splitOn _ s _ _ '\n', h]
  have happend := intercalate_append line [] ls
  rw [List.append_nil] at happend
  exact happend ▸ List.prefix_append _ _

theorem replaceStart_of_not (h : ¬ w <+: line) : replaceStart w put line = line :=
  if_neg h

theorem replaceStart_append (w put line : List Char) :
    replaceStart w put (w ++ line) = put ++ line := by
  rw [replaceStart, if_pos (List.prefix_append w line), List.drop_left]

/-- The lines of a text that stands behind `before`: the first is a whole line only if nothing or a line
break is before it, so only then its start may be replaced. -/
theorem replaceFrom_lineStart (hw : w ≠ []) (hb : '\n' ∉ w) (put : List Char) {ls : List (List Char)}
    (h : s.splitOn '\n' = line :: ls) :
    replaceFrom (lineStart w) (put.map .char) before 0 false s =
      ['\n'].intercalate
        ((if before = none ∨ before = some '\n' then replaceStart w put line else line) ::
          ls.map (replaceStart w put)) := by
  induction hn : s.length using Nat.strongRecOn generalizing s before line ls with
  | ind n ih =>
    cases s with
    | nil =>
      rw [List.splitOn_nil] at h
      obtain ⟨rfl, rfl⟩ := List.cons.inj h
      rw [replaceFrom_nil (consumes_lineStart hw), replaceStart_of_not (mt List.prefix_nil.1 hw), ite_self]
      rfl
    | cons c s =>
      by_cases hmatch : (before = none ∨ before = some '\n') ∧ w <+: c :: s
      · -- what follows the word goes on with its line, so nothing more is replaced there
        obtain ⟨hbefore, rest, hrest⟩ := hmatch
        obtain ⟨l, ls', hl⟩ := List.exists_cons_of_ne_nil (List.splitOn_ne_nil '\n' rest)
        rw [← hrest, splitOn_append hb hl] at h
        obtain ⟨rfl, rfl⟩ := List.cons.inj h
        have hshort : rest.length < n := by
          rw [← hn, ← hrest, List.length_append]
          exact Nat.lt_add_of_pos_left (List.length_pos_iff.2 hw)
        have hinside : ¬ (w.getLast? = none ∨ w.getLast? = some '\n') := by
          rintro (hnone | hbreak)
          · exact hw (List.getLast?_eq_none_iff.1 hnone)
          · exact hb (List.mem_of_getLast? hbreak)
        rw [← hrest, replaceFrom_lineStart_word hw put rest hbefore, ih rest.length hshort hl rfl,
          if_neg hinside, if_pos hbefore, replaceStart_append, intercalate_append]
      · obtain ⟨l, ls', hl⟩ := List.exists_cons_of_ne_nil (List.splitOn_ne_nil '\n' s)
        rw [replaceFrom_of_none (match?_lineStart_eq_none hmatch), ih s.length (by simp [← hn]) hl rfl]
        rw [List.splitOn_cons_eq_if_modifyHead] at h
        by_cases hc : c = '\n'
        · subst hc
          rw [if_pos (by simp), hl] at h
          obtain ⟨rfl, rfl⟩ := List.cons.inj h
          rw [if_pos (.inr rfl), replaceStart_of_not (mt List.prefix_nil.1 hw), ite_self, List.map_cons,
            List.intercalate_cons_cons]
          rfl
        · rw [if_neg (by simpa using hc), hl, List.modifyHead_cons] at h
          obtain ⟨rfl, rfl⟩ := List.cons.inj h
          have hline : (if before = none ∨ before = some '\n' then replaceStart w put (c :: l)
              else c :: l) = [c] ++ l := by
            split
            · rename_i hbefore
              refine replaceStart_of_not fun hp => hmatch ⟨hbefore, hp.trans ?_⟩
              exact List.cons_prefix_cons.2 ⟨rfl, prefix_of_splitOn hl⟩
            · rfl
          rw [if_neg (by simpa using hc), hline, intercalate_append]
          rfl

theorem replaceAll_lineStart (hw : w ≠ []) (hb : '\n' ∉ w) (put s : List Char) :
    (lineStart w).replaceAll (put.map .char) s =
      ['\n'].intercalate ((s.splitOn '\n').map (replaceStart w put)) := by
  obtain ⟨line, ls, h⟩ := List.exists_cons_of_ne_nil (List.splitOn_ne_nil '\n' s)
  rw [replaceAll, replaceFrom_lineStart hw hb put h, if_pos (.inl rfl), h, List.map_cons]

end Pattern

namespace Renaming

open Pattern (greatestSize word lineStart replaceStart)

/-! ### Prepared rules -/

/-- Whatever signs a text holds, its template is the text. -/
theorem read_verbatim (s : String) : Template.read (verbatim s) = s.toList.map .char := by
  have hread := Template.readFrom_doubled s.toList []
  rw [List.append_nil, Template.readFrom, List.append_nil] at hread
  rw [Template.read, verbatim, String.toList_ofList, hread]

theorem prepare?_everywhere {old : String} (hold : old ≠ "")
    (hsize : (word old.toList).size ≤ greatestSize) (new : String) :
    (everywhere old new).prepare? = some (word old.toList, new.toList.map .char) := by
  rw [prepare?, everywhere, Pattern.read?_escape hold, if_pos hsize, Option.map_some, read_verbatim]

theorem prepare?_root (new : String) :
    (root new).prepare? = some (lineStart "svg".toList, new.toList.map .char) := by
  have hread : Pattern.read? "(?m)^svg" = some (lineStart "svg".toList) := by decide
  rw [prepare?, root, hread, Option.map_some, read_verbatim]

end Renaming

namespace Finish

open Renaming (everywhere root)

theorem rename_single (r : Pattern × Template) (indent code : String) :
    (⟨[r], indent⟩ : Finish).rename code = String.ofList (r.1.replaceAll r.2 code.toList) :=
  rfl

/-- The texts of a rule stand for themselves, whatever signs are in them: a rule for a text replaces its
leftmost occurrences that do not overlap, and the rule for the root call replaces the word at the start of
every line. -/
theorem renamed_verbatim :
    (∀ old new : String, old ≠ "" → (Pattern.word old.toList).size ≤ Pattern.greatestSize →
      ∃ r, (everywhere old new).prepare? = some r ∧ ∀ indent code out,
        Text.Replaced old.toList new.toList code.toList out.toList ↔
          (⟨[r], indent⟩ : Finish).rename code = out) ∧
    ∀ new : String, ∃ r, (root new).prepare? = some r ∧ ∀ indent code,
      (⟨[r], indent⟩ : Finish).rename code =
        String.ofList (['\n'].intercalate
          ((code.toList.splitOn '\n').map (Pattern.replaceStart "svg".toList new.toList))) := by
  refine ⟨fun old new hold hsize => ?_, fun new => ?_⟩
  · refine ⟨_, Renaming.prepare?_everywhere hold hsize new, fun indent code out => ?_⟩
    have hne : old.toList ≠ [] := mt String.toList_eq_nil_iff.1 hold
    rw [Text.replaced_iff hne, rename_single, Pattern.replaceAll_word hne]
    constructor
    · intro h
      rw [← h, String.ofList_toList]
    · rintro rfl
      rw [String.toList_ofList]
  · refine ⟨_, Renaming.prepare?_root new, fun indent code => ?_⟩
    rw [rename_single, Pattern.replaceAll_lineStart (by decide) (by decide)]

theorem renamed_verbatim_signs :
    "a.b*" ≠ "" ∧ (Pattern.word "a.b*".toList).size ≤ Pattern.greatestSize ∧
      ∃ r, (everywhere "a.b*" "$1b$$").prepare? = some r ∧
        (⟨[r], ""⟩ : Finish).rename "xa.b*a.bba.b*" = "x$1b$$a.bb$1b$$" := by
  have hne : "a.b*" ≠ "" := by decide
  have hsize : (Pattern.word "a.b*".toList).size ≤ Pattern.greatestSize := by decide
  obtain ⟨r, hr, hrename⟩ := renamed_verbatim.1 "a.b*" "$1b$$" hne hsize
  refine ⟨hne, hsize, r, hr, (hrename "" _ _).1 ?_⟩
  rw [Text.replaced_iff (by decide)]
  decide

end Finish
end IconModules
