import IconModules.Pattern.Replace
import IconModules.Proofs.Markup.Stretches

/-! # How patterns match

* `Cursor.behind` is the place behind a piece of text. A pattern that starts with a fixed text goes on
  behind it, or nowhere (`ways_wordThen`).
* `Pattern.between opening set least closing` is the pattern of a fixed text, a run of characters of a set
  and another fixed text. Of all the runs that `closing` follows it takes the longest (`match?_between`).
* `Pattern.Consumes` says that no match is empty. What replacing the matches of such a pattern does is read
  off from left to right (`replaceFrom_of_none`, `replaceFrom_of_match`); if matches do not depend on what
  stands before them, it is replacing stretches (`replaceAll_eq_replaceSpans`). -/

namespace IconModules

variable {p q : Pattern} {k : Cursor} {set : CharSet} {t : Template} {before : Option Char}
  {c : Char} {w u s rest opening closing put : List Char} {n least left : Nat} {barred : Bool}

/-! ### Places -/

namespace Cursor

/-- The place behind the piece `w`, which comes next. -/
def behind (k : Cursor) (w : List Char) : Cursor :=
  ⟨w.getLast?.or k.before, k.rest.drop w.length, k.taken + w.length, k.groups⟩

@[simp] theorem behind_nil (k : Cursor) : k.behind [] = k := by
  simp [behind]

/-- The last character of a piece that is not empty does not hang on what stands before it. -/
theorem getLast?_cons_or (c : Char) (w : List Char) (before : Option Char) :
    (c :: w).getLast?.or before = w.getLast?.or (some c) := by
  rw [List.getLast?_cons]
  cases w.getLast? <;> rfl

theorem behind_cons (h : k.rest = c :: s) (w : List Char) : k.behind (c :: w) = (k.past c s).behind w := by
  simp only [behind, past, getLast?_cons_or, h, List.length_cons, List.drop_succ_cons, mk.injEq,
    true_and, and_true]
  omega

end Cursor

namespace Pattern

/-! ### Fixed texts -/

/-- The pattern of a fixed text and of what follows it. -/
def wordThen (w : List Char) (q : Pattern) : Pattern :=
  w.foldr (fun c p => seq (one (.single c)) p) q

theorem word_eq_wordThen (w : List Char) : word w = wordThen w empty := by
  induction w with
  | nil => rfl
  | cons c w ih => rw [word, ih]; rfl

theorem ways_wordThen (w : List Char) (q : Pattern) (k : Cursor) :
    (wordThen w q).ways k = if w <+: k.rest then q.ways (k.behind w) else [] := by
  induction w generalizing k with
  | nil => simp [wordThen]
  | cons c w ih =>
    rw [wordThen, List.foldr_cons, ← wordThen, ways_seq, ways_one]
    cases hk : k.rest with
    | nil => simp
    | cons d s =>
      by_cases hc : d = c
      · subst hc
        simp [ih, Cursor.behind_cons hk, Cursor.past]
      · simp [hc, Ne.symm hc]

@[simp] theorem ways_word (w : List Char) (k : Cursor) :
    (word w).ways k = if w <+: k.rest then [k.behind w] else [] := by
  rw [word_eq_wordThen, ways_wordThen, ways_empty]

/-! ### Runs -/

theorem ways_run_nil (h : k.rest = []) :
    (run set least none).ways k = if least = 0 then [k] else [] := by
  exact Cursor.runs_end h set least none

theorem ways_run_cons (h : k.rest = c :: s) :
    (run set least none).ways k =
      (if set.holds c then (run set (least - 1) none).ways (k.past c s) else []) ++
        if least = 0 then [k] else [] := by
  rw [ways_run, ways_run, Cursor.runs_next h]
  by_cases hc : set.holds c <;> simp [hc]

/-- The pattern of `opening`, at least `least` characters of a set and `closing`. -/
def between (opening : List Char) (set : CharSet) (least : Nat) (closing : List Char) : Pattern :=
  wordThen opening (seq (run set least none) (word closing))

/-- The length of the longest piece of at least `least` characters of a set and `closing` with which a text
begins. -/
def runTo (set : CharSet) (closing : List Char) : Nat → List Char → Option Nat
  | least, [] => if least = 0 ∧ closing = [] then some 0 else none
  | least, c :: s =>
    (if set.holds c then (runTo set closing (least - 1) s).map (· + 1) else none).or
      (if least = 0 ∧ closing <+: c :: s then some closing.length else none)

theorem head?_ways_run (set : CharSet) (least : Nat) (closing : List Char) (k : Cursor) :
    ((seq (run set least none) (word closing)).ways k).head? =
      (runTo set closing least k.rest).map fun n => k.behind (k.rest.take n) := by
  induction h : k.rest generalizing k least with
  | nil =>
    rw [ways_seq, ways_run_nil h, runTo]
    by_cases hleast : least = 0 <;> by_cases hclosing : closing = [] <;> simp [hleast, hclosing, h]
  | cons c s ih =>
    have hpast : (k.past c s).rest = s := rfl
    have hrun := ih (least - 1) (k.past c s) hpast
    rw [ways_seq] at hrun
    rw [ways_seq, ways_run_cons h, List.flatMap_append, List.head?_append, runTo, Option.map_or]
    congr 1
    · by_cases hc : set.holds c
      · rw [if_pos hc, if_pos hc, hrun, Option.map_map]
        congr 1
        funext n
        rw [Function.comp_apply, List.take_succ_cons, Cursor.behind_cons h]
      · rw [if_neg hc, if_neg hc]
        rfl
    · by_cases hleast : least = 0 <;> by_cases hp : closing <+: c :: s
      · have htake : (c :: s).take closing.length = closing :=
          (List.prefix_iff_eq_take.1 hp).symm
        simp [hleast, hp, h, htake]
      all_goals simp [hleast, hp, h]

theorem runTo_le (h : runTo set closing least s = some n) : n ≤ s.length := by
  induction s generalizing least n with
  | nil =>
    rw [runTo] at h
    split at h
    · exact Nat.le_of_eq (Option.some.inj h).symm
    · cases h
  | cons c s ih =>
    rw [runTo, Option.or_eq_some_iff] at h
    rcases h with h | ⟨-, h⟩
    · split at h
      · obtain ⟨m, hm, rfl⟩ := Option.map_eq_some_iff.1 h
        exact Nat.succ_le_succ (ih hm)
      · cases h
    · split at h
      · rename_i hp
        obtain rfl := Option.some.inj h
        exact hp.2.length_le
      · cases h

/-- The stretch that the pattern of `opening`, a run and `closing` takes. -/
def betweenSpan (opening : List Char) (set : CharSet) (least : Nat) (closing s : List Char) :
    Option Nat :=
  if opening <+: s then (runTo set closing least (s.drop opening.length)).map (opening.length + ·)
  else none

theorem match?_between (opening : List Char) (set : CharSet) (least : Nat) (closing : List Char)
    (before : Option Char) (s : List Char) :
    ((between opening set least closing).match? before s).map Cursor.taken =
      betweenSpan opening set least closing s := by
  have hrest : (Cursor.origin before s).rest = s := rfl
  rw [match?, between, ways_wordThen, betweenSpan, hrest]
  by_cases hp : opening <+: s
  · rw [if_pos hp, if_pos hp, head?_ways_run, Option.map_map]
    refine Option.map_congr fun n hn => ?_
    have hle := runTo_le hn
    have htaken : (Cursor.origin before s).taken = 0 := rfl
    simp only [Cursor.behind, hrest, htaken, Function.comp_apply, List.length_take] at hle ⊢
    omega
  · rw [if_neg hp, if_neg hp]
    rfl

/-! ### Patterns that take something -/

/-- Every match takes at least one character. -/
def Consumes (p : Pattern) : Prop :=
  ∀ before s k, p.match? before s = some k → 0 < k.taken ∧ k.taken ≤ s.length

theorem replaceFrom_nil (h : p.Consumes) : replaceFrom p t before left barred [] = [] := by
  rw [replaceFrom_end]
  have hnone : p.match? before [] = none := by
    cases hk : p.match? before [] with
    | none => rfl
    | some k =>
      obtain ⟨hpos, hle⟩ := h before [] k hk
      exact absurd hpos (Nat.not_lt_of_le hle)
  rw [hnone]
  cases barred <;> rfl

/-- Whether a match stands in front makes no difference. -/
theorem replaceFrom_barred (h : p.Consumes) (barred : Bool) :
    replaceFrom p t before 0 barred s = replaceFrom p t before 0 false s := by
  cases s with
  | nil => rw [replaceFrom_nil h, replaceFrom_nil h]
  | cons c s =>
    rw [replaceFrom_at, replaceFrom_at]
    cases hk : p.match? before (c :: s) with
    | none => rfl
    | some k =>
      obtain ⟨n, hn⟩ := Nat.exists_eq_add_one.2 (h before (c :: s) k hk).1
      simp only [hn]

theorem replaceFrom_of_none (h : p.match? before (c :: s) = none) :
    replaceFrom p t before 0 barred (c :: s) = c :: replaceFrom p t (some c) 0 false s := by
  rw [replaceFrom_at, h]

/-- The rest of a match is passed over. -/
theorem replaceFrom_pass (w : List Char) :
    replaceFrom p t before w.length barred (w ++ rest) =
      replaceFrom p t (w.getLast?.or before) 0 barred rest := by
  induction w generalizing before with
  | nil => rfl
  | cons c w ih =>
    rw [List.length_cons, List.cons_append, replaceFrom_over, ih, Cursor.getLast?_cons_or]

/-- A match at the front is replaced. -/
theorem replaceFrom_of_match (h : p.Consumes) (hk : p.match? before (w ++ rest) = some k)
    (htaken : k.taken = w.length) :
    replaceFrom p t before 0 barred (w ++ rest) =
      t.fill (k.groupText (w ++ rest)) ++ replaceFrom p t w.getLast? 0 false rest := by
  cases w with
  | nil =>
    have hpos := (h _ _ _ hk).1
    rw [htaken] at hpos
    exact absurd hpos (Nat.lt_irrefl 0)
  | cons c w =>
    rw [List.cons_append] at hk ⊢
    rw [replaceFrom_at, hk]
    simp only [htaken, List.length_cons]
    rw [replaceFrom_pass, replaceFrom_barred h, ← Cursor.getLast?_cons_or c w none, Option.or_none]

/-- If what a pattern takes does not hang on what stands before, its matches are stretches. -/
theorem replaceAll_eq_replaceSpans {span : List Char → Option Nat}
    (hspan : ∀ before s, (p.match? before s).map Cursor.taken = span s)
    (hlength : ∀ s n, span s = some n → 0 < n ∧ n ≤ s.length) (put s : List Char) :
    p.replaceAll (put.map .char) s = Text.replaceSpans span put 0 s := by
  have hconsumes : p.Consumes := by
    intro before s k hk
    exact hlength s k.taken (by rw [← hspan before, hk, Option.map_some])
  suffices ∀ before, replaceFrom p (put.map .char) before 0 false s = Text.replaceSpans span put 0 s
    from this none
  induction hn : s.length using Nat.strongRecOn generalizing s with
  | ind n ih =>
    intro before
    cases s with
    | nil => rw [replaceFrom_nil hconsumes, Text.replaceSpans_nil]
    | cons c s =>
      have htaken := hspan before (c :: s)
      cases hk : p.match? before (c :: s) with
      | none =>
        rw [hk, Option.map_none] at htaken
        rw [replaceFrom_of_none hk, Text.replaceSpans, ← htaken, ih s.length (by simp [← hn]) s rfl]
      | some k =>
        rw [hk, Option.map_some] at htaken
        obtain ⟨hpos, hle⟩ := hlength (c :: s) k.taken htaken.symm
        obtain ⟨w, rest, hs, hw⟩ : ∃ w rest, c :: s = w ++ rest ∧ k.taken = w.length :=
          ⟨_, _, (List.take_append_drop k.taken (c :: s)).symm, (List.length_take_of_le hle).symm⟩
        rw [hs] at hk htaken hn ⊢
        rw [hw] at htaken hpos
        rw [replaceFrom_of_match hconsumes hk hw, Template.fill_map_char,
          Text.replaceSpans_stretch htaken.symm (List.ne_nil_of_length_pos hpos),
          ih rest.length (by rw [List.length_append] at hn; omega) rest rfl]

end Pattern
end IconModules
