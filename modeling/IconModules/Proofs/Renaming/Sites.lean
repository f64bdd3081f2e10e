import IconModules.Proofs.Pattern.Matching
import IconModules.Proofs.Text.Respelling

/-! # Words that are replaced at their sites

A rule need not replace a word wherever it stands: what surrounds an occurrence decides.
`site before back` says that an occurrence counts when the character `before`, or nothing, stands in front
of it and `back` follows it.

* `Text.ReplacedAt site old new before s t` says that `t` is `s`, read from left to right behind `before`,
  with `new` in the place of `old` at its sites. It determines `t` (`ReplacedAt.unique`).
* What shares no character with the word is kept in front of a text (`ReplacedAt.append_left`) and, if the
  sites do not hang on it, behind a text (`ReplacedAt.append_right`). A front in which the word cannot begin
  is kept too (`ReplacedAt.keeps_front`).
* If no site lies inside the word, sites do not get into each other's way. All of them are replaced at once:
  they are the joints of the pieces between which the word stood (`ReplacedAt.exists_pieces`). -/

namespace IconModules.Text

variable {site : Option Char → List Char → Prop} {old new s t t' u w p front back : List Char}
  {before before' : Option Char} {c : Char} {pieces : List (List Char)}

/-- From left to right every occurrence of `old` that is a site becomes `new`, and all else is kept. -/
inductive ReplacedAt (site : Option Char → List Char → Prop) (old new : List Char) :
    Option Char → List Char → List Char → Prop
  | done {before : Option Char} : ReplacedAt site old new before [] []
  | keep {before : Option Char} {c : Char} {s t : List Char}
      (hno : ∀ back, c :: s = old ++ back → ¬ site before back)
      (h : ReplacedAt site old new (some c) s t) : ReplacedAt site old new before (c :: s) (c :: t)
  | swap {before : Option Char} {back t : List Char} (hsite : site before back)
      (h : ReplacedAt site old new old.getLast? back t) :
      ReplacedAt site old new before (old ++ back) (new ++ t)

namespace ReplacedAt

/-! ### One step -/

theorem eq_nil (hold : old ≠ []) (h : ReplacedAt site old new before [] t) : t = [] := by
  generalize hs : [] = s at h
  cases h with
  | done => rfl
  | keep => cases hs
  | swap => exact absurd (List.append_eq_nil_iff.1 hs.symm).1 hold

/-- A text goes on behind its first character, or behind the word if that stands there at a site. -/
theorem cases_cons (h : ReplacedAt site old new before (c :: s) t) :
    (∃ t', t = c :: t' ∧ ReplacedAt site old new (some c) s t' ∧
        ∀ back, c :: s = old ++ back → ¬ site before back) ∨
      ∃ back t', c :: s = old ++ back ∧ t = new ++ t' ∧ site before back ∧
        ReplacedAt site old new old.getLast? back t' := by
  generalize hs : c :: s = s' at h
  cases h with
  | done => cases hs
  | keep hno h =>
    obtain ⟨rfl, rfl⟩ := List.cons.inj hs
    exact .inl ⟨_, rfl, h, hno⟩
  | swap hsite h => exact .inr ⟨_, _, rfl, rfl, hsite, h⟩

theorem of_not_site (hno : ∀ back, c :: s = old ++ back → ¬ site before back)
    (h : ReplacedAt site old new before (c :: s) t) :
    ∃ t', t = c :: t' ∧ ReplacedAt site old new (some c) s t' := by
  rcases h.cases_cons with ⟨t', ht, h, -⟩ | ⟨back, _, hback, -, hsite, -⟩
  · exact ⟨t', ht, h⟩
  · exact absurd hsite (hno back hback)

theorem of_site (hold : old ≠ []) (hsite : site before back)
    (h : ReplacedAt site old new before (old ++ back) t) :
    ∃ t', t = new ++ t' ∧ ReplacedAt site old new old.getLast? back t' := by
  obtain ⟨c, s, hs⟩ := List.exists_cons_of_ne_nil (List.append_ne_nil_of_left_ne_nil hold back)
  rw [hs] at h
  rcases h.cases_cons with ⟨_, -, -, hno⟩ | ⟨back', t', hback, ht, -, h⟩
  · exact absurd hsite (hno back hs.symm)
  · obtain rfl := List.append_cancel_left (hs.trans hback)
    exact ⟨t', ht, h⟩

theorem unique (hold : old ≠ []) (h : ReplacedAt site old new before s t)
    (h' : ReplacedAt site old new before s t') : t = t' := by
  induction h generalizing t' with
  | done => exact (h'.eq_nil hold).symm
  | keep hno _ ih =>
    obtain ⟨_, rfl, hrest⟩ := h'.of_not_site hno
    rw [ih hrest]
  | swap hsite _ ih =>
    obtain ⟨_, rfl, hrest⟩ := h'.of_site hold hsite
    rw [ih hrest]

/-- A function replaces the word at its sites if it goes on behind the word there and behind the first character
elsewhere. -/
theorem of_equations {f : Option Char → List Char → List Char} (hold : old ≠ [])
    (hnil : ∀ before, f before [] = [])
    (hkeep : ∀ before c s, (∀ back, c :: s = old ++ back → ¬ site before back) →
      f before (c :: s) = c :: f (some c) s)
    (hswap : ∀ before back, site before back → f before (old ++ back) = new ++ f old.getLast? back)
    (before : Option Char) (s : List Char) : ReplacedAt site old new before s (f before s) := by
  induction hn : s.length using Nat.strongRecOn generalizing before s with
  | ind n ih =>
    cases s with
    | nil =>
      rw [hnil]
      exact .done
    | cons c s =>
      by_cases hsite : ∃ back, c :: s = old ++ back ∧ site before back
      · obtain ⟨back, hback, hsite⟩ := hsite
        have hlong := List.length_pos_iff.2 hold
        rw [hback, List.length_append] at hn
        rw [hback, hswap before back hsite]
        exact .swap hsite (ih back.length (by omega) _ back rfl)
      · have hno : ∀ back, c :: s = old ++ back → ¬ site before back :=
          fun back hback hs => hsite ⟨back, hback, hs⟩
        rw [List.length_cons] at hn
        rw [hkeep before c s hno]
        exact .keep hno (ih s.length (by omega) _ s rfl)

/-- What stands in front of a text makes a difference only if the text begins at a site. -/
theorem congr_before (hs : ∀ back, s = old ++ back → (site before back ↔ site before' back))
    (h : ReplacedAt site old new before s t) : ReplacedAt site old new before' s t := by
  cases h with
  | done => exact .done
  | keep hno h => exact .keep (fun back hback => mt (hs back hback).2 (hno back hback)) h
  | swap hsite h => exact .swap ((hs _ rfl).1 hsite) h

/-! ### What stands around a text -/

theorem mem_of_cons_eq_append (hold : old ≠ []) (h : c :: s = old ++ back) : c ∈ old := by
  obtain ⟨d, old, rfl⟩ := List.exists_cons_of_ne_nil hold
  rw [(List.cons.inj h).1]
  exact List.mem_cons_self

theorem append_left (hold : old ≠ []) (hu : ∀ c ∈ u, c ∉ old)
    (h : ReplacedAt site old new (u.getLast?.or before) s t) :
    ReplacedAt site old new before (u ++ s) (u ++ t) := by
  induction u generalizing before with
  | nil => exact h
  | cons c u ih =>
    rw [List.forall_mem_cons] at hu
    rw [Cursor.getLast?_cons_or] at h
    exact .keep (fun _ hback => absurd (mem_of_cons_eq_append hold hback) hu.1) (ih hu.2 h)

theorem of_append_left (hold : old ≠ []) (hu : ∀ c ∈ u, c ∉ old)
    (h : ReplacedAt site old new before (u ++ s) t) :
    ∃ t', t = u ++ t' ∧ ReplacedAt site old new (u.getLast?.or before) s t' := by
  induction u generalizing before t with
  | nil => exact ⟨t, rfl, h⟩
  | cons c u ih =>
    rw [List.forall_mem_cons] at hu
    obtain ⟨_, rfl, hrest⟩ := h.of_not_site fun _ hback =>
      absurd (mem_of_cons_eq_append hold hback) hu.1
    obtain ⟨t', rfl, ht'⟩ := ih hu.2 hrest
    rw [Cursor.getLast?_cons_or]
    exact ⟨t', rfl, ht'⟩

/-- What follows a text and shares no character with the word is no part of an occurrence. -/
theorem exists_of_append_eq (hw : ∀ c ∈ w, c ∉ old) (h : s ++ w = old ++ back) :
    ∃ x, s = old ++ x ∧ back = x ++ w := by
  rcases List.append_eq_append_iff.1 h with ⟨a, rfl, rfl⟩ | ⟨x, hs, hback⟩
  · cases a with
    | nil => exact ⟨[], by simp, rfl⟩
    | cons d a => exact absurd (by simp) (hw d (by simp))
  · exact ⟨x, hs, hback⟩

theorem append_right (hold : old ≠ []) (hw : ∀ c ∈ w, c ∉ old)
    (hsite : ∀ before back, site before (back ++ w) ↔ site before back)
    (h : ReplacedAt site old new before s t) : ReplacedAt site old new before (s ++ w) (t ++ w) := by
  induction h with
  | @done before =>
    have hblank := @append_left site old new [] [] w before hold hw .done
    rwa [List.append_nil] at hblank
  | keep hno _ ih =>
    refine .keep (fun back hback => ?_) ih
    obtain ⟨x, hx, rfl⟩ := exists_of_append_eq hw (show _ :: _ ++ w = old ++ back from hback)
    exact mt (hsite _ x).1 (hno x hx)
  | swap hs _ ih =>
    rw [List.append_assoc, List.append_assoc]
    exact .swap ((hsite _ _).2 hs) ih

/-- A front in which the word cannot begin is kept. -/
theorem keeps_front (hu : ∀ v, v <:+ u → v ≠ [] → Clash old v)
    (h : ReplacedAt site old new before (u ++ s) t) : u <+: t := by
  induction u generalizing before t with
  | nil => exact List.nil_prefix
  | cons c u ih =>
    have hclash := hu (c :: u) List.suffix_rfl (List.cons_ne_nil c u)
    obtain ⟨_, rfl, hrest⟩ := h.of_not_site fun back hback =>
      absurd ⟨back, hback.symm⟩ (hclash.not_starts s)
    exact List.cons_prefix_cons.2
      ⟨rfl, ih (fun v hv => hu v (hv.trans (List.suffix_cons c u))) hrest⟩

end ReplacedAt

/-! ### Pieces and joints -/

/-- One of the places where the pieces meet: what stands in front of the word there, and what follows it. -/
def Joint (word : List Char) (pieces : List (List Char)) (front back : List Char) : Prop :=
  ∃ ps qs, ps ≠ [] ∧ qs ≠ [] ∧ pieces = ps ++ qs ∧ front = word.intercalate ps ∧
    back = word.intercalate qs

theorem intercalate_cons (word p : List Char) (h : pieces ≠ []) :
    word.intercalate (p :: pieces) = p ++ (word ++ word.intercalate pieces) := by
  obtain ⟨q, qs, rfl⟩ := List.exists_cons_of_ne_nil h
  rw [List.intercalate_cons_cons, List.append_assoc]

theorem intercalate_append (word u p : List Char) (pieces : List (List Char)) :
    word.intercalate ((u ++ p) :: pieces) = u ++ word.intercalate (p :: pieces) := by
  cases pieces with
  | nil => rw [List.intercalate_singleton, List.intercalate_singleton]
  | cons q qs => simp only [List.intercalate_cons_cons, List.append_assoc]

/-- A text that is put in front joins the first piece. -/
theorem joint_append_iff : Joint old ((u ++ p) :: pieces) front back ↔
    ∃ front', front = u ++ front' ∧ Joint old (p :: pieces) front' back := by
  constructor
  · rintro ⟨ps, qs, hps, hqs, hsplit, rfl, rfl⟩
    obtain ⟨q, ps, rfl⟩ := List.exists_cons_of_ne_nil hps
    obtain ⟨rfl, rfl⟩ := List.cons.inj hsplit
    exact ⟨_, intercalate_append .., p :: ps, qs, List.cons_ne_nil _ _, hqs, rfl, rfl, rfl⟩
  · rintro ⟨_, rfl, ps, qs, hps, hqs, hsplit, rfl, rfl⟩
    obtain ⟨q, ps, rfl⟩ := List.exists_cons_of_ne_nil hps
    obtain ⟨rfl, rfl⟩ := List.cons.inj hsplit
    exact ⟨(u ++ p) :: ps, qs, List.cons_ne_nil _ _, hqs, rfl, (intercalate_append ..).symm, rfl⟩

/-- The joints are the one behind the first piece and those of the other pieces. -/
theorem joint_cons_iff (h : pieces ≠ []) : Joint old (p :: pieces) front back ↔
    front = p ∧ back = old.intercalate pieces ∨
      ∃ front', front = p ++ (old ++ front') ∧ Joint old pieces front' back := by
  constructor
  · rintro ⟨ps, qs, hps, hqs, hsplit, rfl, rfl⟩
    obtain ⟨q, ps, rfl⟩ := List.exists_cons_of_ne_nil hps
    obtain ⟨rfl, rfl⟩ := List.cons.inj hsplit
    cases ps with
    | nil => exact .inl ⟨List.intercalate_singleton .., rfl⟩
    | cons r ps =>
      exact .inr ⟨_, intercalate_cons old p (List.cons_ne_nil r ps), r :: ps, qs,
        List.cons_ne_nil _ _, hqs, rfl, rfl, rfl⟩
  · rintro (⟨rfl, rfl⟩ | ⟨_, rfl, ps, qs, hps, hqs, rfl, rfl, rfl⟩)
    · exact ⟨[front], pieces, List.cons_ne_nil _ _, h, rfl, (List.intercalate_singleton ..).symm, rfl⟩
    · exact ⟨p :: ps, qs, List.cons_ne_nil _ _, hqs, rfl, (intercalate_cons old p hps).symm, rfl⟩

/-- Of two occurrences the later one begins with the earlier one, inside it or behind it. -/
theorem occurrence_cases (h : old ++ s = front ++ (old ++ back)) :
    front = [] ∧ back = s ∨ (∃ c ∈ old, front.getLast? = some c ∧ ¬ old <+: front) ∨
      ∃ front', front = old ++ front' ∧ s = front' ++ (old ++ back) := by
  rcases Nat.lt_or_ge front.length old.length with hlt | hge
  · cases front with
    | nil => exact .inl ⟨rfl, (List.append_cancel_left h).symm⟩
    | cons d front =>
      have hprefix : d :: front <+: old :=
        List.prefix_of_prefix_length_le ⟨_, h.symm⟩ (List.prefix_append old s) hlt.le
      refine .inr (.inl ⟨_, hprefix.subset (List.getLast_mem (List.cons_ne_nil d front)), ?_, ?_⟩)
      · exact List.getLast?_eq_some_getLast _
      · exact fun hp => absurd hp.length_le (Nat.not_le_of_lt hlt)
  · obtain ⟨front, rfl⟩ : old <+: front :=
      List.prefix_of_prefix_length_le ⟨s, h⟩ (List.prefix_append front _) hge
    rw [List.append_assoc] at h
    exact .inr (.inr ⟨front, rfl, List.append_cancel_left h⟩)

/-- If no site lies inside the word, all sites are replaced at once: they are the joints of the pieces between
which the word stood and `new` stands now. -/
theorem ReplacedAt.exists_pieces (hold : old ≠ []) (hinside : ∀ c ∈ old, ∀ back, ¬ site (some c) back)
    (h : ReplacedAt site old new before s t) :
    ∃ p ps, s = old.intercalate (p :: ps) ∧ t = new.intercalate (p :: ps) ∧
      ∀ front back, s = front ++ (old ++ back) →
        (site (front.getLast?.or before) back ↔ Joint old (p :: ps) front back) := by
  induction h with
  | done =>
    refine ⟨[], [], rfl, rfl, fun front back hs => ?_⟩
    exact absurd (List.append_eq_nil_iff.1 (List.append_eq_nil_iff.1 hs.symm).2).1 hold
  | @keep before c s t hno _ ih =>
    obtain ⟨p, ps, hs, ht, hjoints⟩ := ih
    refine ⟨[c] ++ p, ps, ?_, ?_, fun front back hfront => ?_⟩
    · rw [intercalate_append, ← hs]
      rfl
    · rw [intercalate_append, ← ht]
      rfl
    · rw [joint_append_iff]
      cases front with
      | nil => exact iff_of_false (hno back hfront) (by simp)
      | cons d front =>
        obtain ⟨rfl, hrest⟩ := List.cons.inj hfront
        rw [Cursor.getLast?_cons_or, hjoints front back hrest]
        simp
  | @swap before s t hsite _ ih =>
    obtain ⟨p, ps, hs, ht, hjoints⟩ := ih
    have hne : p :: ps ≠ [] := List.cons_ne_nil p ps
    refine ⟨[], p :: ps, ?_, ?_, fun front back hfront => ?_⟩
    · rw [intercalate_cons old [] hne, ← hs, List.nil_append]
    · rw [intercalate_cons new [] hne, ← ht, List.nil_append]
    · rw [joint_cons_iff hne]
      rcases occurrence_cases hfront with ⟨rfl, rfl⟩ | ⟨c, hc, hlast, hshort⟩ | ⟨front, rfl, hrest⟩
      · exact iff_of_true hsite (.inl ⟨rfl, hs⟩)
      · rw [hlast]
        refine iff_of_false (hinside c hc back) ?_
        rintro (⟨rfl, -⟩ | ⟨front', rfl, -⟩)
        · cases hlast
        · exact hshort (List.prefix_append old front')
      · have hlast : old.getLast?.or before = old.getLast? := by
          rw [List.getLast?_eq_some_getLast hold, Option.some_or]
        rw [List.getLast?_append, Option.or_assoc, hlast, hjoints front back hrest]
        simp [hold]

end IconModules.Text
