import IconModules.Proofs.Renaming.Calls
import IconModules.Proofs.Renaming.Sites
import IconModules.Proofs.Renaming.Verbatim

/-! # Where calls are renamed

A call of a function stands at the start of a text, behind white space or behind an opening bracket, and white
space and a quotation mark follow the name (`Renaming.CallSite`).

* The pattern of a rule for calls takes the character in front of a name along, and what follows it up to the
  quotation mark. A call would be missed if a match before it took the character in front of it. No match does
  if the name has only letters, digits, underscores and hyphens, because matches end with quotation marks
  (`Pattern.replacedAt_called`).
* Hence such a rule renames all calls and nothing else (`Finish.calls_renamed`). -/

namespace IconModules

namespace Renaming

variable {n : String} {c : Char}

/-! ### Names and calls -/

/-- Letters, digits, underscores and hyphens, at least one. -/
def PlainName (n : String) : Prop :=
  n ≠ "" ∧ ∀ c ∈ n.toList, c.isAlphanum = true ∨ c = '_' ∨ c = '-'

instance (n : String) : Decidable (PlainName n) := by
  have : Decidable (∀ c ∈ n.toList, c.isAlphanum = true ∨ c = '_' ∨ c = '-') :=
    List.decidableBAll _ n.toList
  exact inferInstanceAs (Decidable (_ ∧ _))

/-- White space or an opening bracket. -/
def Opens (c : Char) : Prop :=
  Text.isBlank c = true ∨ c = '['

/-- White space and a quotation mark come next. -/
def Quoted (back : List Char) : Prop :=
  ∃ space rest, back = space ++ '"' :: rest ∧ space ≠ [] ∧ ∀ c ∈ space, Text.isBlank c = true

/-- A name is called where nothing or a character that opens a call stands in front of it and white space and
a quotation mark follow it. -/
structure CallSite (before : Option Char) (back : List Char) : Prop where
  opened : ∀ c ∈ before, Opens c
  quoted : Quoted back

theorem holds_bounds_iff : Pattern.bounds.holds c = true ↔ Opens c := by
  simp only [CharSet.holds, Pattern.bounds, List.any_cons, List.any_nil, CharItem.holds, Bool.or_false,
    Bool.bne_false, Bool.or_eq_true, Bool.and_eq_true, decide_eq_true_eq]
  exact or_congr_right
    ⟨fun h => Char.le_antisymm h.2 h.1, fun h => h ▸ ⟨Char.le_refl _, Char.le_refl _⟩⟩

theorem toNat_of_isAlphanum (h : c.isAlphanum = true) :
    48 ≤ c.toNat ∧ c.toNat ≤ 122 ∧ c.toNat ≠ 91 := by
  delta Char.isAlphanum Char.isAlpha Char.isUpper Char.isLower Char.isDigit at h
  simp only [Bool.or_eq_true, Bool.and_eq_true, decide_eq_true_eq, ge_iff_le, UInt32.le_iff_toNat_le,
    Char.toNat_val, Char.reduceToNat] at h
  omega

theorem PlainName.toList_ne_nil (h : PlainName n) : n.toList ≠ [] :=
  mt String.toList_eq_nil_iff.1 h.1

/-- No character of a name is white space, an opening bracket or a quotation mark. -/
theorem PlainName.foreign (h : PlainName n) (hc : c ∈ n.toList) :
    Text.isBlank c = false ∧ c ≠ '[' ∧ c ≠ '"' := by
  rcases h.2 c hc with hplain | rfl | rfl
  · have hrange := toNat_of_isAlphanum hplain
    refine ⟨?_, ?_, ?_⟩
    · simp only [Text.isBlank, Text.blankRanges, List.any_cons, List.any_nil, Bool.or_false,
        Bool.or_eq_false_iff, Bool.and_eq_false_iff, decide_eq_false_iff_not]
      omega
    all_goals
      rintro rfl
      exact absurd hrange (by decide)
  · decide
  · decide

theorem PlainName.not_opens (h : PlainName n) (hc : c ∈ n.toList) : ¬ Opens c := by
  obtain ⟨hblank, hbracket, -⟩ := h.foreign hc
  rw [Opens, hblank]
  simp [hbracket]

theorem not_mem_of_opens (h : PlainName n) (hc : Opens c) : c ∉ n.toList :=
  fun hm => h.not_opens hm hc

theorem not_opens_quote : ¬ Opens '"' := by
  rintro (hblank | hbracket)
  · exact absurd hblank (by decide)
  · exact absurd hbracket (by decide)

end Renaming

namespace Pattern

open Renaming (CallSite PlainName Opens Quoted)

variable {set : CharSet} {least : Nat} {k : Cursor} {old new lead space s w rest back : List Char}
  {t : List Char} {before : Option Char} {n : String} {c : Char}

/-! ### Matches at calls -/

theorem behind_mem_ways_run (hw : w <+: k.rest) (hset : ∀ c ∈ w, set.holds c) (hleast : least ≤ w.length) :
    k.behind w ∈ (run set least none).ways k := by
  induction w generalizing k least with
  | nil =>
    obtain rfl : least = 0 := Nat.le_zero.1 hleast
    rw [Cursor.behind_nil]
    cases hs : k.rest with
    | nil => simp [ways_run_nil hs]
    | cons c s => simp [ways_run_cons hs]
  | cons c w ih =>
    rw [List.forall_mem_cons] at hset
    obtain ⟨s, hs⟩ := hw
    rw [ways_run_cons hs.symm, List.mem_append, if_pos hset.1, Cursor.behind_cons hs.symm]
    refine .inl (ih (List.prefix_append w s) hset.2 ?_)
    rw [List.length_cons] at hleast
    omega

theorem behind_mem_ways_lead (hlead : Leads k.before lead) (hp : lead <+: k.rest) :
    k.behind lead ∈ (alt (seq (start true) empty) (seq (one bounds) empty)).ways k := by
  obtain ⟨s, hs⟩ := hp
  rw [ways_alt, List.mem_append]
  rcases hlead with ⟨rfl, hbefore⟩ | ⟨c, rfl, hc⟩
  · left
    cases hb : k.before with
    | none => simp [ways_start, hb]
    | some b => simp [ways_start, hb, hbefore b hb]
  · right
    have hrest : k.rest = c :: s := hs.symm
    simp [ways_one, hrest, hc, Cursor.behind_cons hrest]

/-- Where the parts of a call come next, the pattern matches. -/
theorem match?_called_ne_none (hlead : Leads before lead) (hback : Quoted back) :
    (called old).match? before (lead ++ (old ++ back)) ≠ none := by
  obtain ⟨space, rest, rfl, hspace, hblank⟩ := hback
  -- some way leads through all pieces of the pattern
  have hfirst := @behind_mem_ways_lead (.origin before (lead ++ (old ++ (space ++ '"' :: rest)))) lead
    hlead (List.prefix_append _ _)
  intro hnone
  rw [match?, List.head?_eq_none_iff, called, ways_seq, List.flatMap_eq_nil_iff] at hnone
  have hname := hnone _ (List.mem_map_of_mem hfirst)
  rw [ways_wordThen, if_pos (by simp [Cursor.close, Cursor.behind, Cursor.origin]), ways_seq,
    List.flatMap_eq_nil_iff] at hname
  generalize hk : Cursor.behind (Cursor.close _ _ _) old = k at hname
  have hrest : k.rest = space ++ '"' :: rest := by
    simp [← hk, Cursor.close, Cursor.behind, Cursor.origin]
  have hset : ∀ c ∈ space, CharSet.blanks.holds c := fun c hc => by
    rw [CharSet.holds_blanks, hblank c hc]
  have hrun := @behind_mem_ways_run .blanks 1 k space (hrest ▸ List.prefix_append _ _) hset
    (List.length_pos_iff.2 hspace)
  have hquote : (k.behind space).behind ['"'] ∈ (word ['"']).ways (k.behind space) := by
    rw [ways_word, if_pos (by simp [Cursor.behind, hrest])]
    exact List.mem_singleton_self _
  have hnext := hname _ (List.mem_map_of_mem (List.mem_flatMap.2 ⟨_, hrun, hquote⟩))
  cases hnext

/-! ### Replacing -/

theorem Leads.opens (h : Leads before lead) (hc : c ∈ lead) : Opens c := by
  rcases h with ⟨rfl, -⟩ | ⟨d, rfl, hd⟩
  · cases hc
  · rw [List.mem_singleton.1 hc]
    exact Renaming.holds_bounds_iff.1 hd

/-- One call renamed, and what follows it. -/
theorem replacedAt_call (hn : PlainName n) (hlead : Leads before lead) (hspace : space ≠ [])
    (hblank : ∀ c ∈ space, Text.isBlank c = true)
    (h : Text.ReplacedAt CallSite n.toList new (some '"') rest t) :
    Text.ReplacedAt CallSite n.toList new before (lead ++ (n.toList ++ (space ++ '"' :: rest)))
      (lead ++ (new ++ (space ++ '"' :: t))) := by
  have hne := hn.toList_ne_nil
  have hsite : CallSite (lead.getLast?.or before) (space ++ '"' :: rest) :=
    ⟨fun b hb => Renaming.holds_bounds_iff.1 (hlead.bounds b hb), space, rest, rfl, hspace, hblank⟩
  have hback : Text.ReplacedAt CallSite n.toList new n.toList.getLast? ((space ++ ['"']) ++ rest)
      ((space ++ ['"']) ++ t) := by
    refine .append_left hne (fun c hc hm => ?_) (by rwa [List.getLast?_concat, Option.some_or])
    rcases List.mem_append.1 hc with hc | hc
    · exact absurd (hblank c hc) (by simp [(hn.foreign hm).1])
    · exact (hn.foreign hm).2.2 (List.mem_singleton.1 hc)
  rw [List.append_assoc, List.append_assoc] at hback
  exact .append_left hne (fun c hc => Renaming.not_mem_of_opens hn (hlead.opens hc)) (.swap hsite hback)

/-- Replacing the matches behind `before` renames the calls, if the text does not begin with a call of which the
character in front was taken. -/
theorem replacedAt_called (hn : PlainName n) (new : List Char)
    (hfront : ∀ back, s = n.toList ++ back → CallSite before back → ∀ b ∈ before, b = '\n') :
    Text.ReplacedAt CallSite n.toList new before s
      (replaceFrom (called n.toList) (renamedCall new) before 0 false s) := by
  induction hlength : s.length using Nat.strongRecOn generalizing s before with
  | ind length ih =>
    cases s with
    | nil =>
      rw [replaceFrom_nil (consumes_called _)]
      exact .done
    | cons c s =>
      cases hk : (called n.toList).match? before (c :: s) with
      | none =>
        rw [replaceFrom_of_none hk]
        refine .keep (fun back hback hsite => ?_) (ih s.length (by simp [← hlength]) ?_ rfl)
        · rw [hback] at hk
          exact match?_called_ne_none (.inl ⟨rfl, hfront back hback hsite⟩) hsite.quoted hk
        · rintro back rfl hsite
          have hlead : Leads before [c] := .inr ⟨c, rfl, Renaming.holds_bounds_iff.2 (hsite.opened c rfl)⟩
          exact absurd hk (match?_called_ne_none hlead hsite.quoted)
      | some k =>
        obtain ⟨lead, space, rest, hs, hlead, hspace, hblank, hshort, hreplaced⟩ :=
          replaceFrom_of_call hk new
        have hrest := @ih rest.length (hlength ▸ hshort) rest (some '"')
          (fun back _ hsite => absurd (hsite.opened '"' rfl) Renaming.not_opens_quote) rfl
        rw [hreplaced, hs]
        exact replacedAt_call hn hlead hspace hblank hrest

end Pattern

namespace Finish

open Pattern (called greatestSize)
open Renaming (CallSite PlainName call)

/-- A rule for the calls of a function is ready unless the name is too long for a pattern, and then it renames all
calls at once: the texts between the calls stay, and the names between them are the new ones. -/
theorem calls_renamed (old new : String) (hold : PlainName old) :
    ((∃ r, (call old new).prepare? = some r) ↔ (called old.toList).size ≤ greatestSize) ∧
      ∀ r, (call old new).prepare? = some r → ∀ indent code, ∃ pieces,
        code.toList = old.toList.intercalate pieces ∧
        ((⟨[r], indent⟩ : Finish).rename code).toList = new.toList.intercalate pieces ∧
        ∀ front back, code.toList = front ++ (old.toList ++ back) →
          (CallSite front.getLast? back ↔ Text.Joint old.toList pieces front back) := by
  refine ⟨by simp [Renaming.prepare?_call_eq_some_iff], fun r hr indent code => ?_⟩
  obtain ⟨-, rfl⟩ := Renaming.prepare?_call_eq_some_iff.1 hr
  have hreplaced := @Pattern.replacedAt_called code.toList none old hold new.toList (by simp)
  obtain ⟨p, ps, hcode, hout, hjoints⟩ := hreplaced.exists_pieces hold.toList_ne_nil
    fun c hc back hsite => hold.not_opens hc (hsite.opened c rfl)
  refine ⟨p :: ps, hcode, ?_, fun front back hfront => ?_⟩
  · rw [rename_single, String.toList_ofList]
    exact hout
  · rw [← hjoints front back hfront, Option.or_none]

theorem calls_renamed_adjacent :
    PlainName "opacity" ∧ ∃ r pieces, (call "opacity" "$1").prepare? = some r ∧
      "opacity \"1\"[opacity \"2\" opacity".toList = "opacity".toList.intercalate pieces ∧
      ((⟨[r], ""⟩ : Finish).rename "opacity \"1\"[opacity \"2\" opacity").toList =
        "$1".toList.intercalate pieces ∧
      (∀ front back, "opacity \"1\"[opacity \"2\" opacity".toList = front ++ ("opacity".toList ++ back) →
        (CallSite front.getLast? back ↔ Text.Joint "opacity".toList pieces front back)) ∧
      (⟨[r], ""⟩ : Finish).rename "opacity \"1\"[opacity \"2\" opacity" = "$1 \"1\"[$1 \"2\" opacity" := by
  have hold : PlainName "opacity" := by decide
  obtain ⟨hready, hrename⟩ := calls_renamed "opacity" "$1" hold
  obtain ⟨r, hr⟩ := hready.2 (by decide)
  obtain ⟨pieces, hcode, hout, hjoints⟩ := hrename r hr "" "opacity \"1\"[opacity \"2\" opacity"
  refine ⟨hold, r, pieces, hr, hcode, hout, hjoints, ?_⟩
  obtain ⟨-, rfl⟩ := Renaming.prepare?_call_eq_some_iff.1 hr
  decide

end Finish
end IconModules
