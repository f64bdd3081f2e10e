import IconModules.Proofs.Pattern.Reading
import IconModules.Renaming.Finish

/-! # Renamed calls

A rule that renames the calls of a function changes a name only between characters that stand in no name:
white space or an opening bracket in front of it, white space behind it.

* `Text.Swapped sep old new before s t` says that `t` is `s` with `new` for `old` at some places between
  characters `sep`. Then a text without such characters stands in `t` only if it stands in `s` or in `new`
  (`Swapped.occurs`).
* `Pattern.called old` is the pattern of such a rule and `Pattern.renamedCall new` its template, whatever
  signs are in the names (`prepare?_call`).
* What the pattern matches is known part by part (`match?_called`), so replacing its matches swaps the names
  (`swapped_replaceFrom`). -/

namespace IconModules

namespace Text

variable {sep : Char → Prop} {old new s t u x : List Char} {before : Option Char} {b c : Char}

/-! ### Names between separators -/

/-- At some places where `old` stands between separators `new` has come in its place. The start of the text
counts as a separator. -/
inductive Swapped (sep : Char → Prop) (old new : List Char) :
    Option Char → List Char → List Char → Prop
  | done {before : Option Char} : Swapped sep old new before [] []
  | keep {before : Option Char} {c : Char} {s t : List Char} (h : Swapped sep old new (some c) s t) :
      Swapped sep old new before (c :: s) (c :: t)
  | swap {before : Option Char} {c : Char} {s t : List Char} (hbefore : ∀ b ∈ before, sep b) (hc : sep c)
      (h : Swapped sep old new (some c) s t) :
      Swapped sep old new before (old ++ c :: s) (new ++ c :: t)

theorem Swapped.append (u : List Char) (h : Swapped sep old new (u.getLast?.or before) s t) :
    Swapped sep old new before (u ++ s) (u ++ t) := by
  induction u generalizing before with
  | nil => exact h
  | cons c u ih => exact .keep (ih (by rwa [← Cursor.getLast?_cons_or]))

/-- Behind a character that is no separator the text goes on as before up to the next one. -/
theorem Swapped.starts (h : Swapped sep old new (some b) s t) (hb : ¬ sep b) (hx : ∀ c ∈ x, ¬ sep c)
    (hp : x <+: t) : x <+: s := by
  induction x generalizing b s t with
  | nil => exact List.nil_prefix
  | cons c x ih =>
    rw [List.forall_mem_cons] at hx
    cases h with
    | done => exact hp
    | keep h =>
      obtain ⟨rfl, hrest⟩ := List.cons_prefix_cons.1 hp
      exact List.cons_prefix_cons.2 ⟨rfl, ih h hx.1 hx.2 hrest⟩
    | swap hbefore => exact absurd (hbefore b rfl) hb

theorem prefix_of_prefix_append_cons (hc : c ∉ x) (h : x <+: u ++ c :: s) : x <+: u := by
  rw [List.append_cons] at h
  rcases List.prefix_or_prefix_of_prefix h (List.prefix_append _ s) with h | h
  · exact (List.prefix_concat_iff.1 h).resolve_left fun he => hc (he ▸ by simp)
  · exact absurd (h.subset (by simp)) hc

/-- A text that lacks the character between two others stands in one of them. -/
theorem infix_or_infix_of_append_cons (hc : c ∉ x) (h : x <:+: u ++ c :: s) : x <:+: u ∨ x <:+: s := by
  induction u with
  | nil =>
    rcases List.infix_cons_iff.1 h with hp | h
    · exact .inl (prefix_of_prefix_append_cons hc (show x <+: [] ++ c :: s from hp)).isInfix
    · exact .inr h
  | cons d u ih =>
    rcases List.infix_cons_iff.1 h with hp | h
    · exact .inl (prefix_of_prefix_append_cons hc (show x <+: (d :: u) ++ c :: s from hp)).isInfix
    · exact (ih h).imp_left fun h => h.trans (List.suffix_cons d u).isInfix

/-- A text without separators stands in the result only if it stood there before or stands in the new name. -/
theorem Swapped.occurs (h : Swapped sep old new before s t) (hx : ∀ c ∈ x, ¬ sep c)
    (hnew : ¬ x <:+: new) (hin : x <:+: t) : x <:+: s := by
  induction h with
  | done => exact hin
  | @keep before c s t h ih =>
    rcases List.infix_cons_iff.1 hin with hp | hin
    · cases x with
      | nil => exact List.nil_infix
      | cons d x =>
        rw [List.forall_mem_cons] at hx
        obtain ⟨rfl, hrest⟩ := List.cons_prefix_cons.1 hp
        exact (List.cons_prefix_cons.2 ⟨rfl, h.starts hx.1 hx.2 hrest⟩).isInfix
    · exact (ih hin).trans (List.suffix_cons c s).isInfix
  | @swap before c s t hbefore hc h ih =>
    have hrest := (infix_or_infix_of_append_cons (fun hm => hx c hm hc) hin).resolve_left hnew
    exact (ih hrest).trans ⟨old ++ [c], [], by simp⟩

end Text

namespace Pattern

variable {set : CharSet} {least : Nat} {k k' : Cursor} {old new lead space s rest : List Char}
  {before : Option Char}

/-! ### The pattern -/

/-- What may stand in front of a call. -/
def bounds : CharSet :=
  ⟨false, [.blank, .range '[' '[']⟩

/-- The pattern of a function that is called with a quoted argument. -/
def called (old : List Char) : Pattern :=
  seq (group 1 (alt (seq (start true) empty) (seq (one bounds) empty)))
    (wordThen old (seq (group 2 (seq (run .blanks 1 none) (word ['"']))) empty))

/-- The template that puts a name between the groups. -/
def renamedCall (new : List Char) : Template :=
  .group ['1'] :: new.map .char ++ [.group ['2']]

/-! ### Reading the pattern -/

theorem readAlternatives_lead (fuel : Nat) (tail : List Char) :
    readAlternatives true (fuel + 4) 2 ("^|[\\s\\[])".toList ++ tail) =
      some (alt (seq (start true) empty) (seq (one bounds) empty), 2, ')' :: tail) :=
  rfl

theorem readSequence_quoted (fuel : Nat) :
    readSequence true (fuel + 6) 2 "(\\s+\")".toList =
      some (seq (group 2 (seq (run .blanks 1 none) (word ['"']))) empty, 3, []) :=
  rfl

/-- The name is read between the two groups. -/
theorem readAlternatives_called (old : List Char) (fuel : Nat) :
    readAlternatives true (fuel + 6 + old.length + 2) 1
        ('(' :: ("^|[\\s\\[])".toList ++ (escaped old ++ "(\\s+\")".toList))) =
      some (called old, 3, []) := by
  have hlead := readAlternatives_lead (fuel + old.length + 2) (escaped old ++ "(\\s+\")".toList)
  have hfuel : fuel + old.length + 2 + 4 = fuel + 6 + old.length := by omega
  have hplain : repeats (escaped old ++ "(\\s+\")".toList) = false := not_repeats_escaped rfl old
  have hname := @readSequence_escaped true "(\\s+\")".toList rfl old (fuel + 6) 2
  rw [hfuel] at hlead
  rw [readSequence_quoted] at hname
  rw [readAlternatives, readSequence, hlead]
  simp only [hplain, hname, Bool.false_eq_true, if_false, Option.map_some]
  rfl

theorem depth_called_le (old : List Char) : (called old).depth ≤ 4 := by
  have hname := depth_wordThen_le old (seq (group 2 (seq (run .blanks 1 none) (word ['"']))) empty)
  match old with
  | [] => decide
  | [c] => exact Nat.max_le.2 ⟨by decide, hname⟩
  | c :: d :: w => exact Nat.max_le.2 ⟨by decide, hname⟩

theorem read?_call (old : String) :
    read? ("(?m)(^|[\\s\\[])" ++ Renaming.escape old ++ "(\\s+\")") =
      if (called old.toList).size ≤ greatestSize then some (called old.toList) else none := by
  have hescape : (Renaming.escape old).toList = escaped old.toList := String.toList_ofList
  have htext : ("(?m)(^|[\\s\\[])" ++ Renaming.escape old ++ "(\\s+\")").toList =
      '(' :: '?' :: 'm' :: ')' :: '(' ::
        ("^|[\\s\\[])".toList ++ (escaped old.toList ++ "(\\s+\")".toList)) := by
    rw [String.toList_append, String.toList_append, hescape, List.append_assoc]
    rfl
  obtain ⟨fuel, hfuel⟩ : ∃ fuel, 2 * ('(' :: ("^|[\\s\\[])".toList ++
      (escaped old.toList ++ "(\\s+\")".toList))).length + 2 = fuel + 6 + old.toList.length + 2 := by
    have hlong := length_le_escaped old.toList
    have hlead : "^|[\\s\\[])".toList.length = 9 := rfl
    have hquoted : "(\\s+\")".toList.length = 6 := rfl
    refine ⟨2 * (escaped old.toList).length - old.toList.length + 26, ?_⟩
    rw [List.length_cons, List.length_append, List.length_append, hlead, hquoted]
    omega
  have hread := readAlternatives_called old.toList fuel
  rw [← hfuel] at hread
  exact read?_flagged htext hread (Nat.le_trans (depth_called_le old.toList) (by decide))

/-! ### Matches -/

/-- What stands in front of a call: nothing at the start of a line, else one character. -/
def Leads (before : Option Char) (lead : List Char) : Prop :=
  lead = [] ∧ (∀ b ∈ before, b = '\n') ∨ ∃ c, lead = [c] ∧ bounds.holds c

theorem holds_bounds_of_isBlank {c : Char} (h : Text.isBlank c) : bounds.holds c := by
  simp [CharSet.holds, bounds, CharItem.holds, h]

theorem Leads.bounds (h : Leads before lead) : ∀ b ∈ lead.getLast?.or before, bounds.holds b := by
  rcases h with ⟨rfl, h⟩ | ⟨c, rfl, hc⟩
  · intro b hb
    obtain rfl := h b hb
    decide
  · rintro b ⟨⟩
    exact hc

theorem mem_ways_run (hk : k' ∈ (run set least none).ways k) :
    ∃ w, w <+: k.rest ∧ (∀ c ∈ w, set.holds c) ∧ least ≤ w.length ∧ k' = k.behind w := by
  induction hs : k.rest generalizing k least with
  | nil =>
    rw [ways_run_nil hs] at hk
    obtain ⟨rfl, rfl⟩ : least = 0 ∧ k' = k := by simpa using hk
    exact ⟨[], List.nil_prefix, by simp, Nat.zero_le _, k'.behind_nil.symm⟩
  | cons c s ih =>
    rw [ways_run_cons hs, List.mem_append] at hk
    rcases hk with hk | hk
    · obtain ⟨hc, hk⟩ : set.holds c ∧ k' ∈ (run set (least - 1) none).ways (k.past c s) := by
        simpa using hk
      obtain ⟨w, hw, hset, hleast, rfl⟩ := ih hk rfl
      refine ⟨c :: w, List.cons_prefix_cons.2 ⟨rfl, hw⟩, ?_, ?_, (Cursor.behind_cons hs w).symm⟩
      · exact List.forall_mem_cons.2 ⟨hc, hset⟩
      · rw [List.length_cons]
        omega
    · obtain ⟨rfl, rfl⟩ : least = 0 ∧ k' = k := by simpa using hk
      exact ⟨[], List.nil_prefix, by simp, Nat.zero_le _, k'.behind_nil.symm⟩

theorem mem_ways_lead
    (hk : k' ∈ (alt (seq (start true) empty) (seq (one bounds) empty)).ways k) :
    ∃ lead, lead <+: k.rest ∧ Leads k.before lead ∧ k' = k.behind lead := by
  rw [ways_alt, List.mem_append] at hk
  rcases hk with hk | hk
  · obtain ⟨hbefore, rfl⟩ : (∀ b ∈ k.before, b = '\n') ∧ k' = k := by
      cases hb : k.before with
      | none => simpa [ways_start, hb] using hk
      | some b => simpa [ways_start, hb] using hk
    exact ⟨[], List.nil_prefix, .inl ⟨rfl, hbefore⟩, k'.behind_nil.symm⟩
  · cases hs : k.rest with
    | nil => simp [ways_one, hs] at hk
    | cons c s =>
      obtain ⟨hc, rfl⟩ : bounds.holds c ∧ k' = k.past c s := by
        simpa [ways_one, hs] using hk
      refine ⟨[c], by simp, .inr ⟨c, rfl, hc⟩, ?_⟩
      rw [Cursor.behind_cons hs, Cursor.behind_nil]

/-- The parts of a match: what stands in front of the name, the name, white space and the quotation mark.
The groups remember the first and the last two. -/
theorem match?_called (h : (called old).match? before s = some k) :
    ∃ lead space rest, s = lead ++ (old ++ (space ++ '"' :: rest)) ∧ Leads before lead ∧
      space ≠ [] ∧ (∀ c ∈ space, Text.isBlank c) ∧
      k.taken = (lead ++ (old ++ (space ++ ['"']))).length ∧
      k.groups = [(2, (lead ++ old).length, k.taken), (1, 0, lead.length)] := by
  -- the place is followed through the pieces of the pattern; each says what comes next in the text
  have hk := List.mem_of_head? h
  rw [called, ways_seq, List.mem_flatMap] at hk
  obtain ⟨k₁, hk₁, hk⟩ := hk
  rw [ways_group, List.mem_map] at hk₁
  obtain ⟨k₀, hk₀, rfl⟩ := hk₁
  obtain ⟨lead, ⟨s, rfl⟩, hleads, rfl⟩ := mem_ways_lead hk₀
  rw [ways_wordThen] at hk
  split at hk
  · rename_i hold
    obtain ⟨s, rfl⟩ : old <+: s := by
      simpa [Cursor.close, Cursor.behind, Cursor.origin] using hold
    rw [ways_seq, List.mem_flatMap] at hk
    obtain ⟨k₂, hk₂, hk⟩ := hk
    rw [ways_group, List.mem_map] at hk₂
    obtain ⟨k₃, hk₃, rfl⟩ := hk₂
    rw [ways_seq, List.mem_flatMap] at hk₃
    obtain ⟨k₄, hk₄, hk₃⟩ := hk₃
    obtain ⟨space, hspace, hblank, hlong, rfl⟩ := mem_ways_run hk₄
    obtain ⟨s, rfl⟩ : space <+: s := by
      simpa [Cursor.close, Cursor.behind, Cursor.origin] using hspace
    rw [ways_word] at hk₃
    split at hk₃
    · rename_i hquote
      obtain ⟨rest, rfl⟩ : ['"'] <+: s := by
        simpa [Cursor.close, Cursor.behind, Cursor.origin] using hquote
      obtain rfl := List.mem_singleton.1 hk₃
      obtain rfl := List.mem_singleton.1 hk
      have hne : space ≠ [] := List.length_pos_iff.1 hlong
      refine ⟨lead, space, rest, rfl, hleads, hne, fun c hc => ?_, ?_, ?_⟩
      · rw [← CharSet.holds_blanks]
        exact hblank c hc
      · simp [Cursor.close, Cursor.behind, Cursor.origin, Nat.add_assoc]
      · simp [Cursor.close, Cursor.behind, Cursor.origin]
    · cases hk₃
  · cases hk

theorem consumes_called (old : List Char) : (called old).Consumes := by
  intro before s k hk
  obtain ⟨lead, space, rest, rfl, -, -, -, htaken, -⟩ := match?_called hk
  rw [htaken]
  simp only [List.length_append, List.length_cons, List.length_nil]
  omega

theorem groupText_of_lookup {k : Cursor} {number : Nat} {a b : List Char} (hnumber : number ≠ 0)
    (h : k.groups.lookup number = some (a.length, (a ++ b).length)) (rest : List Char) :
    k.groupText (a ++ (b ++ rest)) number = b := by
  rw [Cursor.groupText, if_neg hnumber, h]
  dsimp only
  rw [List.length_append, Nat.add_sub_cancel_left, List.drop_left, List.take_left]

/-- The template keeps all of a match but the name. -/
theorem fill_renamedCall {k : Cursor} (htaken : k.taken = (lead ++ (old ++ (space ++ ['"']))).length)
    (hgroups : k.groups = [(2, (lead ++ old).length, k.taken), (1, 0, lead.length)]) (rest : List Char) :
    (renamedCall new).fill (k.groupText (lead ++ (old ++ (space ++ '"' :: rest)))) =
      lead ++ (new ++ (space ++ ['"'])) := by
  have hfirst : k.groupText (lead ++ (old ++ (space ++ '"' :: rest))) 1 = lead :=
    @groupText_of_lookup k 1 [] lead (by decide) (by rw [hgroups]; rfl) _
  have hsecond : k.groupText (lead ++ (old ++ (space ++ '"' :: rest))) 2 = space ++ ['"'] := by
    have hlookup : k.groups.lookup 2 =
        some ((lead ++ old).length, ((lead ++ old) ++ (space ++ ['"'])).length) := by
      rw [hgroups, htaken, List.append_assoc]
      rfl
    have hsplit : lead ++ (old ++ (space ++ '"' :: rest)) =
        (lead ++ old) ++ ((space ++ ['"']) ++ rest) := by simp
    rw [hsplit, groupText_of_lookup (by decide) hlookup]
  have hpieces : ∀ groups : Nat → List Char,
      (renamedCall new).fill groups = groups 1 ++ (new ++ groups 2) := by
    intro groups
    have hnew := Template.fill_map_char new groups
    rw [Template.fill] at hnew
    rw [Template.fill, renamedCall, List.flatMap_append, List.flatMap_cons, hnew, List.append_assoc]
    simp [show Template.number? ['1'] = some 1 from by decide,
      show Template.number? ['2'] = some 2 from by decide]
  rw [hpieces, hfirst, hsecond]

/-- One call with its name swapped, and what follows it. -/
theorem swapped_call {t : List Char} (hlead : Leads before lead) (hspace : space ≠ [])
    (hblank : ∀ c ∈ space, Text.isBlank c)
    (h : Text.Swapped (bounds.holds ·) old new (some '"') rest t) :
    Text.Swapped (bounds.holds ·) old new before (lead ++ (old ++ (space ++ '"' :: rest)))
      (lead ++ (new ++ (space ++ '"' :: t))) := by
  obtain ⟨d, space, rfl⟩ := List.exists_cons_of_ne_nil hspace
  have hd : bounds.holds d := holds_bounds_of_isBlank (hblank d List.mem_cons_self)
  exact .append lead (.swap hlead.bounds hd (.append space (.keep h)))

/-- At a match all is kept but the name, and replacing goes on behind the quotation mark. -/
theorem replaceFrom_of_call (hk : (called old).match? before s = some k) (new : List Char) :
    ∃ lead space rest, s = lead ++ (old ++ (space ++ '"' :: rest)) ∧ Leads before lead ∧
      space ≠ [] ∧ (∀ c ∈ space, Text.isBlank c) ∧ rest.length < s.length ∧
      replaceFrom (called old) (renamedCall new) before 0 false s =
        lead ++ (new ++ (space ++ '"' :: replaceFrom (called old) (renamedCall new) (some '"') 0 false rest)) := by
  obtain ⟨lead, space, rest, rfl, hlead, hspace, hblank, htaken, hgroups⟩ := match?_called hk
  have hsplit : ∀ name rest : List Char, lead ++ (name ++ (space ++ '"' :: rest)) =
      (lead ++ (name ++ (space ++ ['"']))) ++ rest := by simp
  have hlast : (lead ++ (old ++ (space ++ ['"']))).getLast? = some '"' := by
    rw [← List.append_assoc, ← List.append_assoc, List.getLast?_concat]
  have hfill := @fill_renamedCall old new lead space k htaken hgroups rest
  refine ⟨lead, space, rest, rfl, hlead, hspace, hblank, ?_, ?_⟩
  · simp only [List.length_append, List.length_cons]
    omega
  · rw [hsplit] at hk hfill
    rw [hsplit old, replaceFrom_of_match (consumes_called old) hk htaken, hfill, hlast, ← hsplit]

/-- Replacing the calls of a function swaps its name for the new one. -/
theorem swapped_replaceFrom (old new : List Char) (before : Option Char) (s : List Char) :
    Text.Swapped (bounds.holds ·) old new before s
      (replaceFrom (called old) (renamedCall new) before 0 false s) := by
  induction hn : s.length using Nat.strongRecOn generalizing s before with
  | ind n ih =>
    cases s with
    | nil =>
      rw [replaceFrom_nil (consumes_called old)]
      exact .done
    | cons c s =>
      cases hk : (called old).match? before (c :: s) with
      | none =>
        rw [replaceFrom_of_none hk]
        exact .keep (ih s.length (by simp [← hn]) (some c) s rfl)
      | some k =>
        obtain ⟨lead, space, rest, hs, hlead, hspace, hblank, hshort, hreplaced⟩ :=
          replaceFrom_of_call hk new
        rw [hreplaced, hs]
        exact swapped_call hlead hspace hblank (ih rest.length (hn ▸ hshort) (some '"') rest rfl)

/-- A text without white space and opening brackets stands in the result only if it stood in the text or
stands in the new name. -/
theorem infix_of_replaceAll_called {x : List Char} (hx : ∀ c ∈ x, ¬ bounds.holds c) (hnew : ¬ x <:+: new)
    (h : x <:+: (called old).replaceAll (renamedCall new) s) : x <:+: s :=
  (swapped_replaceFrom old new none s).occurs hx hnew h

end Pattern

namespace Renaming

open Pattern (called greatestSize renamedCall)

/-- The template of such a rule: the new name stands for itself between the two groups. -/
theorem read_callTemplate (old new : String) :
    Template.read (call old new).template = renamedCall new.toList := by
  have hgroup : ∀ d rest, d ≠ '\x7d' →
      Template.readFrom 0 ('$' :: '\x7b' :: d :: '\x7d' :: rest) = .group [d] :: Template.readFrom 0 rest := by
    intro d rest hd
    simp [Template.readFrom, hd]
  have hnew : (verbatim new).toList = new.toList.flatMap fun c => if c = '$' then ['$', '$'] else [c] :=
    String.toList_ofList
  have htext : (call old new).template.toList = '$' :: '\x7b' :: '1' :: '\x7d' ::
      ((new.toList.flatMap fun c => if c = '$' then ['$', '$'] else [c]) ++
        ['$', '\x7b', '2', '\x7d']) := by
    rw [call, String.toList_append, String.toList_append, hnew, List.append_assoc]
    rfl
  rw [Template.read, htext, hgroup _ _ (by decide), Template.readFrom_doubled, hgroup _ _ (by decide)]
  rfl

/-- A rule for calls is prepared unless the name is too long. -/
theorem prepare?_call_eq_some_iff {old new : String} {r : Pattern × Template} :
    (call old new).prepare? = some r ↔
      (called old.toList).size ≤ greatestSize ∧ (called old.toList, renamedCall new.toList) = r := by
  have hread := Pattern.read?_call old
  rw [prepare?, read_callTemplate, call, hread]
  split <;> simp [*]

theorem prepare?_call {old : String} (hsize : (called old.toList).size ≤ greatestSize) (new : String) :
    (call old new).prepare? = some (called old.toList, renamedCall new.toList) :=
  prepare?_call_eq_some_iff.2 ⟨hsize, rfl⟩

end Renaming
end IconModules
