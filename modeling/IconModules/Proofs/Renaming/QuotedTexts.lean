import IconModules.Proofs.Renaming.CallSites

/-! # Calls and quoted texts

In code with texts in quotation marks (`Text.quoting`) stretches of code and quoted texts take turns.

* A rule for calls goes by the quotation mark behind a name, and does not see whether that mark opens a quoted
  text or closes one. So it treats all stretches alike: a stretch can change at its end only, where it ends as
  a call does in front of its quotation mark (`Renaming.EndsInCall`, `Renaming.exists_stretch`).
* So a rule leaves the quoted texts alone exactly if none of them ends like that
  (`Finish.quoted_kept_iff`). -/

namespace IconModules

namespace Text

variable {code : List Char} {parts : List (List Char × List Char)} {q c x space rest rest' : List Char}

/-- A stretch of code, and then each quoted text and the stretch of code that follows it. -/
def quoting (code : List Char) (parts : List (List Char × List Char)) : List Char :=
  code ++ parts.flatMap fun p => '"' :: (p.1 ++ '"' :: p.2)

@[simp] theorem quoting_nil (code : List Char) : quoting code [] = code :=
  List.append_nil code

@[simp] theorem quoting_cons (code q c : List Char) (parts : List (List Char × List Char)) :
    quoting code ((q, c) :: parts) = code ++ '"' :: (q ++ '"' :: quoting c parts) := by
  simp [quoting]

/-- What stands in front of the first quotation mark is determined. -/
theorem eq_of_append_quote (hx : '"' ∉ x) (hspace : '"' ∉ space)
    (h : x ++ '"' :: rest = space ++ '"' :: rest') : x = space := by
  have hle := prefix_of_prefix_append_cons hx ⟨_, h⟩
  have hge := prefix_of_prefix_append_cons hspace ⟨_, h.symm⟩
  exact hle.eq_of_length_le hge.length_le

end Text

namespace Renaming

variable {n new s s' t rest back code : List Char} {before : Option Char} {c : Char}
  {parts : List (List Char × List Char)} {qs qs' : List (List Char)}

/-! ### The end of a stretch -/

/-- A stretch behind `before` ends in a name and white space, as in front of the quotation mark of a call. -/
def EndsInCall (n : List Char) (before : Option Char) (s : List Char) : Prop :=
  ∃ front space, s = front ++ (n ++ space) ∧ (∀ c ∈ front.getLast?.or before, Opens c) ∧
    space ≠ [] ∧ ∀ c ∈ space, Text.isBlank c = true

/-- The stretch with the name at its end renamed, if it ends in a call. -/
inductive EndRenamed (n new : List Char) (before : Option Char) : List Char → List Char → Prop
  | kept {s : List Char} (h : ¬ EndsInCall n before s) : EndRenamed n new before s s
  | renamed {front space : List Char} (hopened : ∀ c ∈ front.getLast?.or before, Opens c)
      (hspace : space ≠ []) (hblank : ∀ c ∈ space, Text.isBlank c = true) :
      EndRenamed n new before (front ++ (n ++ space)) (front ++ (new ++ space))

/-- A text that does not end in white space does not end in a call. -/
theorem EndsInCall.exists_blank (h : EndsInCall n before s) :
    ∃ c, s.getLast? = some c ∧ Text.isBlank c = true := by
  obtain ⟨front, space, rfl, -, hspace, hblank⟩ := h
  refine ⟨space.getLast hspace, ?_, hblank _ (List.getLast_mem hspace)⟩
  rw [List.getLast?_append, List.getLast?_append, List.getLast?_eq_some_getLast hspace]
  rfl

theorem EndRenamed.eq_iff (h : EndRenamed n new before s s') :
    s' = s ↔ n = new ∨ ¬ EndsInCall n before s := by
  cases h with
  | kept h => exact iff_of_true rfl (.inr h)
  | @renamed front space hopened hspace hblank =>
    have hends : EndsInCall n before (front ++ (n ++ space)) :=
      ⟨front, space, rfl, hopened, hspace, hblank⟩
    rw [List.append_cancel_left_eq, List.append_cancel_right_eq]
    simp [hends, eq_comm]

theorem EndRenamed.quote_not_mem (hnew : '"' ∉ new) (hs : '"' ∉ s) (h : EndRenamed n new before s s') :
    '"' ∉ s' := by
  cases h with
  | kept => exact hs
  | renamed =>
    simp only [List.mem_append, not_or] at hs ⊢
    exact ⟨hs.1, hnew, hs.2.2⟩

/-- A character in front of a stretch at which no call begins does not change how it ends. -/
theorem EndRenamed.cons (hno : ∀ back, c :: s = n ++ back → ¬ CallSite before (back ++ '"' :: rest))
    (h : EndRenamed n new (some c) s s') : EndRenamed n new before (c :: s) (c :: s') := by
  cases h with
  | kept h =>
    refine .kept ?_
    rintro ⟨front, space, hs, hopened, hspace, hblank⟩
    cases front with
    | nil => exact hno space hs ⟨hopened, space, rest, rfl, hspace, hblank⟩
    | cons d front =>
      obtain ⟨rfl, hrest⟩ := List.cons.inj hs
      rw [Cursor.getLast?_cons_or] at hopened
      exact h ⟨front, space, hrest, hopened, hspace, hblank⟩
  | @renamed front space hopened hspace hblank =>
    rw [← Cursor.getLast?_cons_or] at hopened
    exact @EndRenamed.renamed n new before (c :: front) space hopened hspace hblank

/-! ### Stretches -/

/-- No quotation mark follows the last stretch, so no call is in it. -/
theorem last_stretch (hs : '"' ∉ s) (h : Text.ReplacedAt CallSite n new before s t) : t = s := by
  induction h with
  | done => rfl
  | keep _ _ ih => rw [ih fun hm => hs (List.mem_cons_of_mem _ hm)]
  | swap hsite =>
    obtain ⟨space, rest, rfl, -⟩ := hsite.quoted
    simp at hs

section

variable {name : String} (hn : PlainName name)
include hn

theorem foreign_of_blank (hc : Text.isBlank c = true) : c ≠ '"' ∧ c ∉ name.toList := by
  refine ⟨?_, fun hm => ?_⟩
  · rintro rfl
    exact absurd hc (by decide)
  · rw [(hn.foreign hm).1] at hc
    cases hc

/-- A call at the front of a stretch reaches up to its quotation mark: the stretch is the name and white space. -/
theorem call_fills_stretch (hs : '"' ∉ s) (hback : s ++ '"' :: rest = name.toList ++ back)
    (hquoted : Quoted back) :
    ∃ space, s = name.toList ++ space ∧ back = space ++ '"' :: rest ∧ space ≠ [] ∧
      ∀ c ∈ space, Text.isBlank c = true := by
  obtain ⟨x, rfl⟩ := Text.prefix_of_prefix_append_cons (fun hm => (hn.foreign hm).2.2 rfl)
    (show name.toList <+: s ++ '"' :: rest from ⟨back, hback.symm⟩)
  obtain ⟨space, rest', rfl, hspace, hblank⟩ := hquoted
  have hline : x ++ '"' :: rest = space ++ '"' :: rest' := by
    rwa [List.append_assoc, List.append_cancel_left_eq] at hback
  obtain rfl : x = space :=
    Text.eq_of_append_quote (fun hm => hs (List.mem_append_right _ hm))
      (fun hm => (foreign_of_blank hn (hblank _ hm)).1 rfl) hline
  exact ⟨x, rfl, hline.symm, hspace, hblank⟩

/-- Up to its quotation mark a stretch is rewritten on its own. -/
theorem exists_stretch (hs : '"' ∉ s)
    (h : Text.ReplacedAt CallSite name.toList new before (s ++ '"' :: rest) t) :
    ∃ s' t', t = s' ++ '"' :: t' ∧ EndRenamed name.toList new before s s' ∧
      Text.ReplacedAt CallSite name.toList new (some '"') rest t' := by
  have hne := hn.toList_ne_nil
  have hquote : ∀ back, '"' :: rest = name.toList ++ back → ∀ before, ¬ CallSite before back :=
    fun _ hback => absurd rfl (hn.foreign (Text.ReplacedAt.mem_of_cons_eq_append hne hback)).2.2
  induction s generalizing before t with
  | nil =>
    obtain ⟨t', rfl, hrest⟩ := h.of_not_site fun back hback => hquote back hback before
    refine ⟨[], t', rfl, .kept ?_, hrest⟩
    rintro ⟨front, space, hs, -, hspace, -⟩
    simp [hspace] at hs
  | cons c s ih =>
    rcases h.cases_cons with ⟨_, rfl, hbehind, hno⟩ | ⟨back, _, hback, rfl, hsite, hbehind⟩
    · obtain ⟨s', t', rfl, hends, hrest⟩ := ih (fun hm => hs (List.mem_cons_of_mem c hm)) hbehind
      have hcall : ∀ back, c :: s = name.toList ++ back → ¬ CallSite before (back ++ '"' :: rest) :=
        fun back hback => hno _ (by rw [← List.append_assoc, ← hback]; rfl)
      exact ⟨c :: s', t', rfl, hends.cons hcall, hrest⟩
    · obtain ⟨space, hstretch, rfl, hspace, hblank⟩ := call_fills_stretch hn hs hback hsite.quoted
      obtain ⟨_, rfl, hmark⟩ :=
        hbehind.of_append_left hne fun c hc => (foreign_of_blank hn (hblank c hc)).2
      obtain ⟨t', rfl, hrest⟩ := hmark.of_not_site fun back hback => hquote back hback _
      refine ⟨new ++ space, t', by rw [List.append_assoc], ?_, hrest⟩
      rw [hstretch]
      exact @EndRenamed.renamed name.toList new before [] space hsite.opened hspace hblank

/-- All stretches are rewritten on their own. -/
theorem exists_stretches (hnew : '"' ∉ new) (hcode : '"' ∉ code) (hparts : ∀ p ∈ parts, '"' ∉ p.1 ∧ '"' ∉ p.2)
    (h : Text.ReplacedAt CallSite name.toList new before (Text.quoting code parts) t) :
    ∃ code' parts', t = Text.quoting code' parts' ∧ '"' ∉ code' ∧ (∀ p ∈ parts', '"' ∉ p.1 ∧ '"' ∉ p.2) ∧
      List.Forall₂ (EndRenamed name.toList new (some '"')) (parts.map Prod.fst) (parts'.map Prod.fst) := by
  induction parts generalizing code before t with
  | nil =>
    rw [Text.quoting_nil] at h
    exact ⟨t, [], (Text.quoting_nil t).symm, last_stretch hcode h ▸ hcode, by simp, .nil⟩
  | cons p parts ih =>
    obtain ⟨q, c⟩ := p
    rw [List.forall_mem_cons] at hparts
    rw [Text.quoting_cons] at h
    obtain ⟨code', _, rfl, hcode', hquoted⟩ := exists_stretch hn hcode h
    obtain ⟨q', _, rfl, hq, hrest⟩ := exists_stretch hn hparts.1.1 hquoted
    obtain ⟨c', parts', rfl, hc', hparts', hall⟩ := ih hparts.1.2 hparts.2 hrest
    refine ⟨code', (q', c') :: parts', (Text.quoting_cons ..).symm, hcode'.quote_not_mem hnew hcode, ?_, ?_⟩
    · exact List.forall_mem_cons.2 ⟨⟨hq.quote_not_mem hnew hparts.1.1, hc'⟩, hparts'⟩
    · exact .cons hq hall

end

theorem eq_iff_of_forall₂ (h : List.Forall₂ (EndRenamed n new before) qs qs') :
    qs' = qs ↔ n = new ∨ ∀ q ∈ qs, ¬ EndsInCall n before q := by
  induction h with
  | nil => simp
  | cons hq _ ih =>
    rw [List.cons.injEq, hq.eq_iff, ih, List.forall_mem_cons, or_and_left]

end Renaming

namespace Finish

open Renaming (EndsInCall PlainName call)

/-- Code with quoted texts stays such code when calls are renamed, and the quoted texts stay as they are exactly
if none of them ends in a call. -/
theorem quoted_kept_iff (old new : String) (hold : PlainName old) (hnew : '"' ∉ new.toList) :
    ((∃ r, (call old new).prepare? = some r) ↔
        (Pattern.called old.toList).size ≤ Pattern.greatestSize) ∧
      ∀ r, (call old new).prepare? = some r → ∀ indent code parts, '"' ∉ code →
        (∀ p ∈ parts, '"' ∉ p.1 ∧ '"' ∉ p.2) →
        ∃ code' parts', '"' ∉ code' ∧ (∀ p ∈ parts', '"' ∉ p.1 ∧ '"' ∉ p.2) ∧
          (⟨[r], indent⟩ : Finish).rename (String.ofList (Text.quoting code parts)) =
            String.ofList (Text.quoting code' parts') ∧
          (parts'.map Prod.fst = parts.map Prod.fst ↔
            old = new ∨ ∀ p ∈ parts, ¬ EndsInCall old.toList (some '"') p.1) := by
  refine ⟨by simp [Renaming.prepare?_call_eq_some_iff], fun r hr indent code parts hcode hparts => ?_⟩
  obtain ⟨-, rfl⟩ := Renaming.prepare?_call_eq_some_iff.1 hr
  have hreplaced := @Pattern.replacedAt_called (Text.quoting code parts) none old hold new.toList (by simp)
  obtain ⟨code', parts', hout, hcode', hparts', hall⟩ :=
    Renaming.exists_stretches hold hnew hcode hparts hreplaced
  refine ⟨code', parts', hcode', hparts', ?_, ?_⟩
  · rw [rename_single, String.toList_ofList]
    exact congrArg String.ofList hout
  · rw [Renaming.eq_iff_of_forall₂ hall, String.toList_inj, List.forall_mem_map]

theorem quoted_kept_iff_style :
    PlainName "opacity" ∧ '"' ∉ "o".toList ∧ ∃ r, (call "opacity" "o").prepare? = some r ∧
      '"' ∉ "[ opacity ".toList ∧ (∀ p ∈ [("opacity:.5".toList, " ]".toList)], '"' ∉ p.1 ∧ '"' ∉ p.2) ∧
      ∃ code' parts', (⟨[r], ""⟩ : Finish).rename
          (String.ofList (Text.quoting "[ opacity ".toList [("opacity:.5".toList, " ]".toList)])) =
        String.ofList (Text.quoting code' parts') ∧ parts'.map Prod.fst = ["opacity:.5".toList] := by
  have hold : PlainName "opacity" := by decide
  have hnew : '"' ∉ "o".toList := by decide
  have hcode : '"' ∉ "[ opacity ".toList := by decide
  have hparts : ∀ p ∈ [("opacity:.5".toList, " ]".toList)], '"' ∉ p.1 ∧ '"' ∉ p.2 := by decide
  obtain ⟨hready, hkept⟩ := quoted_kept_iff "opacity" "o" hold hnew
  obtain ⟨r, hr⟩ := hready.2 (by decide)
  obtain ⟨code', parts', -, -, hout, hiff⟩ := hkept r hr "" _ _ hcode hparts
  refine ⟨hold, hnew, r, hr, hcode, hparts, code', parts', hout, hiff.2 (.inr ?_)⟩
  rintro _ hp hends
  obtain rfl := List.mem_singleton.1 hp
  obtain ⟨c, hc, hblank⟩ := hends.exists_blank
  obtain rfl : '5' = c := Option.some.inj hc
  exact absurd hblank (by decide)

/-- A text that ends in white space can end in a call. -/
theorem quoted_text_renamed :
    PlainName "opacity" ∧ PlainName "o" ∧ ∃ r, (call "opacity" "o").prepare? = some r ∧
      (⟨[r], ""⟩ : Finish).rename
          (String.ofList (Text.quoting "style ".toList [(" opacity ".toList, " []".toList)])) =
        String.ofList (Text.quoting "style ".toList [(" o ".toList, " []".toList)]) := by
  have hsize : (Pattern.called "opacity".toList).size ≤ Pattern.greatestSize := by decide
  exact ⟨by decide, by decide, _, Renaming.prepare?_call hsize "o", by decide⟩

end Finish
end IconModules
