import IconModules.Proofs.Renaming.CallSites
import IconModules.Proofs.Renaming.Layout
import IconModules.Proofs.Renaming.Spellings

/-! # White space around translated code

What the translator writes may have white space in front of it and behind it, which is trimmed off in the end.
The rules run before that.

* Each rule replaces a word without white space at its sites (`Renaming.Replaces`), and white space around a
  text makes and takes no sites (`Replaces.replaceAll_surrounded`). Only the rule for the root call is an
  exception: its sites are the starts of lines.
* So white space around the code makes no difference unless a root call comes first and is not at the start of a
  line (`Finish.surrounded_iff`). -/

namespace IconModules

namespace Renaming

open Pattern (lineStart word)
open Text (Blank Clash ReplacedAt)

variable {site : Option Char → List Char → Prop} {old new s t v w x back : List Char}
  {before : Option Char} {r : Pattern × Template} {rules : List (Pattern × Template)}

/-! ### The sites of rules -/

/-- The rule replaces the word `old` at its sites. -/
def Replaces (r : Pattern × Template) (site : Option Char → List Char → Prop) (old new : List Char) : Prop :=
  ∀ s, ReplacedAt site old new none s (r.1.replaceAll r.2 s)

/-- Anywhere. -/
def AnySite (_before : Option Char) (_back : List Char) : Prop :=
  True

/-- At the start of a line. -/
def LineSite (before : Option Char) (_back : List Char) : Prop :=
  before = none ∨ before = some '\n'

/-- What comes behind this is at the start of a line. -/
def EndsLine (v : List Char) : Prop :=
  v = [] ∨ v.getLast? = some '\n'

instance (v : List Char) : Decidable (EndsLine v) :=
  inferInstanceAs (Decidable (_ ∨ _))

theorem lineSite_getLast? : LineSite v.getLast? back ↔ EndsLine v := by
  rw [LineSite, EndsLine, List.getLast?_eq_none_iff]

theorem replacedAt_respelled (hw : w ≠ []) (put : List Char) (before : Option Char) (s : List Char) :
    ReplacedAt AnySite w put before s (Text.respelled w put s) := by
  refine ReplacedAt.of_equations (f := fun _ s => Text.respelled w put s) hw ?_ ?_ ?_ before s
  · exact fun _ => Text.respelled_nil w put
  · exact fun _ _ _ hno => Text.respelled_cons fun ⟨back, hback⟩ => hno back hback.symm trivial
  · exact fun _ back _ => Text.respelled_word hw put back

theorem replacedAt_lineStart (hw : w ≠ []) (put : List Char) (before : Option Char) (s : List Char) :
    ReplacedAt LineSite w put before s
      (Pattern.replaceFrom (lineStart w) (put.map .char) before 0 false s) := by
  refine ReplacedAt.of_equations
    (f := fun before s => Pattern.replaceFrom (lineStart w) (put.map .char) before 0 false s) hw ?_ ?_ ?_ before s
  · exact fun _ => Pattern.replaceFrom_nil (Pattern.consumes_lineStart hw)
  · exact fun _ _ _ hno => Pattern.replaceFrom_of_none (Pattern.match?_lineStart_eq_none
      fun ⟨hsite, back, hback⟩ => hno back hback.symm hsite)
  · exact fun _ back hsite => Pattern.replaceFrom_lineStart_word hw put back hsite

/-- The rule for the root call replaces it at the starts of lines. -/
theorem replaces_root (new : String) :
    Replaces (lineStart "svg".toList, new.toList.map .char) LineSite "svg".toList new.toList :=
  fun s => replacedAt_lineStart (by decide) new.toList none s

/-- The rule for a spelling replaces it anywhere. -/
theorem replaces_spellingRule {x : String × String} (hx : x ∈ spellings) :
    Replaces (spellingRule x) AnySite x.1.toList x.2.toList := by
  have hne := (respells_spellings x hx).word_ne_nil
  intro s
  rw [spellingRule, Pattern.replaceAll_word hne]
  exact replacedAt_respelled hne x.2.toList none s

/-- The rule for the calls of a function replaces its name where it is called. -/
theorem replaces_callRule {n : String × String} (hn : PlainName n.1) :
    Replaces (callRule n) CallSite n.1.toList n.2.toList :=
  fun s => Pattern.replacedAt_called hn n.2.toList (by simp)

/-! ### White space around a text -/

/-- White space in front of a text is kept by a rule, and so is white space behind it, if the word has none and
the sites do not hang on it. -/
theorem Replaces.replaceAll_surrounded (h : Replaces r site old new) (hold : old ≠ [])
    (hsolid : ∀ c ∈ old, Text.isBlank c = false)
    (hbehind : ∀ before back, site before (back ++ w) ↔ site before back) (hv : Blank v) (hw : Blank w)
    (hfront : ∀ back, s = old ++ back → (site none back ↔ site v.getLast? back)) :
    r.1.replaceAll r.2 (v ++ (s ++ w)) = v ++ (r.1.replaceAll r.2 s ++ w) := by
  refine (h _).unique hold (.append_left hold (hv.not_mem hsolid) ?_)
  rw [Option.or_none]
  exact ((h s).congr_before hfront).append_right hold (hw.not_mem hsolid) hbehind

/-- A rule for which white space around a text makes no difference. -/
def Unaffected (r : Pattern × Template) : Prop :=
  ∀ v s w, Blank v → Blank w → r.1.replaceAll r.2 (v ++ (s ++ w)) = v ++ (r.1.replaceAll r.2 s ++ w)

theorem unaffected_spellingRule {x : String × String} (hx : x ∈ spellings) : Unaffected (spellingRule x) := by
  have hsolid : ∀ x ∈ spellings, x.1.toList.all fun c => Text.isBlank c = false := by decide
  exact fun v s w hv hw => (replaces_spellingRule hx).replaceAll_surrounded
    (respells_spellings x hx).word_ne_nil (List.all_iff_forall_prop.1 (hsolid x hx)) (fun _ _ => Iff.rfl) hv hw
    fun _ _ => Iff.rfl

theorem quoted_append_iff (hw : Blank w) : Quoted (back ++ w) ↔ Quoted back := by
  constructor
  · rintro ⟨space, rest, hback, hspace, hblank⟩
    rcases List.append_eq_append_iff.1 hback with ⟨a, rfl, rfl⟩ | ⟨a, rfl, hrest⟩
    · exact absurd (hw '"' (by simp)) (by decide)
    · cases a with
      | nil =>
        rw [List.nil_append] at hrest
        exact absurd (hw '"' (by simp [← hrest])) (by decide)
      | cons c a =>
        obtain ⟨rfl, -⟩ := List.cons.inj hrest
        exact ⟨space, a, rfl, hspace, hblank⟩
  · rintro ⟨space, rest, rfl, hspace, hblank⟩
    exact ⟨space, rest ++ w, by simp, hspace, hblank⟩

theorem unaffected_callRule {n : String × String} (hn : PlainName n.1) : Unaffected (callRule n) := by
  intro v s w hv hw
  refine (replaces_callRule hn).replaceAll_surrounded hn.toList_ne_nil (fun c hc => (hn.foreign hc).1) ?_ hv hw ?_
  · intro before back
    exact ⟨fun ⟨h1, h2⟩ => ⟨h1, (quoted_append_iff hw).1 h2⟩,
      fun ⟨h1, h2⟩ => ⟨h1, (quoted_append_iff hw).2 h2⟩⟩
  · intro back _
    refine ⟨fun h => ⟨fun c hc => .inl (hv c (List.mem_of_getLast? hc)), h.quoted⟩,
      fun h => ⟨by simp, h.quoted⟩⟩

/-! ### All rules -/

theorem foldl_surrounded (hrules : ∀ r ∈ rules, Unaffected r) (hv : Blank v) (hw : Blank w) (s : List Char) :
    rules.foldl (fun s r => r.1.replaceAll r.2 s) (v ++ (s ++ w)) =
      v ++ (rules.foldl (fun s r => r.1.replaceAll r.2 s) s ++ w) := by
  induction rules generalizing s with
  | nil => rfl
  | cons r rules ih =>
    rw [List.forall_mem_cons] at hrules
    rw [List.foldl_cons, hrules.1 v s w hv hw, ih hrules.2, List.foldl_cons]

/-- The word of a rule cannot begin in `x`. -/
def Spared (x old : List Char) : Prop :=
  ∀ v ∈ x.tails, v ≠ [] → Clash old v

instance (x old : List Char) : Decidable (Spared x old) :=
  inferInstanceAs (Decidable (∀ v ∈ x.tails, v ≠ [] → Clash old v))

theorem Replaces.keeps_front (h : Replaces r site old new) (hx : Spared x old) (hp : x <+: s) :
    x <+: r.1.replaceAll r.2 s := by
  obtain ⟨rest, rfl⟩ := hp
  exact (h _).keeps_front fun v hv => hx v ((List.mem_tails _ _).2 hv)

theorem foldl_keeps_front (hrules : ∀ r ∈ rules, ∀ s, x <+: s → x <+: r.1.replaceAll r.2 s)
    (hp : x <+: s) : x <+: rules.foldl (fun s r => r.1.replaceAll r.2 s) s :=
  List.foldlRecOn rules _ hp fun s hs r hr => hrules r hr s hs

end Renaming

namespace Finish

open Renaming
open Text (Blank)

variable {e : Edition} {v w x s : List Char}

/-- The rules of an edition behind the one for the root call. -/
def laterRules (e : Edition) : List (Pattern × Template) :=
  spellings.map spellingRule ++ (renamedCalls e).map callRule

theorem forall_laterRules {P : Pattern × Template → Prop} (hspelling : ∀ x ∈ spellings, P (spellingRule x))
    (hcall : ∀ n ∈ renamedCalls e, P (callRule n)) : ∀ r ∈ laterRules e, P r := by
  intro r hr
  rcases List.mem_append.1 hr with hr | hr
  · obtain ⟨x, hx, rfl⟩ := List.mem_map.1 hr
    exact hspelling x hx
  · obtain ⟨n, hn, rfl⟩ := List.mem_map.1 hr
    exact hcall n hn

theorem plainName_renamedCalls : ∀ n ∈ renamedCalls e, PlainName n.1 := by
  cases e <;> decide

theorem unaffected_laterRules : ∀ r ∈ laterRules e, Unaffected r :=
  forall_laterRules (fun _ hx => unaffected_spellingRule hx) fun n hn =>
    unaffected_callRule (plainName_renamedCalls n hn)

/-- No later rule begins in the root call, renamed or not. -/
theorem spared_laterRules (hx : x = "svg".toList ∨ x = "icon".toList) :
    ∀ r ∈ laterRules e, ∀ s, x <+: s → x <+: r.1.replaceAll r.2 s := by
  have hspellings : ∀ y ∈ spellings, Spared x y.1.toList := by
    rcases hx with rfl | rfl <;> decide
  have hcalls : ∀ n ∈ renamedCalls e, Spared x n.1.toList := by
    rcases hx with rfl | rfl <;> cases e <;> decide
  exact forall_laterRules (fun y hy _ => (replaces_spellingRule hy).keeps_front (hspellings y hy))
    fun n hn _ => (replaces_callRule (plainName_renamedCalls n hn)).keeps_front (hcalls n hn)

/-- The code behind the rule for the root call. -/
def rooted (s : List Char) : List Char :=
  (Pattern.lineStart "svg".toList).replaceAll ("icon".toList.map .char) s

theorem toList_rename_ofEdition (e : Edition) (code : String) :
    ((ofEdition e).rename code).toList =
      (laterRules e).foldl (fun s r => r.1.replaceAll r.2 s) (rooted code.toList) := by
  rw [rename, String.toList_ofList]
  rfl

/-! ### The root call -/

/-- The root call has no white space. -/
theorem root_solid : ∀ c ∈ "svg".toList, Text.isBlank c = false :=
  List.all_iff_forall_prop.1 (by decide)

theorem icon_solid : ∀ c ∈ "icon".toList, Text.isBlank c = false :=
  List.all_iff_forall_prop.1 (by decide)

theorem rooted_surrounded (hv : Blank v) (hw : Blank w) (h : EndsLine v ∨ ¬ "svg".toList <+: s) :
    rooted (v ++ (s ++ w)) = v ++ (rooted s ++ w) := by
  refine (replaces_root "icon").replaceAll_surrounded (by decide) root_solid (fun _ _ => Iff.rfl) hv hw ?_
  rintro back rfl
  rw [lineSite_getLast?]
  rcases h with hline | hroot
  · exact iff_of_true (.inl rfl) hline
  · exact absurd (List.prefix_append _ back) hroot

theorem icon_prefix_rooted (h : "svg".toList <+: s) : "icon".toList <+: rooted s := by
  obtain ⟨rest, rfl⟩ := h
  obtain ⟨t, ht, -⟩ := (replaces_root "icon" _).of_site (by decide) (.inl rfl)
  exact ⟨t, ht.symm⟩

/-- Behind white space that does not end at the start of a line the root call is kept. -/
theorem rooted_of_not_endsLine (hv : Blank v) (hline : ¬ EndsLine v) (hp : "svg".toList <+: s) :
    ∃ t, rooted (v ++ s) = v ++ t ∧ "svg".toList <+: t := by
  obtain ⟨back, rfl⟩ := hp
  obtain ⟨t, ht, hcall⟩ :=
    (replaces_root "icon" (v ++ ("svg".toList ++ back))).of_append_left (by decide) (hv.not_mem root_solid)
  rw [Option.or_none] at hcall
  -- the `s` of the call is at no site, and the call cannot begin in the rest of it
  obtain ⟨t', rfl, htail⟩ := hcall.of_not_site fun _ _ => mt lineSite_getLast?.1 hline
  have hspared : Spared "vg".toList "svg".toList := by decide
  have htail : "vg".toList <+: t' := Text.ReplacedAt.keeps_front (u := "vg".toList) (s := back)
    (fun u hu => hspared u ((List.mem_tails _ _).2 hu)) htail
  exact ⟨_, ht, List.cons_prefix_cons.2 ⟨rfl, htail⟩⟩

/-! ### Finished code -/

theorem toList_apply {f : Finish} (hindent : Blank f.indent.toList) (code : String) :
    (f.apply code).toList = Text.continued f.indent.toList (Text.trimmed (f.rename code).toList) := by
  rw [apply_eq_indented hindent, toList_indented, Text.toList_trim]

theorem apply_eq_of_rename {f : Finish} (hindent : Blank f.indent.toList) {code code' : String}
    (hv : Blank v) (hw : Blank w)
    (h : (f.rename code').toList = v ++ ((f.rename code).toList ++ w)) : f.apply code' = f.apply code := by
  rw [← String.toList_inj, toList_apply hindent, toList_apply hindent, h, Text.trimmed_append hv hw]

theorem prefix_apply {f : Finish} (hindent : Blank f.indent.toList) {code : String} (hv : Blank v)
    (hx : Text.Tight x) (hne : x ≠ []) (hbreak : '\n' ∉ x) (hp : x <+: s)
    (h : (f.rename code).toList = v ++ s) : x <+: (f.apply code).toList := by
  obtain ⟨rest, hrest⟩ := Text.prefix_trimmed hx hne hp
  have htrimmed := Text.trimmed_append hv (w := []) (by decide) s
  rw [List.append_nil] at htrimmed
  rw [toList_apply hindent, h, htrimmed, ← hrest, Text.continued_append, Text.continued_of_not_mem hbreak]
  exact List.prefix_append _ _

/-! ### White space around the code -/

section Surrounded

variable {v code w : String}

theorem blank_indent (e : Edition) : Blank (ofEdition e).indent.toList := by
  have hspaces : Blank "    ".toList := by decide
  exact hspaces

theorem apply_surrounded (e : Edition) (hv : Blank v.toList) (hw : Blank w.toList)
    (h : EndsLine v.toList ∨ ¬ "svg".toList <+: code.toList) :
    (ofEdition e).apply (v ++ code ++ w) = (ofEdition e).apply code := by
  refine apply_eq_of_rename (blank_indent e) hv hw ?_
  rw [toList_rename_ofEdition, toList_rename_ofEdition, String.toList_append, String.toList_append,
    List.append_assoc, rooted_surrounded hv hw h, foldl_surrounded unaffected_laterRules hv hw]

theorem icon_prefix_apply (e : Edition) (hv : Blank v.toList) (hw : Blank w.toList) (hline : EndsLine v.toList)
    (hroot : "svg".toList <+: code.toList) :
    "icon".toList <+: ((ofEdition e).apply (v ++ code ++ w)).toList := by
  have hrooted := foldl_keeps_front (spared_laterRules (e := e) (.inr rfl)) (icon_prefix_rooted hroot)
  rw [← toList_rename_ofEdition] at hrooted
  rw [apply_surrounded e hv hw (.inl hline)]
  exact prefix_apply (v := []) (blank_indent e) (by decide) (Text.tight_of_solid icon_solid) (by decide) (by decide)
    hrooted rfl

theorem svg_prefix_apply (e : Edition) (hv : Blank v.toList) (hline : ¬ EndsLine v.toList)
    (hroot : "svg".toList <+: code.toList) :
    "svg".toList <+: ((ofEdition e).apply (v ++ code ++ w)).toList := by
  obtain ⟨t, ht, hp⟩ := rooted_of_not_endsLine (s := code.toList ++ w.toList) hv hline
    (hroot.trans (List.prefix_append _ _))
  have hkept := foldl_keeps_front (spared_laterRules (e := e) (.inl rfl)) hp
  refine prefix_apply (blank_indent e) hv (Text.tight_of_solid root_solid) (by decide) (by decide) hkept ?_
  have hfront := foldl_surrounded (unaffected_laterRules (e := e)) hv (w := []) (by decide) t
  rw [List.append_nil, List.append_nil] at hfront
  rw [toList_rename_ofEdition, String.toList_append, String.toList_append, List.append_assoc, ht, hfront]

/-- Code does not begin with the root call and with its new name. -/
theorem not_both_prefixes (s : List Char) : ¬ ("svg".toList <+: s ∧ "icon".toList <+: s) := by
  rintro ⟨⟨rest, rfl⟩, hicon⟩
  exact absurd (List.cons_prefix_cons.1 hicon).1 (by decide)

/-- Code with white space around it is finished as the code is, unless the root call comes first and is not at the
start of a line. There it keeps its name. -/
theorem surrounded_iff (e : Edition) (path : Path) :
    ∃ f, Generation.finish (Settings.preset e path) = .ok f ∧
      ∀ v code w : String, Blank v.toList → Blank w.toList →
        (f.apply (v ++ code ++ w) = f.apply code ↔ EndsLine v.toList ∨ ¬ "svg".toList <+: code.toList) ∧
        ("svg".toList <+: code.toList →
          ("icon".toList <+: (f.apply (v ++ code ++ w)).toList ↔ EndsLine v.toList) ∧
          ("svg".toList <+: (f.apply (v ++ code ++ w)).toList ↔ ¬ EndsLine v.toList)) := by
  refine ⟨ofEdition e, finish_preset e path, fun v code w hv hw => ⟨⟨fun heq => ?_, apply_surrounded e hv hw⟩, ?_⟩⟩
  · by_contra! hno
    have hsvg := svg_prefix_apply (w := w) e hv hno.1 hno.2
    have hicon := icon_prefix_apply (v := "") (w := "") e (by decide) (by decide) (.inl rfl) hno.2
    rw [String.empty_append, String.append_empty, ← heq] at hicon
    exact not_both_prefixes _ ⟨hsvg, hicon⟩
  · intro hroot
    have hicon := fun hline => icon_prefix_apply e hv hw hline hroot
    have hsvg := fun hline => svg_prefix_apply (w := w) e hv hline hroot
    have hno := not_both_prefixes ((ofEdition e).apply (v ++ code ++ w)).toList
    exact ⟨⟨fun h => by_contra fun hline => hno ⟨hsvg hline, h⟩, hicon⟩,
      ⟨fun h hline => hno ⟨h, hicon hline⟩, hsvg⟩⟩

theorem surrounded_iff_line_break :
    Blank " \n".toList ∧ Blank "\n ".toList ∧ ∃ f, Generation.finish (Settings.preset .current ⟨"icons"⟩) = .ok f ∧
      f.apply (" \n" ++ "svg []" ++ "\n ") = f.apply "svg []" ∧
      "icon".toList <+: (f.apply (" \n" ++ "svg []" ++ "\n ")).toList := by
  have hv : Blank " \n".toList := by decide
  have hw : Blank "\n ".toList := by decide
  obtain ⟨f, hf, hall⟩ := surrounded_iff .current ⟨"icons"⟩
  obtain ⟨heq, hroot⟩ := hall " \n" "svg []" "\n " hv hw
  exact ⟨hv, hw, f, hf, heq.2 (.inl (by decide)), (hroot (by decide)).1.2 (by decide)⟩

/-- A blank in front of the root call is trimmed off, but the call is not renamed. -/
theorem blank_before_root :
    Blank " ".toList ∧ ∃ f, Generation.finish (Settings.preset .legacy ⟨"icons"⟩) = .ok f ∧
      f.apply (" " ++ "svg []" ++ "") = "svg []" ∧ f.apply "svg []" = "icon []" :=
  ⟨by decide, _, finish_preset .legacy ⟨"icons"⟩, by decide, by decide⟩

end Surrounded

end Finish
end IconModules
