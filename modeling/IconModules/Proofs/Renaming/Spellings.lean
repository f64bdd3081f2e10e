import IconModules.Generation.Run
import IconModules.Proofs.Renaming
import IconModules.Proofs.Renaming.Calls
import IconModules.Proofs.Renaming.Verbatim
import IconModules.Proofs.Text.Respelling
import IconModules.Settings.Presets

/-! # The spellings of the generated code

The rules for the spellings run one after the other, each on what the one before has left, and the renamings
of an edition follow them.

* No two spellings overlap but in the last letter (`spares_spellings`), so the order of their rules does not
  matter (`respellAll_perm`), and when all have run no old spelling is left (`not_infix_respellAll`).
* Nothing that follows makes one again: not the renamed calls, not the indentation, not the trimming
  (`spellings_respelled`). -/

namespace IconModules

namespace Renaming

open Text (Respells Spares Unmade respelled)
open Pattern (called greatestSize lineStart renamedCall word)

variable {order : List (String × String)} {names : List (String × String)}
  {s x : String × String} {t : List Char}

/-! ### Spellings and texts -/

theorem respells_spellings : ∀ s ∈ spellings, Respells s.1.toList s.2.toList := by
  decide

theorem unmade_spellings : ∀ s ∈ spellings, Unmade s.1.toList s.2.toList s.1.toList := by
  decide

/-- The letters in which spellings begin and end are such that no two get into each other's way. -/
theorem spares_spellings :
    ∀ s ∈ spellings, ∀ x ∈ spellings, s ≠ x → Spares s.1.toList s.2.toList x.1.toList := by
  decide

/-- The text with the new spelling for the old one. -/
def respell (t : List Char) (s : String × String) : List Char :=
  respelled s.1.toList s.2.toList t

/-- The text after the rules for spellings, one after the other. -/
def respellAll (order : List (String × String)) (t : List Char) : List Char :=
  order.foldl respell t

theorem respell_comm (hs : s ∈ spellings) (hx : x ∈ spellings) (t : List Char) :
    respell (respell t s) x = respell (respell t x) s := by
  by_cases he : s = x
  · rw [he]
  · exact Text.respelled_comm (respells_spellings x hx) (respells_spellings s hs)
      (spares_spellings x hx s hs (Ne.symm he)) (spares_spellings s hs x hx he) t

/-- The rules for the spellings may run in any order. -/
theorem respellAll_perm (h : order.Perm spellings) (t : List Char) :
    respellAll order t = respellAll spellings t :=
  h.foldl_eq' (fun _ hs _ hx t => respell_comm (h.subset hs) (h.subset hx) t) t

example : respellAll spellings "viewboxlink:href".toList = "viewBoxlinkHref".toList := by
  decide

/-- A rule makes no old spelling. -/
theorem infix_of_respell (hs : s ∈ spellings) (hx : x ∈ spellings)
    (h : x.1.toList <:+: respell t s) : x.1.toList <:+: t := by
  have hunmade : Unmade s.1.toList s.2.toList x.1.toList := by
    by_cases he : s = x
    · exact he ▸ unmade_spellings s hs
    · exact (spares_spellings s hs x hx he).toUnmade
  exact hunmade.infix_of_respelled (respells_spellings s hs) (respells_spellings x hx).word_ne_nil h

/-- After all rules no old spelling is left: its own rule takes it out, and no later one makes it again. -/
theorem not_infix_respellAll (horder : ∀ s ∈ order, s ∈ spellings) (hx : x ∈ spellings)
    (h : x ∈ order ∨ ¬ x.1.toList <:+: t) : ¬ x.1.toList <:+: respellAll order t := by
  induction order generalizing t with
  | nil => exact h.resolve_left List.not_mem_nil
  | cons s order ih =>
    rw [List.forall_mem_cons] at horder
    refine ih horder.2 ?_
    by_cases hrest : x ∈ order
    · exact .inl hrest
    · right
      rcases h with h | h
      · obtain rfl := (List.mem_cons.1 h).resolve_right hrest
        exact (unmade_spellings x hx).gone (respells_spellings x hx) t
      · exact mt (infix_of_respell horder.1 hx) h

/-! ### Prepared rules -/

theorem mapM_map_eq {α β γ : Type} {f : β → Option γ} {g : α → β} {h : α → γ} {xs : List α}
    (hfg : ∀ x ∈ xs, f (g x) = some (h x)) : (xs.map g).mapM f = some (xs.map h) := by
  induction xs with
  | nil => rfl
  | cons x xs ih =>
    rw [List.forall_mem_cons] at hfg
    rw [List.map_cons, List.mapM_cons, hfg.1, ih hfg.2]
    rfl

/-- The rule for a spelling. -/
def spellingRule (s : String × String) : Pattern × Template :=
  (word s.1.toList, s.2.toList.map .char)

theorem prepare?_spelling (hs : s ∈ spellings) :
    (everywhere s.1 s.2).prepare? = some (spellingRule s) := by
  have hfits : ∀ s ∈ spellings, s.1 ≠ "" ∧ (word s.1.toList).size ≤ Pattern.greatestSize := by decide
  exact prepare?_everywhere (hfits s hs).1 (hfits s hs).2 s.2

theorem foldl_spellingRule (horder : ∀ s ∈ order, s ∈ spellings) (t : List Char) :
    (order.map spellingRule).foldl (fun s r => r.1.replaceAll r.2 s) t = respellAll order t := by
  induction order generalizing t with
  | nil => rfl
  | cons s order ih =>
    rw [List.forall_mem_cons] at horder
    rw [List.map_cons, List.foldl_cons, ih horder.2, spellingRule,
      Pattern.replaceAll_word (respells_spellings s horder.1).word_ne_nil]
    rfl

/-- The rules that apply to all code, with those for the spellings in the given order. -/
def baseIn (order : List (String × String)) (rootCall : String) : List Renaming :=
  root rootCall :: order.map fun s => everywhere s.1 s.2

theorem baseIn_spellings (rootCall : String) : baseIn spellings rootCall = base rootCall :=
  rfl

/-- The rule that renames a call. -/
def callRule (n : String × String) : Pattern × Template :=
  (called n.1.toList, renamedCall n.2.toList)

/-- The same rules ready for use, and after them the rules that rename calls. -/
def preparedIn (order : List (String × String)) (rootCall : String) (names : List (String × String)) :
    List (Pattern × Template) :=
  (lineStart "svg".toList, rootCall.toList.map .char) :: (order.map spellingRule ++ names.map callRule)

theorem mapM_prepare? (horder : ∀ s ∈ order, s ∈ spellings) (rootCall : String)
    (hnames : ∀ n ∈ names, (called n.1.toList).size ≤ greatestSize) :
    (baseIn order rootCall ++ names.map fun n => call n.1 n.2).mapM prepare? =
      some (preparedIn order rootCall names) := by
  have hspellings := mapM_map_eq fun s hs => prepare?_spelling (horder s hs)
  have hcalls : (names.map fun n => call n.1 n.2).mapM prepare? = some (names.map callRule) :=
    mapM_map_eq fun n hn => prepare?_call (hnames n hn) n.2
  rw [baseIn, List.cons_append, List.mapM_cons, prepare?_root, List.mapM_append, hspellings, hcalls]
  rfl

/-- The calls that are renamed last make no old spelling. -/
theorem infix_of_renamedCalls (hx : x ∈ spellings) (hnames : ∀ n ∈ names, ¬ x.1.toList <:+: n.2.toList)
    (h : x.1.toList <:+: (names.map callRule).foldl (fun s r => r.1.replaceAll r.2 s) t) :
    x.1.toList <:+: t := by
  have hbounds : ∀ x ∈ spellings, x.1.toList.all fun c => ¬ Pattern.bounds.holds c := by decide
  induction names generalizing t with
  | nil => exact h
  | cons n names ih =>
    rw [List.forall_mem_cons] at hnames
    rw [List.map_cons, List.foldl_cons] at h
    exact Pattern.infix_of_replaceAll_called (List.all_iff_forall_prop.1 (hbounds x hx)) hnames.1
      (ih hnames.2 h)

end Renaming

namespace Finish

open Pattern (lineStart)
open Renaming (baseIn baseIn_spellings callRule preparedIn respellAll spellings)

variable {x : List Char}

/-- Neither the indentation nor the trimming makes a word that has no character of the indentation. -/
theorem infix_of_apply {f : Finish} {code : String} (h : x <:+: (f.apply code).toList) (hx : x ≠ [])
    (hfree : ∀ c ∈ ("\n" ++ f.indent).toList, c ∉ x) : x <:+: (f.rename code).toList := by
  have hindented := Text.infix_of_trim h
  rw [indented, Text.replace, String.toList_ofList] at hindented
  exact Text.infix_of_replaceSpans hfree (by simp) hx hindented

theorem rename_preparedIn {order : List (String × String)} (horder : ∀ s ∈ order, s ∈ spellings)
    (rootCall : String) (names : List (String × String)) (indent code : String) :
    (⟨preparedIn order rootCall names, indent⟩ : Finish).rename code =
      String.ofList ((names.map callRule).foldl (fun s r => r.1.replaceAll r.2 s)
        (respellAll order
          ((lineStart "svg".toList).replaceAll (rootCall.toList.map .char) code.toList))) := by
  rw [rename, preparedIn, List.foldl_cons, List.foldl_append, Renaming.foldl_spellingRule horder]

theorem finish_eq_ok {s : Settings} {f : Finish}
    (h : ofRules? s.rootCall s.extraRules s.indent = some f) : Generation.finish s = .ok f := by
  unfold Generation.finish
  split
  · rename_i g hg
    exact congrArg Except.ok (Option.some.inj (hg.symm.trans h))
  · rename_i hnone
    cases hnone.symm.trans h

/-- The calls that an edition renames. -/
def renamedCalls : Edition → List (String × String)
  | .legacy => []
  | .current => [("opacity", "o"), ("transform", "t")]

/-- The rules of an edition, ready for use. -/
def ofEdition (e : Edition) : Finish :=
  ⟨preparedIn spellings "icon" (renamedCalls e), "    "⟩

/-- The rules that an edition adds are for calls. -/
theorem mapM_prepare?_edition {order : List (String × String)} (horder : ∀ s ∈ order, s ∈ spellings)
    (e : Edition) :
    (baseIn order "icon" ++ e.extraRules).mapM Renaming.prepare? =
      some (preparedIn order "icon" (renamedCalls e)) := by
  have hextra : e.extraRules = (renamedCalls e).map fun n => Renaming.call n.1 n.2 := by
    cases e <;> rfl
  have hsize : ∀ n ∈ renamedCalls e, (Pattern.called n.1.toList).size ≤ Pattern.greatestSize := by
    cases e <;> decide
  rw [hextra]
  exact Renaming.mapM_prepare? horder "icon" hsize

theorem finish_preset (e : Edition) (path : Path) :
    Generation.finish (Settings.preset e path) = .ok (ofEdition e) := by
  have hprepared := mapM_prepare?_edition (fun s (hs : s ∈ spellings) => hs) e
  rw [baseIn_spellings] at hprepared
  exact finish_eq_ok (congrArg (Option.map _) hprepared)

/-- The finished code of an edition holds no old spelling, and it makes no difference to the renamed code in
which order the rules for the spellings run. -/
theorem spellings_respelled (e : Edition) (path : Path) :
    ∃ f, Generation.finish (Settings.preset e path) = .ok f ∧
      (∀ code, ∀ s ∈ spellings, ¬ s.1.toList <:+: (f.apply code).toList) ∧
      ∀ order : List (String × String), order.Perm spellings → ∃ rules,
        (baseIn order (Settings.preset e path).rootCall ++ e.extraRules).mapM Renaming.prepare? =
          some rules ∧
        ∀ code, (⟨rules, f.indent⟩ : Finish).rename code = f.rename code := by
  have hnames : ∀ n ∈ renamedCalls e, ∀ x ∈ spellings, ¬ x.1.toList <:+: n.2.toList := by
    cases e <;> decide
  refine ⟨_, finish_preset e path, fun code s hs hin => ?_, fun order horder => ?_⟩
  · have hfree : ∀ s ∈ spellings, ("\n" ++ "    ").toList.all fun c => c ∉ s.1.toList := by decide
    have hrenamed := infix_of_apply hin (Renaming.respells_spellings s hs).word_ne_nil
      (List.all_iff_forall_prop.1 (hfree s hs))
    rw [ofEdition, rename_preparedIn (fun _ hs => hs), String.toList_ofList] at hrenamed
    have hrespelled := Renaming.infix_of_renamedCalls hs (fun n hn => hnames n hn s hs) hrenamed
    exact Renaming.not_infix_respellAll (fun _ hs => hs) hs (.inl hs) hrespelled
  · have hin : ∀ s ∈ order, s ∈ spellings := fun _ hs => horder.subset hs
    refine ⟨preparedIn order "icon" (renamedCalls e), mapM_prepare?_edition hin e, fun code => ?_⟩
    rw [ofEdition, rename_preparedIn hin, rename_preparedIn (fun _ hs => hs),
      Renaming.respellAll_perm horder]

theorem spellings_respelled_reversed :
    spellings.reverse.Perm spellings ∧ ∃ f rules,
      Generation.finish (Settings.preset .current ⟨"icons"⟩) = .ok f ∧
      (baseIn spellings.reverse "icon" ++ Edition.current.extraRules).mapM Renaming.prepare? =
        some rules ∧
      (⟨rules, f.indent⟩ : Finish).rename "viewboxlink:href" = f.rename "viewboxlink:href" := by
  have hperm := List.reverse_perm spellings
  obtain ⟨f, hf, -, horder⟩ := spellings_respelled .current ⟨"icons"⟩
  obtain ⟨rules, hrules, hsame⟩ := horder spellings.reverse hperm
  exact ⟨hperm, f, rules, hf, hrules, hsame _⟩

end Finish
end IconModules
