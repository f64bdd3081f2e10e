import IconModules.Proofs.Generation.Repairs
import IconModules.Proofs.Generation.Turns
import IconModules.Settings.Presets

/-! # Icons whose names are rejected

An icon has no identifier if its name begins with a digit and is not in the table (`Settings.rejects`).

* The identifiers of a family's icons are looked up before anything is written, so the first rejected name
  ends the writing of a module when nothing has happened but a note.
* If no name is rejected, all later lookups succeed as well: what is documented has the name of an icon of
  the family. A rejected name can then only be reported by a partner (`Action.FailsAs`). -/

namespace IconModules

/-- Whether the name of an icon begins with a digit and is not in the table. -/
def Settings.rejects (s : Settings) (i : Icon) : Bool :=
  Naming.beginsWithDigit i.name && !(s.digitNames.map Prod.fst).contains i.name

namespace Assembly

variable {s : Settings} {i : Icon} {icons : List Icon}

/-! ### Looking up identifiers -/

/-- An icon has an identifier unless its name is rejected. -/
theorem symbol_eq (s : Settings) (i : Icon) : Assembly.symbol s i.name =
    if s.rejects i then .error (.digitName i.name) else .ok (symbolOf s i) := by
  unfold Assembly.symbol symbolOf Settings.rejects Naming.symbol?
  cases hlookup : s.digitNames.lookup i.name with
  | some mapped =>
    have hkey : (s.digitNames.map Prod.fst).contains i.name = true := by
      obtain ⟨l₁, l₂, hl, -⟩ := List.lookup_eq_some_iff.1 hlookup
      simp [hl]
    simp only [hkey, Bool.not_true, Bool.and_false, Bool.false_eq_true, if_false, Option.getD_some]
  | none =>
    have hkey : (s.digitNames.map Prod.fst).contains i.name = false := by
      rw [Bool.eq_false_iff, ne_eq, List.contains_iff_mem, List.mem_map]
      rintro ⟨x, hx, he⟩
      exact absurd (beq_iff_eq.2 he.symm) (by simpa using List.lookup_eq_none_iff.1 hlookup x hx)
    rw [hkey]
    cases Naming.beginsWithDigit i.name <;> rfl

theorem hasSymbol_iff : HasSymbol s i ↔ s.rejects i = false := by
  have he := symbol_eq s i
  unfold Assembly.symbol at he
  unfold HasSymbol
  cases hsymbol : Naming.symbol? s.digitNames i.name <;> cases hrejects : s.rejects i <;>
    simp [hsymbol, hrejects] at he ⊢

theorem symbol_eq_ok (h : HasSymbol s i) : Assembly.symbol s i.name = .ok (symbolOf s i) := by
  rw [symbol_eq, hasSymbol_iff.1 h]
  rfl

theorem symbols_eq_ok (h : ∀ i ∈ icons, HasSymbol s i) :
    symbols s icons = .ok (icons.map (symbolOf s)) := by
  unfold symbols
  induction icons with
  | nil => rfl
  | cons i icons ih =>
    rw [List.mapM_cons, ih fun j hj => h j (List.mem_cons_of_mem _ hj),
      symbol_eq_ok (h i List.mem_cons_self)]
    rfl

/-- The first rejected name ends the lookup. -/
theorem symbols_eq_error (h : icons.find? s.rejects = some i) :
    symbols s icons = .error (.digitName i.name) := by
  unfold symbols
  induction icons with
  | nil => cases h
  | cons j icons ih =>
    rw [List.mapM_cons, symbol_eq]
    cases hj : s.rejects j with
    | true =>
      rw [List.find?_cons_of_pos hj] at h
      rw [Option.some.inj h]
      rfl
    | false =>
      rw [List.find?_cons_of_neg (by simp [hj])] at h
      rw [ih h]
      rfl

/-- If some icon has no identifier, there is a first one whose name is rejected. -/
theorem exists_rejected (h : ¬ ∀ i ∈ icons, HasSymbol s i) : ∃ i, icons.find? s.rejects = some i := by
  simp only [hasSymbol_iff, not_forall, Bool.not_eq_false] at h
  obtain ⟨i, hi, hrejects⟩ := h
  exact Option.isSome_iff_exists.1 (List.find?_isSome.2 ⟨i, hi, hrejects⟩)

/-- What is documented has the name of one of the given icons, and so it has an identifier if these have. -/
theorem hasSymbol_documented (h : ∀ i ∈ icons, HasSymbol s i) {c : Category}
    (hi : i ∈ ModuleText.documented (icons.map (·.name)) c) : HasSymbol s i := by
  unfold ModuleText.documented at hi
  rw [List.mem_mergeSort, List.mem_filter, List.contains_iff_mem, List.mem_map] at hi
  obtain ⟨-, j, hj, he⟩ := hi
  unfold HasSymbol
  rw [← he]
  exact h j hj

end Assembly

/-! ### Failures -/

namespace Action

variable {α β : Type} {P : Failure → Site → Prop} {a : Action α} {p : Path}

/-- If the action fails, the failure and the site it leaves are as `P` says. -/
def FailsAs (P : Failure → Site → Prop) (a : Action α) : Prop :=
  ∀ site after failure, a.perform site = (.error failure, after) → P failure after

namespace FailsAs

theorem pure (x : α) : FailsAs P (Pure.pure x : Action α) := by
  intro site after failure h
  cases h

theorem record (e : Event) : FailsAs P (record e) := by
  intro site after failure h
  cases h

theorem attempt {r : Except Failure α} (h : ∀ failure after, r = .error failure → P failure after) :
    FailsAs P (attempt r) := by
  intro site after failure hperform
  exact h failure after (perform_attempt_cases hperform).1

theorem throw {f : Failure} (h : ∀ after, P f after) : FailsAs P (throw f : Action α) := by
  intro site after failure hperform
  cases hperform
  exact h _

theorem holds (p : Path) : FailsAs P (holds p) := by
  intro site after failure h
  cases h

theorem bind {b : α → Action β} (ha : FailsAs P a) (hb : ∀ x, FailsAs P (b x)) :
    FailsAs P (a >>= b) := by
  intro site after failure h
  rcases perform_bind_cases h with ⟨f, hf, he⟩ | ⟨x, mid, -, h⟩
  · exact Except.error.inj he ▸ ha _ _ _ hf
  · exact hb x _ _ _ h

theorem forM {l : List α} {f : α → Action Unit} (h : ∀ x ∈ l, FailsAs P (f x)) :
    FailsAs P (l.forM f) := by
  induction l with
  | nil => exact pure ()
  | cons x l ih =>
    change FailsAs P (f x >>= fun _ => l.forM f)
    exact (h x List.mem_cons_self).bind fun _ => ih fun y hy => h y (List.mem_cons_of_mem _ hy)

section

variable (hfiles : ∀ p cause after, P (.files p cause) after)
include hfiles

theorem inspect (look : Disk → Except FileError α) : FailsAs P (inspect p look) := by
  intro site after failure h
  rw [perform_inspect] at h
  cases hlook : look site.disk with
  | error cause =>
    rw [hlook] at h
    cases h
    exact hfiles p cause _
  | ok x =>
    rw [hlook] at h
    cases h

theorem change (f : Disk → Except FileError Disk) : FailsAs P (change p f) :=
  (inspect hfiles f).bind fun _ => fun _ _ _ h => by cases h

theorem makeParent : FailsAs P (makeParent p) := by
  unfold Action.makeParent
  split
  · intro site after failure h
    rw [makeFolders, perform_carryOut] at h
    split at h
    · cases h
      exact hfiles _ _ _
    · cases h
  · exact pure ()

end

end FailsAs
end Action

open IconModules.Action (FailsAs)

variable {P : Failure → Site → Prop} {s : Settings} {partners : Partners} {f : Finish} {family : String}
  {catalogue : Catalogue} {categories : List Category} {i : Icon}

section

variable (hfiles : ∀ p cause after, P (.files p cause) after)
  (hdownload : ∀ url, FailsAs P (Action.download partners url))

include hfiles hdownload in
theorem Cache.failsAs_ensure (force : Bool) : FailsAs P (ensure s partners family i force) := by
  unfold ensure
  refine (FailsAs.holds _).bind fun v => ?_
  dsimp only
  split
  · exact (FailsAs.record _).bind fun _ => (hdownload _).bind fun content =>
      ((FailsAs.makeParent hfiles).bind fun _ => .change hfiles _).bind fun _ => .pure _
  · exact .pure _

variable (hgiveUp : ∀ after, P (Cache.giveUp s i) after)

include hfiles hdownload hgiveUp in
/-- A drawing is not found because of the files or of a download, or because it was given up. -/
theorem Cache.failsAs_drawing : FailsAs P (drawing s partners family i) := by
  have hcontents : ∀ path, FailsAs P (contents s path) := fun path =>
    (FailsAs.inspect hfiles _).bind fun _ => .pure _
  have hrepair : ∀ left path, FailsAs P (repair s partners family i left path) := by
    intro left
    induction left with
    | zero =>
      intro path
      unfold repair
      refine (hcontents path).bind fun svg => ?_
      split
      · exact .pure _
      · exact .throw hgiveUp
    | succ left ih =>
      intro path
      unfold repair
      refine (hcontents path).bind fun svg => ?_
      split
      · exact .pure _
      · exact (FailsAs.record _).bind fun _ => (FailsAs.record _).bind fun _ =>
          (failsAs_ensure hfiles hdownload true).bind fun path => ih path
  exact (failsAs_ensure hfiles hdownload false).bind fun path => hrepair _ path

end

/-! ### Modules -/

namespace Assembly

/-- The first rejected name ends the writing of a module when nothing has happened but a note. -/
theorem writeFront_rejected (h : (catalogue.supported family).find? s.rejects = some i) (site : Site) :
    (writeFront s family catalogue categories).perform site =
      (.error (.digitName i.name), { site with journal := site.journal ++
        [.noted (.processingFamily family (catalogue.supported family).length)] }) := by
  simp only [writeFront, Action.note, Action.perform_record, symbols_eq_error h, Action.perform_bind,
    Action.perform_attempt]

/-- All icons of a module that was written have identifiers. -/
theorem hasSymbol_of_writeModule {site after : Site} {report : ModuleReport}
    (h : (writeModule s partners f family catalogue categories).perform site = (.ok report, after)) :
    ∀ i ∈ catalogue.supported family, HasSymbol s i := by
  by_contra hnot
  obtain ⟨i, hi⟩ := exists_rejected hnot
  rw [writeModule_eq, Action.perform_bind, writeFront_rejected hi] at h
  cases h

/-- The last thing that happened is that a partner was asked and answered with this failure. -/
def ReportedByPartner (partners : Partners) (failure : Failure) (after : Site) : Prop :=
  ∃ before, (∃ url, after.journal = before ++ [.fetched url] ∧
      partners.fetch before url = .error failure) ∨
    ∃ markup, after.journal = before ++ [.translated markup] ∧
      partners.translate before markup = .error failure

/-- If all icons have identifiers, nothing that is done for a module rejects a name by itself. -/
theorem failsAs_writeModule (h : ∀ i ∈ catalogue.supported family, HasSymbol s i) :
    FailsAs (fun failure after => ∀ name, failure = .digitName name →
        ReportedByPartner partners failure after)
      (writeModule s partners f family catalogue categories) := by
  let P : Failure → Site → Prop := fun failure after => ∀ name, failure = .digitName name →
    ReportedByPartner partners failure after
  have hfiles : ∀ p cause after, P (.files p cause) after := fun p cause after name he => by cases he
  have hpiece : ∀ piece, FailsAs P (append (s.moduleFile family) piece) := fun piece =>
    (FailsAs.makeParent hfiles).bind fun _ => .change hfiles _
  have hsymbols : ∀ icons : List Icon, (∀ i ∈ icons, HasSymbol s i) →
      FailsAs P (Action.attempt (symbols s icons)) := fun icons hicons => by
    rw [symbols_eq_ok hicons]
    exact .attempt fun failure after he => by cases he
  have hdownload : ∀ url, FailsAs P (Action.download partners url) :=
    fun url site after failure hperform name _ => by
      rw [Cache.perform_download] at hperform
      obtain ⟨hfetch, rfl⟩ := Prod.mk.inj hperform
      exact ⟨site.journal, .inl ⟨url, rfl, hfetch⟩⟩
  have hdrawing : ∀ i, FailsAs P (Cache.drawing s partners family i) := fun i =>
    Cache.failsAs_drawing hfiles hdownload fun after name he => by
      unfold Cache.giveUp at he
      split at he <;> cases he
  have htranslate : ∀ svg, FailsAs P (Action.translate partners svg) :=
    fun svg site after failure hperform name _ => by
      obtain ⟨htranslate, rfl⟩ := Action.perform_translate hperform
      exact ⟨site.journal, .inr ⟨svg, rfl, htranslate⟩⟩
  unfold writeModule
  refine (FailsAs.record _).bind fun _ => (hsymbols _ h).bind fun _ => (hpiece _).bind fun _ =>
    FailsAs.bind ?_ fun _ => (hpiece _).bind fun _ => FailsAs.bind ?_ fun _ => .pure _
  · refine FailsAs.forM fun category _ => ?_
    unfold writeSection
    exact (hpiece _).bind fun _ => (hsymbols _ fun i hi => hasSymbol_documented h hi).bind fun _ => hpiece _
  · refine FailsAs.forM fun i hi => ?_
    unfold writeIcon
    rw [symbol_eq_ok (h i hi)]
    exact (FailsAs.attempt fun failure after he => by cases he).bind fun _ => (FailsAs.record _).bind fun _ =>
      (hdrawing i).bind fun svg => (htranslate svg).bind fun _ => hpiece _

/-- A rejected name among the icons of a family ends the writing of its module before anything happens: the
failure names the first one, no file has changed, and no partner was asked for anything. If there is none,
whatever the categories are, no lookup fails, and a rejected name is only reported if a partner does so. -/
theorem rejected_name_stops (s : Settings) (partners : Partners) (f : Finish) (family : String)
    (catalogue : Catalogue) (categories : List Category) (site : Site) :
    (∀ i, (catalogue.supported family).find? s.rejects = some i →
      (writeModule s partners f family catalogue categories).perform site =
        (.error (.digitName i.name), { site with journal := site.journal ++
          [.noted (.processingFamily family (catalogue.supported family).length)] })) ∧
    ((∀ i ∈ catalogue.supported family, s.rejects i = false) →
      (∀ category ∈ categories, ∃ l,
        symbols s (ModuleText.documented ((catalogue.supported family).map (·.name)) category) = .ok l) ∧
      (∀ i ∈ catalogue.supported family, ∃ symbol, Assembly.symbol s i.name = .ok symbol) ∧
      ∀ name after, (writeModule s partners f family catalogue categories).perform site =
        (.error (.digitName name), after) → ReportedByPartner partners (.digitName name) after) := by
  refine ⟨fun i hi => ?_, fun hnone => ?_⟩
  · rw [writeModule_eq, Action.perform_bind, writeFront_rejected hi]
  · have hsymbols : ∀ i ∈ catalogue.supported family, HasSymbol s i := fun i hi =>
      hasSymbol_iff.2 (hnone i hi)
    exact ⟨fun category _ => ⟨_, symbols_eq_ok fun i hi => hasSymbol_documented hsymbols hi⟩,
      fun i hi => ⟨symbolOf s i, symbol_eq_ok (hsymbols i hi)⟩,
      fun name after h => failsAs_writeModule hsymbols _ _ _ h name rfl⟩

/-- Three icons. The first has a rejected name too, but is not drawn for `A`. -/
def threeNames : Catalogue :=
  ⟨[⟨"2g", 1, [], ["A"]⟩, ⟨"search", 1, [], []⟩, ⟨"5g", 1, [], []⟩], ["A"]⟩

/-- The old edition has no identifier for `5g`. -/
theorem rejected_name_stops_five_g :
    (writeModule (.preset .legacy ⟨"/"⟩)
        ⟨fun _ _ => .ok [], fun _ _ => .ok "", fun _ _ d => (.ok (), d), 0⟩ ⟨[], ""⟩ "A" threeNames
        [⟨"Network", []⟩]).perform ⟨⟨.single .folder, []⟩, []⟩ =
      (.error (.digitName "5g"), ⟨⟨.single .folder, []⟩, [.noted (.processingFamily "A" 2)]⟩) :=
  (rejected_name_stops _ _ _ _ _ _ _).1 ⟨"5g", 1, [], []⟩ (by decide)

end Assembly
end IconModules
