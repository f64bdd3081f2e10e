import IconModules.Proofs.Generation.Turns
import IconModules.Proofs.Generation.Untouched

/-! # What a run asks its partners

* **`turns`** are the turns of all families, in their order; **`runTurns`** are those of a run.
* `run_requests`: a run asks for the catalogue first and then for drawings of the catalogue's icons, and has the
  drawings that it confirmed translated, turn by turn. -/

namespace IconModules

open IconModules.Action (Keeps Takes)

variable {s : Settings} {partners : Partners} {f : Finish} {family : String} {catalogue : Catalogue}
  {categories : List Category} {site after : Site}

/-! ### Whole runs -/

/-- The icons of a catalogue with the families they are drawn for, in the order of a run. -/
def Catalogue.tasks (c : Catalogue) : List (String × Icon) :=
  c.families.flatMap fun family => (c.supported family).map (family, ·)

/-- What a turn is about. -/
def Turn.task (t : Turn) : String × Icon :=
  (t.family, t.icon)

@[simp] theorem Turn.task_behind {α : Type} (a : Action α) (t : Turn) : (t.behind a).task = t.task := rfl

theorem Assembly.task_iconTurns (s : Settings) (partners : Partners) (f : Finish) (family : String)
    (icons : List Icon) :
    (iconTurns s partners f family icons).map Turn.task = icons.map (family, ·) := by
  induction icons with
  | nil => rfl
  | cons i rest ih =>
    rw [iconTurns, List.map_cons, List.map_map, List.map_cons, ← ih]
    rfl

theorem Assembly.task_moduleTurns : (moduleTurns s partners f catalogue categories family).map Turn.task =
    (catalogue.supported family).map (family, ·) := by
  rw [moduleTurns, List.map_map, ← task_iconTurns s partners f]
  rfl

namespace Generation

open Assembly (moduleTurns writeModule takes_writeModule task_moduleTurns)

variable {families : List String} {e : Edition} {root : Path}

/-- Writes the module of a family and says so. -/
def writeNoted (s : Settings) (partners : Partners) (f : Finish) (catalogue : Catalogue)
    (categories : List Category) (family : String) : Action ModuleReport := do
  let report ← writeModule s partners f family catalogue categories
  Action.note (.moduleWritten report.path)
  return report

theorem writeModules_cons (rest : List String) :
    writeModules s partners f catalogue categories (family :: rest) = (do
      let report ← writeNoted s partners f catalogue categories family
      return report :: (← writeModules s partners f catalogue categories rest)) := by
  simp only [writeModules, writeNoted, bind_assoc, pure_bind]

/-- The turns of families, one module after the other. -/
def turns (s : Settings) (partners : Partners) (f : Finish) (catalogue : Catalogue)
    (categories : List Category) : List String → List Turn
  | [] => []
  | family :: rest => moduleTurns s partners f catalogue categories family ++
      (turns s partners f catalogue categories rest).map
        (Turn.behind (writeNoted s partners f catalogue categories family))

theorem takes_writeModules (families : List String) :
    Takes s partners (turns s partners f catalogue categories families)
      (writeModules s partners f catalogue categories families) := by
  induction families with
  | nil => exact Takes.pure _
  | cons family rest ih =>
    have hfirst : Takes s partners (moduleTurns s partners f catalogue categories family)
        (writeNoted s partners f catalogue categories family) :=
      takes_writeModule.bind_none fun _ => (Takes.note _).bind_none fun _ => .pure _
    rw [writeModules_cons]
    exact hfirst.bind fun _ => ih.bind_none fun _ => .pure _

theorem task_turns (s : Settings) (partners : Partners) (f : Finish) (catalogue : Catalogue)
    (categories : List Category) (families : List String) :
    (turns s partners f catalogue categories families).map Turn.task =
      families.flatMap fun family => (catalogue.supported family).map (family, ·) := by
  induction families with
  | nil => rfl
  | cons family rest ih =>
    rw [turns, List.map_append, task_moduleTurns, List.map_map, List.flatMap_cons, ← ih]
    rfl

/-- What a run does before it writes modules. -/
def opening (s : Settings) (partners : Partners) : Action (Catalogue × Finish) := do
  makeReady s
  let catalogue ← loadCatalogue s partners
  Action.note (.catalogueLoaded catalogue.icons.length catalogue.families.length
    (Category.ofIcons catalogue.icons).length)
  let f ← Action.attempt (finish s)
  return (catalogue, f)

theorem run_eq : run s partners = (do
    let (catalogue, f) ← opening s partners
    let families ← writeModules s partners f catalogue (Category.ofIcons catalogue.icons)
      catalogue.families
    let installed ← Installation.install s
    Action.note (.formatting s.sourceFolder)
    Action.format partners s.sourceFolder
    return ⟨families, installed⟩) := by
  simp only [run, writeAll, opening, bind_assoc, pure_bind]

/-- The turns of a run that is served a catalogue. -/
def runTurns (s : Settings) (partners : Partners) (catalogue : Catalogue) (f : Finish) : List Turn :=
  (turns s partners f catalogue (Category.ofIcons catalogue.icons) catalogue.families).map
    (Turn.behind (opening s partners))

theorem task_runTurns (s : Settings) (partners : Partners) (catalogue : Catalogue) (f : Finish) :
    (runTurns s partners catalogue f).map Turn.task = catalogue.tasks := by
  rw [runTurns, List.map_map, Catalogue.tasks, ← task_turns s partners f catalogue
    (Category.ofIcons catalogue.icons)]
  rfl

/-- Loading the catalogue, it is asked for once, and nothing else is. -/
theorem loadCatalogue_requests {r : Except Failure Catalogue}
    (h : (loadCatalogue s partners).perform site = (r, after)) :
    ∃ new, after.journal = site.journal ++ new ∧ fetches new = [s.catalogueUrl] ∧
      translations new = [] := by
  have hstore : ∀ raw, Takes s partners [] (do
      Action.change s.catalogueFile (·.write s.catalogueFile raw)
      Action.attempt ((Catalogue.read raw).mapError .catalogue)) := fun raw =>
    (Takes.change _ _).bind_none fun _ => .attempt _
  let asking : List Event := [.noted (.downloadingCatalogue s.catalogueUrl), .fetched s.catalogueUrl]
  unfold loadCatalogue at h
  rw [Action.note, Action.perform_record_bind] at h
  rcases Action.perform_bind_cases h with ⟨failure, hfail, rfl⟩ | ⟨raw, downloaded, hok, h⟩
  · obtain ⟨-, rfl⟩ := Action.perform_attempt_cases hfail
    exact ⟨asking, by simp [asking], rfl, rfl⟩
  · obtain ⟨-, rfl⟩ := Action.perform_attempt_cases hok
    obtain ⟨rest, hjournal, hfetches, htranslations⟩ := (hstore raw).none h
    refine ⟨asking ++ rest, by simp [hjournal, asking], ?_, ?_⟩
    · rw [fetches_append, hfetches]
      rfl
    · rw [translations_append, htranslations]
      rfl

/-- Before modules are written, the catalogue is asked for once, unless the folders cannot be prepared. -/
theorem opening_requests {r : Except Failure (Catalogue × Finish)}
    (h : (opening s partners).perform site = (r, after)) :
    ∃ new, after.journal = site.journal ++ new ∧ fetches new <+: [s.catalogueUrl] ∧
      translations new = [] ∧ ∀ catalogue f, r = .ok (catalogue, f) →
        fetches new = [s.catalogueUrl] ∧ Served s partners site catalogue := by
  have hready : Takes s partners [] (makeReady s) := .of_journal (journal_makeReady s)
  rcases Action.perform_bind_cases h with ⟨failure, hfail, rfl⟩ | ⟨_, mid, hok, h⟩
  · obtain ⟨new, hjournal, hfetches, htranslations⟩ := hready.none hfail
    exact ⟨new, hjournal, by simp [hfetches], htranslations, fun _ _ hr => by cases hr⟩
  have hmid := journal_makeReady s site
  rw [hok] at hmid
  change mid.journal = site.journal at hmid
  rcases Action.perform_bind_cases h with ⟨failure, hfail, rfl⟩ | ⟨catalogue, loaded, hload, h⟩
  · obtain ⟨new, hjournal, hfetches, htranslations⟩ := loadCatalogue_requests hfail
    exact ⟨new, hmid ▸ hjournal, by simp [hfetches], htranslations, fun _ _ hr => by cases hr⟩
  obtain ⟨new, hjournal, hfetches, htranslations⟩ := loadCatalogue_requests hload
  have hserved := served_of_loadCatalogue hload
  have hend : Takes s partners [] (do
      Action.note (.catalogueLoaded catalogue.icons.length catalogue.families.length
        (Category.ofIcons catalogue.icons).length)
      let f ← Action.attempt (finish s)
      return (catalogue, f)) :=
    (Takes.note _).bind_none fun _ => (Takes.attempt _).bind_none fun _ => .pure _
  obtain ⟨rest, hjournal', hnone, hnone'⟩ := hend.none h
  have hasked : fetches (new ++ rest) = [s.catalogueUrl] := by
    rw [fetches_append, hfetches, hnone, List.append_nil]
  refine ⟨new ++ rest, ?_, by simp [hasked], by rw [translations_append, htranslations, hnone', List.nil_append],
    fun catalogue' f' hr => ⟨hasked, ?_⟩⟩
  · rw [hjournal', hjournal, hmid, List.append_assoc]
  · subst hr
    obtain ⟨_, _, -, h⟩ := Action.perform_bind_ok h
    obtain ⟨_, _, -, h⟩ := Action.perform_bind_ok h
    obtain ⟨rfl, -⟩ := Prod.mk.inj (Action.perform_pure_ok h).1
    unfold Served at hserved ⊢
    rwa [hmid] at hserved

/-- An installation asks no partner for anything. -/
theorem takes_install : Takes s partners [] (Installation.install s) := by
  refine .of_none fun site after r h => ?_
  -- what an action enters into the journal that takes no turns
  have hkeeps : ∀ {α : Type} {a : Action α}, Takes s partners [] a → Keeps (fun x => ∃ new,
      x.journal = site.journal ++ new ∧ fetches new = [] ∧ translations new = []) a := by
    rintro α a ha mid ⟨new, hjournal, hfetches, htranslations⟩
    rcases hperform : a.perform mid with ⟨_, later⟩
    obtain ⟨rest, hrest, hnone, hnone'⟩ := ha.none hperform
    exact ⟨new ++ rest, by rw [hrest, hjournal, List.append_assoc], by simp [hfetches, hnone],
      by simp [htranslations, hnone']⟩
  refine (Installation.keeps_install (fun n => hkeeps (.note n)) (fun _ _ => hkeeps (.moveTo _ _))
    (fun _ _ => hkeeps (.moveTo _ _)) (hkeeps (.clearIfPresent _)) ?_ (hkeeps (.clearIfPresent _))).of_perform
    h ⟨[], by simp, rfl, rfl⟩
  exact Installation.keeps_moveAll (R := fun _ _ => True) (fun _ _ _ => hkeeps (.moveTo _ _))
    (fun _ _ _ _ _ _ _ _ _ => trivial) trivial

/-- A run takes the turns of all families when it has been served a catalogue. -/
theorem takes_rest : Takes s partners
    (turns s partners f catalogue (Category.ofIcons catalogue.icons) catalogue.families) (do
      let families ← writeModules s partners f catalogue (Category.ofIcons catalogue.icons)
        catalogue.families
      let installed ← Installation.install s
      Action.note (.formatting s.sourceFolder)
      Action.format partners s.sourceFolder
      return (⟨families, installed⟩ : RunReport)) :=
  (takes_writeModules _).bind_none fun _ => takes_install.bind_none fun _ =>
    (Takes.note _).bind_none fun _ => (Takes.format _).bind_none fun _ => .pure _

/-! ### The addresses of drawings -/

/-- The beginning of the addresses of all drawings. -/
def drawingHost : String := "https://fonts.gstatic.com/s/i/"

theorem replaceSpans_skip {word put front rest : List Char} {w : Char}
    (h : w ∉ front) :
    Text.replaceSpans (Text.wordSpan (w :: word)) put 0 (front ++ rest) =
      front ++ Text.replaceSpans (Text.wordSpan (w :: word)) put 0 rest := by
  induction front with
  | nil => rfl
  | cons c front ih =>
    have hspan : Text.wordSpan (w :: word) (c :: (front ++ rest)) = none := by
      simp [Text.wordSpan, List.ne_of_not_mem_cons h]
    rw [List.cons_append, Text.replaceSpans, hspan, ih (List.not_mem_of_not_mem_cons h)]
    rfl

/-- What is put into an address leaves its beginning. -/
theorem replace_keeps_host {word put text : String} (hword : word.toList.head? = some '\x7b')
    (h : drawingHost.toList <+: text.toList) :
    drawingHost.toList <+: (Text.replace word put text).toList := by
  obtain ⟨rest, hrest⟩ := h
  obtain ⟨cs, hcs⟩ : ∃ cs, word.toList = '\x7b' :: cs := by
    cases hlist : word.toList with
    | nil => rw [hlist] at hword; cases hword
    | cons c cs =>
      rw [hlist] at hword
      exact ⟨cs, by rw [Option.some.inj hword]⟩
  rw [Text.replace, String.toList_ofList, ← hrest, hcs, replaceSpans_skip (by decide)]
  exact List.prefix_append _ _

/-- The catalogue has another address than every drawing. -/
theorem drawingUrl_ne_catalogue (e : Edition) (root : Path) (family name : String) (version : UInt32) :
    (Settings.preset e root).drawingUrl family name version ≠ catalogueAddress := by
  have hhost : drawingHost.toList <+:
      ((Settings.preset e root).drawingUrl family name version).toList :=
    replace_keeps_host (by decide) (replace_keeps_host (by decide) (replace_keeps_host (by decide)
      ⟨_, by rw [show (Settings.preset e root).drawingTemplate = drawingHost ++ _ from rfl, String.toList_append]⟩))
  intro he
  rw [he] at hhost
  exact absurd hhost (by decide)

/-! ### The requests of a run -/

/-- What is asked of the partners of a run that is served a catalogue: the address of the catalogue, and after it
addresses of drawings; and the confirmed drawings of the icons are translated one after the other. -/
structure Requested (s : Settings) (partners : Partners) (site : Site) (catalogue : Catalogue) (f : Finish)
    (new : List Event) : Prop where
  fetched : ∃ drawings, fetches new = s.catalogueUrl :: drawings ∧ ∀ url ∈ drawings,
    url ≠ s.catalogueUrl ∧ ∃ family ∈ catalogue.families, ∃ i ∈ catalogue.supported family,
      url = s.drawingUrl family i.name i.version
  order : (runTurns s partners catalogue f).map Turn.task = catalogue.tasks
  translated : List.Forall₂ (Turn.Confirms s partners site)
    ((runTurns s partners catalogue f).take (translations new).length) (translations new)
  drawings : ∀ markup ∈ translations new, Markup.isDrawing markup = true

/-- The reports count the icons of the families. -/
theorem icons_of_writeModules {reports : List ModuleReport}
    (h : (writeModules s partners f catalogue categories families).perform site = (.ok reports, after)) :
    reports.map (·.icons) = families.map fun family => (catalogue.supported family).length := by
  induction families generalizing site after reports with
  | nil =>
    obtain ⟨rfl, -⟩ := Action.perform_pure_ok h
    rfl
  | cons family rest ih =>
    obtain ⟨report, written, reports', hwrite, hrest, rfl⟩ := writeModules_cons_iff.1 h
    rw [Assembly.writeModule_eq] at hwrite
    obtain ⟨_, _, -, hwrite⟩ := Action.perform_bind_ok hwrite
    obtain ⟨_, _, -, hwrite⟩ := Action.perform_bind_ok hwrite
    obtain ⟨rfl, -⟩ := Action.perform_pure_ok hwrite
    rw [List.map_cons, List.map_cons, ih hrest]

/-- A run reports as many icons as there are tasks. -/
theorem icons_of_run {reports : List ModuleReport} {n : Nat}
    (h : reports.map (·.icons) = catalogue.families.map fun family => (catalogue.supported family).length) :
    (⟨reports, n⟩ : RunReport).icons = catalogue.tasks.length := by
  have hsum : ∀ (rs : List ModuleReport) (n : Nat),
      rs.foldl (fun n m => n + m.icons) n = n + (rs.map (·.icons)).sum := by
    intro rs
    induction rs with
    | nil => simp
    | cons r rs ih =>
      intro n
      rw [List.foldl_cons, ih, List.map_cons, List.sum_cons, Nat.add_assoc]
  rw [RunReport.icons, hsum, h, Nat.zero_add, Catalogue.tasks, List.length_flatMap]
  simp

theorem exists_of_forall₂ {α β : Type} {R : α → β → Prop} {l : List α} {l' : List β} (h : List.Forall₂ R l l')
    {y : β} (hy : y ∈ l') : ∃ x, R x y := by
  induction h with
  | nil => cases hy
  | cons hxy _ ih =>
    rcases List.mem_cons.1 hy with rfl | hy
    · exact ⟨_, hxy⟩
    · exact ih hy

/-- However a run of a preset ends, on any files and with any partners: it asks for the catalogue at most once and
before anything else. If it is served one, it asks for no other addresses than those of its drawings, and it has
the confirmed drawings of its icons translated, in the order of the families and of the icons; if it ends well,
those of all icons, and as many as it reports. -/
theorem run_requests (e : Edition) (root : Path) (partners : Partners) (site : Site) :
    let s := Settings.preset e root
    let result := (run s partners).perform site
    ∃ new, result.2.journal = site.journal ++ new ∧
      ((∃ failure, result.1 = .error failure) ∧ fetches new <+: [s.catalogueUrl] ∧ translations new = [] ∨
        ∃ catalogue f, Served s partners site catalogue ∧ Requested s partners site catalogue f new ∧
          ∀ report, result.1 = .ok report →
            (translations new).length = catalogue.tasks.length ∧ report.icons = catalogue.tasks.length) := by
  intro s result
  rcases h : result with ⟨r, after⟩
  have hrun : (run s partners).perform site = (r, after) := h
  rw [run_eq] at hrun
  rcases Action.perform_bind_cases hrun with ⟨failure, hfail, rfl⟩ | ⟨⟨catalogue, f⟩, begun, hbegin, hrest⟩
  · obtain ⟨new, hjournal, hfetches, htranslations, -⟩ := opening_requests hfail
    exact ⟨new, hjournal, .inl ⟨⟨failure, rfl⟩, hfetches, htranslations⟩⟩
  obtain ⟨new, hjournal, -, htranslations, hserved⟩ := opening_requests hbegin
  obtain ⟨hasked, hserved⟩ := hserved catalogue f rfl
  obtain ⟨new', hjournal', hfollows, hall⟩ := takes_rest _ _ _ hrest
  have hmarkup : translations (new ++ new') = translations new' := by
    rw [translations_append, htranslations, List.nil_append]
  have hturns : List.Forall₂ (Turn.Confirms s partners site)
      ((runTurns s partners catalogue f).take (translations new').length) (translations new') := by
    rw [runTurns, ← List.map_take, List.forall₂_map_left_iff]
    exact hfollows.translated.imp fun t svg hconfirms => hconfirms.behind hbegin
  refine ⟨new ++ new', by rw [hjournal', hjournal, List.append_assoc],
    .inr ⟨catalogue, f, hserved, ⟨?_, ?_, ?_, ?_⟩, ?_⟩⟩
  · refine ⟨fetches new', by rw [fetches_append, hasked]; rfl, fun url hurl => ?_⟩
    obtain ⟨t, ht, rfl⟩ := hfollows.fetched url hurl
    have htask := List.mem_map_of_mem (f := Turn.task) ht
    rw [task_turns, List.mem_flatMap] at htask
    obtain ⟨family, hfamily, htask⟩ := htask
    obtain ⟨i, hi, htask⟩ := List.mem_map.1 htask
    obtain ⟨hfamily', hi'⟩ := Prod.mk.inj htask
    rw [Turn.url, ← hfamily', ← hi']
    exact ⟨drawingUrl_ne_catalogue e root _ _ _, family, hfamily, i, hi, rfl⟩
  · exact task_runTurns _ _ _ _
  · rw [hmarkup]
    exact hturns
  · rw [hmarkup]
    intro markup hmem
    obtain ⟨t, -, -, -, -, -, -, -, hdrawing⟩ := exists_of_forall₂ hturns hmem
    exact hdrawing
  · rintro report rfl
    obtain ⟨reports, written, hwrite, hrest⟩ := Action.perform_bind_ok hrest
    obtain ⟨n, installed, -, hrest⟩ := Action.perform_bind_ok hrest
    obtain ⟨_, noted, -, hrest⟩ := Action.perform_bind_ok hrest
    obtain ⟨_, formatted, -, hrest⟩ := Action.perform_bind_ok hrest
    obtain ⟨rfl, -⟩ := Action.perform_pure_ok hrest
    refine ⟨?_, icons_of_run (icons_of_writeModules hwrite)⟩
    rw [hmarkup, hall _ rfl, ← task_runTurns s partners catalogue f, runTurns,
      List.length_map, List.length_map]

end Generation

end IconModules
