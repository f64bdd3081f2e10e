import IconModules.Generation.Run
import IconModules.Proofs.Generation.Filled
import Mathlib.Data.List.Forall2

/-! # Icons take turns

Which addresses an action downloads and which markup it has translated, however it ends, on any files and with
any partners.

* A **`Turn`** is an icon of a family together with what is done before its drawing is looked for.
* **`Takes turns a`** says that the action `a` downloads nothing but drawings of these icons and has nothing but
  their confirmed drawings translated, one for each turn and in this order, and all of them if it ends well.
  There is one rule for each way to make an action; `takes_writeModule` puts them together for a module. -/

namespace IconModules

/-! ### Requests in a journal -/

/-- The addresses that were asked for their content. -/
def fetches (journal : List Event) : List String :=
  journal.filterMap fun
    | .fetched url => some url
    | _ => none

/-- The markup that was given to the translator. -/
def translations (journal : List Event) : List String :=
  journal.filterMap fun
    | .translated markup => some markup
    | _ => none

@[simp] theorem fetches_append (j j' : List Event) : fetches (j ++ j') = fetches j ++ fetches j' :=
  List.filterMap_append

@[simp] theorem translations_append (j j' : List Event) :
    translations (j ++ j') = translations j ++ translations j' :=
  List.filterMap_append

/-! ### Turns -/

/-- An icon of a family, and what is done before its drawing is looked for. -/
structure Turn where
  before : Action Unit
  family : String
  icon : Icon

namespace Turn

/-- The same turn when something else is done first. -/
def behind {α : Type} (a : Action α) (t : Turn) : Turn :=
  { t with before := a >>= fun _ => t.before }

/-- The address of the drawing. -/
def url (s : Settings) (t : Turn) : String :=
  s.drawingUrl t.family t.icon.name t.icon.version

/-- From `site`, the drawing of the turn is confirmed to be `svg`, which is what its entry holds then. -/
def Confirms (s : Settings) (partners : Partners) (site : Site) (t : Turn) (svg : String) : Prop :=
  ∃ mid after content, t.before.perform site = (.ok (), mid) ∧
    (Cache.drawing s partners t.family t.icon).perform mid = (.ok svg, after) ∧
    after.disk.read (s.cachePath t.family t.icon) = .ok content ∧
    svg = Generation.shown s content ∧ Markup.isDrawing svg = true

variable {α β : Type} {s : Settings} {partners : Partners} {site mid : Site} {t : Turn} {svg : String}

theorem Confirms.behind {a : Action α} {x : α} (h : t.Confirms s partners mid svg)
    (ha : a.perform site = (.ok x, mid)) : (t.behind a).Confirms s partners site svg := by
  obtain ⟨mid', after, content, hbefore, h⟩ := h
  exact ⟨mid', after, content, Action.perform_bind_of_ok ha hbefore, h⟩

end Turn

/-! ### Actions that take turns -/

namespace Action

open Generation (shown)

variable {α β : Type} {s : Settings} {partners : Partners} {site mid after : Site} {p q : List Turn}
  {a : Action α} {b : α → Action β} {new new' : List Event}

/-- The events `new` after `site` follow the turns: no addresses but theirs are asked, and what is translated are
their drawings, one by one. -/
structure Follows (s : Settings) (partners : Partners) (turns : List Turn) (site : Site)
    (new : List Event) : Prop where
  fetched : ∀ url ∈ fetches new, ∃ t ∈ turns, url = t.url s
  translated : List.Forall₂ (Turn.Confirms s partners site)
    (turns.take (translations new).length) (translations new)

/-- However it ends, the action follows the turns, and it takes all of them if it ends well. -/
def Takes (s : Settings) (partners : Partners) (turns : List Turn) (a : Action α) : Prop :=
  ∀ site after r, a.perform site = (r, after) → ∃ new, after.journal = site.journal ++ new ∧
    Follows s partners turns site new ∧ ∀ x, r = .ok x → (translations new).length = turns.length

namespace Follows

theorem length_le (h : Follows s partners p site new) : (translations new).length ≤ p.length := by
  have hlength := h.translated.length_eq
  rw [List.length_take] at hlength
  omega

theorem of_none (hfetches : fetches new = []) (htranslations : translations new = []) :
    Follows s partners p site new := by
  refine ⟨by simp [hfetches], ?_⟩
  rw [htranslations]
  exact .nil

/-- There may be more turns to come. -/
theorem more (h : Follows s partners p site new) (q : List Turn) :
    Follows s partners (p ++ q) site new := by
  refine ⟨fun url hurl => ?_, ?_⟩
  · obtain ⟨t, ht, hurl⟩ := h.fetched url hurl
    exact ⟨t, List.mem_append_left _ ht, hurl⟩
  · rw [List.take_append_of_le_length h.length_le]
    exact h.translated

/-- Further turns are taken when all before them were. -/
theorem append {x : α} (h : Follows s partners p site new) (hall : (translations new).length = p.length)
    (ha : a.perform site = (.ok x, mid)) (h' : Follows s partners q mid new') :
    Follows s partners (p ++ q.map (Turn.behind a)) site (new ++ new') := by
  refine ⟨fun url hurl => ?_, ?_⟩
  · rw [fetches_append, List.mem_append] at hurl
    rcases hurl with hurl | hurl
    · exact (h.more _).fetched url hurl
    · obtain ⟨t, ht, hurl⟩ := h'.fetched url hurl
      exact ⟨t.behind a, List.mem_append_right _ (List.mem_map_of_mem ht), hurl⟩
  · have hfirst := h.translated
    rw [hall, List.take_length] at hfirst
    rw [translations_append, List.length_append, hall, List.take_length_add_append, ← List.map_take]
    refine List.rel_append hfirst ?_
    rw [List.forall₂_map_left_iff]
    exact h'.translated.imp fun t svg hconfirms => hconfirms.behind ha

end Follows

namespace Takes

theorem of_none (h : ∀ site after r, a.perform site = (r, after) →
    ∃ new, after.journal = site.journal ++ new ∧ fetches new = [] ∧ translations new = []) :
    Takes s partners [] a := by
  intro site after r hperform
  obtain ⟨new, hjournal, hfetches, htranslations⟩ := h site after r hperform
  exact ⟨new, hjournal, .of_none hfetches htranslations, fun _ _ => by simp [htranslations]⟩

theorem none (ha : Takes s partners [] a) {r : Except Failure α} (h : a.perform site = (r, after)) :
    ∃ new, after.journal = site.journal ++ new ∧ fetches new = [] ∧ translations new = [] := by
  obtain ⟨new, hjournal, hfollows, -⟩ := ha _ _ _ h
  refine ⟨new, hjournal, List.eq_nil_iff_forall_not_mem.2 fun url hurl => ?_, ?_⟩
  · obtain ⟨t, ht, -⟩ := hfollows.fetched url hurl
    cases ht
  · exact List.eq_nil_of_length_eq_zero (Nat.le_zero.1 hfollows.length_le)

/-- An action that enters nothing into the journal. -/
theorem of_journal (h : ∀ site, (a.perform site).2.journal = site.journal) :
    Takes s partners [] a := by
  refine of_none fun site after r hperform => ⟨[], ?_, rfl, rfl⟩
  have hsame := h site
  rw [hperform] at hsame
  rw [hsame, List.append_nil]

theorem pure (x : α) : Takes s partners [] (Pure.pure x : Action α) :=
  of_journal fun _ => rfl

theorem attempt (r : Except Failure α) : Takes s partners [] (Action.attempt r) :=
  of_journal fun site => by rw [perform_attempt]

theorem throw (f : Failure) : Takes s partners [] (throw f : Action α) :=
  of_journal fun _ => rfl

theorem note (n : Note) : Takes s partners [] (Action.note n) :=
  of_none fun site _ _ h => ⟨[.noted n], by cases h; rfl, rfl, rfl⟩

theorem inspect (path : Path) (look : Disk → Except FileError α) :
    Takes s partners [] (Action.inspect path look) :=
  of_journal fun site => by rw [perform_inspect]

theorem holds (path : Path) : Takes s partners [] (Action.holds path) :=
  of_journal fun site => by rw [perform_holds]

theorem change (path : Path) (f : Disk → Except FileError Disk) :
    Takes s partners [] (Action.change path f) :=
  of_journal fun site => by
    rw [perform_change]
    split <;> rfl

theorem carryOut (path : Path) (f : Disk → Option FileError × Disk) :
    Takes s partners [] (Action.carryOut path f) :=
  of_journal fun site => by rw [perform_carryOut]

theorem format (folder : Path) : Takes s partners [] (Action.format partners folder) :=
  of_none fun site _ _ h => ⟨[.formatted folder], by
    rw [perform_format] at h
    cases h
    rfl, rfl, rfl⟩

/-- What follows takes its turns behind the first action. -/
theorem bind (ha : Takes s partners p a) (hb : ∀ x, Takes s partners q (b x)) :
    Takes s partners (p ++ q.map (Turn.behind a)) (a >>= b) := by
  intro site after r h
  rcases perform_bind_cases h with ⟨f, hfail, rfl⟩ | ⟨x, mid, hok, hrest⟩
  · obtain ⟨new, hjournal, hfollows, -⟩ := ha _ _ _ hfail
    exact ⟨new, hjournal, hfollows.more _, fun _ hx => by cases hx⟩
  · obtain ⟨new, hjournal, hfollows, hall⟩ := ha _ _ _ hok
    obtain ⟨new', hjournal', hfollows', hall'⟩ := hb x _ _ _ hrest
    refine ⟨new ++ new', ?_, hfollows.append (hall x rfl) hok hfollows', fun y hy => ?_⟩
    · rw [hjournal', hjournal, List.append_assoc]
    · simp [hall x rfl, hall' y hy]

/-- Before an action without turns, one takes its own. -/
theorem bind_none (ha : Takes s partners p a) (hb : ∀ x, Takes s partners [] (b x)) :
    Takes s partners p (a >>= b) := by
  simpa using ha.bind hb

theorem forM_none {l : List β} {f : β → Action Unit} (h : ∀ x ∈ l, Takes s partners [] (f x)) :
    Takes s partners [] (l.forM f) := by
  induction l with
  | nil => exact pure _
  | cons x l ih =>
    exact (h x List.mem_cons_self).bind_none fun _ => ih fun y hy => h y (List.mem_cons_of_mem x hy)

theorem makeParent (path : Path) : Takes s partners [] (Action.makeParent path) := by
  unfold Action.makeParent
  split
  · exact carryOut _ _
  · exact pure _

theorem clearIfPresent (path : Path) : Takes s partners [] (Action.clearIfPresent path) := by
  unfold Action.clearIfPresent
  refine (holds path).bind_none fun v => ?_
  split
  · exact carryOut _ _
  · exact pure _

theorem moveTo (old new : Path) : Takes s partners [] (Action.moveTo old new) :=
  (note _).bind_none fun _ => (makeParent _).bind_none fun _ => change _ _

end Takes

end Action

open IconModules.Action (Follows Keeps Takes)

variable {s : Settings} {partners : Partners} {f : Finish} {family : String} {catalogue : Catalogue}
  {categories : List Category} {i : Icon} {site after : Site} {svg : String}

/-! ### One drawing -/

theorem Action.perform_translate {markup : String} {r : Except Failure String}
    (h : (Action.translate partners markup).perform site = (r, after)) :
    partners.translate site.journal markup = r ∧
      after = { site with journal := site.journal ++ [.translated markup] } := by
  have hperform : (Action.translate partners markup).perform site =
      (Action.attempt (partners.translate site.journal markup)).perform
        { site with journal := site.journal ++ [.translated markup] } := rfl
  rw [hperform, Action.perform_attempt] at h
  obtain ⟨rfl, rfl⟩ := Prod.mk.inj h
  exact ⟨rfl, rfl⟩

namespace Cache

/-- The journal goes on from `base`, and meanwhile only the address of one drawing was asked. -/
def AsksFor (s : Settings) (family : String) (i : Icon) (base journal : List Event) : Prop :=
  ∃ new, journal = base ++ new ∧ translations new = [] ∧
    ∀ url ∈ fetches new, url = s.drawingUrl family i.name i.version

theorem AsksFor.add {base journal : List Event} {e : Event} (h : AsksFor s family i base journal)
    (he : translations [e] = []) (he' : ∀ url ∈ fetches [e], url = s.drawingUrl family i.name i.version) :
    AsksFor s family i base (journal ++ [e]) := by
  obtain ⟨new, rfl, htranslations, hfetches⟩ := h
  refine ⟨new ++ [e], by simp, by simp [htranslations, he], fun url hurl => ?_⟩
  rw [fetches_append, List.mem_append] at hurl
  exact hurl.elim (hfetches url) (he' url)

variable {base : List Event}

theorem keeps_quiet_asks {e : Event} (he : translations [e] = []) (he' : fetches [e] = []) :
    Keeps (fun x => AsksFor s family i base x.journal) (Action.record e) :=
  Keeps.record fun _ h => h.add he (by simp [he'])

theorem keeps_ensure_asks (force : Bool) :
    Keeps (fun x => AsksFor s family i base x.journal) (ensure s partners family i force) := by
  unfold ensure
  refine (Keeps.holds _).bind fun v => ?_
  dsimp only
  split
  · refine (keeps_quiet_asks rfl rfl).bind fun _ => Keeps.bind ?_ fun content => Keeps.bind ?_ fun _ =>
      Keeps.pure _
    · intro site h
      have hrecord : Keeps (fun x => AsksFor s family i base x.journal)
          (Action.record (.fetched (s.drawingUrl family i.name i.version))) :=
        Keeps.record fun _ h => h.add rfl (by simp [fetches])
      exact (Keeps.attempt (I := fun x => AsksFor s family i base x.journal) _) _ (hrecord site h)
    · exact (Keeps.makeParent fun _ _ => Keeps.carryOut fun _ h => h).bind fun _ =>
        Keeps.change fun _ _ h _ => h
  · exact Keeps.pure _

theorem keeps_repair_asks (left : Nat) (path : Path) :
    Keeps (fun x => AsksFor s family i base x.journal) (repair s partners family i left path) := by
  have hcontents : ∀ path, Keeps (fun x => AsksFor s family i base x.journal) (contents s path) :=
    fun path => (Keeps.inspect _ _).bind fun _ => Keeps.pure _
  induction left generalizing path with
  | zero =>
    unfold repair
    refine (hcontents path).bind fun svg => ?_
    split
    · exact Keeps.pure _
    · exact Keeps.throw _
  | succ left ih =>
    unfold repair
    refine (hcontents path).bind fun svg => ?_
    split
    · exact Keeps.pure _
    · exact (keeps_quiet_asks rfl rfl).bind fun _ => (keeps_quiet_asks rfl rfl).bind fun _ =>
        (keeps_ensure_asks true).bind fun path => ih path

/-- Looking for a drawing, no other address is asked, and nothing is translated. -/
theorem keeps_drawing_asks :
    Keeps (fun x => AsksFor s family i base x.journal) (drawing s partners family i) :=
  (keeps_ensure_asks false).bind fun _ => keeps_repair_asks _ _

/-- However often it was downloaded again, a drawing that is given is what the entry holds. -/
theorem repair_confirmed {left : Nat}
    (h : (repair s partners family i left (s.cachePath family i)).perform site = (.ok svg, after)) :
    ∃ content, after.disk.read (s.cachePath family i) = .ok content ∧
      svg = Generation.shown s content ∧ Markup.isDrawing svg = true := by
  induction left using Nat.strongRecOn generalizing site with
  | ind left ih =>
    rcases Generation.repair_cases h with ⟨_, hr, -⟩ | ⟨content, hread, hdrawing, hr, rfl⟩ |
      ⟨_, rest, rfl, -, -, h⟩
    · cases hr
    · obtain rfl := Except.ok.inj hr
      exact ⟨content, hread, rfl, hdrawing⟩
    · obtain ⟨path, ensured, hensure, h⟩ := Action.perform_bind_ok h
      rw [ensure_path hensure] at h
      exact ih rest (Nat.lt_succ_self rest) h

/-- A drawing that was confirmed is what its entry holds. -/
theorem drawing_confirmed (h : (drawing s partners family i).perform site = (.ok svg, after)) :
    ∃ content, after.disk.read (s.cachePath family i) = .ok content ∧
      svg = Generation.shown s content ∧ Markup.isDrawing svg = true := by
  obtain ⟨path, ensured, hensure, h⟩ := Action.perform_bind_ok h
  rw [ensure_path hensure] at h
  exact repair_confirmed h

end Cache

/-! ### Modules -/

namespace Assembly

/-- The part of a module in front of its definitions. -/
def writeFront (s : Settings) (family : String) (catalogue : Catalogue) (categories : List Category) :
    Action Unit := do
  let path := s.moduleFile family
  let icons := catalogue.supported family
  Action.note (.processingFamily family icons.length)
  let exposed ← Action.attempt (symbols s icons)
  append path (ModuleText.header (s.moduleName family) exposed)
  categories.forM (writeSection s path (icons.map (·.name)))
  append path (ModuleText.imports s.preamble)

theorem writeModule_eq : writeModule s partners f family catalogue categories = (do
    writeFront s family catalogue categories
    (catalogue.supported family).forM (writeIcon s partners f (s.moduleFile family) family)
    return ⟨family, s.moduleName family, s.moduleFile family, (catalogue.supported family).length⟩) := by
  simp only [writeModule, writeFront, bind_assoc]

/-- What is done for an icon before its drawing is looked for; gives its identifier. -/
def announce (s : Settings) (family : String) (i : Icon) : Action String := do
  let symbol ← Action.attempt (symbol s i.name)
  Action.note (.processingIcon family symbol)
  return symbol

theorem writeIcon_eq {path : Path} : writeIcon s partners f path family i = (do
    let symbol ← announce s family i
    let svg ← Cache.drawing s partners family i
    let code ← Action.translate partners svg
    append path (ModuleText.block symbol s.signature (f.apply code))) := by
  simp only [writeIcon, announce, bind_assoc, pure_bind]

/-- The turns of the icons of a family, when their definitions are written. -/
def iconTurns (s : Settings) (partners : Partners) (f : Finish) (family : String) : List Icon → List Turn
  | [] => []
  | i :: rest => Turn.behind (announce s family i) ⟨pure (), family, i⟩ ::
      (iconTurns s partners f family rest).map
        (Turn.behind (writeIcon s partners f (s.moduleFile family) family i))

/-- The turns of a module. -/
def moduleTurns (s : Settings) (partners : Partners) (f : Finish) (catalogue : Catalogue)
    (categories : List Category) (family : String) : List Turn :=
  (iconTurns s partners f family (catalogue.supported family)).map
    (Turn.behind (writeFront s family catalogue categories))

theorem takes_append (path : Path) (piece : String) : Takes s partners [] (append path piece) :=
  (Takes.makeParent _).bind_none fun _ => .change _ _

theorem takes_writeFront : Takes s partners [] (writeFront s family catalogue categories) :=
  (Takes.note _).bind_none fun _ => (Takes.attempt _).bind_none fun _ =>
    (takes_append _ _).bind_none fun _ => (Takes.forM_none fun _ _ =>
      (takes_append _ _).bind_none fun _ => (Takes.attempt _).bind_none fun _ =>
        takes_append _ _).bind_none fun _ => takes_append _ _

/-- Looking for a drawing and having it translated takes a turn. -/
theorem takes_drawing {α : Type} {b : String → Action α} (hb : ∀ code, Takes s partners [] (b code)) :
    Takes s partners [⟨pure (), family, i⟩]
      (Cache.drawing s partners family i >>= fun svg => Action.translate partners svg >>= b) := by
  intro site after r h
  have hasks : Keeps (fun x => Cache.AsksFor s family i site.journal x.journal)
      (Cache.drawing s partners family i) := Cache.keeps_drawing_asks
  have hstart : Cache.AsksFor s family i site.journal site.journal := ⟨[], by simp, rfl, by simp [fetches]⟩
  rcases Action.perform_bind_cases h with ⟨f, hfail, rfl⟩ | ⟨svg, drawn, hdrawing, h⟩
  · obtain ⟨new, hjournal, htranslations, hfetches⟩ := hasks.of_perform hfail hstart
    refine ⟨new, hjournal, ⟨fun url hurl => ⟨_, List.mem_singleton_self _, hfetches url hurl⟩, ?_⟩,
      fun _ hx => by cases hx⟩
    rw [htranslations]
    exact .nil
  · obtain ⟨new, hjournal, htranslations, hfetches⟩ := hasks.of_perform hdrawing hstart
    obtain ⟨content, hread, hsvg, hisDrawing⟩ := Cache.drawing_confirmed hdrawing
    -- the markup is translated once, and after it nothing is asked for
    have hend : ∃ rest, after.journal = drawn.journal ++ .translated svg :: rest ∧ fetches rest = [] ∧
        translations rest = [] := by
      rcases Action.perform_bind_cases h with ⟨f, hfail, rfl⟩ | ⟨code, translated, hok, h⟩
      · obtain ⟨-, rfl⟩ := Action.perform_translate hfail
        exact ⟨[], rfl, rfl, rfl⟩
      · obtain ⟨-, rfl⟩ := Action.perform_translate hok
        obtain ⟨rest, hrest, hnone, hnone'⟩ := (hb code).none h
        exact ⟨rest, by simp [hrest], hnone, hnone'⟩
    obtain ⟨rest, hrest, hnone, hnone'⟩ := hend
    have hmarkup : translations (new ++ .translated svg :: rest) = [svg] := by
      rw [translations_append, htranslations, List.nil_append, ← List.singleton_append,
        translations_append, hnone']
      rfl
    refine ⟨new ++ .translated svg :: rest, by rw [hrest, hjournal, List.append_assoc],
      ⟨fun url hurl => ?_, ?_⟩, fun _ _ => by rw [hmarkup]; rfl⟩
    · rw [fetches_append, List.mem_append, ← List.singleton_append, fetches_append, hnone] at hurl
      rcases hurl with hurl | hurl
      · exact ⟨_, List.mem_singleton_self _, hfetches url hurl⟩
      · simp [fetches] at hurl
    · rw [hmarkup]
      exact .cons ⟨site, drawn, content, rfl, hdrawing, hread, hsvg, hisDrawing⟩ .nil

/-- The definition of an icon takes its turn. -/
theorem takes_writeIcon : Takes s partners [Turn.behind (announce s family i) ⟨pure (), family, i⟩]
    (writeIcon s partners f (s.moduleFile family) family i) := by
  have hannounce : Takes s partners [] (announce s family i) :=
    (Takes.attempt _).bind_none fun _ => (Takes.note _).bind_none fun _ => .pure _
  rw [writeIcon_eq]
  exact hannounce.bind fun symbol => takes_drawing fun code => takes_append _ _

theorem takes_definitions (icons : List Icon) : Takes s partners (iconTurns s partners f family icons)
    (icons.forM (writeIcon s partners f (s.moduleFile family) family)) := by
  induction icons with
  | nil => exact Takes.pure _
  | cons i rest ih => exact takes_writeIcon.bind fun _ => ih

/-- A module takes the turns of its icons. -/
theorem takes_writeModule : Takes s partners (moduleTurns s partners f catalogue categories family)
    (writeModule s partners f family catalogue categories) := by
  rw [writeModule_eq]
  exact takes_writeFront.bind fun _ => (takes_definitions _).bind_none fun _ => .pure _

end Assembly

end IconModules
