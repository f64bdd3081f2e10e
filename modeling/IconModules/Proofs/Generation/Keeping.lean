import IconModules.Generation.Run
import IconModules.Proofs.Generation.Effects
import IconModules.Proofs.Generation.Places

/-! # What fetching drawings, writing modules and installing keep

* A property of sites is kept by the cache if storing a drawing keeps it, and by the assembly if fetching a
  drawing and adding a piece to a module do.
* The phases of an installation keep it if the moves do that they are made of. Below the output these are
  moves between paths in a relation `R` that holds of a folder's entries if it holds of the folder. -/

namespace IconModules

open IconModules.Action (Keeps)

variable {I : Site → Prop} {s : Settings} {partners : Partners} {family : String} {i : Icon}

/-- Seeing to an entry gives its path. -/
theorem Cache.ensure_path {site after : Site} {force : Bool} {path : Path}
    (h : (ensure s partners family i force).perform site = (.ok path, after)) :
    path = s.cachePath family i := by
  unfold ensure at h
  simp only [Action.perform_holds_bind] at h
  split at h
  · obtain ⟨_, _, -, h⟩ := Action.perform_bind_ok h
    obtain ⟨_, _, -, h⟩ := Action.perform_bind_ok h
    obtain ⟨_, _, -, h⟩ := Action.perform_bind_ok h
    exact (Action.perform_pure_ok h).1.symm
  · exact (Action.perform_pure_ok h).1.symm

/-- Whatever enters the journal while modules are written, the property is kept. -/
def Action.KeepsRecords (I : Site → Prop) : Prop :=
  ∀ e, (∀ folder, e ≠ .formatted folder) → Keeps I (Action.record e)

section

variable (hrecord : Action.KeepsRecords I)
include hrecord

namespace Action

theorem keeps_note (n : Note) : Keeps I (note n) :=
  hrecord _ fun _ => Event.noConfusion

theorem keeps_sleep (delay : Nat) : Keeps I (sleep delay) :=
  hrecord _ fun _ => Event.noConfusion

theorem keeps_download (partners : Partners) (url : String) : Keeps I (download partners url) := by
  intro site h
  exact Keeps.attempt _ _ (hrecord (.fetched url) (fun _ => Event.noConfusion) site h)

theorem keeps_translate (partners : Partners) (markup : String) :
    Keeps I (translate partners markup) := by
  intro site h
  exact Keeps.attempt _ _ (hrecord (.translated markup) (fun _ => Event.noConfusion) site h)

end Action

/-! ### The cache -/

namespace Cache

variable (hstore : ∀ content, Keeps I (store (s.cachePath family i) content))
include hstore

theorem keeps_ensure (force : Bool) : Keeps I (ensure s partners family i force) := by
  unfold ensure
  refine (Keeps.holds _).bind fun v => ?_
  dsimp only
  split
  · exact (Action.keeps_note hrecord _).bind fun _ =>
      (Action.keeps_download hrecord _ _).bind fun content =>
        (hstore content).bind fun _ => Keeps.pure _
  · exact Keeps.pure _

/-- However often a drawing is downloaded again, it is stored in its entry. -/
theorem keeps_repair (left : Nat) (path : Path) :
    Keeps I (repair s partners family i left path) := by
  have hcontents : ∀ path, Keeps I (contents s path) := fun path =>
    (Keeps.inspect _ _).bind fun _ => Keeps.pure _
  induction left generalizing path with
  | zero =>
    unfold repair
    refine (hcontents path).bind fun svg => ?_
    split
    · exact Keeps.pure _
    · exact Keeps.throw _
  | succ left ih =>
    unfold repair
    refine (hcontents path).bind fun svg => ?_
    split
    · exact Keeps.pure _
    · exact (Action.keeps_note hrecord _).bind fun _ => (Action.keeps_sleep hrecord _).bind fun _ =>
        (keeps_ensure hrecord hstore true).bind fun path => ih path

theorem keeps_drawing : Keeps I (drawing s partners family i) := by
  unfold drawing
  exact (keeps_ensure hrecord hstore false).bind fun path => keeps_repair hrecord hstore _ path

end Cache

/-! ### The assembly -/

namespace Assembly

variable {f : Finish} {catalogue : Catalogue}
  (hpiece : ∀ piece, Keeps I (append (s.moduleFile family) piece))
  (hdrawing : ∀ i ∈ catalogue.supported family, Keeps I (Cache.drawing s partners family i))
include hpiece hdrawing

theorem keeps_writeModule (categories : List Category) :
    Keeps I (writeModule s partners f family catalogue categories) := by
  unfold writeModule
  refine (Action.keeps_note hrecord _).bind fun _ => (Keeps.attempt _).bind fun exposed =>
    (hpiece _).bind fun _ => ?_
  refine Keeps.bind ?_ fun _ => (hpiece _).bind fun _ => Keeps.bind ?_ fun _ => Keeps.pure _
  · refine Keeps.forM fun category _ => ?_
    unfold writeSection
    exact (hpiece _).bind fun _ => (Keeps.attempt _).bind fun _ => hpiece _
  · refine Keeps.forM fun i hi => ?_
    unfold writeIcon
    exact (Keeps.attempt _).bind fun _ => (Action.keeps_note hrecord _).bind fun _ =>
      (hdrawing i hi).bind fun _ =>
        (Action.keeps_translate hrecord _ _).bind fun _ => hpiece _

end Assembly

/-- Writing modules keeps what writing each of them does. -/
theorem Generation.keeps_writeModules {f : Finish} {catalogue : Catalogue}
    {categories : List Category} {families : List String}
    (hmodule : ∀ family ∈ families,
      Keeps I (Assembly.writeModule s partners f family catalogue categories)) :
    Keeps I (writeModules s partners f catalogue categories families) := by
  induction families with
  | nil => exact Keeps.pure _
  | cons family rest ih =>
    unfold writeModules
    exact (hmodule family List.mem_cons_self).bind fun _ => (Action.keeps_note hrecord _).bind fun _ =>
      (ih fun x hx => hmodule x (List.mem_cons_of_mem _ hx)).bind fun _ => Keeps.pure _

end

/-! ### Runs that end well -/

namespace Generation

variable {f : Finish} {catalogue : Catalogue} {categories : List Category} {rest : List String}
  {reports : List ModuleReport} {site after : Site}

/-- Modules are written one after the other, each with a note behind it. -/
theorem writeModules_cons_iff :
    (writeModules s partners f catalogue categories (family :: rest)).perform site = (.ok reports, after) ↔
      ∃ report written reports',
        (Assembly.writeModule s partners f family catalogue categories).perform site =
          (.ok report, written) ∧
        (writeModules s partners f catalogue categories rest).perform
          { written with journal := written.journal ++ [.noted (.moduleWritten report.path)] } =
            (.ok reports', after) ∧
        reports = report :: reports' := by
  constructor
  · intro h
    obtain ⟨report, written, hwrite, h⟩ := Action.perform_bind_ok h
    obtain ⟨_, noted, hnote, h⟩ := Action.perform_bind_ok h
    obtain rfl := Action.perform_record_ok hnote
    obtain ⟨reports', ended, hrest, h⟩ := Action.perform_bind_ok h
    obtain ⟨rfl, rfl⟩ := Action.perform_pure_ok h
    exact ⟨report, written, reports', hwrite, hrest, rfl⟩
  · rintro ⟨report, written, reports', hwrite, hrest, rfl⟩
    exact Action.perform_bind_of_ok hwrite
      (Action.perform_bind_of_ok (Action.perform_note _ _) (Action.perform_bind_of_ok hrest rfl))

/-- Before the modules of the catalogue's families are written, the folders are prepared and the catalogue is
loaded. -/
theorem writeAll_iff : (writeAll s partners).perform site = (.ok reports, after) ↔
    ∃ ready loaded catalogue f, (makeReady s).perform site = (.ok (), ready) ∧
      (loadCatalogue s partners).perform ready = (.ok catalogue, loaded) ∧ finish s = .ok f ∧
      (writeModules s partners f catalogue (Category.ofIcons catalogue.icons)
        catalogue.families).perform { loaded with journal := loaded.journal ++
          [.noted (.catalogueLoaded catalogue.icons.length catalogue.families.length
            (Category.ofIcons catalogue.icons).length)] } = (.ok reports, after) := by
  constructor
  · intro h
    obtain ⟨_, ready, hready, h⟩ := Action.perform_bind_ok h
    obtain ⟨catalogue, loaded, hload, h⟩ := Action.perform_bind_ok h
    obtain ⟨_, noted, hnote, h⟩ := Action.perform_bind_ok h
    obtain rfl := Action.perform_record_ok hnote
    obtain ⟨f, finished, hfinish, h⟩ := Action.perform_bind_ok h
    obtain ⟨hf, rfl⟩ := Action.perform_attempt_ok hfinish
    exact ⟨ready, loaded, catalogue, f, hready, hload, hf, h⟩
  · rintro ⟨ready, loaded, catalogue, f, hready, hload, hf, h⟩
    refine Action.perform_bind_of_ok hready (Action.perform_bind_of_ok hload ?_)
    refine Action.perform_bind_of_ok (Action.perform_note _ _) (Action.perform_bind_of_ok ?_ h)
    rw [Action.perform_attempt, hf]

/-- A run writes the modules, installs them and has them formatted. -/
theorem run_iff {report : RunReport} : (run s partners).perform site = (.ok report, after) ↔
    ∃ written installed, (writeAll s partners).perform site = (.ok report.families, written) ∧
      (Installation.install s).perform written = (.ok report.installed, installed) ∧
      (Action.format partners s.sourceFolder).perform { installed with journal := installed.journal ++
        [.noted (.formatting s.sourceFolder)] } = (.ok (), after) := by
  constructor
  · intro h
    obtain ⟨reports, written, hwrite, h⟩ := Action.perform_bind_ok h
    obtain ⟨n, installed, hinstall, h⟩ := Action.perform_bind_ok h
    obtain ⟨_, noted, hnote, h⟩ := Action.perform_bind_ok h
    obtain rfl := Action.perform_record_ok hnote
    obtain ⟨_, formatted, hformat, h⟩ := Action.perform_bind_ok h
    obtain ⟨rfl, rfl⟩ := Action.perform_pure_ok h
    exact ⟨written, installed, hwrite, hinstall, hformat⟩
  · rintro ⟨written, installed, hwrite, hinstall, hformat⟩
    refine Action.perform_bind_of_ok hwrite (Action.perform_bind_of_ok hinstall ?_)
    exact Action.perform_bind_of_ok (Action.perform_note _ _)
      (Action.perform_bind_of_ok hformat (Action.perform_pure _ _))

end Generation

/-! ### Installations -/

namespace Installation

variable {R : Path → Path → Prop}

theorem keeps_moveEntries {below : Path → Path → Action Nat} {old new : Path}
    {entries : List (String × Entry)} (hmove : ∀ old new, R old new → Keeps I (Action.moveTo old new))
    (hbelow : ∀ old new, R old new → Keeps I (below old new))
    (hentries : ∀ x ∈ entries, R (old.under x.1) (new.under x.1)) :
    Keeps I (moveEntries below old new entries) := by
  induction entries with
  | nil => exact Keeps.pure _
  | cons x rest ih =>
    obtain ⟨name, e⟩ := x
    have hfirst := hentries _ List.mem_cons_self
    have hrest := ih fun y hy => hentries y (List.mem_cons_of_mem _ hy)
    cases e with
    | file c => exact (hmove _ _ hfirst).bind fun _ => hrest.bind fun _ => Keeps.pure _
    | folder => exact (hbelow _ _ hfirst).bind fun _ => hrest.bind fun _ => Keeps.pure _
    | link target => exact hrest

section

variable (hmove : ∀ old new, R old new → Keeps I (Action.moveTo old new))
  (hlisted : ∀ site old new es, I site → R old new → site.disk.list old = .ok es →
    ∀ x ∈ es, R (old.under x.1) (new.under x.1))
include hmove hlisted

theorem keeps_moveBelow (fuel : Nat) {old new : Path} (hR : R old new) :
    Keeps I (moveBelow fuel old new) := by
  induction fuel generalizing old new with
  | zero => exact Keeps.throw _
  | succ fuel ih =>
    refine (Keeps.inspect _ _).bind_ok fun site es after hI hes => ?_
    have hlist := ok_of_mapError (Action.perform_inspect_ok hes).1
    exact keeps_moveEntries hmove (fun _ _ => ih) (hlisted site old new es hI hR hlist)

theorem keeps_moveAll {old new : Path} (hR : R old new) : Keeps I (moveAll old new) := by
  unfold moveAll
  refine (Keeps.inspect _ _).bind fun x => ?_
  split
  · exact keeps_moveBelow hmove hlisted _ hR
  · exact Keeps.pure _

end

/-- Where a module written by hand is parked, and where it belongs. -/
def parking (s : Settings) (m : String) : Path × Path :=
  (s.sourceFolder.under m, s.manualHome m)

theorem keeps_park {ms : List String} (hnote : ∀ n, Keeps I (Action.note n))
    (hmove : ∀ m ∈ ms, Keeps I (Action.moveTo (s.manualHome m) (s.sourceFolder.under m))) :
    Keeps I (park s ms) := by
  induction ms with
  | nil => exact Keeps.pure _
  | cons m ms ih =>
    have hrest := ih fun x hx => hmove x (List.mem_cons_of_mem _ hx)
    unfold park
    refine (Keeps.holds _).bind fun v => ?_
    split
    · exact (hmove m List.mem_cons_self).bind fun _ => hrest.bind fun _ => Keeps.pure _
    · exact (hnote _).bind fun _ => hrest

theorem keeps_restore {parked : List (Path × Path)}
    (hmove : ∀ x ∈ parked, Keeps I (Action.moveTo x.1 x.2)) : Keeps I (restore parked) := by
  induction parked with
  | nil => exact Keeps.pure _
  | cons x parked ih =>
    exact (hmove x List.mem_cons_self).bind fun _ =>
      ih fun y hy => hmove y (List.mem_cons_of_mem _ hy)

/-- The first of the modules to be parked is moved if it is there; then the others are parked. -/
theorem park_cons_ok {m : String} {ms : List String} {site after : Site} {parked : List (Path × Path)}
    (h : (park s (m :: ms)).perform site = (.ok parked, after)) :
    (site.disk.holds (s.manualHome m) = true ∧ ∃ u mid rest,
        (Action.moveTo (s.manualHome m) (s.sourceFolder.under m)).perform site = (.ok u, mid) ∧
          (park s ms).perform mid = (.ok rest, after) ∧ parked = parking s m :: rest) ∨
      site.disk.holds (s.manualHome m) = false ∧
        (park s ms).perform
          ⟨site.disk, site.journal ++ [.noted (.manualModuleMissing (s.manualHome m))]⟩ =
            (.ok parked, after) := by
  obtain ⟨v, mid, hv, h⟩ := Action.perform_bind_ok h
  obtain ⟨rfl, rfl⟩ := Action.perform_holds_ok hv
  split at h
  · rename_i hholds
    obtain ⟨u, moved, hmove, h⟩ := Action.perform_bind_ok h
    obtain ⟨rest, later, hrest, h⟩ := Action.perform_bind_ok h
    obtain ⟨rfl, rfl⟩ := Action.perform_pure_ok h
    exact .inl ⟨hholds, u, moved, rest, hmove, hrest, rfl⟩
  · rename_i hholds
    obtain ⟨_, noted, hnote, h⟩ := Action.perform_bind_ok h
    obtain rfl := Action.perform_record_ok hnote
    exact .inr ⟨Bool.eq_false_iff.2 hholds, h⟩

/-- Only modules written by hand are parked. -/
theorem mem_of_park {ms : List String} {site after : Site} {parked : List (Path × Path)}
    (h : (park s ms).perform site = (.ok parked, after)) :
    ∀ x ∈ parked, ∃ m ∈ ms, x = parking s m := by
  induction ms generalizing site parked after with
  | nil =>
    obtain ⟨rfl, -⟩ := Action.perform_pure_ok h
    simp
  | cons m ms ih =>
    have hlater : ∀ {x : Path × Path}, (∃ m' ∈ ms, x = parking s m') →
        ∃ m' ∈ m :: ms, x = parking s m' := by
      rintro x ⟨m', hm', rfl⟩
      exact ⟨m', List.mem_cons_of_mem _ hm', rfl⟩
    rcases park_cons_ok h with ⟨-, u, mid, rest, -, hrest, rfl⟩ | ⟨-, hrest⟩
    · intro x hx
      rcases List.mem_cons.1 hx with rfl | hx
      · exact ⟨m, List.mem_cons_self, rfl⟩
      · exact hlater (ih hrest x hx)
    · exact fun x hx => hlater (ih hrest x hx)

/-- An installation keeps what its moves and its two clearings keep. -/
theorem keeps_install (hnote : ∀ n, Keeps I (Action.note n))
    (hpark : ∀ m ∈ s.manualModules, Keeps I (Action.moveTo (s.manualHome m) (s.sourceFolder.under m)))
    (hrestore : ∀ m ∈ s.manualModules,
      Keeps I (Action.moveTo (s.sourceFolder.under m) (s.manualHome m)))
    (hscaffold : Keeps I (Action.clearIfPresent (s.sourceFolder.join s.scaffold)))
    (hmove : Keeps I (moveAll s.outFolder s.sourceFolder))
    (hout : Keeps I (Action.clearIfPresent s.outFolder)) : Keeps I (install s) := by
  unfold install
  refine (keeps_park hnote hpark).bind_ok fun _ parked _ _ hparked => ?_
  refine hscaffold.bind fun _ => hmove.bind fun _ => hout.bind fun _ => Keeps.bind ?_ fun _ =>
    (hnote _).bind fun _ => Keeps.pure _
  refine keeps_restore fun x hx => ?_
  obtain ⟨m, hm, rfl⟩ := mem_of_park hparked x hx
  exact hrestore m hm

end Installation

end IconModules
