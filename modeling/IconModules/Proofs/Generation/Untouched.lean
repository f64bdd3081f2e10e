import IconModules.Generation.Run
import IconModules.Proofs.Generation.Keeping
import IconModules.Proofs.Generation.Places

/-! # The sources before the installation

Everything that a run does before it installs the modules, it does outside the sources, whatever the
partners answer and wherever it fails.

* `Untouched` relates the site at the start to any later one: nothing below the sources has changed,
  and nothing was formatted.
* Each part of `Generation.writeAll` keeps it, so all of `writeAll` does (`untouched_writeAll`). -/

namespace IconModules.Generation

variable {s : Settings} {before site : Site} {p : Path} {names : List String} {c : Octets}

/-- The way to the root does not lead through anything below the sources. -/
def OutsideSources (d : Disk) (s : Settings) : Prop :=
  ∀ n rest, ¬ d.OnWay s.root (d.place s.sourceFolder ++ n :: rest)

/-- Nothing below the sources has changed, and nothing was formatted. -/
structure Untouched (s : Settings) (before site : Site) : Prop where
  plain : site.disk.tree.Plain
  home : site.disk.home = before.disk.home
  sources : ∀ n rest, site.disk.tree.get? (before.disk.place s.sourceFolder ++ n :: rest) =
    before.disk.tree.get? (before.disk.place s.sourceFolder ++ n :: rest)
  journal : ∃ new, site.journal = before.journal ++ new ∧ ∀ folder, Event.formatted folder ∉ new

theorem Untouched.refl (h : site.disk.tree.Plain) : Untouched s site site :=
  ⟨h, rfl, fun _ _ => rfl, [], by simp, by simp⟩

/-! ### Single operations -/

/-- A place that is reached through other names than the sources' is not above or below anything
there. -/
theorem not_prefix_source (d : Disk) (hn : names.head? ≠ some "src") (hne : names ≠ []) (n : String)
    (rest : List String) : ¬ d.place s.root ++ names <+: d.place s.sourceFolder ++ n :: rest := by
  rw [Disk.place_along s.sourceFolder_under.toAlong, List.append_assoc, List.prefix_append_right_inj]
  cases names with
  | nil => exact absurd rfl hne
  | cons x names =>
    intro h
    rw [List.singleton_append, List.cons_prefix_cons] at h
    exact hn (by rw [h.1]; rfl)

namespace Untouched

theorem record (h : Untouched s before site) {e : Event} (he : ∀ folder, e ≠ .formatted folder) :
    Untouched s before { site with journal := site.journal ++ [e] } := by
  obtain ⟨new, hnew, hf⟩ := h.journal
  refine ⟨h.plain, h.home, h.sources, new ++ [e], ?_, fun folder hm => ?_⟩
  · rw [← List.append_assoc, ← hnew]
  · rcases List.mem_append.1 hm with hm | hm
    · exact hf folder hm
    · exact he folder (List.mem_singleton.1 hm).symm

theorem makeFolders (h : Untouched s before site) (ho : OutsideSources before.disk s)
    (hp : Path.Along s.root names p) (hn : names.head? ≠ some "src") :
    Untouched s before { site with disk := (site.disk.makeFolders p).2 } := by
  have hg := site.disk.makeFolders_grown h.plain p
  refine ⟨hg.plain h.plain, hg.home.trans h.home, fun n rest => ?_, h.journal⟩
  rw [← h.sources]
  rcases hg.get? (before.disk.place s.sourceFolder ++ n :: rest) with hk | ⟨-, -, hway, -⟩
  · exact hk
  · have hway' : before.disk.OnWay p (before.disk.place s.sourceFolder ++ n :: rest) := by
      unfold Disk.OnWay Disk.start at hway ⊢
      rwa [h.home] at hway
    rcases Disk.onWay_along hp hway' with hroot | ⟨more, hmore, he⟩
    · exact absurd hroot (ho n rest)
    · rw [Disk.place_along s.sourceFolder_under.toAlong, List.append_assoc] at he
      obtain rfl := List.append_cancel_left he
      obtain ⟨t, rfl⟩ := hmore
      exact absurd rfl hn

theorem put (h : Untouched s before site) (hp : Path.Along s.root names p)
    (hn : names.head? ≠ some "src") (hne : names ≠ []) {d : Disk}
    (hput : Disk.Put site.disk (site.disk.place p) (.file c) d) :
    Untouched s before { site with disk := d } := by
  refine ⟨hput.plain h.plain, hput.home.trans h.home, fun n rest => ?_, h.journal⟩
  rw [← h.sources, hput.get?, if_neg]
  rintro he
  refine not_prefix_source (s := s) before.disk hn hne n rest ⟨[], ?_⟩
  rw [List.append_nil, he, Disk.place_of_home h.home, Disk.place_along hp]

theorem clear (h : Untouched s before site) (hp : Path.Along s.root names p)
    (hn : names.head? ≠ some "src") (hne : names ≠ []) :
    Untouched s before { site with disk := (site.disk.clear p).2 } := by
  rcases Disk.clear_cases h.plain p with ⟨hd, -⟩ | ⟨-, hc⟩
  · simp only [hd]
    exact h
  · refine ⟨hc.plain h.plain, hc.home.trans h.home, fun n rest => ?_, h.journal⟩
    rw [← h.sources]
    refine hc.get? _ ?_
    rw [Disk.place_of_home h.home, Disk.place_along hp]
    exact not_prefix_source before.disk hn hne n rest

end Untouched

/-! ### Single actions -/

open IconModules.Action (Keeps)

section

variable (ho : OutsideSources before.disk s) (hn : names.head? ≠ some "src") (hne : names ≠ [])

theorem keepsRecords : Action.KeepsRecords (Untouched s before) :=
  fun _ he => Keeps.record fun _ h => h.record he

include ho hn in
theorem keeps_makeFolders (hp : Path.Along s.root names p) :
    Keeps (Untouched s before) (Action.makeFolders p) :=
  Keeps.carryOut fun _ h => h.makeFolders ho hp hn

include ho hn in
theorem keeps_makeParent (hp : Path.Under s.root names p) :
    Keeps (Untouched s before) (Action.makeParent p) := by
  refine Keeps.makeParent fun above habove => ?_
  refine keeps_makeFolders ho ?_ (hp.parent? habove)
  cases names with
  | nil => exact hn
  | cons x names => cases names with
    | nil => simp
    | cons y names => exact hn

include hn hne in
theorem keeps_clearIfPresent (hp : Path.Along s.root names p) :
    Keeps (Untouched s before) (Action.clearIfPresent p) :=
  Keeps.clearIfPresent fun _ h => h.clear hp hn hne

include hn hne in
theorem keeps_write (hp : Path.Along s.root names p) (c : Octets) :
    Keeps (Untouched s before) (Action.change p (·.write p c)) :=
  Keeps.change fun _ _ h hw => h.put hp hn hne (Disk.write_place h.plain hw)

include hn hne in
theorem keeps_append (hp : Path.Along s.root names p) (c : Octets) :
    Keeps (Untouched s before) (Action.change p (·.append p c)) :=
  Keeps.change fun _ _ h hw => h.put hp hn hne (Disk.append_place h.plain hw)

end

/-! ### Modules -/

/-- A catalogue whose families and icons have names that lead nowhere else. -/
structure Admissible (catalogue : Catalogue) : Prop where
  families : ∀ family ∈ catalogue.families, FamilyName family
  icons : ∀ i ∈ catalogue.icons, '/' ∉ i.name.toList

section

variable {partners : Partners} {f : Finish} {family : String} {catalogue : Catalogue}
  (hs : s.Standard) (ho : OutsideSources before.disk s)
include ho

theorem keeps_store {i : Icon} (hf : FamilyName family) (hi : '/' ∉ i.name.toList) (content : Octets) :
    Keeps (Untouched s before) (Cache.store (s.cachePath family i) content) := by
  have hp := Settings.cachePath_under (s := s) hf hi
  unfold Cache.store
  exact (keeps_makeParent ho (by simp) hp).bind fun _ =>
    keeps_write (by simp) (by simp) hp.toAlong content

include hs

theorem keeps_piece (hf : FamilyName family) (piece : String) :
    Keeps (Untouched s before) (Assembly.append (s.moduleFile family) piece) := by
  have hp := hs.moduleFile_under hf
  unfold Assembly.append
  exact (keeps_makeParent ho (by simp) hp).bind fun _ =>
    keeps_append (by simp) (by simp) hp.toAlong _

theorem keeps_writeModule (hc : Admissible catalogue) (hf : FamilyName family)
    (categories : List Category) :
    Keeps (Untouched s before)
      (Assembly.writeModule s partners f family catalogue categories) :=
  Assembly.keeps_writeModule keepsRecords (keeps_piece hs ho hf)
    (fun i hi => Cache.keeps_drawing keepsRecords
      (keeps_store ho hf (hc.icons i (List.mem_filter.1 hi).1))) categories

end

/-! ### Everything before the installation -/

/-- The catalogue that a run is served when it starts at a site. -/
def Served (s : Settings) (partners : Partners) (site : Site) (catalogue : Catalogue) : Prop :=
  ∃ raw, partners.fetch (site.journal ++ [.noted (.downloadingCatalogue s.catalogueUrl)])
      s.catalogueUrl = .ok raw ∧
    Catalogue.read raw = .ok catalogue

theorem keeps_makeReady (ho : OutsideSources before.disk s) :
    Keeps (Untouched s before) (makeReady s) := by
  unfold makeReady
  have hclear : Keeps (Untouched s before) (Action.clearIfPresent s.cacheFolder) :=
    keeps_clearIfPresent (by simp) (by simp) s.cacheFolder_under.toAlong
  have hrest : Keeps (Untouched s before) (do
      Action.makeFolders s.iconsFolder
      Action.clearIfPresent s.outFolder
      Action.makeFolders s.outFolder) :=
    (keeps_makeFolders ho (by simp) s.iconsFolder_under.toAlong).bind fun _ =>
      (keeps_clearIfPresent (by simp) (by simp) s.outFolder_under.toAlong).bind fun _ =>
        keeps_makeFolders ho (by simp) s.outFolder_under.toAlong
  dsimp only
  split
  · exact hclear.bind fun _ => hrest
  · exact hrest

/-- Preparing the folders is not noted in the journal. -/
theorem journal_makeReady (s : Settings) (site : Site) :
    ((makeReady s).perform site).2.journal = site.journal := by
  have hfolders : ∀ p, Keeps (fun x => x.journal = site.journal) (Action.makeFolders p) := fun p =>
    Keeps.carryOut fun _ h => h
  have hclear : ∀ p, Keeps (fun x => x.journal = site.journal) (Action.clearIfPresent p) := fun p =>
    Keeps.clearIfPresent fun _ h => h
  have hrest : Keeps (fun x => x.journal = site.journal) (do
      Action.makeFolders s.iconsFolder
      Action.clearIfPresent s.outFolder
      Action.makeFolders s.outFolder) :=
    (hfolders _).bind fun _ => (hclear _).bind fun _ => hfolders _
  refine (?_ : Keeps (fun x => x.journal = site.journal) (makeReady s)) site rfl
  unfold makeReady
  dsimp only
  split
  · exact (hclear _).bind fun _ => hrest
  · exact hrest

theorem keeps_loadCatalogue (partners : Partners) :
    Keeps (Untouched s before) (loadCatalogue s partners) := by
  unfold loadCatalogue
  exact (Action.keeps_note keepsRecords _).bind fun _ =>
    (Action.keeps_download keepsRecords _ _).bind fun _ =>
    (keeps_write (by simp) (by simp) s.catalogueFile_under.toAlong _).bind fun _ =>
      Keeps.attempt _

theorem served_of_loadCatalogue {partners : Partners} {site after : Site} {catalogue : Catalogue}
    (h : (loadCatalogue s partners).perform site = (.ok catalogue, after)) :
    Served s partners site catalogue := by
  obtain ⟨_, mid, hnote, h⟩ := Action.perform_bind_ok h
  obtain rfl := Action.perform_record_ok hnote
  obtain ⟨raw, mid, hdownload, h⟩ := Action.perform_bind_ok h
  obtain ⟨_, _, _, h⟩ := Action.perform_bind_ok h
  have hfetch := (Action.perform_attempt_ok hdownload).1
  exact ⟨raw, hfetch, ok_of_mapError (Action.perform_attempt_ok h).1⟩

/-- The part of a run before the installation leaves the sources alone, however it ends. -/
theorem untouched_writeAll {partners : Partners} (hs : s.Standard) (ht : before.disk.tree.Plain)
    (ho : OutsideSources before.disk s)
    (hc : ∀ catalogue, Served s partners before catalogue → Admissible catalogue) :
    Untouched s before ((writeAll s partners).perform before).2 := by
  have hready := keeps_makeReady ho before (.refl ht)
  have hjournal := journal_makeReady s before
  unfold writeAll
  rw [Action.perform_bind]
  rcases hr : (makeReady s).perform before with ⟨_ | _, ready⟩
  · rw [hr] at hready
    exact hready
  · rw [hr] at hready hjournal
    have hload := keeps_loadCatalogue partners ready hready
    simp only [Action.perform_bind]
    rcases hl : (loadCatalogue s partners).perform ready with ⟨_ | catalogue, loaded⟩
    · rw [hl] at hload
      exact hload
    · rw [hl] at hload
      have hserved : Served s partners before catalogue := by
        have h := served_of_loadCatalogue hl
        unfold Served at h ⊢
        rwa [← hjournal]
      have hrest : Keeps (Untouched s before) (do
          Action.note (.catalogueLoaded catalogue.icons.length catalogue.families.length
            (Category.ofIcons catalogue.icons).length)
          let f ← Action.attempt (finish s)
          writeModules s partners f catalogue (Category.ofIcons catalogue.icons)
            catalogue.families) :=
        (Action.keeps_note keepsRecords _).bind fun _ => (Keeps.attempt _).bind fun f =>
          keeps_writeModules keepsRecords fun family hm =>
            keeps_writeModule hs ho (hc _ hserved) ((hc _ hserved).families family hm) _
      have hend := hrest loaded hload
      simpa only [Action.perform_bind] using hend

end IconModules.Generation
