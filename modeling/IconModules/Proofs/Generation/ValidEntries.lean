import IconModules.Proofs.Generation.CompletedRuns
import IconModules.Proofs.Generation.Elsewhere
import IconModules.Proofs.Generation.Entries

/-! # Valid entries of the cache

An entry is valid if it can be read and holds a drawing.

* `KeepsDrawings` says of an action that, however it ends, the files of valid entries stay as they are.
* A run that ended well leaves a valid entry for every icon, and after a purge nothing else below the folder
  of drawings (`run_drawn`).
* `drawings_stay` collects both. Settings can name the cache itself as what an installation replaces, and a
  cache that cannot be reached is not purged (`drawings_lost`). -/

namespace IconModules.Generation

open IconModules.Action (Keeps)
open Installation (Good)

variable {s : Settings} {partners : Partners} {family : String} {i : Icon} {site after : Site}
  {d : Disk} {k : Location} {c : Octets}

/-- The entry of an icon can be read, and what is read is a drawing. -/
structure Valid (s : Settings) (d : Disk) (family : String) (i : Icon) (c : Octets) : Prop where
  read : d.read (s.cachePath family i) = .ok c
  drawing : Markup.isDrawing (shown s c) = true

/-- However the action ends, the files of valid entries are what they were. -/
def KeepsDrawings {α : Type} (s : Settings) (site : Site) (a : Action α) : Prop :=
  ∀ family i c, FamilyName family → '/' ∉ i.name.toList → Valid s site.disk family i c →
    (a.perform site).2.disk.fileAt (site.disk.place (s.cachePath family i)) = some c

/-- A formatter that changes files only below the folder that it is given. -/
def FormatsBelow (partners : Partners) : Prop :=
  ∀ events p d k, ¬ d.place p <+: k → (partners.format events p d).2.fileAt k = d.fileAt k

/-- A valid entry is a file that the path to the root leads to. -/
theorem Valid.found (hf : FamilyName family) (hi : '/' ∉ i.name.toList) (ht : d.tree.Plain)
    (h : Valid s d family i c) :
    d.OpenRoot s.root ∧ d.fileAt (d.place (s.cachePath family i)) = some c := by
  exact Disk.found_of_read ht (Settings.cachePath_under hf hi) h.read

/-! ### Parts of a run -/

/-- What only fills the disk keeps valid entries. -/
theorem keepsDrawings_of_filling {α : Type} {a : Action α} {ls : List Location} (hg : Good site.disk)
    (ha : Keeps (fun x => Filling s site.disk.home ls site.disk x.disk) a) :
    KeepsDrawings s site a := by
  intro family i c hf hi hvalid
  obtain ⟨hopen, hc⟩ := hvalid.found hf hi hg.plain
  have hkept := ha site (.refl ⟨hg.plain, hg.named, rfl, hopen⟩)
  exact hkept.filled.drawn _ c (entry_below hf hi site.disk) hc hvalid.drawing

theorem drawing_keeps_drawings (hf : FamilyName family) (hi : '/' ∉ i.name.toList)
    (hg : Good site.disk) : KeepsDrawings s site (Cache.drawing s partners family i) := by
  have hkeeps : Keeps (fun x => Filling s site.disk.home [] site.disk x.disk)
      (Cache.drawing s partners family i) := keeps_drawing_filling hf hi
  exact keepsDrawings_of_filling hg hkeeps

theorem writeModule_keeps_drawings {f : Finish} {catalogue : Catalogue} {categories : List Category}
    (hs : s.Standard) (hf : FamilyName family) (hi : ∀ i ∈ catalogue.icons, '/' ∉ i.name.toList)
    (hg : Good site.disk) :
    KeepsDrawings s site (Assembly.writeModule s partners f family catalogue categories) :=
  keepsDrawings_of_filling hg
    (keeps_writeModule_filling hs rfl hi hf (List.mem_singleton_self _))

/-! ### Whole runs -/

/-- What was below the folder of drawings and a drawing is still there. -/
structure Steady (s : Settings) (d d' : Disk) : Prop where
  good : Good d'
  home : d'.home = d.home
  drawn : ∀ k c, d.place s.iconsFolder <+: k → d.fileAt k = some c →
    Markup.isDrawing (shown s c) = true → d'.fileAt k = some c

theorem Steady.trans {d' d'' : Disk} (h : Steady s d d') (h' : Steady s d' d'') : Steady s d d'' := by
  refine ⟨h'.good, h'.home.trans h.home, fun k c hk hc hdrawing => ?_⟩
  refine h'.drawn k c ?_ (h.drawn k c hk hc hdrawing) hdrawing
  rwa [Disk.place_of_home h.home]

theorem Filling.steady {home : Location} {ls : List Location} {d' : Disk} (hd : d.home = home)
    (h : Filling s home ls d d') : Steady s d d' :=
  ⟨⟨h.sound.plain, h.sound.named⟩, h.sound.home.trans hd.symm, h.filled.drawn⟩

theorem Elsewhere.steady {P : Location → Prop} {d' : Disk}
    (hP : ∀ k, d.place s.iconsFolder <+: k → P k) (h : Elsewhere P d d') : Steady s d d' :=
  ⟨h.good, h.home, fun k _ hk hc _ => (h.files k (hP k hk)).trans hc⟩

/-- If the cache is not purged, drawings are not at places that are cleared. -/
theorem lasting_of_icons (hkeep : s.cacheStart = .keep) (hk : d.place s.iconsFolder <+: k) :
    Lasting s d k := by
  refine ⟨(icons_elsewhere hk).2, fun hpurge => ?_⟩
  rw [hkeep] at hpurge
  cases hpurge

/-- Writing all modules keeps the drawings, however it ends. -/
theorem writeAll_steady (hs : s.Standard) (hkeep : s.cacheStart = .keep) (hg : Good site.disk)
    (hc : ∀ catalogue, Served s partners site catalogue → Admissible catalogue)
    {r : Except Failure (List ModuleReport)}
    (h : (writeAll s partners).perform site = (r, after)) : Steady s site.disk after.disk := by
  have hjournal := journal_makeReady s site
  have hready := keeps_makeReady_elsewhere s site.disk site (.refl hg)
  rcases Action.perform_bind_cases h with ⟨f, hmake, -⟩ | ⟨_, readySite, hmake, h⟩
  · rw [hmake] at hready
    exact Elsewhere.steady (fun _ => lasting_of_icons hkeep) hready
  rw [hmake] at hready hjournal
  have hsound := (makeReady_ok hs hg hmake).sound
  refine (Elsewhere.steady (fun _ => lasting_of_icons hkeep) hready).trans ?_
  rcases Action.perform_bind_cases h with ⟨f, hload, -⟩ | ⟨catalogue, loadedSite, hload, h⟩
  · exact ((keeps_loadCatalogue_filling hsound.home (List.mem_singleton_self _)).of_perform hload
      (.refl hsound)).steady hsound.home
  have hserved : Served s partners site catalogue := by
    have hserved := served_of_loadCatalogue hload
    unfold Served at hserved ⊢
    rwa [← hjournal]
  have hadmissible := hc catalogue hserved
  have hloaded := (keeps_loadCatalogue_filling hsound.home (List.mem_singleton_self _)).of_perform hload
      (.refl hsound)
  have hrest : Keeps (fun x => Filling s site.disk.home
      (catalogue.families.map fun family => loadedSite.disk.place (s.moduleFile family))
      loadedSite.disk x.disk) (do
        Action.note (.catalogueLoaded catalogue.icons.length catalogue.families.length
          (Category.ofIcons catalogue.icons).length)
        let f ← Action.attempt (finish s)
        writeModules s partners f catalogue (Category.ofIcons catalogue.icons)
          catalogue.families) :=
    Keeps.bind (fun _ h => h) fun _ => (Keeps.attempt _).bind fun f =>
      keeps_writeModules_filling hs hloaded.sound.home hadmissible.icons hadmissible.families
        fun _ hm => List.mem_map_of_mem hm
  exact (hloaded.steady hsound.home).trans
    ((hrest.of_perform h (.refl hloaded.sound)).steady hloaded.sound.home)

/-- Formatting the sources changes no drawing, however it ends. -/
theorem fileAt_of_format (hformat : FormatsBelow partners) {r : Except Failure Unit}
    (hk : site.disk.place s.iconsFolder <+: k)
    (h : (Action.format partners s.sourceFolder).perform site = (r, after)) :
    after.disk.fileAt k = site.disk.fileAt k := by
  rw [Action.perform_format] at h
  obtain ⟨-, rfl⟩ := Prod.mk.inj h
  exact hformat _ _ _ _ (icons_elsewhere hk).1

/-- Behind the last module, a run changes no drawing. -/
theorem fileAt_of_ending (hs : s.Standard) (hg : Good site.disk) (hformat : FormatsBelow partners)
    (hk : site.disk.place s.iconsFolder <+: k) {reports : List ModuleReport}
    {r : Except Failure RunReport}
    (h : (do
      let n ← Installation.install s
      Action.note (.formatting s.sourceFolder)
      Action.format partners s.sourceFolder
      return (⟨reports, n⟩ : RunReport)).perform site = (r, after)) :
    after.disk.fileAt k = site.disk.fileAt k := by
  have hinstalled : ∀ {r : Except Failure Nat} {installed : Site},
      (Installation.install s).perform site = (r, installed) →
      installed.disk.place s.iconsFolder = site.disk.place s.iconsFolder ∧
        installed.disk.fileAt k = site.disk.fileAt k := fun hinstall => by
    have h := (Installation.keeps_install_elsewhere hs site.disk).of_perform hinstall (.refl hg)
    exact ⟨Disk.place_of_home h.home _, h.files k (icons_elsewhere hk)⟩
  rcases Action.perform_bind_cases h with ⟨f, hinstall, -⟩ | ⟨n, installed, hinstall, h⟩
  · exact (hinstalled hinstall).2
  obtain ⟨hplace, hsame⟩ := hinstalled hinstall
  rw [← hplace] at hk
  rw [Action.note, Action.perform_record_bind] at h
  have hformatted : ∀ {r : Except Failure Unit} {after : Site},
      (Action.format partners s.sourceFolder).perform
        { installed with journal := installed.journal ++ [.noted (.formatting s.sourceFolder)] } =
          (r, after) → after.disk.fileAt k = site.disk.fileAt k := fun h =>
    (fileAt_of_format hformat (by exact hk) h).trans hsame
  rcases Action.perform_bind_cases h with ⟨f, hfailed, -⟩ | ⟨_, mid, hdone, h⟩
  · exact hformatted hfailed
  · obtain ⟨-, rfl⟩ := Prod.mk.inj h
    exact hformatted hdone

/-- If the cache is not purged, a whole run keeps valid entries. -/
theorem run_keeps_drawings (hs : s.Standard) (hkeep : s.cacheStart = .keep) (hg : Good site.disk)
    (hformat : FormatsBelow partners)
    (hc : ∀ catalogue, Served s partners site catalogue → Admissible catalogue) :
    KeepsDrawings s site (run s partners) := by
  intro family i c hf hi hvalid
  have hbelow := entry_below (s := s) hf hi site.disk
  have hstays : ∀ {after : Site}, Steady s site.disk after.disk →
      after.disk.fileAt (site.disk.place (s.cachePath family i)) = some c := fun h =>
    h.drawn _ c hbelow (hvalid.found hf hi hg.plain).2 hvalid.drawing
  rcases hrun : (run s partners).perform site with ⟨outcome, after⟩
  rcases Action.perform_bind_cases hrun with ⟨f, hwrite, -⟩ | ⟨_, written, hwrite, hrun⟩
  · exact hstays (writeAll_steady hs hkeep hg hc hwrite)
  · have hwritten := writeAll_steady hs hkeep hg hc hwrite
    rw [← Disk.place_of_home hwritten.home] at hbelow
    exact (fileAt_of_ending hs hwritten.good hformat hbelow hrun).trans (hstays hwritten)

/-! ### Runs that end well -/

/-- The place of an entry that the icons of a catalogue need. -/
def Needed (s : Settings) (d : Disk) (catalogue : Catalogue) (k : Location) : Prop :=
  ∃ family ∈ catalogue.families, ∃ i ∈ catalogue.supported family,
    k = d.place (s.cachePath family i)

/-- What a run that ended well leaves in the cache: a drawing in every entry that was needed, and nothing else
if the cache could be purged. -/
structure Complete (s : Settings) (catalogue : Catalogue) (d d' : Disk) : Prop where
  entries : ∀ k, Needed s d catalogue k →
    ∃ c, d'.fileAt k = some c ∧ Markup.isDrawing (shown s c) = true
  purged : s.cacheStart = .purge →
    (d.tree.get? (d.place s.cacheFolder) ≠ none → d.OpenRoot s.root) →
    ∀ k, d.place s.iconsFolder <+: k → d'.fileAt k ≠ none → Needed s d catalogue k

/-- Writing all modules leaves the cache complete. -/
theorem writeAll_complete (hs : s.Standard) (hg : Good site.disk)
    (hc : ∀ catalogue, Served s partners site catalogue → Admissible catalogue)
    {reports : List ModuleReport} (h : (writeAll s partners).perform site = (.ok reports, after)) :
    ∃ catalogue, Served s partners site catalogue ∧ Complete s catalogue site.disk after.disk ∧
      Sound s site.disk.home after.disk := by
  have hjournal := journal_makeReady s site
  obtain ⟨_, readySite, hready, h⟩ := Action.perform_bind_ok h
  rw [hready] at hjournal
  have hr := makeReady_ok hs hg hready
  obtain ⟨catalogue, loadedSite, hload, h⟩ := Action.perform_bind_ok h
  have hserved : Served s partners site catalogue := by
    have hserved := served_of_loadCatalogue hload
    unfold Served at hserved ⊢
    rwa [← hjournal]
  have hadmissible := hc catalogue hserved
  -- a file below the folder of drawings is needed, or it was there before the first download
  let E := fun k => Needed s site.disk catalogue k ∨ readySite.disk.fileAt k ≠ none
  have hloaded : Listed s site.disk.home E loadedSite.disk :=
    keeps_loadCatalogue_listed.of_perform hload ⟨hr.sound, fun _ _ => .inr⟩
  obtain ⟨_, notedSite, hnote, h⟩ := Action.perform_bind_ok h
  obtain rfl := Action.perform_record_ok hnote
  obtain ⟨f, finishedSite, hfinish, h⟩ := Action.perform_bind_ok h
  obtain ⟨-, rfl⟩ := Action.perform_attempt_ok hfinish
  have hkeeps : Keeps (fun x => Listed s site.disk.home E x.disk)
      (writeModules s partners f catalogue (Category.ofIcons catalogue.icons) catalogue.families) :=
    keeps_writeModules_listed rfl hs hadmissible.families fun family hm i hi =>
      .inl ⟨family, hm, i, hi, rfl⟩
  have hend : Listed s site.disk.home E after.disk := hkeeps.of_perform h hloaded
  have hdrawn := writeModules_drawn hs hadmissible.icons hadmissible.families
    (by exact hloaded.sound) h
  have hplace : ∀ p, after.disk.place p = site.disk.place p := Disk.place_of_home hend.sound.home
  refine ⟨catalogue, hserved, ⟨fun k hk => ?_, fun hpurge hopen k hk hfile => ?_⟩, hend.sound⟩
  · obtain ⟨family, hm, i, hi, he⟩ := hk
    obtain ⟨c, hc, hdrawing⟩ := hdrawn family hm i hi
    rw [hplace, ← he] at hc
    exact ⟨c, hc, hdrawing⟩
  · rcases hend.listed k (by rwa [hplace]) hfile with hneeded | hold
    · exact hneeded
    · obtain ⟨q, he⟩ := (below_cache site.disk s.iconsFolder_under.toAlong).trans hk
      rw [← he] at hold
      exact absurd (hr.purged hpurge hopen q) hold

/-- A run that ended well was served a catalogue and left the cache complete. -/
theorem run_complete (hs : s.Standard) (hg : Good site.disk) (hformat : FormatsBelow partners)
    (hc : ∀ catalogue, Served s partners site catalogue → Admissible catalogue)
    {report : RunReport} (h : (run s partners).perform site = (.ok report, after)) :
    ∃ catalogue, Served s partners site catalogue ∧ Complete s catalogue site.disk after.disk := by
  obtain ⟨reports, written, hwrite, h⟩ := Action.perform_bind_ok h
  obtain ⟨catalogue, hserved, hcomplete, hsound⟩ := writeAll_complete hs hg hc hwrite
  have hsame : ∀ k, site.disk.place s.iconsFolder <+: k →
      after.disk.fileAt k = written.disk.fileAt k := by
    intro k hk
    rw [← Disk.place_of_home hsound.home] at hk
    exact fileAt_of_ending hs ⟨hsound.plain, hsound.named⟩ hformat hk h
  refine ⟨catalogue, hserved, fun k hk => ?_, fun hpurge hopen k hk hfile => ?_⟩
  · obtain ⟨c, hc', hdrawing⟩ := hcomplete.entries k hk
    refine ⟨c, ?_, hdrawing⟩
    obtain ⟨family, hm, i, hi, he⟩ := hk
    have hadmissible := hc catalogue hserved
    have hbelow := entry_below (s := s) (hadmissible.families family hm)
      (hadmissible.icons i (List.mem_filter.1 hi).1) site.disk
    rw [← he] at hbelow
    rw [hsame k hbelow, hc']
  · rw [hsame k hk] at hfile
    exact hcomplete.purged hpurge hopen k hk hfile

/-- Drawings stay in the cache whatever is done with it: fetching one, writing a module, or a whole run that
does not purge it. A run that ends well leaves the cache complete. -/
theorem drawings_stay (hs : s.Standard) (hg : Good site.disk) :
    (∀ family i, FamilyName family → '/' ∉ i.name.toList →
      KeepsDrawings s site (Cache.drawing s partners family i)) ∧
    (∀ f family catalogue categories, FamilyName family →
      (∀ i ∈ catalogue.icons, '/' ∉ i.name.toList) →
      KeepsDrawings s site (Assembly.writeModule s partners f family catalogue categories)) ∧
    (FormatsBelow partners →
      (∀ catalogue, Served s partners site catalogue → Admissible catalogue) →
      (s.cacheStart = .keep → KeepsDrawings s site (run s partners)) ∧
      ∀ report after, (run s partners).perform site = (.ok report, after) →
        ∃ catalogue, Served s partners site catalogue ∧
          Complete s catalogue site.disk after.disk) :=
  ⟨fun _ _ hf hi => drawing_keeps_drawings hf hi hg,
    fun _ _ _ _ hf hi => writeModule_keeps_drawings hs hf hi hg,
    fun hformat hc => ⟨fun hkeep => run_keeps_drawings hs hkeep hg hformat hc,
      fun _ _ h => run_complete hs hg hformat hc h⟩⟩

/-- A cache that holds the drawing of one icon. -/
def cachedSite : Site where
  disk :=
    { tree := [(["gen"], .folder), (["gen", "tmp"], .folder), (["gen", "tmp", "sot"], .folder),
        (["gen", "tmp", "sot", "icons"], .folder), (["gen", "tmp", "sot", "icons", "A"], .folder),
        (["gen", "tmp", "sot", "icons", "A", "v1-search.svg"],
          .file (Text.encode "<svg>old</svg>")),
        (["src"], .folder)].foldl (fun t x => t.graft x.1 (.single x.2)) (.single .folder)
      home := [] }
  journal := []

/-- A run does not download the drawing again, and the entry is all that the catalogue needs. -/
theorem drawings_stay_old : ∃ report after,
    (run (Settings.preset .legacy ⟨"/"⟩) servingOne).perform cachedSite = (.ok report, after) ∧
      after.disk.fileAt ["gen", "tmp", "sot", "icons", "A", "v1-search.svg"] =
        some (Text.encode "<svg>old</svg>") ∧
      ∃ catalogue, Complete (Settings.preset .legacy ⟨"/"⟩) catalogue cachedSite.disk after.disk := by
  have hok : ((run (Settings.preset .legacy ⟨"/"⟩) servingOne).perform cachedSite).1.isOk =
      true := by
    decide +kernel
  have hg : Good cachedSite.disk :=
    ⟨Tree.plain_of_entries (by decide), Tree.named_of_entries (by decide)⟩
  have hvalid : Valid (Settings.preset .legacy ⟨"/"⟩) cachedSite.disk "A" ⟨"search", 1, [], []⟩
      (Text.encode "<svg>old</svg>") :=
    ⟨ok_of_toOption (by decide), by decide⟩
  have hmain := @drawings_stay (Settings.preset .legacy ⟨"/"⟩) servingOne cachedSite
    (Settings.standard_preset _ _) hg
  obtain ⟨hkeeps, hcomplete⟩ := hmain.2.2 (fun _ _ _ _ _ => rfl) fun _ h => (orderly_one h).toAdmissible
  have hstays := hkeeps rfl "A" _ _ ⟨by decide, by decide, by decide⟩ (by decide) hvalid
  obtain ⟨report, after, h⟩ := Action.exists_of_isOk hok
  rw [h] at hstays
  obtain ⟨catalogue, -, hc⟩ := hcomplete report after h
  exact ⟨report, after, h, hstays, catalogue, hc⟩

/-- A file that no catalogue needs, below the folder of drawings. -/
def staleSite : Site where
  disk :=
    { tree := [(["gen"], .folder), (["gen", "tmp"], .folder), (["gen", "tmp", "sot"], .folder),
        (["gen", "tmp", "sot", "icons"], .folder),
        (["gen", "tmp", "sot", "icons", "old.svg"], .file [1])].foldl
          (fun t x => t.graft x.1 (.single x.2)) (.single .folder)
      home := [] }
  journal := []

/-- If an installation is told to replace the folder that the cache lies in, a run removes a valid entry. If
the path to the root cannot be taken when a run starts, the purge leaves what is in the cache. -/
theorem drawings_lost :
    let s := { Settings.preset .legacy ⟨"/"⟩ with scaffold := ⟨"../gen"⟩ }
    let s' := Settings.preset .current ⟨"gone/.."⟩
    (Good cachedSite.disk ∧ FormatsBelow servingNone ∧
      (∀ catalogue, Served s servingNone cachedSite catalogue → Admissible catalogue) ∧
      s.cacheStart = .keep ∧ ¬ KeepsDrawings s cachedSite (run s servingNone)) ∧
    (Good staleSite.disk ∧ s'.cacheStart = .purge ∧
      ((run s' servingNone).perform staleSite).1.isOk = true ∧
      ((run s' servingNone).perform staleSite).2.disk.fileAt
        ["gen", "tmp", "sot", "icons", "old.svg"] = some [1] ∧
      ∀ catalogue k, Served s' servingNone staleSite catalogue →
        ¬ Needed s' staleSite.disk catalogue k) := by
  intro s s'
  have hadmissible : ∀ {s site} catalogue, Served s servingNone site catalogue →
      Admissible catalogue := by
    intro s site catalogue h
    rw [served_none h]
    exact ⟨by simp, by simp⟩
  have hended : ((run s' servingNone).perform staleSite).1.isOk = true ∧
      ((run s' servingNone).perform staleSite).2.disk.fileAt
        ["gen", "tmp", "sot", "icons", "old.svg"] = some [1] := by
    decide +kernel
  refine ⟨⟨⟨Tree.plain_of_entries (by decide), Tree.named_of_entries (by decide)⟩,
    fun _ _ _ _ _ => rfl, hadmissible, rfl, fun hkeeps => ?_⟩,
    ⟨Tree.plain_of_entries (by decide), Tree.named_of_entries (by decide)⟩, rfl,
    hended.1, hended.2, fun catalogue k hserved hneeded => ?_⟩
  · have hvalid : Valid { Settings.preset .legacy ⟨"/"⟩ with scaffold := ⟨"../gen"⟩ }
        cachedSite.disk "A" ⟨"search", 1, [], []⟩ (Text.encode "<svg>old</svg>") :=
      ⟨ok_of_toOption (by decide), by decide⟩
    have hstays := hkeeps "A" _ _ ⟨by decide, by decide, by decide⟩ (by decide) hvalid
    revert hstays
    decide +kernel
  · obtain ⟨family, hm, -⟩ := hneeded
    rw [served_none hserved] at hm
    cases hm

end IconModules.Generation
