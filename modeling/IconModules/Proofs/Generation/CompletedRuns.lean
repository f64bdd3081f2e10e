import IconModules.Proofs.Generation.Families
import IconModules.Proofs.Generation.Installed
import IconModules.Proofs.Generation.Ready

/-! # Runs that are completed

What is in a project after a run that ended well, file by file.

* `writeAll_ok`: before the installation the output holds exactly the modules, and the sources are as they
  were.
* `Completed` says what the sources and the output hold after it: `run_completes`. A folder in the place of a
  module written by hand stays with all that is in it, and a root that is reached through the output leaves an
  output behind (`run_leaves_output`). -/

namespace IconModules.Generation

open Disk (Apart)
open Installation (Good Held Installed OutsideOutput manualPlace throughOutput)

variable {s : Settings} {partners : Partners} {translation : String → Except Failure String}
  {f : Finish} {family : String} {catalogue : Catalogue} {site after : Site} {d d' : Disk} {n : Nat}

/-- A catalogue whose families have modules of their own, none in the place of a module written by hand
or where one is parked. -/
structure Orderly (s : Settings) (catalogue : Catalogue) : Prop extends Admissible catalogue where
  distinct : (catalogue.families.map s.modulePlace).Nodup
  manual : ∀ family ∈ catalogue.families, ∀ m ∈ s.manualModules,
    s.modulePlace family ≠ [m] ∧ s.modulePlace family ≠ ["Material", "Icons", m]

/-! ### Before the installation -/

/-- All modules are written: the output holds them and nothing else, and files outside the output and the
cache are as they were. -/
structure Written (s : Settings) (translation : String → Except Failure String) (f : Finish)
    (catalogue : Catalogue) (d d' : Disk) : Prop where
  sound : Sound s d.home d'
  accepted : Disk.acceptPath s.iconsFolder = .ok ()
  modules : ∀ family ∈ catalogue.families, HoldsModule s translation f catalogue family d'
    (d.place s.outFolder ++ s.modulePlace family)
  others : ∀ q, q ∉ catalogue.families.map s.modulePlace →
    d'.fileAt (d.place s.outFolder ++ q) = none
  files : ∀ k, ¬ d.place s.outFolder <+: k → ¬ d.place s.cacheFolder <+: k →
    d'.fileAt k = d.fileAt k
  there : ∀ k, ¬ d.place s.outFolder <+: k → ¬ d.place s.cacheFolder <+: k →
    d.tree.get? k ≠ none → d'.tree.get? k ≠ none

theorem place_module (hs : s.Standard) (hf : FamilyName family) (d : Disk) :
    d.place (s.moduleFile family) = d.place s.outFolder ++ s.modulePlace family := by
  rw [Disk.place_along (hs.moduleFile_under hf).toAlong,
    Disk.place_along s.outFolder_under.toAlong, List.append_assoc]

/-- What is reached through the cache lies below it. -/
theorem below_cache {p : Path} {names : List String} (d : Disk)
    (hp : Path.Along s.root ("gen" :: "tmp" :: "sot" :: names) p) :
    d.place s.cacheFolder <+: d.place p := by
  rw [Disk.place_along hp, Disk.place_along s.cacheFolder_under.toAlong,
    List.prefix_append_right_inj]
  exact ⟨names, rfl⟩

/-- The modules begin to be written: the output holds no file, and files outside the output and the cache are as
they were on the disk `d`. -/
structure Loaded (s : Settings) (d d' : Disk) : Prop where
  sound : Sound s d.home d'
  accepted : Disk.acceptPath s.iconsFolder = .ok ()
  empty : ∀ q, d'.fileAt (d.place s.outFolder ++ q) = none
  files : ∀ k, ¬ d.place s.outFolder <+: k → ¬ d.place s.cacheFolder <+: k →
    d'.fileAt k = d.fileAt k
  there : ∀ k, ¬ d.place s.outFolder <+: k → ¬ d.place s.cacheFolder <+: k →
    d.tree.get? k ≠ none → d'.tree.get? k ≠ none

theorem not_icons_out (s : Settings) (d : Disk) (q : List String) :
    ¬ d.place s.iconsFolder <+: d.place s.outFolder ++ q := by
  rw [Disk.place_along s.iconsFolder_under.toAlong, Disk.place_along s.outFolder_under.toAlong,
    List.append_assoc, List.prefix_append_right_inj]
  intro hp
  simp at hp

/-- Outside the cache there are neither the catalogue nor drawings. -/
theorem not_cached {d : Disk} {k : Location} (hk : ¬ d.place s.cacheFolder <+: k) :
    k ≠ d.place s.catalogueFile ∧ ¬ d.place s.iconsFolder <+: k := by
  constructor
  · intro he
    rw [he] at hk
    exact hk (below_cache d s.catalogueFile_under.toAlong)
  · intro hp
    exact hk ((below_cache d s.iconsFolder_under.toAlong).trans hp)

/-- What a run has done before its modules are written. -/
theorem writeAll_loaded (hs : s.Standard) (hg : Good site.disk) {reports : List ModuleReport}
    (h : (writeAll s partners).perform site = (.ok reports, after)) :
    ∃ catalogue f, ∃ loaded : Site, Served s partners site catalogue ∧ finish s = .ok f ∧
      Loaded s site.disk loaded.disk ∧
      (writeModules s partners f catalogue (Category.ofIcons catalogue.icons)
        catalogue.families).perform loaded = (.ok reports, after) := by
  obtain ⟨readySite, loadedSite, catalogue, f, hready, hload, hf, h⟩ := writeAll_iff.1 h
  have hjournal := journal_makeReady s site
  rw [hready] at hjournal
  have hr := makeReady_ok hs hg hready
  obtain ⟨hserved, hloaded⟩ := loadCatalogue_ok hr.sound hload
  have hserved' : Served s partners site catalogue := by
    unfold Served at hserved ⊢
    rwa [← hjournal]
  have hplace : ∀ p, readySite.disk.place p = site.disk.place p :=
    Disk.place_of_home hr.sound.home
  -- storing the catalogue changes no other file
  have hfiles : ∀ k, k ≠ site.disk.place s.catalogueFile → ¬ site.disk.place s.iconsFolder <+: k →
      loadedSite.disk.fileAt k = readySite.disk.fileAt k := fun k hne hicons =>
    hloaded.files k (by rw [hplace]; simpa using hne) (by rw [hplace]; exact hicons)
  refine ⟨catalogue, f, _, hserved', hf, ?_, h⟩
  refine ⟨hloaded.sound hr.sound, hr.accepted, fun q => ?_, fun k hout hcache => ?_,
    fun k hout hcache hthere => ?_⟩
  · rw [← hr.empty q]
    refine hfiles _ ?_ (not_icons_out s _ q)
    rw [Disk.place_along s.catalogueFile_under.toAlong, Disk.place_along s.outFolder_under.toAlong,
      List.append_assoc]
    simp
  · obtain ⟨hne, hicons⟩ := not_cached hcache
    rw [← hr.files k ⟨hout, fun _ => hcache⟩]
    exact hfiles k hne hicons
  · exact hloaded.grown.there hr.sound.plain (hr.there k ⟨hout, fun _ => hcache⟩ hthere)

/-- Writing all modules fills the output with them. -/
theorem writeAll_ok (hs : s.Standard) (hg : Good site.disk)
    (htranslate : ∀ j markup, partners.translate j markup = translation markup)
    (hc : ∀ catalogue, Served s partners site catalogue → Orderly s catalogue)
    {reports : List ModuleReport} (h : (writeAll s partners).perform site = (.ok reports, after)) :
    ∃ catalogue f, Served s partners site catalogue ∧ finish s = .ok f ∧
      reports = catalogue.families.map (reportOf s catalogue) ∧
      Written s translation f catalogue site.disk after.disk := by
  obtain ⟨catalogue, f, loadedSite, hserved, hf, hloaded, hwrite⟩ := writeAll_loaded hs hg h
  have horderly := hc catalogue hserved
  have hplace : ∀ p, loadedSite.disk.place p = site.disk.place p :=
    Disk.place_of_home hloaded.sound.home
  have hmodulePlace : ∀ family ∈ catalogue.families, site.disk.place (s.moduleFile family) =
      site.disk.place s.outFolder ++ s.modulePlace family := fun family hm =>
    place_module hs (horderly.families family hm) site.disk
  obtain ⟨hreports, hsound', hfilled, hmodules⟩ := writeModules_filled hs htranslate horderly.icons
    horderly.families horderly.distinct hloaded.sound
    (by intro family hm; rw [hplace, hmodulePlace family hm]; exact hloaded.empty _) hwrite
  simp only [hplace] at hfilled hmodules
  refine ⟨catalogue, f, hserved, hf, hreports, ⟨hsound', hloaded.accepted, fun family hm => ?_,
    fun q hq => ?_, fun k hout hcache => ?_, fun k hout hcache hthere => ?_⟩⟩
  · rw [← hmodulePlace family hm]
    exact hmodules family hm
  · rw [hfilled.files _ ?_ (by rw [hplace]; exact not_icons_out s _ q)]
    · exact hloaded.empty q
    · intro hm
      obtain ⟨family, hm, he⟩ := List.mem_map.1 hm
      rw [hmodulePlace family hm, List.append_cancel_left_eq] at he
      exact hq (he ▸ List.mem_map_of_mem hm)
  · rw [hfilled.files k ?_ (by rw [hplace]; exact (not_cached hcache).2), hloaded.files k hout hcache]
    intro hm
    obtain ⟨family, hm, he⟩ := List.mem_map.1 hm
    rw [← he, hmodulePlace family hm] at hout
    exact hout (List.prefix_append _ _)
  · exact hfilled.grown.there hloaded.sound.plain (hloaded.there k hout hcache hthere)

/-! ### After the installation -/

/-- What a completed run leaves of the disk `d`. -/
structure Completed (s : Settings) (translation : String → Except Failure String) (f : Finish)
    (catalogue : Catalogue) (d d' : Disk) : Prop where
  /-- Every module is in its place, with the code of the drawings in the cache. -/
  modules : ∀ family ∈ catalogue.families, HoldsModule s translation f catalogue family d'
    (d.place s.sourceFolder ++ s.modulePlace family)
  /-- The modules written by hand are as they were. -/
  manual : ∀ m ∈ s.manualModules, d.holds (s.manualHome m) = true → ∀ q,
    d'.fileAt (manualPlace d s ++ m :: q) = d.fileAt (manualPlace d s ++ m :: q)
  /-- Outside the scaffold nothing else has changed. -/
  sources : ∀ q, ¬ ["Material"] <+: q → q ∉ catalogue.families.map s.modulePlace →
    d'.fileAt (d.place s.sourceFolder ++ q) = d.fileAt (d.place s.sourceFolder ++ q)
  /-- In the scaffold nothing else is left. -/
  scaffold : ∀ q c, ["Material"] <+: q → d'.fileAt (d.place s.sourceFolder ++ q) = some c →
    q ∈ catalogue.families.map s.modulePlace ∨
      (∃ m ∈ s.manualModules, ["Material", "Icons", m] <+: q) ∧
        d.fileAt (d.place s.sourceFolder ++ q) = some c
  /-- No file is in the output, and it is gone unless the path to the root leads through it. -/
  output : (∀ q, d'.fileAt (d.place s.outFolder ++ q) = none) ∧
    (OutsideOutput d s → d'.tree.get? (d.place s.outFolder) = none)

section

variable (hs : s.Standard) (hc : Orderly s catalogue)
include hs hc

/-- No module has a place where one written by hand is parked, or below. -/
theorem not_parked {m : String} (hm : m ∈ s.manualModules) (q : Location) :
    m :: q ∉ catalogue.families.map s.modulePlace := by
  intro hmem
  obtain ⟨family, hfamily, he⟩ := List.mem_map.1 hmem
  have hne := hs.modulePlace_ne (hc.families family hfamily) (hs.manual m hm).2.1 []
    (by simpa using (hc.manual family hfamily m hm).1) q
  exact hne (by simpa using he)

/-- No module has the place of one written by hand, or below. -/
theorem not_manual {m : String} (hm : m ∈ s.manualModules) (q : Location) :
    "Material" :: "Icons" :: m :: q ∉ catalogue.families.map s.modulePlace := by
  intro hmem
  obtain ⟨family, hfamily, he⟩ := List.mem_map.1 hmem
  have hne := hs.modulePlace_ne (hc.families family hfamily) (hs.manual m hm).2.1
    ["Material", "Icons"] (by simpa using (hc.manual family hfamily m hm).2) q
  exact hne (by simpa using he)

end

/-- What lies below the folder of drawings is neither a source nor in the output. -/
theorem icons_elsewhere {d : Disk} {k : Location} (hk : d.place s.iconsFolder <+: k) :
    ¬ d.place s.sourceFolder <+: k ∧ ¬ d.place s.outFolder <+: k := by
  obtain ⟨q, rfl⟩ := hk
  rw [Disk.place_along s.iconsFolder_under.toAlong, Disk.place_along s.sourceFolder_under.toAlong,
    Disk.place_along s.outFolder_under.toAlong, List.append_assoc, List.prefix_append_right_inj,
    List.prefix_append_right_inj]
  constructor
  · intro hp
    simp at hp
  · intro hp
    simp at hp

/-- A file in the output goes to its place among the sources, unless a module written by hand comes there or is
parked there. -/
theorem fileAt_generated {e : Disk} {q : Location} (hs : s.Standard)
    (ha : Disk.acceptPath s.iconsFolder = .ok ()) (hi : Installed s d e n)
    (hq : d.fileAt (d.place s.outFolder ++ q) ≠ none) (hparked : ∀ m ∈ s.manualModules, ¬ [m] <+: q)
    (hmanual : ∀ m ∈ s.manualModules, ¬ ["Material", "Icons", m] <+: q) :
    e.fileAt (d.place s.sourceFolder ++ q) = d.fileAt (d.place s.outFolder ++ q) := by
  by_cases hscaffold : ["Material"] <+: q
  · exact hi.scaffold (Settings.accept_scaffold hs ha) q hscaffold fun m hm => hmanual m hm.1
  · have hfile := hi.outside q (fun m hm => hparked m hm.1) hscaffold
    obtain ⟨c, hc⟩ := Option.ne_none_iff_exists'.1 hq
    rw [hfile, hc, Option.some_or]

section

variable {e : Disk} (hs : s.Standard) (hc : Orderly s catalogue)
  (hw : Written s translation f catalogue d d') (hi : Installed s d' e n)
include hw

/-- The sources are as they were when the modules are installed. -/
theorem Written.source (q : Location) : d'.fileAt (d.place s.sourceFolder ++ q) =
    d.fileAt (d.place s.sourceFolder ++ q) := by
  have hapart : ∀ names : List String, names.head? ≠ some "src" → names ≠ [] →
      ¬ d.place s.root ++ names <+: d.place s.sourceFolder ++ q := by
    intro names hn hne
    rw [Disk.place_along s.sourceFolder_under.toAlong, List.append_assoc,
      List.prefix_append_right_inj]
    cases names with
    | nil => exact absurd rfl hne
    | cons x names =>
      intro hp
      exact hn (by rw [(List.cons_prefix_cons.1 hp).1]; rfl)
  refine hw.files _ ?_ ?_
  · rw [Disk.place_along s.outFolder_under.toAlong]
    exact hapart _ (by decide) (by decide)
  · rw [Disk.place_along s.cacheFolder_under.toAlong]
    exact hapart _ (by decide) (by decide)

/-- The output holds a file for every family. -/
theorem Written.generated_iff (q : Location) :
    d'.fileAt (d.place s.outFolder ++ q) ≠ none ↔ q ∈ catalogue.families.map s.modulePlace := by
  constructor
  · intro hne
    apply Classical.byContradiction
    intro hq
    exact hne (hw.others q hq)
  · intro hq
    obtain ⟨family, hm, rfl⟩ := List.mem_map.1 hq
    obtain ⟨_, -, -, hfile⟩ := hw.modules family hm
    rw [hfile]
    simp

include hi

theorem count_of_written (hc : Orderly s catalogue) : n = catalogue.families.length := by
  obtain ⟨rels, hnd, rfl, hrels⟩ := hi.count
  rw [Disk.place_of_home hw.sound.home] at hrels
  have hperm : rels.Perm (catalogue.families.map s.modulePlace) :=
    (List.perm_ext_iff_of_nodup hnd hc.distinct).2 fun q => (hrels q).trans (hw.generated_iff q)
  simpa using hperm.length_eq

include hs hc

/-- A module goes to its place among the sources. -/
theorem fileAt_module {q : Location} (hq : q ∈ catalogue.families.map s.modulePlace) :
    e.fileAt (d.place s.sourceFolder ++ q) = d'.fileAt (d.place s.outFolder ++ q) := by
  have hplace := fun p => Disk.place_of_home hw.sound.home p
  have hfile := fileAt_generated (q := q) hs hw.accepted hi
    (by rw [hplace]; exact (hw.generated_iff q).2 hq)
    (by rintro m hm ⟨r, rfl⟩; exact not_parked hs hc hm r hq)
    (by rintro m hm ⟨r, rfl⟩; exact not_manual hs hc hm r hq)
  rwa [hplace, hplace] at hfile

variable (hfree : ∀ m ∈ s.manualModules, d.tree.get? (d.place s.sourceFolder ++ [m]) = none)
include hfree

/-- A module written by hand comes back to its place. -/
theorem fileAt_manual {m : String} (hm : Held d' s m) (q : Location) :
    e.fileAt (manualPlace d s ++ m :: q) = d.fileAt (manualPlace d s ++ m :: q) := by
  have hplace := fun p => Disk.place_of_home hw.sound.home p
  have hhome : manualPlace d s ++ m :: q =
      d.place s.sourceFolder ++ "Material" :: "Icons" :: m :: q := by
    simp [manualPlace]
  have htop : d'.fileAt (d.place s.sourceFolder ++ m :: q) = none := by
    have hnowhere := Disk.fileAt_nowhere (hfree m hm.1) q
    rw [List.append_assoc, List.singleton_append] at hnowhere
    rw [hw.source, hnowhere]
  have hfile := hi.manual m hm q
  rw [Installation.manualPlace_of_home hw.sound.home, hplace, hplace, hw.others _ (not_parked hs hc hm.1 q),
    hw.others _ (not_manual hs hc hm.1 q), htop, Option.none_or, Option.or_none,
    Option.or_none] at hfile
  rw [hfile, hhome, hw.source]

/-- Installing the modules that were written completes a run. -/
theorem completed_of_installed (ht : d.tree.Plain) :
    Completed s translation f catalogue d e := by
  have hplace := fun p => Disk.place_of_home hw.sound.home p
  refine ⟨fun family hm => ?_, fun m hm hholds q => ?_, fun q hscaffold hq => ?_,
    fun q c hscaffold hfile => ?_, fun q => ?_, fun hout => ?_⟩
  · refine (hw.modules family hm).moved (hc.families family hm) hc.icons hi.home (fun k hk => ?_)
      (fileAt_module hs hc hw hi (List.mem_map_of_mem hm))
    obtain ⟨hsrc, hout⟩ := icons_elsewhere hk
    exact hi.rest k hsrc hout
  · obtain ⟨haccept, -, hshort, hthere⟩ := (Disk.holds_iff ht (hs.manualHome_under hm)).1 hholds
    refine fileAt_manual hs hc hw hi hfree ⟨hm, ?_⟩ q
    refine (Disk.holds_iff hw.sound.plain (hs.manualHome_under hm)).2
      ⟨haccept, hw.sound.way, hshort, ?_⟩
    rw [hplace]
    refine hw.there _ ?_ ?_ hthere
    · rw [Disk.place_along (hs.manualHome_under hm).toAlong,
        Disk.place_along s.outFolder_under.toAlong, List.prefix_append_right_inj]
      intro hp
      simp at hp
    · rw [Disk.place_along (hs.manualHome_under hm).toAlong,
        Disk.place_along s.cacheFolder_under.toAlong, List.prefix_append_right_inj]
      intro hp
      simp at hp
  · by_cases htop : ∃ m, Held d' s m ∧ [m] <+: q
    · obtain ⟨m, hm, r, rfl⟩ := htop
      have hnone := hi.top m hm r
      have hnowhere := Disk.fileAt_nowhere (hfree m hm.1) r
      rw [hplace] at hnone
      rw [List.append_assoc] at hnowhere
      exact hnone.trans hnowhere.symm
    · have hfile := hi.outside q (fun m hm hp => htop ⟨m, hm, hp⟩) hscaffold
      rw [hplace, hplace, hw.others q hq, Option.none_or] at hfile
      rw [hfile, hw.source]
  · by_cases hmanual : ∃ m, Held d' s m ∧ ["Material", "Icons", m] <+: q
    · right
      obtain ⟨m, hm, r, rfl⟩ := hmanual
      have hsame := fileAt_manual hs hc hw hi hfree hm r
      have hhome : manualPlace d s ++ m :: r =
          d.place s.sourceFolder ++ (["Material", "Icons", m] ++ r) := by
        simp [manualPlace]
      rw [hhome] at hsame
      exact ⟨⟨m, hm.1, List.prefix_append _ _⟩, hsame.symm.trans hfile⟩
    · left
      have hgen := hi.scaffold (Settings.accept_scaffold hs hw.accepted) q hscaffold
        fun m hm hp => hmanual ⟨m, hm, hp⟩
      rw [hplace, hplace, hfile] at hgen
      exact (hw.generated_iff q).1 (by simp [← hgen])
  · have hnone := hi.out q
    rwa [hplace] at hnone
  · have hgone := hi.gone fun q hway => hout q ?_
    · rwa [hplace] at hgone
    · rwa [hplace, Disk.onWay_of_home hw.sound.home] at hway

end

/-- A run that ends well was served a catalogue and reports its families. It leaves the module of each of
them among the sources, with the code of its confirmed drawings; the modules written by hand and the
other sources as they were; nothing else in the scaffold; and no file in the output, which is gone unless the path
to the root leads through it. -/
theorem run_completes (hs : s.Standard) (ht : site.disk.tree.Plain) (hn : site.disk.tree.Named)
    (hfree : ∀ m ∈ s.manualModules,
      site.disk.tree.get? (site.disk.place s.sourceFolder ++ [m]) = none)
    (htranslate : ∀ j markup, partners.translate j markup = translation markup)
    (hformat : ∀ j p d, (partners.format j p d).2 = d)
    (hc : ∀ catalogue, Served s partners site catalogue → Orderly s catalogue)
    {report : RunReport} (h : (run s partners).perform site = (.ok report, after)) :
    ∃ catalogue f, Served s partners site catalogue ∧ finish s = .ok f ∧
      report = ⟨catalogue.families.map (reportOf s catalogue), catalogue.families.length⟩ ∧
      Completed s translation f catalogue site.disk after.disk := by
  obtain ⟨reports, writtenSite, hwrite, h⟩ := Action.perform_bind_ok h
  obtain ⟨catalogue, f, hserved, hf, rfl, hw⟩ := writeAll_ok hs ⟨ht, hn⟩ htranslate hc hwrite
  obtain ⟨n, installedSite, hinstall, h⟩ := Action.perform_bind_ok h
  have hi := Installation.install_ok hs ⟨hw.sound.plain, hw.sound.named⟩ hinstall
  obtain ⟨_, notedSite, hnote, h⟩ := Action.perform_bind_ok h
  obtain rfl := Action.perform_record_ok hnote
  obtain ⟨_, formattedSite, hformatted, h⟩ := Action.perform_bind_ok h
  obtain ⟨rfl, rfl⟩ := Action.perform_pure_ok h
  have hdisk : formattedSite.disk = installedSite.disk := by
    obtain ⟨-, hsite⟩ := Action.perform_attempt_ok hformatted
    rw [← hsite]
    exact hformat _ _ _
  have hcatalogue := hc catalogue hserved
  refine ⟨catalogue, f, hserved, hf, ?_, ?_⟩
  · rw [count_of_written hw hi hcatalogue]
  · rw [hdisk]
    exact completed_of_installed hs hcatalogue hw hi hfree ht

/-- Partners that serve a catalogue with one icon and one family, and answer all else. -/
def servingOne : Partners where
  fetch _ url := .ok (Text.encode
    (if url = (Settings.preset .legacy ⟨"/"⟩).catalogueUrl then
      "[[[\"search\",1,[\"action\"],[]]],[\"A\"]]"
    else "<svg></svg>"))
  translate _ _ := .ok "svg [] []"
  format _ _ d := (.ok (), d)
  patience := 0

/-- A project at the root of the file system with a module written by hand and one left over. -/
def coloredSite : Site where
  disk :=
    { tree := [(["src"], .folder), (["src", "Main.elm"], .file [1]), (["src", "Material"], .folder),
        (["src", "Material", "Icons"], .folder),
        (["src", "Material", "Icons", "Coloring.elm"], .file [2]),
        (["src", "Material", "Old.elm"], .file [3])].foldl
          (fun t x => t.graft x.1 (.single x.2)) (.single .folder)
      home := [] }
  journal := []

theorem served_one {site : Site}
    (h : Served (Settings.preset .legacy ⟨"/"⟩) servingOne site catalogue) :
    catalogue.families = ["A"] ∧ catalogue.icons.map (·.name) = ["search"] := by
  obtain ⟨raw, hraw, hread⟩ := h
  rw [← Except.ok.inj hraw, if_pos rfl] at hread
  have hparsed : (Catalogue.read (Text.encode
      "[[[\"search\",1,[\"action\"],[]]],[\"A\"]]")).toOption.map
        (fun c => (c.families, c.icons.map (·.name))) = some (["A"], ["search"]) := by
    decide
  rw [hread] at hparsed
  exact Prod.mk.inj (Option.some.inj hparsed)

theorem orderly_one {site : Site}
    (h : Served (Settings.preset .legacy ⟨"/"⟩) servingOne site catalogue) :
    Orderly (Settings.preset .legacy ⟨"/"⟩) catalogue := by
  obtain ⟨hfamilies, hicons⟩ := served_one h
  refine ⟨⟨?_, fun i hi => ?_⟩, ?_, ?_⟩
  · rw [hfamilies, List.forall_mem_singleton]
    exact ⟨by decide, by decide, by decide⟩
  · have hname : i.name ∈ catalogue.icons.map (·.name) := List.mem_map_of_mem hi
    rw [hicons, List.mem_singleton] at hname
    rw [hname]
    decide
  · rw [hfamilies]
    decide
  · rw [hfamilies, List.forall_mem_singleton]
    decide

theorem run_served_one : ∃ report after,
    (run (Settings.preset .legacy ⟨"/"⟩) servingOne).perform coloredSite = (.ok report, after) :=
  Action.exists_of_isOk (by decide +kernel)

/-- There the run leaves the new module and the one written by hand, and not the one left over. -/
theorem run_completes_one : ∃ report after,
    (run (Settings.preset .legacy ⟨"/"⟩) servingOne).perform coloredSite = (.ok report, after) ∧
      report.installed = 1 ∧ after.disk.fileAt ["src", "A.elm"] ≠ none ∧
      after.disk.fileAt ["src", "Main.elm"] = some [1] ∧
      after.disk.fileAt ["src", "Material", "Icons", "Coloring.elm"] = some [2] ∧
      after.disk.fileAt ["src", "Material", "Old.elm"] = none ∧
      after.disk.tree.get? ["gen", "tmp", "out"] = none := by
  obtain ⟨report, after, h⟩ := run_served_one
  have htranslate : ∀ j markup, servingOne.translate j markup =
      (fun _ => .ok "svg [] []" : String → Except Failure String) markup := fun _ _ => rfl
  obtain ⟨catalogue, f, hserved, -, rfl, hdone⟩ := run_completes (Settings.standard_preset _ _)
    (Tree.plain_of_entries (by decide)) (Tree.named_of_entries (by decide))
    (by decide) htranslate (fun _ _ _ => rfl) (fun _ => orderly_one) h
  have hfamilies := (served_one hserved).1
  have hplaces : catalogue.families.map (Settings.preset .legacy ⟨"/"⟩).modulePlace =
      [["A.elm"]] := by
    rw [hfamilies]
    decide
  refine ⟨_, after, h, by rw [hfamilies]; rfl, ?_, ?_, ?_, ?_, ?_⟩
  · obtain ⟨_, -, -, hfile⟩ := hdone.modules "A" (by simp [hfamilies])
    have hplace : (Settings.preset .legacy ⟨"/"⟩).modulePlace "A" = ["A.elm"] := by decide
    rw [hplace] at hfile
    change after.disk.fileAt ["src", "A.elm"] = _ at hfile
    simp [hfile]
  · have hsame := hdone.sources ["Main.elm"] (by decide) (by rw [hplaces]; decide)
    exact hsame.trans (by decide)
  · have hsame := hdone.manual "Coloring.elm" (by decide) (by decide) []
    exact hsame.trans (by decide)
  · cases hold : after.disk.fileAt ["src", "Material", "Old.elm"] with
    | none => rfl
    | some c =>
      rcases hdone.scaffold ["Material", "Old.elm"] c (by decide) hold with hmem | ⟨⟨m, hm, hp⟩, -⟩
      · rw [hplaces] at hmem
        exact absurd hmem (by decide)
      · simp at hp
  · exact hdone.output.2 (Installation.outsideOutput_of_names
      (show _ = [].map Path.Step.into by decide))

/-- Partners that serve a catalogue with nothing in it. -/
def servingNone : Partners where
  fetch _ _ := .ok (Text.encode "[[],[]]")
  translate _ _ := .ok ""
  format _ _ d := (.ok (), d)
  patience := 0

theorem served_none {catalogue : Catalogue} (h : Served s servingNone site catalogue) :
    catalogue = ⟨[], []⟩ := by
  obtain ⟨raw, hraw, hread⟩ := h
  rw [← Except.ok.inj hraw] at hread
  have hparsed : (Catalogue.read (Text.encode "[[],[]]")).toOption = some ⟨[], []⟩ := by
    decide
  exact Except.ok.inj (hread.symm.trans (ok_of_toOption hparsed))

/-- A project at the root of the file system, where a folder has the name of a module written by hand. -/
def folderSite : Site where
  disk :=
    { tree := [(["src"], .folder), (["src", "Material"], .folder), (["src", "Material", "Icons"], .folder),
        (["src", "Material", "Icons", "Coloring.elm"], .folder),
        (["src", "Material", "Icons", "Coloring.elm", "x.txt"], .file [1])].foldl
          (fun t x => t.graft x.1 (.single x.2)) (.single .folder)
      home := [] }
  journal := []

/-- A way to the root that leads through the output makes the output again, when a module written by hand comes back
to its place. -/
theorem run_through_output :
    ((run throughOutput servingNone).perform folderSite).1.isOk = true ∧
      ((run throughOutput servingNone).perform folderSite).2.disk.holds throughOutput.outFolder = true := by
  decide +kernel

/-- If a module written by hand is a folder, all that is in it stays in the scaffold. And where the path to the root
leads through the output, there is an output again when the run has ended well. -/
theorem run_leaves_output :
    Good folderSite.disk ∧
    (∀ s ∈ [Settings.preset .legacy ⟨"/"⟩, throughOutput],
      (∀ m ∈ s.manualModules,
        folderSite.disk.tree.get? (folderSite.disk.place s.sourceFolder ++ [m]) = none) ∧
      ∀ catalogue, Served s servingNone folderSite catalogue → Orderly s catalogue) ∧
    (((run (.preset .legacy ⟨"/"⟩) servingNone).perform folderSite).1.isOk = true ∧
      ((run (.preset .legacy ⟨"/"⟩) servingNone).perform folderSite).2.disk.fileAt
        ["src", "Material", "Icons", "Coloring.elm", "x.txt"] = some [1]) ∧
    ((run throughOutput servingNone).perform folderSite).1.isOk = true ∧
      ((run throughOutput servingNone).perform folderSite).2.disk.holds throughOutput.outFolder = true := by
  have hfree : ∀ s ∈ [Settings.preset .legacy ⟨"/"⟩, throughOutput], ∀ m ∈ s.manualModules,
      folderSite.disk.tree.get? (folderSite.disk.place s.sourceFolder ++ [m]) = none := by
    decide
  have hstays : ((run (.preset .legacy ⟨"/"⟩) servingNone).perform folderSite).1.isOk = true ∧
      ((run (.preset .legacy ⟨"/"⟩) servingNone).perform folderSite).2.disk.fileAt
        ["src", "Material", "Icons", "Coloring.elm", "x.txt"] = some [1] := by
    decide +kernel
  refine ⟨⟨Tree.plain_of_entries (by decide), Tree.named_of_entries (by decide)⟩,
    fun s hs => ⟨hfree s hs, fun catalogue h => ?_⟩, hstays, run_through_output⟩
  rw [served_none h]
  exact ⟨⟨by simp, by simp⟩, by simp, by simp⟩

end IconModules.Generation
