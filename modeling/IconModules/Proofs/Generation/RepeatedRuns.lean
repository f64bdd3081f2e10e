import IconModules.Proofs.Generation.CompletedRuns
import IconModules.Proofs.Generation.Entries
import IconModules.Proofs.Generation.Reinstalling

/-! # Runs that are repeated

A run that keeps its cache can be repeated: where it ended well, a second run that is served the same catalogue ends
with the same report and leaves the disk as it was, file by file and folder by folder (`run_repeats`). Whatever else
the network would answer, it is only asked for the catalogue, and nothing is waited for (`AsksOnce`).

The second run writes the modules to the output that the installation of the first has cleared (`Vacated`), which
refills it (`writeAll_again`); from there on it is the installation done again (`install_again`). -/

namespace IconModules.Generation

open IconModules.Action (Quiet Replays)
open Disk (Ahead Passable Put Usable Walked)
open Installation (Good Placed Refilled Settled)

variable {s : Settings} {partners partners' : Partners} {translation : String → Except Failure String}
  {f : Finish} {catalogue : Catalogue} {site after again : Site} {u : Unit} {d w b x e c : Disk}
  {k : Location} {names : List String} {raw : Octets} {reports : List ModuleReport}

/-! ### Where a root is read from -/

/-- A root that is written from the root of the tree is not read from any other folder. -/
theorem settled_of_absolute (h : s.root.isAbsolute = true) (d : Disk) : Settled s d := by
  have hstart : d.start s.root = [] := if_pos h
  refine ⟨?_, fun m _ => ?_⟩
  · rw [hstart, Disk.place_along s.outFolder_under.toAlong]
    simp
  · rw [hstart]
    simp

/-! ### What the network is asked -/

/-- The journal goes on from `base`, and meanwhile the network was asked for one address only, once, and nothing was
waited for. -/
def AsksOnce (url : String) (base journal : List Event) : Prop :=
  ∃ new, journal = base ++ new ∧ new.filter Event.isOutward = [.fetched url]

theorem asksOnce_of_quiet {url : String} {j j' : List Event} (h : Quiet (j ++ [.fetched url]) j') :
    AsksOnce url j j' := by
  obtain ⟨new, rfl, hnew⟩ := h
  refine ⟨.fetched url :: new, by simp, ?_⟩
  rw [List.filter_cons_of_pos rfl, List.filter_eq_nil_iff.2 fun e he => by simp [hnew e he]]

theorem AsksOnce.quiet {url : String} {j j' j'' : List Event} (h : AsksOnce url j j') (h' : Quiet j' j'') :
    AsksOnce url j j'' := by
  obtain ⟨new, rfl, hnew⟩ := h
  obtain ⟨new', rfl, hnew'⟩ := h'
  refine ⟨new ++ new', by simp, ?_⟩
  rw [List.filter_append, hnew, List.filter_eq_nil_iff.2 fun e he => by simp [hnew' e he], List.append_nil]

theorem AsksOnce.of_quiet {url : String} {j j' j'' : List Event} (h : Quiet j j') (h' : AsksOnce url j' j'') :
    AsksOnce url j j'' := by
  obtain ⟨new, rfl, hnew⟩ := h
  obtain ⟨new', rfl, hnew'⟩ := h'
  refine ⟨new ++ new', by simp, ?_⟩
  rw [List.filter_append, List.filter_eq_nil_iff.2 fun e he => by simp [hnew e he], hnew', List.nil_append]

/-! ### Before the modules are written -/

/-- On the disk `d'` the modules begin to be written, in a run that found the disk `d`. -/
structure Begun (s : Settings) (raw : Octets) (d d' : Disk) : Prop where
  stocked : Stocked s d.home d'
  accepted : Disk.acceptPath s.iconsFolder = .ok ()
  accepted_out : Disk.acceptPath s.outFolder = .ok ()
  out : ∀ k, d.OnWay s.outFolder k → d'.tree.get? k = some .folder
  empty : ∀ k, d.place s.outFolder <+: k → ¬ d.OnWay s.outFolder k → d'.tree.get? k = none
  catalogue : d'.tree.get? (d.place s.catalogueFile) = some (.file raw)
  usable : d'.Usable s.root ["gen", "tmp", "sot", "icons.json"] s.catalogueFile

theorem not_out_catalogue (s : Settings) (d : Disk) :
    ¬ d.place s.outFolder <+: d.place s.catalogueFile := by
  rw [Disk.place_along s.outFolder_under.toAlong, Disk.place_along s.catalogueFile_under.toAlong,
    List.prefix_append_right_inj]
  decide

theorem not_source_catalogue (s : Settings) (d : Disk) :
    ¬ d.place s.sourceFolder <+: d.place s.catalogueFile := by
  rw [Disk.place_along s.sourceFolder_under.toAlong, Disk.place_along s.catalogueFile_under.toAlong,
    List.prefix_append_right_inj]
  decide

/-- What a run that keeps its cache has done before its modules are written. -/
theorem writeAll_begun (hg : Good site.disk) (hkeep : s.cacheStart = .keep)
    (h : (writeAll s partners).perform site = (.ok reports, after)) :
    ∃ raw catalogue f, ∃ loaded : Site,
      partners.fetch (site.journal ++ [.noted (.downloadingCatalogue s.catalogueUrl)]) s.catalogueUrl =
        .ok raw ∧
      Catalogue.read raw = .ok catalogue ∧ finish s = .ok f ∧ Begun s raw site.disk loaded.disk ∧
      (writeModules s partners f catalogue (Category.ofIcons catalogue.icons)
        catalogue.families).perform loaded = (.ok reports, after) := by
  obtain ⟨readySite, loadedSite, catalogue, f, hready, hload, hf, h⟩ := writeAll_iff.1 h
  have hjournal := journal_makeReady s site
  rw [hready] at hjournal
  obtain ⟨harranged, hstocked, ha, ha'⟩ := makeReady_arranged hg hkeep hready
  obtain ⟨raw, hfetch, hread, hput, hu⟩ := loadCatalogue_exact hstocked.sound.plain hload
  have hextends := (loadCatalogue_ok hstocked.sound hload).2
  rw [show readySite.journal = site.journal from hjournal] at hfetch
  rw [Disk.place_of_home harranged.home] at hput
  have hstocked' : Stocked s site.disk.home loadedSite.disk :=
    hstocked.extends hextends.grown hextends.named
  refine ⟨raw, catalogue, f, _, hfetch, hread, hf, ?_, h⟩
  refine ⟨hstocked', ha, ha', fun k hk => ?_, fun k hk hnot => ?_, ?_, hu.on hstocked'.sound.way⟩
  · exact hextends.grown.folder k (harranged.out k hk)
  · rw [hput.get?, if_neg]
    · exact harranged.empty k hk hnot
    · intro he
      rw [he] at hk
      exact not_out_catalogue s site.disk hk
  · rw [hput.get?, if_pos rfl]

/-! ### What an installation leaves -/

/-- The disk `e` is what may be left of `w` by an installation: the output holds no file, nothing is in the way to
the folder of drawings, and nothing outside the sources and the output has changed. -/
structure Vacated (s : Settings) (w e : Disk) : Prop where
  good : Good e
  home : e.home = w.home
  passable : e.Passable s.iconsFolder
  out : ∀ q, e.tree.get? (w.place s.outFolder ++ q) = none ∨
    e.tree.get? (w.place s.outFolder ++ q) = some .folder
  rest : ∀ k, ¬ w.place s.sourceFolder <+: k → ¬ w.place s.outFolder <+: k →
    e.tree.get? k = w.tree.get? k

/-- A folder on the way to the drawings is there after an installation, unless it is in the output or a module
was parked there. -/
theorem get?_of_placed_way (hs : s.Standard) (h : Placed s names w b x e) (hw : w.Walked s.iconsFolder)
    (hk : w.OnWay s.iconsFolder k) (hout : ¬ w.place s.outFolder <+: k)
    (hparked : ∀ m ∈ names, k ≠ w.place s.sourceFolder ++ [m]) : e.tree.get? k = some .folder := by
  have hx : ∀ p, x.place p = w.place p := Disk.place_of_home h.home_moved
  by_cases hsrc : w.place s.sourceFolder <+: k
  · obtain ⟨q, rfl⟩ := hsrc
    have hway := Installation.onWay_icons_source hk
    have hscaffold : ¬ ["Material"] <+: q := by
      rintro ⟨r, rfl⟩
      exact h.not_onWay_scaffold r hway
    have hnames : ∀ m ∈ names, ¬ [m] <+: q := by
      rintro m hm ⟨r, rfl⟩
      cases r with
      | nil => exact hparked m hm rfl
      | cons n r =>
        have hvacant := (h.portable m hm).vacant n r
        rw [Installation.place_parked hs _ (h.sublist.subset hm), List.append_assoc] at hvacant
        exact hvacant hway
    have hsame := h.restored.same q hscaffold hnames (by simp)
    rw [hx] at hsame
    rw [hsame]
    exact h.moving.root _ ((Disk.onWay_of_home h.home_moved).2 hway)
  · rw [h.rest hsrc hout]
    exact hw k hk

theorem vacated_of_placed (hs : s.Standard) (h : Placed s names w b x e) (he : Good e)
    (hw : w.Walked s.iconsFolder) (hshort : ∀ x ∈ s.root.moves, Tree.Short x) (hsettled : Settled s w) :
    Vacated s w e := by
  have hhome : e.home = w.home := h.home_after
  have hstart : w.start s.iconsFolder = w.start s.root := Disk.start_along s.iconsFolder_under.toAlong
  have hstart' : e.start s.iconsFolder = w.start s.iconsFolder := by
    unfold Disk.start
    rw [hhome]
  refine ⟨he, hhome, ⟨?_, fun y hy => ?_, fun k hk => ?_⟩, h.out, fun k => h.rest⟩
  · rw [hstart']
    refine get?_of_placed_way hs h hw ⟨[], List.nil_prefix, rfl⟩ ?_ fun m hm => ?_
    · rw [hstart]
      exact hsettled.out
    · rw [hstart]
      exact hsettled.parked m (h.sublist.subset hm)
  · rw [s.iconsFolder_under.moves] at hy
    rcases List.mem_append.1 hy with hy | hy
    · exact hshort y hy
    · obtain ⟨n, hn, rfl⟩ := List.mem_map.1 hy
      exact (show ∀ n ∈ ["gen", "tmp", "sot", "icons"], n.utf8ByteSize ≤ Tree.nameLimit by decide) n hn
  · rw [Disk.onWay_of_home hhome] at hk
    by_cases hout : w.place s.outFolder <+: k
    · obtain ⟨q, rfl⟩ := hout
      exact h.out q
    · by_cases hparked : ∃ m ∈ names, k = w.place s.sourceFolder ++ [m]
      · obtain ⟨m, hm, rfl⟩ := hparked
        have hleft := h.restored.left m (.inl hm) []
        rw [Disk.place_of_home hhome] at hleft
        exact hleft.imp_right fun hfolder => hfolder.2.1
      · exact .inr (get?_of_placed_way hs h hw hk hout fun m hm he => hparked ⟨m, hm, he⟩)

/-! ### Writing the modules again -/

/-- What is on the way to the output and not in it is on the way to the drawings. -/
theorem onWay_icons_of_out (hk : d.OnWay s.outFolder k) (hout : ¬ d.place s.outFolder <+: k) :
    d.OnWay s.iconsFolder k := by
  rw [Disk.place_along s.outFolder_under.toAlong] at hout
  rw [Disk.onWay_along_iff s.iconsFolder_under.toAlong]
  have hroad : d.OnRoad s.root (["gen", "tmp"] ++ ["out"]) k :=
    (Disk.onWay_along_iff s.outFolder_under.toAlong).1 hk
  rcases hroad with hroot | ⟨more, hmore, rfl⟩
  · exact .inl hroot
  · rcases List.prefix_concat_iff.1 hmore with rfl | hmore
    · exact absurd (List.prefix_refl _) hout
    · exact .inr ⟨more, hmore.trans (by decide), rfl⟩

section

variable (hv : Vacated s w e) (harranged : Arranged s e c)
include hv harranged

theorem cached_of_vacated (hc : c.tree.Plain) (hw : w.Walked s.iconsFolder) :
    Cached s w.home w c := by
  have hhome : c.home = e.home := harranged.home
  have hplace : ∀ p, c.place p = w.place p := Disk.place_of_home (hhome.trans hv.home)
  refine ⟨hc, hhome.trans hv.home, fun k hk => harranged.out k ((Disk.onWay_of_home hhome).1 hk),
    fun k hk => ?_⟩
  rw [hplace] at hk
  obtain ⟨hsrc, hout⟩ := icons_elsewhere hk
  by_cases hway : e.OnWay s.iconsFolder k
  · -- a folder on both
    have hthere := hw k ((Disk.onWay_of_home hv.home).1 hway)
    exact Disk.fileAt_congr ((harranged.icons k hway).trans hthere.symm)
  · have hplace' : ∀ p, e.place p = w.place p := Disk.place_of_home hv.home
    refine Disk.fileAt_congr ?_
    rw [harranged.same k (by rwa [hplace']) (fun h => hway (onWay_icons_of_out h (by rwa [hplace']))) hway,
      hv.rest k hsrc hout]

/-- The output of the second run is filled like that of the first, and all else is as it was left. -/
theorem refilled_of_ahead {z : Disk} (hend : Ahead (OutsideOut s c) c w z) : Refilled s w e z := by
  have hplace : c.place s.outFolder = w.place s.outFolder :=
    Disk.place_of_home (harranged.home.trans hv.home) _
  have hplace' : e.place s.outFolder = w.place s.outFolder := Disk.place_of_home hv.home _
  have hahead : ∀ k, ¬ w.place s.outFolder <+: k → z.tree.get? k = c.tree.get? k := fun k hk =>
    hend.ahead k (by rwa [OutsideOut, hplace])
  refine ⟨hend.home, fun q => hend.same _ ?_, fun k hk hout => ?_, fun k hk hout => ?_⟩
  · rw [OutsideOut, hplace, Classical.not_not]
    exact List.prefix_append _ _
  · rw [hahead k hout]
    exact harranged.icons k ((Disk.onWay_of_home hv.home).2 hk)
  · rw [← Disk.onWay_of_home hv.home] at hk
    rw [hahead k hout, harranged.same k (by rwa [hplace']) (fun h => hk (onWay_icons_of_out h
      (by rwa [hplace']))) hk]

end

/-- The catalogue is still in its file when the second run has prepared the folders. -/
theorem catalogue_of_vacated (hb : Begun s raw d b) (hv : Vacated s w e) (harranged : Arranged s e c)
    (hhome : e.home = d.home) (hw : w.tree.get? (d.place s.catalogueFile) = some (.file raw)) :
    c.tree.get? (d.place s.catalogueFile) = some (.file raw) := by
  have hplace : ∀ p, e.place p = d.place p := Disk.place_of_home hhome
  have hplace' : ∀ p, w.place p = d.place p := Disk.place_of_home (hv.home.symm.trans hhome)
  -- where the catalogue is no folder was when the modules began to be written
  have hout : ¬ d.OnWay s.outFolder (d.place s.catalogueFile) := fun hway => by
    simpa [hb.catalogue] using hb.out _ hway
  have hicons : ¬ d.OnWay s.iconsFolder (d.place s.catalogueFile) := fun hway => by
    simpa [hb.catalogue] using
      hb.stocked.icons _ ((Disk.onWay_of_home hb.stocked.sound.home).2 hway)
  rw [harranged.same _ (by rw [hplace]; exact not_out_catalogue s d)
      (mt (Disk.onWay_of_home hhome).1 hout) (mt (Disk.onWay_of_home hhome).1 hicons),
    hv.rest _ (by rw [hplace']; exact not_source_catalogue s d)
      (by rw [hplace']; exact not_out_catalogue s d), hw]

/-- The modules begin to be written on disks with the same output. -/
theorem ahead_of_begun (hb : Begun s raw d b) (harranged : Arranged s e c) (hhome : e.home = d.home) :
    Ahead (OutsideOut s c) c b c := by
  have hplace : c.place s.outFolder = d.place s.outFolder :=
    Disk.place_of_home (harranged.home.trans hhome) _
  have hplace' : e.place s.outFolder = d.place s.outFolder := Disk.place_of_home hhome _
  refine ⟨?_, fun _ _ => rfl, fun k hk => ?_⟩
  · rw [harranged.home, hhome, hb.stocked.sound.home]
  · rw [OutsideOut, Classical.not_not, hplace] at hk
    by_cases hway : d.OnWay s.outFolder k
    · rw [hb.out k hway, harranged.out k ((Disk.onWay_of_home hhome).2 hway)]
    · rw [hb.empty k hk hway, harranged.empty k (by rwa [hplace']) (mt (Disk.onWay_of_home hhome).1 hway)]

/-- The places of the modules of a catalogue. -/
def modulePlaces (s : Settings) (d : Disk) (catalogue : Catalogue) : List Location :=
  catalogue.families.map fun family => d.place (s.moduleFile family)

section

variable (hs : s.Standard) (hkeep : s.cacheStart = .keep) (hc : Admissible catalogue)
  {loaded : Site} (hb : Begun s raw d loaded.disk)
  (hwrite : (writeModules s partners f catalogue (Category.ofIcons catalogue.icons)
    catalogue.families).perform loaded = (.ok reports, after))
include hs hc hb hwrite

/-- Writing the modules adds them and drawings. -/
theorem filling_of_begun :
    Filling s d.home (modulePlaces s d catalogue) loaded.disk after.disk := by
  have hplace : ∀ p, loaded.disk.place p = d.place p := Disk.place_of_home hb.stocked.sound.home
  have hkeeps : Action.Keeps
      (fun x => Filling s d.home (modulePlaces s d catalogue) loaded.disk x.disk)
      (writeModules s partners f catalogue (Category.ofIcons catalogue.icons) catalogue.families) :=
    keeps_writeModules_filling hs hb.stocked.sound.home hc.icons hc.families fun family hm => by
      rw [hplace]
      exact List.mem_map_of_mem hm
  exact hkeeps.of_perform hwrite (.refl hb.stocked.sound)

theorem stocked_of_begun : Stocked s d.home after.disk := by
  have hfilled := (filling_of_begun hs hc hb hwrite).filled
  exact hb.stocked.extends hfilled.grown hfilled.named

/-- The output holds files at the places of modules only. -/
theorem fileAt_out_of_begun {q : Location} (hq : q ∉ catalogue.families.map s.modulePlace) :
    after.disk.fileAt (d.place s.outFolder ++ q) = none := by
  have hfilled := (filling_of_begun hs hc hb hwrite).filled
  have hplace : ∀ p, loaded.disk.place p = d.place p := Disk.place_of_home hb.stocked.sound.home
  rw [hfilled.files]
  · rw [Disk.fileAt_eq_none]
    by_cases hway : d.OnWay s.outFolder (d.place s.outFolder ++ q)
    · simp [hb.out _ hway]
    · simp [hb.empty _ (List.prefix_append _ _) hway]
  · intro hmem
    obtain ⟨family, hm, he⟩ := List.mem_map.1 hmem
    rw [place_module hs (hc.families family hm), List.append_cancel_left_eq] at he
    exact hq (he ▸ List.mem_map_of_mem hm)
  · rw [hplace]
    intro hp
    exact (icons_elsewhere hp).2 (List.prefix_append _ _)

/-- The catalogue is still in its file when the modules are written. -/
theorem catalogue_of_begun : after.disk.tree.get? (d.place s.catalogueFile) = some (.file raw) := by
  have hfilled := (filling_of_begun hs hc hb hwrite).filled
  have hplace : ∀ p, loaded.disk.place p = d.place p := Disk.place_of_home hb.stocked.sound.home
  rw [← Disk.fileAt_eq_some, hfilled.files, Disk.fileAt_eq_some, hb.catalogue]
  · intro hmem
    obtain ⟨family, hm, he⟩ := List.mem_map.1 hmem
    rw [place_module hs (hc.families family hm)] at he
    refine not_out_catalogue s d ?_
    rw [← he]
    exact List.prefix_append _ _
  · rw [hplace]
    exact catalogue_apart s d

end

/-! ### The second run -/

section

variable (hs : s.Standard) (hkeep : s.cacheStart = .keep) (hc : Admissible catalogue)
  (htranslate : ∀ j markup, partners.translate j markup = translation markup)
  (htranslate' : ∀ j markup, partners'.translate j markup = translation markup)
include hs hkeep hc htranslate htranslate'

/-- A second run that is served the same catalogue writes the same modules. -/
theorem writeAll_again {loaded : Site} (hb : Begun s raw site.disk loaded.disk)
    (hread : Catalogue.read raw = .ok catalogue) (hf : finish s = .ok f)
    (hwrite : (writeModules s partners f catalogue (Category.ofIcons catalogue.icons)
      catalogue.families).perform loaded = (.ok reports, after))
    (hv : Vacated s after.disk again.disk)
    (hstart : ¬ again.disk.place s.outFolder <+: again.disk.start s.root)
    (hserve : partners'.fetch (again.journal ++ [.noted (.downloadingCatalogue s.catalogueUrl)])
      s.catalogueUrl = .ok raw) :
    ∃ later : Site, (writeAll s partners').perform again = (.ok reports, later) ∧
      Refilled s after.disk again.disk later.disk ∧
      AsksOnce s.catalogueUrl again.journal later.journal := by
  have hstocked := stocked_of_begun hs hc hb hwrite
  have hhome : again.disk.home = site.disk.home := hv.home.trans hstocked.sound.home
  have hplace : ∀ p, again.disk.place p = site.disk.place p := Disk.place_of_home hhome
  have hplace' : ∀ p, after.disk.place p = site.disk.place p := Disk.place_of_home hstocked.sound.home
  -- the folders are prepared
  obtain ⟨readySite, hready, harranged⟩ := makeReady_of_passable hv.good hkeep hb.accepted
    hb.accepted_out hv.passable (by
      rw [hplace, ← hplace']
      exact hv.out) hstart
  have hjournal : readySite.journal = again.journal := by
    have h := journal_makeReady s again
    rwa [hready] at h
  have hplain : readySite.disk.tree.Plain := (makeReady_ok hs hv.good hready).sound.plain
  -- the catalogue is in its file, and is stored there again
  have hcatalogue : readySite.disk.tree.get? (readySite.disk.place s.catalogueFile) =
      some (.file raw) := by
    rw [Disk.place_of_home harranged.home, hplace]
    exact catalogue_of_vacated hb hv harranged hhome (catalogue_of_begun hs hc hb hwrite)
  have hwalked : readySite.disk.Walked s.iconsFolder := fun k hk =>
    harranged.icons k ((Disk.onWay_of_home harranged.home).1 hk)
  have hroot := ((Disk.walked_iff s.iconsFolder_under.toAlong).1 hwalked).1
  have husable := hb.usable.on (hroot.openRoot hb.usable.way.short)
  rw [← hjournal] at hserve
  have hload : (loadCatalogue s partners').perform readySite = _ :=
    loadCatalogue_again hplain husable hcatalogue hserve hread
  -- the modules are written from the cache
  have hcached := cached_of_vacated hv harranged hplain hstocked.icons
  rw [hstocked.sound.home] at hcached
  let note : Event := .noted (.catalogueLoaded catalogue.icons.length catalogue.families.length
    (Category.ofIcons catalogue.icons).length)
  let notedSite : Site := ⟨readySite.disk, readySite.journal ++
    [.noted (.downloadingCatalogue s.catalogueUrl), .fetched s.catalogueUrl] ++ [note]⟩
  have hmodulePlaces : ∀ family ∈ catalogue.families,
      readySite.disk.place (s.moduleFile family) ∈ modulePlaces s site.disk catalogue := fun family hm => by
    rw [Disk.place_of_home harranged.home, hplace]
    exact List.mem_map_of_mem hm
  have hfinish : (Action.attempt (finish s)).perform notedSite = (.ok f, notedSite) := by
    rw [Action.perform_attempt, hf]
  obtain ⟨later, hwrite', hend, hquiet⟩ := ((replays_writeModules_cached hcached htranslate
    htranslate' hs hc.icons hc.families hmodulePlaces hstocked.sound.home) loaded after reports hb.stocked hwrite).2
    (.refl _) |>.2 notedSite (ahead_of_begun hb harranged hhome)
  refine ⟨later, ?_, refilled_of_ahead hv harranged hend, ?_⟩
  · refine Action.perform_bind_of_ok hready (Action.perform_bind_of_ok hload ?_)
    exact Action.perform_bind_of_ok (Action.perform_note _ _) (Action.perform_bind_of_ok hfinish hwrite')
  · have hnoted : Quiet again.journal
        (again.journal ++ [.noted (.downloadingCatalogue s.catalogueUrl)]) := Quiet.event rfl _
    refine AsksOnce.of_quiet hnoted (asksOnce_of_quiet ((Quiet.event (e := note) rfl _).trans ?_))
    simpa only [notedSite, hjournal, List.append_assoc, List.cons_append, List.nil_append] using hquiet rfl

end

/-- A module has no place at or below one of the modules written by hand if it has not the place of one, and none
is in the way of the scaffold. -/
theorem not_reserved (hs : s.Standard) (hc : Admissible catalogue)
    (hmanual : ∀ family ∈ catalogue.families, ∀ m ∈ s.manualModules,
      s.modulePlace family ≠ ["Material", "Icons", m]) :
    ["Material"] ∉ catalogue.families.map s.modulePlace ∧
      ∀ m ∈ s.manualModules, ∀ r,
        "Material" :: "Icons" :: m :: r ∉ catalogue.families.map s.modulePlace := by
  refine ⟨fun hmem => ?_, fun m hm r hmem => ?_⟩
  · obtain ⟨family, hfamily, he⟩ := List.mem_map.1 hmem
    obtain ⟨folders, file, hplace, -, -, stem, -, hfile⟩ := hs.modulePlace_eq (hc.families family hfamily)
    obtain ⟨rfl, rfl⟩ : folders = [] ∧ file = "Material" := by
      rw [hplace, ← List.nil_append ["Material"]] at he
      obtain ⟨hfolders, hfile⟩ := List.append_inj' he rfl
      exact ⟨hfolders, List.singleton_inj.1 hfile⟩
    have hdot : '.' ∈ "Material".toList := by
      rw [hfile]
      simp
    exact absurd hdot (by decide)
  · obtain ⟨family, hfamily, he⟩ := List.mem_map.1 hmem
    exact hs.modulePlace_ne (hc.families family hfamily) (hs.manual m hm).2.1 ["Material", "Icons"]
      (hmanual family hfamily m hm) r he

/-- A run that ended well and kept its cache ends well again with the same report, and leaves the disk as the first
one did, if the same catalogue is served. For nothing else the network is asked, whatever it would answer.

A root that is written from a working folder needs that folder to be none of those that a run replaces (`Settled`);
an absolute root needs nothing (`settled_of_absolute`). -/
theorem run_repeats (hs : s.Standard) (hkeep : s.cacheStart = .keep) (ht : site.disk.tree.Plain)
    (hn : site.disk.tree.Named) (hsettled : Settled s site.disk)
    (htranslate : ∀ j markup, partners.translate j markup = translation markup)
    (htranslate' : ∀ j markup, partners'.translate j markup = translation markup)
    {verdict : Path → Disk → Except Failure Unit}
    (hformat : ∀ j p d, partners.format j p d = (verdict p d, d))
    (hformat' : ∀ j p d, partners'.format j p d = (verdict p d, d))
    (hc : ∀ catalogue, Served s partners site catalogue → Admissible catalogue ∧
      ∀ family ∈ catalogue.families, ∀ m ∈ s.manualModules,
        s.modulePlace family ≠ ["Material", "Icons", m])
    {report : RunReport} (h : (run s partners).perform site = (.ok report, after))
    (hagain : again.disk = after.disk)
    (hserve : ∀ raw,
      partners.fetch (site.journal ++ [.noted (.downloadingCatalogue s.catalogueUrl)])
        s.catalogueUrl = .ok raw →
      partners'.fetch (again.journal ++ [.noted (.downloadingCatalogue s.catalogueUrl)])
        s.catalogueUrl = .ok raw) :
    ∃ later : Site, (run s partners').perform again = (.ok report, later) ∧
      later.disk = after.disk ∧ AsksOnce s.catalogueUrl again.journal later.journal := by
  obtain ⟨writtenSite, installedSite, hwriteAll, hinstall, hformatted⟩ := run_iff.1 h
  obtain ⟨raw, catalogue, f, loaded, hfetch, hread, hf, hb, hwrite⟩ :=
    writeAll_begun ⟨ht, hn⟩ hkeep hwriteAll
  obtain ⟨hcatalogue, hmanual⟩ := hc catalogue ⟨raw, hfetch, hread⟩
  have hstocked := stocked_of_begun hs hcatalogue hb hwrite
  have hgood : Good writtenSite.disk := ⟨hstocked.sound.plain, hstocked.sound.named⟩
  have hplace : ∀ p, writtenSite.disk.place p = site.disk.place p :=
    Disk.place_of_home hstocked.sound.home
  have hshort := hb.usable.way.short
  have hscaffold := Settings.accept_scaffold hs hb.accepted
  have hsettled' := hsettled.of_home hstocked.sound.home
  -- the first installation
  have hgood' : Good installedSite.disk := (Installation.install_ok hs hgood hinstall).good
  obtain ⟨names, begun, moved, hplaced, hmove, hconclude⟩ :=
    Installation.install_exact hs hgood hstocked.root hscaffold hsettled' hinstall
  rw [Action.perform_format, hformat] at hformatted
  obtain ⟨hverdict, rfl⟩ := Prod.mk.inj hformatted
  have hagain' : again.disk = installedSite.disk := hagain
  -- the modules are written again
  have hv := vacated_of_placed hs hplaced hgood' hstocked.icons hshort hsettled'
  rw [← hagain'] at hv
  obtain ⟨rewritten, hwrite', hrefilled, hasks⟩ := writeAll_again hs hkeep hcatalogue htranslate
    htranslate' hb hread hf hwrite hv (hsettled'.of_home hv.home).out (hserve raw hfetch)
  -- and installed again
  rw [hagain'] at hrefilled
  have hout : ∀ q, q ∉ catalogue.families.map s.modulePlace →
      writtenSite.disk.fileAt (writtenSite.disk.place s.outFolder ++ q) = none := fun q hq => by
    rw [hplace]
    exact fileAt_out_of_begun hs hcatalogue hb hwrite hq
  obtain ⟨hfree, hparked⟩ := not_reserved hs hcatalogue hmanual
  obtain ⟨reinstalled, hinstall', hsame, hquiet⟩ := Installation.install_again hs hplaced hmove
    hconclude hgood hgood'.plain hstocked.icons hshort hscaffold (hout _ hfree)
    (fun m hm r => hout _ (hparked m hm r)) hrefilled
  refine ⟨⟨reinstalled.disk, reinstalled.journal ++ [.noted (.formatting s.sourceFolder)] ++
    [.formatted s.sourceFolder]⟩, ?_, hsame, ?_⟩
  · refine run_iff.2 ⟨rewritten, reinstalled, hwrite', hinstall', ?_⟩
    rw [Action.perform_format, hformat', hsame, hverdict]
  · exact hasks.quiet (hquiet.trans ((Quiet.event rfl _).trans (Quiet.event rfl _)))

/-- Partners that serve the same catalogue as `servingOne`, but no drawing. -/
def servingNoDrawing : Partners where
  fetch journal url :=
    if url = (Settings.preset .legacy ⟨"/"⟩).catalogueUrl then servingOne.fetch journal url
    else .error (.tool "fetcher" "offline")
  translate := servingOne.translate
  format := servingOne.format
  patience := 0

/-- What was generated from `servingOne` is generated again from them. -/
theorem run_repeats_offline : ∃ report after later,
    (run (Settings.preset .legacy ⟨"/"⟩) servingOne).perform coloredSite = (.ok report, after) ∧
      (run (Settings.preset .legacy ⟨"/"⟩) servingNoDrawing).perform after = (.ok report, later) ∧
      later.disk = after.disk ∧
      AsksOnce catalogueAddress after.journal later.journal := by
  obtain ⟨report, after, h⟩ := run_served_one
  have htranslate : ∀ j markup, servingOne.translate j markup =
      (fun _ => .ok "svg [] []" : String → Except Failure String) markup := fun _ _ => rfl
  have hformat : ∀ j p d, servingOne.format j p d =
      ((fun _ _ => .ok () : Path → Disk → Except Failure Unit) p d, d) := fun _ _ _ => rfl
  obtain ⟨later, hlater, hsame, hasks⟩ := run_repeats (Settings.standard_preset _ _) rfl
    (Tree.plain_of_entries (by decide)) (Tree.named_of_entries (by decide))
    (settled_of_absolute (by decide) _) htranslate
    (show ∀ j markup, servingNoDrawing.translate j markup = _ from htranslate)
    hformat (show ∀ j p d, servingNoDrawing.format j p d = _ from hformat)
    (fun _ hserved => ⟨(orderly_one hserved).toAdmissible, fun family hfamily m hm =>
      ((orderly_one hserved).manual family hfamily m hm).2⟩) h
    (show after.disk = after.disk from rfl)
    (fun raw hraw => by simpa [servingNoDrawing, servingOne] using hraw)
  exact ⟨report, after, later, h, hlater, hsame, hasks⟩

end IconModules.Generation
