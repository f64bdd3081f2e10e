import IconModules.Proofs.Generation.Independence
import IconModules.Proofs.Generation.InstallingAlike
import IconModules.Proofs.Generation.ReadyAgain
import IconModules.Proofs.Generation.Requests
import IconModules.Proofs.Generation.SharedModules

/-! # Runs with the families in another order

The order in which a catalogue lists its families does not matter: a run that is served them in another order ends
well if the first one did, installs the same and leaves the same files, apart from the copy of the catalogue
(`run_reorders`).

The copy is all in which the disks differ when the modules begin to be written (`opening_alike`); from there on
the two runs leave disks that are alike, whatever the order. -/

namespace IconModules.Generation

open IconModules.Action (Replays)
open Disk (Alike Walked)
open Installation (GoodAt)

variable {s : Settings} {e : Edition} {root : Path} {partners partners' : Partners} {family : String}
  {catalogue catalogue' : Catalogue} {families' : List String} {home : Location} {d : Disk}
  {site after again : Site} {reply reply' : String → Except Failure Octets} {raw raw' : Octets}
  {translation : String → Except Failure String} {verdict : Path → Disk → Except Failure Unit}
  {patience : Nat}

/-! ### Partners -/

/-- Partners that always give the same answers, with a formatter that leaves all files as they are. -/
structure Constant (reply : String → Except Failure Octets) (translation : String → Except Failure String)
    (verdict : Path → Disk → Except Failure Unit) (patience : Nat) (partners : Partners) : Prop where
  fetch : ∀ j url, partners.fetch j url = reply url
  translate : ∀ j markup, partners.translate j markup = translation markup
  format : ∀ j p d, partners.format j p d = (verdict p d, d)
  patience : partners.patience = patience

/-- What a formatter says of the sources does not depend on what the copy of the catalogue holds. -/
def IgnoresCatalogue (s : Settings) (verdict : Path → Disk → Except Failure Unit) : Prop :=
  ∀ d e, Alike (d.place s.catalogueFile) d e → verdict s.sourceFolder e = verdict s.sourceFolder d

/-- Partners that answer the addresses of drawings like others give the same answers to a run. -/
theorem Constant.answering (hs : s = Settings.preset e root)
    (h : Constant reply' translation verdict patience partners)
    (hreply : ∀ url, url ≠ s.catalogueUrl → reply' url = reply url) :
    Answering s reply translation patience partners := by
  refine ⟨fun j family name version => ?_, h.translate, h.patience⟩
  rw [h.fetch, hreply]
  rw [hs]
  exact drawingUrl_ne_catalogue e root family name version

/-- Partners that always give the same answers serve one catalogue only. -/
theorem Constant.served_unique (h : Constant reply translation verdict patience partners)
    (hserved : Served s partners site catalogue) (hserved' : Served s partners again catalogue') :
    catalogue = catalogue' := by
  obtain ⟨raw, hraw, hread⟩ := hserved
  obtain ⟨raw', hraw', hread'⟩ := hserved'
  rw [h.fetch] at hraw hraw'
  obtain rfl := Except.ok.inj (hraw.symm.trans hraw')
  exact Except.ok.inj (hread.symm.trans hread')

/-! ### Before the modules are written -/

theorem replays_makeReady_same :
    Replays false (fun _ => True) (fun _ => True) Eq (makeReady s) (makeReady s) := by
  have hrest : Replays false (fun _ => True) (fun _ => True) Eq
      (do
        Action.makeFolders s.iconsFolder
        Action.clearIfPresent s.outFolder
        Action.makeFolders s.outFolder)
      (do
        Action.makeFolders s.iconsFolder
        Action.clearIfPresent s.outFolder
        Action.makeFolders s.outFolder) :=
    (Replays.carryOut_same _ _).bind fun _ => Replays.clearIfPresent_same.bind fun _ =>
      Replays.carryOut_same _ _
  unfold makeReady
  split
  · exact Replays.clearIfPresent_same.bind fun _ => hrest
  · exact hrest

/-- Where the copy of the catalogue could be stored, the way to the root leads through folders. -/
theorem grounded_of_loadCatalogue (hd : Sound s home site.disk)
    (h : (loadCatalogue s partners).perform site = (.ok catalogue, after)) :
    Grounded s home after.disk := by
  have hsound := (loadCatalogue_ok hd h).2.sound hd
  obtain ⟨raw, -, -, hput, -⟩ := loadCatalogue_exact hd.plain h
  refine ⟨hsound, Disk.walked_of_openRoot hsound.way ?_⟩
  have hfile := hput.get? (site.disk.place s.catalogueFile)
  rw [if_pos rfl, Disk.place_along s.catalogueFile_under.toAlong,
    ← Disk.place_of_home (hsound.home.trans hd.home.symm)] at hfile
  exact Tree.get?_of_append_cons hfile

/-- Another catalogue that is served can be stored and read as well, and its copy is all that differs. -/
theorem loadCatalogue_alike (ht : site.disk.tree.Plain) (hsame : again.disk = site.disk)
    (h : (loadCatalogue s partners).perform site = (.ok catalogue, after))
    (hserved : Served s partners' again catalogue') :
    ∃ later, (loadCatalogue s partners').perform again = (.ok catalogue', later) ∧
      Alike (site.disk.place s.catalogueFile) after.disk later.disk := by
  obtain ⟨raw, d, -, -, hwrite, rfl⟩ := loadCatalogue_iff.1 h
  obtain ⟨raw', hfetch', hread'⟩ := hserved
  obtain ⟨e, hwrite', ha⟩ := Alike.of_write ht hwrite raw'
  exact ⟨_, loadCatalogue_iff.2 ⟨raw', e, hfetch', hread', by rw [hsame, hwrite'], rfl⟩, ha⟩

/-- The copy of the catalogue is no file of a family. -/
theorem not_isPlaceOf_catalogue (hs : s.Standard) (hf : FamilyName family)
    (hicons : ∀ i ∈ catalogue.icons, '/' ∉ i.name.toList) (hd : d.home = home) :
    ¬ IsPlaceOf s home catalogue family (d.place s.catalogueFile) := by
  rintro ⟨p, hp, hk⟩
  have he := hk d hd
  rcases hp with hp | ⟨i, hi, hp⟩ <;> rw [hp] at he
  · refine Installation.not_prefix_catalogue_out (hs.moduleFile_under hf).toAlong d ⟨[], ?_⟩
    rw [List.append_nil, he]
  · have hbelow := entry_below (s := s) hf (hicons i (List.mem_filter.1 hi).1) d
    rw [he] at hbelow
    exact catalogue_apart s d hbelow

/-- Modules are written from the icons of a catalogue only. -/
theorem writeModules_of_icons {f : Finish} {categories : List Category} (families : List String) :
    writeModules s partners f ⟨catalogue.icons, families'⟩ categories families =
      writeModules s partners f catalogue categories families := by
  induction families with
  | nil => rfl
  | cons family rest ih =>
    unfold writeModules
    rw [ih]
    rfl

/-- Modules with different paths are in different places. -/
theorem nodup_modulePlace {families : List String} (h : (families.map s.moduleFile).Nodup) :
    (families.map s.modulePlace).Nodup := by
  have hfile : s.moduleFile = (fun parts => s.outFolder.under ("/".intercalate parts)) ∘ s.modulePlace := by
    funext family
    rw [Function.comp_apply, Settings.modulePlace, Path.intercalate_parts]
    rfl
  rw [hfile, ← List.map_map] at h
  exact List.Nodup.of_map _ h

/-! ### Whole runs -/

/-- The modules of all families are written in the other order, and the disks are alike. -/
theorem writeAll_alike (hs : s = Settings.preset e root) (ht : site.disk.tree.Plain) (hn : site.disk.tree.Named)
    (hp : Constant reply translation verdict patience partners)
    (hp' : Constant reply' translation verdict patience partners')
    (hreply : ∀ url, url ≠ s.catalogueUrl → reply' url = reply url) (hc : Admissible catalogue)
    (hnodup : (catalogue.families.map s.moduleFile).Nodup) (hperm : catalogue.families.Perm families')
    (hserved : Served s partners site catalogue)
    (hserved' : Served s partners' again ⟨catalogue.icons, families'⟩) (hagain : again.disk = site.disk)
    {reports : List ModuleReport}
    (h : (writeAll s partners).perform site = (.ok reports, after)) :
    Grounded s site.disk.home after.disk ∧
      ∃ reports' later, (writeAll s partners').perform again = (.ok reports', later) ∧
        reports.Perm reports' ∧ reports'.map (·.family) = families' ∧
        Alike (site.disk.place s.catalogueFile) after.disk later.disk := by
  have hstd : s.Standard := hs ▸ Settings.standard_preset e root
  obtain ⟨ready, loaded, served, f, hready, hload, hfinish, hwrite⟩ := writeAll_iff.1 h
  have hr := makeReady_ok hstd ⟨ht, hn⟩ hready
  obtain rfl := hp.served_unique hserved (loadCatalogue_ok hr.sound hload).1
  have hloaded := grounded_of_loadCatalogue hr.sound hload
  -- the folders and the catalogue
  obtain ⟨ready', hready', hsame, -⟩ := ((replays_makeReady_same site ready () trivial hready).2
    trivial).2 again hagain.symm
  have hjournal := journal_makeReady s again
  rw [hready'] at hjournal
  have hserved'' : Served s partners' ready' ⟨catalogue.icons, families'⟩ := by
    unfold Served at hserved' ⊢
    rwa [show ready'.journal = again.journal from hjournal]
  obtain ⟨loaded', hload', halike⟩ := loadCatalogue_alike hr.sound.plain hsame.symm hload hserved''
  rw [Disk.place_of_home hr.sound.home] at halike
  -- the modules
  let noted' : Site := ⟨loaded'.disk, loaded'.journal ++ [.noted (.catalogueLoaded
    catalogue.icons.length families'.length (Category.ofIcons catalogue.icons).length)]⟩
  have hnoted : Alike (site.disk.place s.catalogueFile) loaded.disk noted'.disk := halike
  obtain ⟨reports', later, hwrite', hreports, hlater⟩ := writeModules_perm hstd hc.icons
    (hp.answering hs fun _ _ => rfl) (hp'.answering hs hreply) hperm hc.families (nodup_modulePlace hnodup)
    (fun family hm => not_isPlaceOf_catalogue hstd (hc.families family hm) hc.icons rfl)
    (by exact hloaded) (by exact hnoted) hwrite
  obtain ⟨-, hafter⟩ := grounded_of_writeModules hstd hc.icons hc.families (by exact hloaded) hwrite
  obtain ⟨hreports', -⟩ := grounded_of_writeModules hstd hc.icons
    (fun family hm => hc.families family (hperm.mem_iff.2 hm)) (by exact hloaded.alike halike) hwrite'
  refine ⟨hafter, reports', later, ?_, hreports, ?_, hlater⟩
  · refine writeAll_iff.2 ⟨ready', loaded', _, f, hready', hload', hfinish, ?_⟩
    rw [writeModules_of_icons]
    exact hwrite'
  · rw [hreports', List.map_map]
    exact List.map_id _

/-- A run that is served the families in another order ends well if the first one did. It installs as much, reports
the same of each family in the new order, and leaves the same sources and the same drawings. -/
theorem run_reorders (hs : s = Settings.preset e root) (ht : site.disk.tree.Plain) (hn : site.disk.tree.Named)
    (hp : Constant reply translation verdict patience partners)
    (hp' : Constant reply' translation verdict patience partners')
    (hreply : ∀ url, url ≠ s.catalogueUrl → reply' url = reply url) (hc : Admissible catalogue)
    (hnodup : (catalogue.families.map s.moduleFile).Nodup) (hperm : catalogue.families.Perm families')
    (hserved : Served s partners site catalogue)
    (hserved' : Served s partners' again ⟨catalogue.icons, families'⟩) (hagain : again.disk = site.disk)
    (hverdict : IgnoresCatalogue s verdict) {report : RunReport}
    (h : (run s partners).perform site = (.ok report, after)) :
    ∃ report' later, (run s partners').perform again = (.ok report', later) ∧
      report'.installed = report.installed ∧ report.families.Perm report'.families ∧
      report'.families.map (·.family) = families' ∧
      (∀ q, later.disk.tree.get? (site.disk.place s.sourceFolder ++ q) =
        after.disk.tree.get? (site.disk.place s.sourceFolder ++ q)) ∧
      ∀ q, later.disk.tree.get? (site.disk.place s.iconsFolder ++ q) =
        after.disk.tree.get? (site.disk.place s.iconsFolder ++ q) := by
  obtain ⟨written, installed, hwrite, hinstall, hformat⟩ := run_iff.1 h
  obtain ⟨hg, reports', written', hwrite', hreports, hnames, hwritten⟩ := writeAll_alike hs ht hn hp hp'
    hreply hc hnodup hperm hserved hserved' hagain hwrite
  obtain ⟨hgood, hreplay⟩ := Installation.replays_install_alike (fun d hd => Disk.place_of_home hd _)
    (hs ▸ Settings.standard_preset e root) written installed report.installed
    ⟨⟨hg.plain, hg.named⟩, hg.home⟩ hinstall
  obtain ⟨installed', hinstall', hinstalled, -⟩ := (hreplay trivial).2 written' hwritten
  rw [Action.perform_format, hp.format] at hformat
  obtain ⟨hok, rfl⟩ := Prod.mk.inj hformat
  have hignored : Alike (installed.disk.place s.catalogueFile) installed.disk installed'.disk := by
    rw [Disk.place_of_home (hgood.home : installed.disk.home = site.disk.home)]
    exact hinstalled
  have hok' : verdict s.sourceFolder installed'.disk = .ok () := (hverdict _ _ hignored).trans hok
  have hsame : ∀ {p names}, Path.Along s.root names p →
      ¬ names <+: ["gen", "tmp", "sot", "icons.json"] → ∀ q,
        installed'.disk.tree.get? (site.disk.place p ++ q) =
          installed.disk.tree.get? (site.disk.place p ++ q) := by
    intro p names hp hnames q
    refine hinstalled.same fun he => Installation.not_prefix_catalogue hp hnames site.disk ?_
    rw [← he]
    exact List.prefix_append _ _
  let later : Site := ⟨installed'.disk, installed'.journal ++ [.noted (.formatting s.sourceFolder)] ++
    [.formatted s.sourceFolder]⟩
  refine ⟨⟨reports', report.installed⟩, later,
    run_iff.2 ⟨written', installed', hwrite', hinstall', ?_⟩, rfl, hreports, hnames,
    hsame s.sourceFolder_under.toAlong (by simp), hsame s.iconsFolder_under.toAlong (by simp)⟩
  rw [Action.perform_format, hp'.format, hok']

/-- The text of a catalogue with one icon that is drawn for all families. -/
def catalogueText (families : String) : String :=
  "[[[\"search\",1,[\"action\"],[]]],[" ++ families ++ "]]"

/-- What is served at an address when the catalogue lists the given families. -/
def servedText (families url : String) : String :=
  if url = catalogueAddress then catalogueText families else "<svg></svg>"

theorem servedText_of_ne {url : String} (h : url ≠ catalogueAddress) (families : String) :
    servedText families url = "<svg></svg>" :=
  if_neg h

/-- Partners that serve such a catalogue and answer all else. -/
def servingFamilies (families : String) : Partners where
  fetch _ url := .ok (Text.encode (servedText families url))
  translate _ _ := .ok "svg [] []"
  format _ _ d := (.ok (), d)
  patience := 0

theorem constant_servingFamilies (families : String) :
    Constant (fun url => .ok (Text.encode (servedText families url))) (fun _ => .ok "svg [] []")
      (fun _ _ => .ok ()) 0 (servingFamilies families) :=
  ⟨fun _ _ => rfl, fun _ _ => rfl, fun _ _ _ => rfl, rfl⟩

theorem served_servingFamilies {families : String} (site : Site)
    (h : (Catalogue.read (Text.encode (catalogueText families))).toOption = some catalogue) :
    Served (Settings.preset .legacy ⟨"/"⟩) (servingFamilies families) site catalogue :=
  ⟨Text.encode (catalogueText families), rfl, ok_of_toOption h⟩

/-- Two families are served in both orders, and the reports come in the order of the second run. -/
theorem run_reorders_two : ∃ report report' after later,
    (run (Settings.preset .legacy ⟨"/"⟩) (servingFamilies "\"A\",\"B\"")).perform sourceSite =
        (.ok report, after) ∧
      (run (Settings.preset .legacy ⟨"/"⟩) (servingFamilies "\"B\",\"A\"")).perform sourceSite =
        (.ok report', later) ∧
      report'.installed = report.installed ∧ report.families.Perm report'.families ∧
      report'.families.map (·.family) = ["B", "A"] ∧
      later.disk.tree.get? ["src", "A.elm"] = after.disk.tree.get? ["src", "A.elm"] := by
  have hok : ((run (Settings.preset .legacy ⟨"/"⟩) (servingFamilies "\"A\",\"B\"")).perform
      sourceSite).1.isOk = true := by
    decide +kernel
  obtain ⟨report, after, h⟩ := Action.exists_of_isOk hok
  have hserved : Served (Settings.preset .legacy ⟨"/"⟩) (servingFamilies "\"A\",\"B\"") sourceSite
      ⟨[⟨"search", 1, ["action"], []⟩], ["A", "B"]⟩ :=
    served_servingFamilies sourceSite (by decide)
  have hserved' : Served (Settings.preset .legacy ⟨"/"⟩) (servingFamilies "\"B\",\"A\"") sourceSite
      ⟨[⟨"search", 1, ["action"], []⟩], ["B", "A"]⟩ :=
    served_servingFamilies sourceSite (by decide)
  have hadmissible : Admissible ⟨[⟨"search", 1, ["action"], []⟩], ["A", "B"]⟩ := by
    refine ⟨fun family hm => ?_, fun i hi => ?_⟩
    · simp only [List.mem_cons, List.not_mem_nil, or_false] at hm
      rcases hm with rfl | rfl <;> exact ⟨by decide, by decide, by decide⟩
    · rw [List.mem_singleton.1 hi]
      decide
  obtain ⟨report', later, hlater, hinstalled, hreports, hnames, hsources, -⟩ := run_reorders rfl
    (Tree.plain_of_entries (by decide)) (Tree.named_of_entries (by decide))
    (constant_servingFamilies _) (constant_servingFamilies _)
    (fun url hurl => by rw [servedText_of_ne hurl, servedText_of_ne hurl]) hadmissible
    (by decide) (List.Perm.swap _ _ _) hserved hserved' rfl (fun _ _ _ => rfl) h
  exact ⟨report, report', after, later, h, hlater, hinstalled, hreports, hnames, hsources ["A.elm"]⟩

end IconModules.Generation
