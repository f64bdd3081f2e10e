import IconModules.Proofs.Generation.CompletedRuns
import Mathlib.Data.List.Dedup
import Mathlib.Data.List.Forall2

/-! # Families that share a module

The name of a family loses its spaces on the way to a module, so two families may have the same one: their modules
are then written one behind the other into one file. A run installs one file for each module
(`run_shares_modules`); there is one module per family just when no two families share one. -/

namespace IconModules.Generation

open Assembly (moduleText)
open Disk (Extends)
open Installation (Good Installed)

variable {s : Settings} {partners : Partners} {f : Finish} {family : String} {catalogue : Catalogue}
  {families : List String} {site after : Site} {home l : Location}

/-- A text that is the module of a family, with some code for each of its icons. -/
def IsModule (s : Settings) (catalogue : Catalogue) (family text : String) : Prop :=
  ∃ definitions : List (Icon × String), definitions.map Prod.fst = catalogue.supported family ∧
    text = moduleText s family catalogue (Category.ofIcons catalogue.icons) definitions

/-- The families whose module is stored at a place. -/
def sharing (s : Settings) (d : Disk) (families : List String) (l : Location) : List String :=
  families.filter fun family => d.place (s.moduleFile family) = l

section

variable (hs : s.Standard) (hi : ∀ i ∈ catalogue.icons, '/' ∉ i.name.toList)
include hs hi

/-- Modules are written one after the other, those of one file behind each other. -/
theorem writeModules_shared (hf : ∀ family ∈ families, FamilyName family) (hd : Sound s home site.disk)
    {reports : List ModuleReport}
    (h : (writeModules s partners f catalogue (Category.ofIcons catalogue.icons) families).perform
      site = (.ok reports, after)) :
    Sound s home after.disk ∧
      Filled s (families.map fun family => site.disk.place (s.moduleFile family)) site.disk after.disk ∧
      (∀ family ∈ families, after.disk.fileAt (site.disk.place (s.moduleFile family)) ≠ none) ∧
      ∀ l, ¬ site.disk.place s.iconsFolder <+: l → ∃ texts,
        List.Forall₂ (IsModule s catalogue) (sharing s site.disk families l) texts ∧
        (after.disk.fileAt l).getD [] = (site.disk.fileAt l).getD [] ++ Text.encode (String.join texts) := by
  induction families generalizing site reports with
  | nil =>
    obtain ⟨rfl, rfl⟩ := Action.perform_pure_ok h
    exact ⟨hd, .refl _, by simp, fun l _ => ⟨[], .nil, by simp [Assembly.encode_empty]⟩⟩
  | cons family rest ih =>
    obtain ⟨report, written, reports', hwrite, hrest, rfl⟩ := writeModules_cons_iff.1 h
    have hfamily := hf family List.mem_cons_self
    obtain ⟨-, hsound, hfilled, definitions, hmap, -, hfile⟩ := writeModule_filled hs hfamily hi hd hwrite
    have hplace : ∀ p, written.disk.place p = site.disk.place p :=
      Disk.place_of_home hfilled.grown.home
    obtain ⟨hsound', hfilled', hthere, htexts⟩ := ih
      (fun family' hm => hf family' (List.mem_cons_of_mem _ hm)) (by exact hsound) hrest
    simp only [hplace] at hfilled' hthere htexts
    refine ⟨hsound', ?_, ?_, fun l hl => ?_⟩
    · rw [List.map_cons]
      exact (hfilled.mono (by simp)).trans (hfilled'.mono (List.subset_cons_self _ _))
    · refine List.forall_mem_cons.2 ⟨?_, hthere⟩
      by_cases hm : site.disk.place (s.moduleFile family) ∈
          rest.map fun family' => site.disk.place (s.moduleFile family')
      · obtain ⟨family', hm, he⟩ := List.mem_map.1 hm
        rw [← he]
        exact hthere family' hm
      · rw [hfilled'.files _ hm (by rw [hplace]; exact module_apart hs hfamily _), hfile]
        simp
    · obtain ⟨texts, hmodules, hcontent⟩ := htexts l hl
      have hsharing : sharing s written.disk rest l = sharing s site.disk rest l := by
        simp only [sharing, hplace]
      rw [hsharing] at hmodules
      by_cases he : site.disk.place (s.moduleFile family) = l
      · refine ⟨moduleText s family catalogue (Category.ofIcons catalogue.icons) definitions :: texts, ?_, ?_⟩
        · rw [sharing, List.filter_cons_of_pos (by simpa using he)]
          exact .cons ⟨definitions, hmap, rfl⟩ hmodules
        · rw [hcontent, ← he, hfile, Option.getD_some, Assembly.encode_join_cons, List.append_assoc]
      · refine ⟨texts, ?_, ?_⟩
        · rw [sharing, List.filter_cons_of_neg (by simpa using he)]
          exact hmodules
        · rw [hcontent, hfilled.files l (by simpa using Ne.symm he) hl]

end

/-- The output holds a file for each module, with the modules of the families that share it. -/
structure Stacked (s : Settings) (catalogue : Catalogue) (d d' : Disk) : Prop where
  sound : Sound s d.home d'
  accepted : Disk.acceptPath s.iconsFolder = .ok ()
  generated : ∀ q, d'.fileAt (d.place s.outFolder ++ q) ≠ none ↔ q ∈ catalogue.families.map s.modulePlace
  modules : ∀ family ∈ catalogue.families, ∃ texts, List.Forall₂ (IsModule s catalogue)
      (catalogue.families.filter (s.modulePlace · = s.modulePlace family)) texts ∧
    d'.fileAt (d.place s.outFolder ++ s.modulePlace family) = some (Text.encode (String.join texts))

theorem writeAll_stacked (hs : s.Standard) (hg : Good site.disk)
    (hc : ∀ catalogue, Served s partners site catalogue → Admissible catalogue)
    {reports : List ModuleReport} (h : (writeAll s partners).perform site = (.ok reports, after)) :
    ∃ catalogue, Served s partners site catalogue ∧ Stacked s catalogue site.disk after.disk := by
  obtain ⟨catalogue, f, loaded, hserved, -, hloaded, hwrite⟩ := writeAll_loaded hs hg h
  have hadmissible := hc catalogue hserved
  have hplace : ∀ p, loaded.disk.place p = site.disk.place p := Disk.place_of_home hloaded.sound.home
  have hmodulePlace : ∀ family ∈ catalogue.families, site.disk.place (s.moduleFile family) =
      site.disk.place s.outFolder ++ s.modulePlace family := fun family hm =>
    place_module hs (hadmissible.families family hm) site.disk
  obtain ⟨hsound, hfilled, hthere, htexts⟩ := writeModules_shared hs hadmissible.icons
    hadmissible.families hloaded.sound hwrite
  simp only [hplace] at hfilled hthere htexts
  have hgenerated : ∀ family ∈ catalogue.families,
      after.disk.fileAt (site.disk.place s.outFolder ++ s.modulePlace family) ≠ none := fun family hm => by
    rw [← hmodulePlace family hm]
    exact hthere family hm
  refine ⟨catalogue, hserved, hsound, hloaded.accepted, fun q => ⟨fun hne => ?_, fun hq => ?_⟩,
    fun family hm => ?_⟩
  · apply Classical.byContradiction
    intro hq
    refine hne ?_
    rw [hfilled.files _ ?_ (by rw [hplace]; exact not_icons_out s _ q), hloaded.empty]
    intro hmem
    obtain ⟨family, hm, he⟩ := List.mem_map.1 hmem
    rw [hmodulePlace family hm, List.append_cancel_left_eq] at he
    exact hq (he ▸ List.mem_map_of_mem hm)
  · obtain ⟨family, hm, rfl⟩ := List.mem_map.1 hq
    exact hgenerated family hm
  · obtain ⟨texts, hmodules, hcontent⟩ := htexts _ (not_icons_out s _ (s.modulePlace family))
    have hsharing : sharing s loaded.disk catalogue.families
        (site.disk.place s.outFolder ++ s.modulePlace family) =
        catalogue.families.filter (s.modulePlace · = s.modulePlace family) :=
      List.filter_congr fun family' hm' => by
        simp only [hplace, hmodulePlace family' hm', List.append_cancel_left_eq]
    rw [hsharing] at hmodules
    obtain ⟨c, hc⟩ := Option.ne_none_iff_exists'.1 (hgenerated family hm)
    rw [hloaded.empty, hc, Option.getD_some, Option.getD_none, List.nil_append] at hcontent
    exact ⟨texts, hmodules, by rw [hc, hcontent]⟩

section

variable {d d' e : Disk} {n : Nat} (hw : Stacked s catalogue d d') (hi : Installed s d' e n)
include hw hi

/-- Every module is installed once. -/
theorem count_of_stacked : n = (catalogue.families.map s.modulePlace).dedup.length := by
  obtain ⟨rels, hnd, rfl, hrels⟩ := hi.count
  rw [Disk.place_of_home hw.sound.home] at hrels
  refine ((List.perm_ext_iff_of_nodup hnd (List.nodup_dedup _)).2 fun q => ?_).length_eq
  rw [hrels, hw.generated, List.mem_dedup]

/-- The file of a module goes to its place among the sources. -/
theorem fileAt_stacked (hs : s.Standard) (hf : FamilyName family) (hm : family ∈ catalogue.families)
    (hmanual : ∀ m ∈ s.manualModules,
      s.modulePlace family ≠ [m] ∧ s.modulePlace family ≠ ["Material", "Icons", m]) :
    e.fileAt (d.place s.sourceFolder ++ s.modulePlace family) =
      d'.fileAt (d.place s.outFolder ++ s.modulePlace family) := by
  have hplace : ∀ p, d'.place p = d.place p := Disk.place_of_home hw.sound.home
  have hapart : ∀ m ∈ s.manualModules, ∀ front : List String, s.modulePlace family ≠ front ++ [m] →
      ¬ front ++ [m] <+: s.modulePlace family := by
    rintro m hmm front hne ⟨r, he⟩
    exact hs.modulePlace_ne hf (hs.manual m hmm).2.1 front hne r (by simp [← he])
  have hfile := fileAt_generated (q := s.modulePlace family) hs hw.accepted hi
    (by rw [hplace]; exact (hw.generated _).2 (List.mem_map_of_mem hm))
    (fun m hmm => hapart m hmm [] (hmanual m hmm).1)
    (fun m hmm => hapart m hmm ["Material", "Icons"] (hmanual m hmm).2)
  rwa [hplace, hplace] at hfile

end

/-- However many families share them, a run that ends well installs each module once, and its file holds the
modules of the families that share it, in their order. So the modules are one for each family just when no two
families share one. -/
theorem run_shares_modules (hs : s.Standard) (ht : site.disk.tree.Plain) (hn : site.disk.tree.Named)
    (hformat : ∀ j p d, (partners.format j p d).2 = d)
    (hc : ∀ catalogue, Served s partners site catalogue → Admissible catalogue)
    {report : RunReport} (h : (run s partners).perform site = (.ok report, after)) :
    ∃ catalogue, Served s partners site catalogue ∧
      report.installed = (catalogue.families.map s.modulePlace).dedup.length ∧
      (report.installed = catalogue.families.length ↔ (catalogue.families.map s.modulePlace).Nodup) ∧
      ∀ family ∈ catalogue.families,
        (∀ m ∈ s.manualModules,
          s.modulePlace family ≠ [m] ∧ s.modulePlace family ≠ ["Material", "Icons", m]) →
        ∃ texts, List.Forall₂ (IsModule s catalogue)
            (catalogue.families.filter (s.modulePlace · = s.modulePlace family)) texts ∧
          after.disk.fileAt (site.disk.place s.sourceFolder ++ s.modulePlace family) =
            some (Text.encode (String.join texts)) := by
  obtain ⟨writtenSite, installedSite, hwrite, hinstall, hformatted⟩ := run_iff.1 h
  obtain ⟨catalogue, hserved, hw⟩ := writeAll_stacked hs ⟨ht, hn⟩ hc hwrite
  have hi := Installation.install_ok hs ⟨hw.sound.plain, hw.sound.named⟩ hinstall
  have hdisk : after.disk = installedSite.disk := by
    rw [Action.perform_format] at hformatted
    obtain ⟨-, rfl⟩ := Prod.mk.inj hformatted
    exact hformat _ _ _
  have hcount := count_of_stacked hw hi
  refine ⟨catalogue, hserved, hcount, ⟨fun hlength => ?_, fun hnodup => ?_⟩, fun family hm hmanual => ?_⟩
  · rw [← List.dedup_eq_self]
    refine (List.dedup_sublist _).eq_of_length ?_
    rw [← hcount, List.length_map]
    exact hlength
  · rw [hcount, hnodup.dedup, List.length_map]
  · obtain ⟨texts, hmodules, hfile⟩ := hw.modules family hm
    refine ⟨texts, hmodules, ?_⟩
    rw [hdisk, fileAt_stacked hw hi hs ((hc catalogue hserved).families family hm) hm hmanual, hfile]

/-- Partners that serve a catalogue of two families that share a module, without icons. -/
def servingTwo : Partners where
  fetch _ url := .ok (Text.encode
    (if url = (Settings.preset .legacy ⟨"/"⟩).catalogueUrl then
      "[[],[\"A B C\",\"A BC\"]]"
    else "<svg></svg>"))
  translate _ _ := .ok "svg [] []"
  format _ _ d := (.ok (), d)
  patience := 0

theorem served_two {site : Site}
    (h : Served (Settings.preset .legacy ⟨"/"⟩) servingTwo site catalogue) :
    catalogue = ⟨[], ["A B C", "A BC"]⟩ := by
  obtain ⟨raw, hraw, hread⟩ := h
  rw [← Except.ok.inj hraw, if_pos rfl] at hread
  have hparsed : (Catalogue.read (Text.encode "[[],[\"A B C\",\"A BC\"]]")).toOption =
      some ⟨[], ["A B C", "A BC"]⟩ := by
    decide
  rw [hread] at hparsed
  exact Option.some.inj hparsed

theorem admissible_two {site : Site}
    (h : Served (Settings.preset .legacy ⟨"/"⟩) servingTwo site catalogue) : Admissible catalogue := by
  rw [served_two h]
  refine ⟨fun family hm => ?_, fun i hi => absurd hi List.not_mem_nil⟩
  simp only [List.mem_cons, List.not_mem_nil, or_false] at hm
  rcases hm with rfl | rfl <;> exact ⟨by decide, by decide, by decide⟩

/-- A project with sources at the root of the file system. -/
def sourceSite : Site where
  disk := ⟨(Tree.single .folder).graft ["src"] (.single .folder), []⟩
  journal := []

theorem report_two : ((run (Settings.preset .legacy ⟨"/"⟩) servingTwo).perform sourceSite).1.toOption.map
    (fun report => (report.families.map (·.family), report.installed)) = some (["A B C", "A BC"], 1) := by
  decide +kernel

/-- Both families of `servingTwo` are installed as one module. -/
theorem run_shares_modules_two : ∃ report after,
    (run (Settings.preset .legacy ⟨"/"⟩) servingTwo).perform sourceSite = (.ok report, after) ∧
      report.installed = 1 ∧ ∃ texts : List String, texts.length = 2 ∧
        after.disk.fileAt ["src", "A", "BC.elm"] = some (Text.encode (String.join texts)) := by
  have hreport := report_two
  rcases h : (run (Settings.preset .legacy ⟨"/"⟩) servingTwo).perform sourceSite with
    ⟨failure | report, after⟩
  · rw [h] at hreport
    cases hreport
  · obtain ⟨catalogue, hserved, hcount, -, hmodules⟩ := run_shares_modules (Settings.standard_preset _ _)
      (Tree.plain_of_entries (by decide)) (Tree.named_of_entries (by decide))
      (fun _ _ _ => rfl) (fun _ => admissible_two) h
    obtain rfl := served_two hserved
    obtain ⟨texts, hshared, hfile⟩ := hmodules "A BC" (by simp) (by decide)
    refine ⟨report, after, rfl, ?_, texts, ?_, hfile⟩
    · rw [hcount]
      decide +kernel
    · rw [← hshared.length_eq]
      decide +kernel

/-- Two families whose names differ by a space are written into one file, and one module is installed. -/
theorem run_merges_modules :
    FamilyName "A B C" ∧ FamilyName "A BC" ∧ "A B C" ≠ "A BC" ∧
      (Settings.preset .legacy ⟨"/"⟩).moduleFile "A B C" =
        (Settings.preset .legacy ⟨"/"⟩).moduleFile "A BC" ∧
      ((run (Settings.preset .legacy ⟨"/"⟩) servingTwo).perform sourceSite).1.toOption.map
        (fun report => (report.families.map (·.family), report.installed)) =
          some (["A B C", "A BC"], 1) := by
  refine ⟨⟨by decide, by decide, by decide⟩, ⟨by decide, by decide, by decide⟩, by decide, ?_, report_two⟩
  decide +kernel

end IconModules.Generation
