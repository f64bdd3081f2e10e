import IconModules.Proofs.Files.Passable
import IconModules.Proofs.Generation.Assembled
import IconModules.Proofs.Generation.CompletedRuns
import IconModules.Proofs.Generation.Confined

/-! # Modules in the output folder

The module of a family lies below the folder of all modules just if the name of the family does not begin
with a space (`place_moduleFile_iff`): a space in front becomes the slash of a path from the root, which takes
the place of the folder that it is joined to. For all other families, writing the module changes nothing
outside `gen`, and the installation moves it. -/

namespace IconModules

open Disk (Confined)

namespace Settings

variable {s : Settings} {family : String}

/-- Where a module stands whose family has a name that begins with a space. -/
theorem Standard.moduleFile_of_lead (hs : s.Standard) (hslash : '/' ∉ family.toList)
    (hlead : family.toList.head? = some ' ') :
    (s.moduleFile family).isAbsolute = true ∧ ∃ folders file,
      (s.moduleFile family).parts = folders ++ [file] ∧ IsName file ∧
      ∀ part ∈ folders, part = "" ∨ part.toList.getLast? = some 'l' := by
  obtain ⟨habsolute, hparts⟩ := Naming.moduleFile_of_lead hslash hlead
  obtain ⟨stem, hstem, hlast⟩ := Naming.getLast?_parts_moduleFile family "Material Icons"
  have hpath : s.moduleFile family = ⟨Naming.moduleFile family "Material Icons" "elm"⟩ := by
    rw [moduleFile, hs.familyLead, hs.extension, Path.under, Path.join, if_pos habsolute]
  obtain ⟨folders, hfolders⟩ := List.getLast?_eq_some_iff.1 hlast
  rw [hfolders, List.dropLast_concat] at hparts
  rw [hpath]
  exact ⟨habsolute, folders, _, hfolders, Naming.isName_ending hstem, hparts⟩

/-- A family has its module below the folder of all modules just if its name does not begin with a
space. -/
theorem Standard.place_moduleFile_iff (hs : s.Standard) (hslash : '/' ∉ family.toList)
    (hdot : '.' ∉ family.toList) (d : Disk) :
    (∃ n rest, d.place (s.moduleFile family) = d.place s.outFolder ++ n :: rest) ↔
      family.toList.head? ≠ some ' ' := by
  constructor
  · rintro ⟨n, rest, hplace⟩ hlead
    obtain ⟨habsolute, folders, file, hparts, hfile, hfolders⟩ := hs.moduleFile_of_lead hslash hlead
    have hmodule : d.place (s.moduleFile family) =
        Path.walk [] (Path.movesOf folders) ++ [file] := by
      have hlast : Path.movesOf [file] = [file].map .into := Path.movesOf_map_isName (by simpa using hfile)
      rw [Disk.place, Disk.start, if_pos habsolute, Path.moves, hparts, Path.movesOf_append, hlast]
      exact Path.walk_append _ _ _
    -- the folder `gen` would have to be among those that lead to the module
    have hgen : "gen" ∈ Path.walk [] (Path.movesOf folders) := by
      rw [hmodule, Disk.place_along s.outFolder_under.toAlong] at hplace
      have hfront := congrArg List.dropLast hplace
      rw [List.dropLast_concat, List.dropLast_append_of_ne_nil (by simp)] at hfront
      simp [hfront]
    have hmem := Path.mem_of_into_mem_movesOf ((Path.mem_walk hgen).resolve_left (by simp))
    exact absurd (hfolders "gen" hmem) (by decide)
  · intro hlead
    have hf : FamilyName family := ⟨hslash, hdot, hlead⟩
    obtain ⟨folders, file, hway, -⟩ := hs.modulePlace_eq hf
    rw [Generation.place_module hs hf, hway]
    cases folders with
    | nil => exact ⟨file, [], rfl⟩
    | cons n rest => exact ⟨n, rest ++ [file], rfl⟩

end Settings

namespace Generation

open Installation (Good install)

variable {s : Settings} {partners : Partners} {f : Finish} {family : String} {catalogue : Catalogue}
  {site after : Site} {n : Nat}

/-- Writing the module of a family changes nothing outside `gen`, but for folders on the way to the root,
whatever the partners answer and wherever it fails. -/
theorem writeModule_within_gen (hs : s.Standard) (hf : FamilyName family)
    (hicons : ∀ i ∈ catalogue.icons, '/' ∉ i.name.toList) (ht : site.disk.tree.Plain)
    (categories : List Category) :
    Confined (fun k => site.disk.place s.root ++ ["gen"] <+: k) (site.disk.OnWay s.root) site.disk
      ((Assembly.writeModule s partners f family catalogue categories).perform site).2.disk := by
  refine confined_writeModule categories (fun p hp => ?_) (fun p hp k hk => ?_) site (.refl ht)
  · obtain ⟨folders, file, hunder, -⟩ := hp.under hs hf hicons
    rw [Disk.place_along hunder.toAlong]
    exact ⟨folders ++ [file], by simp⟩
  · obtain ⟨folders, file, hunder, -⟩ := hp.under hs hf hicons
    obtain ⟨above, habove, hway⟩ := hk
    have hroad : site.disk.OnRoad s.root (["gen"] ++ (folders ++ [file])) k :=
      (Disk.onWay_along_iff hunder.toAlong).1 (Disk.onWay_of_parent? habove hway)
    rcases hroad.cases with hroot | hgen
    · rcases hroot with hroot | ⟨more, hmore, rfl⟩
      · exact .inr hroot
      · rcases List.prefix_cons_iff.1 hmore with rfl | ⟨t, rfl, ht⟩
        · rw [List.append_nil]
          exact .inr (site.disk.onWay_place s.root)
        · rw [List.prefix_nil.1 ht]
          exact .inl (List.prefix_refl _)
    · exact .inl hgen

/-- The installation moves a module from its place in the output to the same place among the sources, unless
one written by hand has that place or is parked there. -/
theorem install_moves_module (hs : s.Standard) (hf : FamilyName family) (hg : Good site.disk)
    (hmanual : ∀ m ∈ s.manualModules, s.modulePlace family ≠ [m] ∧
      s.modulePlace family ≠ ["Material", "Icons", m])
    (h : (install s).perform site = (.ok n, after)) {c : Octets}
    (hc : site.disk.fileAt (site.disk.place (s.moduleFile family)) = some c) :
    after.disk.fileAt (site.disk.place s.sourceFolder ++ s.modulePlace family) = some c ∧
      after.disk.fileAt (site.disk.place (s.moduleFile family)) = none := by
  have hi := Installation.install_ok hs hg h
  rw [place_module hs hf] at hc ⊢
  -- a module lies below no other one
  have hparked : ∀ m, Installation.Held site.disk s m → ¬ [m] <+: s.modulePlace family := by
    rintro m hm ⟨rest, hrest⟩
    exact hs.modulePlace_ne hf (hs.manual m hm.1).2.1 [] (hmanual m hm.1).1 rest hrest.symm
  have hhome : ∀ m, Installation.Held site.disk s m →
      ¬ ["Material", "Icons", m] <+: s.modulePlace family := by
    rintro m hm ⟨rest, hrest⟩
    exact hs.modulePlace_ne hf (hs.manual m hm.1).2.1 ["Material", "Icons"] (hmanual m hm.1).2 rest
      hrest.symm
  refine ⟨?_, hi.out _⟩
  by_cases hscaffold : ["Material"] <+: s.modulePlace family
  · by_cases ha : Disk.acceptPath (s.sourceFolder.join s.scaffold) = .ok ()
    · rw [hi.scaffold ha _ hscaffold hhome, hc]
    · rw [hi.unnamed ha _ hscaffold hhome, hc, Option.some_or]
  · rw [hi.outside _ hparked hscaffold, hc, Option.some_or]

/-- A module is assembled below the folder of all modules just if the name of its family does not begin with
a space. It is then all that is written outside the cache, and the installation moves it. -/
theorem modules_stay_in_output (e : Edition) (root : Path) {family : String}
    (hslash : '/' ∉ family.toList) (hdot : '.' ∉ family.toList) :
    (∀ d : Disk, (∃ n rest, d.place ((Settings.preset e root).moduleFile family) =
        d.place (Settings.preset e root).outFolder ++ n :: rest) ↔
      family.toList.head? ≠ some ' ') ∧
    (family.toList.head? ≠ some ' ' →
      (∀ (partners : Partners) (f : Finish) (catalogue : Catalogue) (categories : List Category)
          (site : Site), site.disk.tree.Plain → (∀ i ∈ catalogue.icons, '/' ∉ i.name.toList) →
        Confined (fun k => site.disk.place root ++ ["gen"] <+: k) (site.disk.OnWay root) site.disk
          ((Assembly.writeModule (Settings.preset e root) partners f family catalogue
            categories).perform site).2.disk) ∧
      ∀ (site after : Site) (n : Nat) (c : Octets), Good site.disk →
        (∀ m ∈ (Settings.preset e root).manualModules,
          (Settings.preset e root).modulePlace family ≠ [m] ∧
            (Settings.preset e root).modulePlace family ≠ ["Material", "Icons", m]) →
        (install (Settings.preset e root)).perform site = (.ok n, after) →
        site.disk.fileAt (site.disk.place ((Settings.preset e root).moduleFile family)) = some c →
        after.disk.fileAt (site.disk.place (Settings.preset e root).sourceFolder ++
            (Settings.preset e root).modulePlace family) = some c ∧
          after.disk.fileAt (site.disk.place ((Settings.preset e root).moduleFile family)) = none) := by
  have hs := Settings.standard_preset e root
  refine ⟨hs.place_moduleFile_iff hslash hdot, fun hlead => ?_⟩
  have hf : FamilyName family := ⟨hslash, hdot, hlead⟩
  refine ⟨fun partners f catalogue categories site ht hicons => ?_,
    fun site after n c hg hmanual h hc => install_moves_module hs hf hg hmanual h hc⟩
  exact writeModule_within_gen hs hf hicons ht categories

/-- A project at the root of the file system, with the module of a family in the output. -/
def roundSite : Site where
  disk :=
    { tree := [(["gen"], .folder), (["gen", "tmp"], .folder), (["gen", "tmp", "out"], .folder),
        (["gen", "tmp", "out", "Material"], .folder),
        (["gen", "tmp", "out", "Material", "Icons"], .folder),
        (["gen", "tmp", "out", "Material", "Icons", "Round.elm"], .file [7]),
        (["src"], .folder)].foldl (fun t x => t.graft x.1 (.single x.2)) (.single .folder)
      home := [] }
  journal := []

/-- The module of the family is in the output, and an installation moves it. -/
theorem modules_stay_in_output_round :
    (∃ n rest, roundSite.disk.place ((Settings.preset .legacy ⟨"/"⟩).moduleFile "Material Icons Round") =
      roundSite.disk.place (Settings.preset .legacy ⟨"/"⟩).outFolder ++ n :: rest) ∧
    ∃ n after, (install (Settings.preset .legacy ⟨"/"⟩)).perform roundSite = (.ok n, after) ∧
      after.disk.fileAt ["src", "Material", "Icons", "Round.elm"] = some [7] ∧
      after.disk.fileAt ["gen", "tmp", "out", "Material", "Icons", "Round.elm"] = none := by
  have hok : ((install (Settings.preset .legacy ⟨"/"⟩)).perform roundSite).1.isOk = true := by
    decide +kernel
  obtain ⟨hplace, hstays⟩ := modules_stay_in_output .legacy ⟨"/"⟩
    (show '/' ∉ "Material Icons Round".toList by decide) (by decide)
  refine ⟨(hplace roundSite.disk).2 (by decide), ?_⟩
  obtain ⟨n, after, h⟩ := Action.exists_of_isOk hok
  exact ⟨n, after, h, (hstays (by decide)).2 roundSite after n [7]
    ⟨Tree.plain_of_entries (by decide), Tree.named_of_entries (by decide)⟩
    (by decide) h (by decide)⟩

/-- A project that lies in a folder. -/
def projectSite : Site where
  disk := ⟨(Tree.single .folder).graft ["p"] (.single .folder), []⟩
  journal := []

/-- The module of a family whose name begins with a space is written at the root of the file system, outside
the project. -/
theorem module_leaves_output :
    '/' ∉ " A".toList ∧ '.' ∉ " A".toList ∧
      (Settings.preset .legacy ⟨"/p"⟩).moduleFile " A" = ⟨"/A.elm"⟩ ∧
      ¬ projectSite.disk.place (Settings.preset .legacy ⟨"/p"⟩).outFolder <+:
        projectSite.disk.place ((Settings.preset .legacy ⟨"/p"⟩).moduleFile " A") ∧
      projectSite.disk.tree.get? ["A.elm"] = none ∧
      ((Assembly.writeModule (Settings.preset .legacy ⟨"/p"⟩) Assembly.obliging ⟨[], ""⟩ " A"
        ⟨[], [" A"]⟩ []).perform projectSite).2.disk.fileAt ["A.elm"] ≠ none := by
  decide +kernel

end Generation
end IconModules
