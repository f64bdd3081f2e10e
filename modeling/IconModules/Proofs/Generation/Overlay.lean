import IconModules.Proofs.Generation.Installed

/-! # The sources after an installation, computed

* `overlay` gives the file at each place below the sources after an installation, from the files before.
* `filesBelow` lists the files below a place, for the number that an installation ends with.

`install_overlays` says that an installation computes the first and counts the second, if what it parks are
files, nothing else has their places and the path of the scaffold can be used. The output is gone then, unless
the path to the root leads through it (`install_leaves_output`). -/

namespace IconModules

namespace Disk

variable {d : Disk} {l q : Location}

/-- The files at and below a place, as the ways to them from there. -/
def filesBelow (d : Disk) (l : Location) : List Location :=
  (d.tree.branch l).entries.filterMap fun x =>
    match x.2 with
    | .file _ => some x.1
    | _ => none

theorem mem_filesBelow : q ∈ d.filesBelow l ↔ d.fileAt (l ++ q) ≠ none := by
  have hbranch : ∀ e, (q, e) ∈ (d.tree.branch l).entries ↔ d.tree.get? (l ++ q) = some e := by
    intro e
    rw [← Tree.get?_eq_some_iff, Tree.get?_branch]
  unfold filesBelow
  rw [List.mem_filterMap]
  constructor
  · rintro ⟨⟨q', e⟩, hmem, he⟩
    cases e with
    | file c =>
      obtain rfl := Option.some.inj he
      simp [fileAt_eq_some.2 ((hbranch _).1 hmem)]
    | folder => cases he
    | link target => cases he
  · intro hne
    obtain ⟨c, hc⟩ := Option.ne_none_iff_exists'.1 hne
    exact ⟨(q, .file c), (hbranch _).2 (fileAt_eq_some.1 hc), rfl⟩

theorem nodup_filesBelow (d : Disk) (l : Location) : (d.filesBelow l).Nodup := by
  have hself : ∀ {x : Location × Entry} {k}, (match x.2 with
      | .file _ => some x.1
      | _ => none) = some k → x.1 = k := by
    rintro ⟨k', e⟩ k h
    cases e with
    | file c => exact Option.some.inj h
    | folder => cases h
    | link target => cases h
  unfold filesBelow
  refine List.Pairwise.filterMap _ ?_ (d.tree.branch l).ordered
  rintro x y hlt k hk k' hk' rfl
  rw [hself hk, hself hk'] at hlt
  exact absurd hlt (List.lt_irrefl k)

end Disk

namespace Installation

variable {s : Settings} {site after : Site} {d : Disk} {n : Nat}

/-- The file at a place below the sources after an installation on the disk `d`: a module written by hand
where it was found; else a generated file; else nothing, if the place is in the scaffold; else the file that
was there. -/
def overlay (s : Settings) (d : Disk) (q : Location) : Option Octets :=
  if q ∈ (found d s).map fun m => ["Material", "Icons", m] then
    d.fileAt (d.place s.sourceFolder ++ q)
  else (d.fileAt (d.place s.outFolder ++ q)).or
    (if ["Material"] <+: q then none else d.fileAt (d.place s.sourceFolder ++ q))

theorem count_of_installed (hi : Installed s d after.disk n) :
    n = (d.filesBelow (d.place s.outFolder)).length := by
  obtain ⟨rels, hnd, rfl, hrels⟩ := hi.count
  refine List.Perm.length_eq ((List.perm_ext_iff_of_nodup hnd (Disk.nodup_filesBelow _ _)).2 ?_)
  intro q
  rw [hrels, Disk.mem_filesBelow]

/-- A module written by hand comes back, so no file was generated below its place or below the one where
it was parked. -/
theorem manual_of_installed {d' : Disk} (hi : Installed s d d' n)
    (hdistinct : ∀ m ∈ s.manualModules, d.fileAt (d.place s.outFolder ++ [m]) = none ∧
      d.fileAt (d.place s.outFolder ++ ["Material", "Icons", m]) = none)
    {m : String} {c : Octets} (hm : Held d s m) (hc : d.fileAt (manualPlace d s ++ [m]) = some c) :
    d'.fileAt (manualPlace d s ++ [m]) = some c ∧ ∀ x q,
      d'.fileAt (manualPlace d s ++ m :: x :: q) = none ∧
      d.fileAt (d.place s.outFolder ++ m :: x :: q) = none ∧
      d.fileAt (d.place s.outFolder ++ "Material" :: "Icons" :: m :: x :: q) = none := by
  have hback : d'.fileAt (manualPlace d s ++ [m]) = some c := by
    rw [hi.manual m hm [], (hdistinct m hm.1).1, hc, (hdistinct m hm.1).2]
    rfl
  refine ⟨hback, fun x q => ?_⟩
  have hnofolder : d'.tree.get? (manualPlace d s ++ [m]) ≠ some .folder := by
    simp [Disk.fileAt_eq_some.1 hback]
  have hnone := Disk.fileAt_below hnofolder x q
  rw [List.append_assoc, List.singleton_append] at hnone
  have hparts := hi.manual m hm (x :: q)
  rw [hnone, eq_comm, Option.or_eq_none_iff, Option.or_eq_none_iff] at hparts
  exact ⟨hnone, hparts.1.1, hparts.2⟩

section

variable {d' : Disk} {m : String} {q : Location} (hi : Installed s d d' n)
  (hdistinct : ∀ m ∈ s.manualModules, d.fileAt (d.place s.outFolder ++ [m]) = none ∧
    d.fileAt (d.place s.outFolder ++ ["Material", "Icons", m]) = none)
include hi hdistinct

/-- At the place where a module was parked, and below it, there is nothing before and after. -/
theorem nothing_at_parking (hfree : d.tree.get? (d.place s.sourceFolder ++ [m]) = none) {c : Octets}
    (hm : Held d s m) (hc : d.fileAt (manualPlace d s ++ [m]) = some c) (r : Location) :
    d'.fileAt (d.place s.sourceFolder ++ m :: r) = none ∧
      d.fileAt (d.place s.outFolder ++ m :: r) = none ∧
      d.fileAt (d.place s.sourceFolder ++ m :: r) = none := by
  refine ⟨hi.top m hm r, ?_, ?_⟩
  · cases r with
    | nil => exact (hdistinct m hm.1).1
    | cons x r => exact ((manual_of_installed hi hdistinct hm hc).2 x r).2.1
  · have hsrc := Disk.fileAt_nowhere hfree r
    rwa [List.append_assoc, List.singleton_append] at hsrc

/-- Below the place of a module as well. -/
theorem nothing_below_manual {c : Octets} (hm : Held d s m)
    (hc : d.fileAt (manualPlace d s ++ [m]) = some c) (x : String) (r : Location) :
    d'.fileAt (manualPlace d s ++ m :: x :: r) = none ∧
      d.fileAt (d.place s.outFolder ++ "Material" :: "Icons" :: m :: x :: r) = none ∧
      d.fileAt (manualPlace d s ++ m :: x :: r) = none := by
  obtain ⟨hafter, -, hgen⟩ := (manual_of_installed hi hdistinct hm hc).2 x r
  have hnofolder : d.tree.get? (manualPlace d s ++ [m]) ≠ some .folder := by
    simp [Disk.fileAt_eq_some.1 hc]
  have hsrc := Disk.fileAt_below hnofolder x r
  rw [List.append_assoc, List.singleton_append] at hsrc
  exact ⟨hafter, hgen, hsrc⟩

end

/-- An installation that ended well moved all files below the output, removed the output unless the path to the
root leads through it, and left among the sources what `overlay` says: if the path of the scaffold can be used,
the modules written by hand are files, nothing is where they are parked, and no file was generated for their
places. -/
theorem install_overlays (hs : s.Standard) (ht : site.disk.tree.Plain) (hn : site.disk.tree.Named)
    (ha : Disk.acceptPath (s.sourceFolder.join s.scaffold) = .ok ())
    (hfiles : ∀ m ∈ s.manualModules,
      site.disk.tree.get? (manualPlace site.disk s ++ [m]) ≠ some .folder)
    (hfree : ∀ m ∈ s.manualModules,
      site.disk.tree.get? (site.disk.place s.sourceFolder ++ [m]) = none)
    (hdistinct : ∀ m ∈ s.manualModules,
      site.disk.fileAt (site.disk.place s.outFolder ++ [m]) = none ∧
        site.disk.fileAt (site.disk.place s.outFolder ++ ["Material", "Icons", m]) = none)
    (h : (install s).perform site = (.ok n, after)) :
    n = (site.disk.filesBelow (site.disk.place s.outFolder)).length ∧
      (OutsideOutput site.disk s → after.disk.tree.get? (site.disk.place s.outFolder) = none) ∧
      ∀ q, after.disk.fileAt (site.disk.place s.sourceFolder ++ q) = overlay s site.disk q := by
  have hg : Good site.disk := ⟨ht, hn⟩
  have hi := install_ok hs hg h
  refine ⟨count_of_installed hi, hi.gone, fun q => ?_⟩
  have hhome : ∀ m q, site.disk.place s.sourceFolder ++ "Material" :: "Icons" :: m :: q =
      manualPlace site.disk s ++ m :: q := fun m q => by simp [manualPlace]
  unfold overlay
  split
  · -- the place of a module written by hand
    rename_i hq
    obtain ⟨m, hm, rfl⟩ := List.mem_map.1 hq
    have hheld := mem_found.1 hm
    obtain ⟨c, hc⟩ := fileAt_of_held hs hg hheld (hfiles m hheld.1)
    rw [hhome, hc]
    exact (manual_of_installed hi hdistinct hheld hc).1
  rename_i hq
  by_cases htop : ∃ m, Held site.disk s m ∧ [m] <+: q
  · obtain ⟨m, hm, r, rfl⟩ := htop
    obtain ⟨c, hc⟩ := fileAt_of_held hs hg hm (hfiles m hm.1)
    obtain ⟨hafter, hgen, hsrc⟩ := nothing_at_parking hi hdistinct (hfree m hm.1) hm hc r
    rw [List.singleton_append, hafter, hgen, hsrc, ite_self, Option.or_none]
  by_cases hmanual : ∃ m, Held site.disk s m ∧ ["Material", "Icons", m] <+: q
  · obtain ⟨m, hm, r, rfl⟩ := hmanual
    obtain ⟨c, hc⟩ := fileAt_of_held hs hg hm (hfiles m hm.1)
    cases r with
    | nil => exact absurd (List.mem_map.2 ⟨m, mem_found.2 hm, by simp⟩) hq
    | cons x r =>
      obtain ⟨hafter, hgen, hsrc⟩ := nothing_below_manual hi hdistinct hm hc x r
      simp only [List.cons_append, List.nil_append, hhome, hafter, hgen, hsrc, ite_self,
        Option.or_none]
  by_cases hscaffold : ["Material"] <+: q
  · rw [hi.scaffold ha q hscaffold fun m hm hp => hmanual ⟨m, hm, hp⟩, if_pos hscaffold, Option.or_none]
  · rw [hi.outside q (fun m hm hp => htop ⟨m, hm, hp⟩) hscaffold, if_neg hscaffold]

/-- A project at the root of the file system: two modules were assembled, one of them into the scaffold,
where a module written by hand lives and an old one is left over. -/
def replacedSite : Site where
  disk :=
    { tree := [(["gen"], .folder), (["gen", "tmp"], .folder), (["gen", "tmp", "out"], .folder),
        (["gen", "tmp", "out", "A.elm"], .file [1]), (["gen", "tmp", "out", "Material"], .folder),
        (["gen", "tmp", "out", "Material", "B.elm"], .file [2]), (["src"], .folder),
        (["src", "Main.elm"], .file [3]), (["src", "Material"], .folder),
        (["src", "Material", "Icons"], .folder),
        (["src", "Material", "Icons", "Coloring.elm"], .file [4]),
        (["src", "Material", "Old.elm"], .file [5])].foldl
          (fun t x => t.graft x.1 (.single x.2)) (.single .folder)
      home := [] }
  journal := []

/-- There the installation moves two files, removes the output and the old module, and keeps the rest. -/
theorem install_overlays_replaced :
    ∃ after, (install (Settings.preset .legacy ⟨"/"⟩)).perform replacedSite = (.ok 2, after) ∧
      after.disk.tree.get? ["gen", "tmp", "out"] = none ∧
      after.disk.fileAt ["src", "A.elm"] = some [1] ∧
      after.disk.fileAt ["src", "Material", "B.elm"] = some [2] ∧
      after.disk.fileAt ["src", "Main.elm"] = some [3] ∧
      after.disk.fileAt ["src", "Material", "Icons", "Coloring.elm"] = some [4] ∧
      after.disk.fileAt ["src", "Material", "Old.elm"] = none := by
  have hok : ((install (Settings.preset .legacy ⟨"/"⟩)).perform replacedSite).1.isOk = true := by
    decide +kernel
  obtain ⟨n, after, h⟩ := Action.exists_of_isOk hok
  obtain ⟨hcount, hgone, hfiles⟩ := install_overlays (Settings.standard_preset _ _)
    (Tree.plain_of_entries (by decide)) (Tree.named_of_entries (by decide))
    rfl (by decide) (by decide) (by decide) h
  have htwo : (replacedSite.disk.filesBelow ["gen", "tmp", "out"]).length = 2 := by
    decide
  refine ⟨after, ?_, hgone (outsideOutput_of_names (show _ = [].map Path.Step.into by decide)),
    (hfiles ["A.elm"]).trans ?_, (hfiles ["Material", "B.elm"]).trans ?_,
    (hfiles ["Main.elm"]).trans ?_, (hfiles ["Material", "Icons", "Coloring.elm"]).trans ?_,
    (hfiles ["Material", "Old.elm"]).trans ?_⟩
  · rw [h, show n = 2 from hcount.trans htwo]
  all_goals decide

/-- A project at the root of the file system, with a module written by hand and a generated one. -/
def crossedSite : Site where
  disk :=
    { tree := [(["gen"], .folder), (["gen", "tmp"], .folder), (["gen", "tmp", "out"], .folder),
        (["gen", "tmp", "out", "A.elm"], .file [1]), (["src"], .folder), (["src", "Material"], .folder),
        (["src", "Material", "Icons"], .folder),
        (["src", "Material", "Icons", "Coloring.elm"], .file [2])].foldl
          (fun t x => t.graft x.1 (.single x.2)) (.single .folder)
      home := [] }
  journal := []

/-- A project at the root of the file system, with an empty scaffold and an empty output. -/
def bareSite : Site where
  disk :=
    { tree := [(["gen"], .folder), (["gen", "tmp"], .folder), (["gen", "tmp", "out"], .folder),
        (["src"], .folder), (["src", "Material"], .folder)].foldl
          (fun t x => t.graft x.1 (.single x.2)) (.single .folder)
      home := [] }
  journal := []

/-- Where the path to the root leads through the output, the output is there again when the modules written by hand
are back. And the overlay is one of files: the folder of the scaffold, which lies neither below itself nor in the
output, does not stay as it was. -/
theorem install_leaves_output :
    (Good crossedSite.disk ∧
      (∀ m ∈ throughOutput.manualModules,
        crossedSite.disk.tree.get? (manualPlace crossedSite.disk throughOutput ++ [m]) ≠ some .folder ∧
        crossedSite.disk.tree.get? (crossedSite.disk.place throughOutput.sourceFolder ++ [m]) = none ∧
        crossedSite.disk.fileAt (crossedSite.disk.place throughOutput.outFolder ++ [m]) = none ∧
        crossedSite.disk.fileAt
          (crossedSite.disk.place throughOutput.outFolder ++ ["Material", "Icons", m]) = none) ∧
      ((install throughOutput).perform crossedSite).1.toOption = some 1 ∧
      ((install throughOutput).perform crossedSite).2.disk.holds throughOutput.outFolder = true) ∧
    (Good bareSite.disk ∧
      bareSite.disk.filesBelow ["gen", "tmp", "out"] = [] ∧ bareSite.disk.filesBelow ["src"] = [] ∧
      ((install (.preset .legacy ⟨"/"⟩)).perform bareSite).1.toOption = some 0 ∧
      bareSite.disk.tree.get? ["src", "Material"] = some .folder ∧
      ((install (.preset .legacy ⟨"/"⟩)).perform bareSite).2.disk.tree.get? ["src", "Material"] = none) := by
  have hcrossed : ((install throughOutput).perform crossedSite).1.toOption = some 1 ∧
      ((install throughOutput).perform crossedSite).2.disk.holds throughOutput.outFolder = true := by
    decide +kernel
  have hbare : ((install (.preset .legacy ⟨"/"⟩)).perform bareSite).1.toOption = some 0 ∧
      ((install (.preset .legacy ⟨"/"⟩)).perform bareSite).2.disk.tree.get? ["src", "Material"] = none := by
    decide +kernel
  refine ⟨⟨⟨Tree.plain_of_entries (by decide), Tree.named_of_entries (by decide)⟩, by decide, hcrossed⟩,
    ⟨Tree.plain_of_entries (by decide), Tree.named_of_entries (by decide)⟩, by decide, by decide, hbare.1,
    by decide, hbare.2⟩

end Installation
end IconModules
