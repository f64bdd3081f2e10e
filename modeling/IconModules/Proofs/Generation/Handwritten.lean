import IconModules.Proofs.Generation.Installed

/-! # What an installation does to modules written by hand

The modules that an installation knows to be written by hand are parked at the top of the sources and
put back. Two files can meet there: a parked module and another source, or a parked module and a
generated one. The later one stays.

`install_keeps_handwritten` says exactly which files are kept. -/

namespace IconModules.Installation

variable {s : Settings} {site after : Site} {n : Nat}

/-- After an installation that ended well, a source that is neither generated nor below the scaffold is
still there just if no module was parked in its place; and a module written by hand is still there just
if no other module was generated for the place where it was parked. -/
theorem install_keeps_handwritten (hs : s.Standard) (ht : site.disk.tree.Plain)
    (hn : site.disk.tree.Named) (h : (install s).perform site = (.ok n, after)) :
    (∀ p c, ¬ ["Material"] <+: p →
      site.disk.fileAt (site.disk.place s.outFolder ++ p) = none →
      site.disk.fileAt (site.disk.place s.sourceFolder ++ p) = some c →
      (after.disk.fileAt (site.disk.place s.sourceFolder ++ p) = some c ↔
        ∀ m, Held site.disk s m → ¬ [m] <+: p)) ∧
    ∀ m ∈ s.manualModules, ∀ c, site.disk.read (s.manualHome m) = .ok c →
      (after.disk.fileAt (manualPlace site.disk s ++ [m]) = some c ↔
        ∀ c', site.disk.fileAt (site.disk.place s.outFolder ++ [m]) = some c' → c' = c) := by
  have hi := install_ok hs ⟨ht, hn⟩ h
  refine ⟨fun p c hscaffold hgen hsrc => ⟨fun hafter m hm hp => ?_, fun hp => ?_⟩,
    fun m hm c hread => ?_⟩
  · obtain ⟨q, rfl⟩ := hp
    rw [List.singleton_append, hi.top m hm q] at hafter
    cases hafter
  · rw [hi.outside p hp hscaffold, hgen, hsrc, Option.none_or]
  · obtain ⟨hheld, hfile⟩ := held_of_read hs ht hm hread
    rw [hi.manual m hheld [], hfile, Option.some_or]
    cases hgen : site.disk.fileAt (site.disk.place s.outFolder ++ [m]) with
    | none => simp
    | some c' => simp [eq_comm]

/-- A project at the root of the file system: the module `Coloring.elm` is written by hand, another
source at the top is called like it, and one module is assembled. -/
def crowdedSite : Site where
  disk :=
    { tree := [(["gen"], .folder), (["gen", "tmp"], .folder), (["gen", "tmp", "out"], .folder),
        (["gen", "tmp", "out", "A.elm"], .file [1]), (["src"], .folder),
        (["src", "Coloring.elm"], .file [2]), (["src", "Main.elm"], .file [3]),
        (["src", "Material"], .folder), (["src", "Material", "Icons"], .folder),
        (["src", "Material", "Icons", "Coloring.elm"], .file [4])].foldl
          (fun t x => t.graft x.1 (.single x.2)) (.single .folder)
      home := [] }
  journal := []

/-- There the installation ends well, and the source that is called like the parked module is gone. -/
theorem install_crowded :
    ((install (Settings.preset .legacy ⟨"/"⟩)).perform crowdedSite).1.isOk = true ∧
      ((install (Settings.preset .legacy ⟨"/"⟩)).perform crowdedSite).2.disk.fileAt
        ["src", "Coloring.elm"] = none := by
  decide +kernel

/-- There the other source at the top and the parked module are kept. -/
theorem install_keeps_handwritten_crowded :
    ∃ n after, (install (Settings.preset .legacy ⟨"/"⟩)).perform crowdedSite = (.ok n, after) ∧
      after.disk.fileAt ["src", "Main.elm"] = some [3] ∧
      after.disk.fileAt ["src", "Material", "Icons", "Coloring.elm"] = some [4] := by
  obtain ⟨n, after, h⟩ := Action.exists_of_isOk install_crowded.1
  obtain ⟨hsources, hmanual⟩ := install_keeps_handwritten (Settings.standard_preset _ _)
    (Tree.plain_of_entries (by decide)) (Tree.named_of_entries (by decide)) h
  refine ⟨n, after, h, ?_, ?_⟩
  · refine (hsources ["Main.elm"] [3] (by decide) (by decide) (by decide)).2 ?_
    rintro m ⟨hm, -⟩ hp
    obtain rfl : m = "Main.elm" := (List.cons_prefix_cons.1 hp).1
    exact absurd hm (by decide)
  · refine (hmanual "Coloring.elm" (by decide) [4] (ok_of_toOption (by decide))).2 ?_
    intro c' hc'
    have hnone : crowdedSite.disk.fileAt ["gen", "tmp", "out", "Coloring.elm"] = none := by
      decide
    exact absurd (hc'.symm.trans hnone) (by simp)

/-- The source that is called like the parked module is lost, although no module was generated in its
place. -/
theorem install_loses_source :
    ((install (Settings.preset .legacy ⟨"/"⟩)).perform crowdedSite).1.isOk = true ∧
      crowdedSite.disk.fileAt ["src", "Coloring.elm"] = some [2] ∧
      crowdedSite.disk.fileAt ["gen", "tmp", "out", "Coloring.elm"] = none ∧
      ((install (Settings.preset .legacy ⟨"/"⟩)).perform crowdedSite).2.disk.fileAt
        ["src", "Coloring.elm"] = none :=
  ⟨install_crowded.1, by decide, by decide, install_crowded.2⟩

end IconModules.Installation
