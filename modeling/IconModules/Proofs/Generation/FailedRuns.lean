import IconModules.Proofs.Files.Rooted
import IconModules.Proofs.Generation.Untouched

/-! # Runs that fail

A run that fails before the installation leaves the sources as they were and has nothing formatted
(`failed_generation_leaves_sources`). The one way in which it can reach them is the path to the root:
missing folders are made wherever that leads (`failed_generation_through_sources`). -/

namespace IconModules.Generation

open IconModules.Action (Keeps)

variable {s : Settings} {partners : Partners} {site after : Site}

/-! ### The journal of an installation -/

/-- The journal goes on from `base`, and nothing was formatted since. -/
def Unformatted (base : List Event) (site : Site) : Prop :=
  ∃ new, site.journal = base ++ new ∧ ∀ folder, Event.formatted folder ∉ new

theorem Unformatted.refl (site : Site) : Unformatted site.journal site :=
  ⟨[], by simp, by simp⟩

/-- An installation enters notes into the journal and nothing else. -/
theorem journal_install {J : List Event → Prop} (hJ : ∀ events n, J events → J (events ++ [.noted n]))
    (s : Settings) : Keeps (fun site => J site.journal) (Installation.install s) := by
  have hnote : ∀ n, Keeps (fun site => J site.journal) (Action.note n) := fun n site h =>
    hJ site.journal n h
  have hmove : ∀ old new, Keeps (fun site => J site.journal) (Action.moveTo old new) := fun _ _ =>
    Keeps.moveTo hnote (Keeps.makeParent fun _ _ => Keeps.carryOut fun _ h => h) fun _ _ h _ => h
  have hclear : ∀ p, Keeps (fun site => J site.journal) (Action.clearIfPresent p) := fun p =>
    Keeps.clearIfPresent fun _ h => h
  exact Installation.keeps_install hnote (fun _ _ => hmove _ _) (fun _ _ => hmove _ _) (hclear _)
    (Installation.keeps_moveAll (R := fun _ _ => True) (fun _ _ _ => hmove _ _)
      (fun _ _ _ _ _ _ _ _ _ => trivial) trivial) (hclear _)

/-- Installing has nothing formatted. -/
theorem unformatted_install (base : List Event) (s : Settings) :
    Keeps (Unformatted base) (Installation.install s) := by
  refine journal_install (J := fun events => ∃ new, events = base ++ new ∧
    ∀ folder, Event.formatted folder ∉ new) (fun events n h => ?_) s
  obtain ⟨new, rfl, hf⟩ := h
  refine ⟨new ++ [.noted n], by simp, fun folder hm => ?_⟩
  rcases List.mem_append.1 hm with hm | hm
  · exact hf folder hm
  · cases List.mem_singleton.1 hm

/-! ### Where a run can fail -/

/-- A failure before the installation ends the run. -/
theorem run_of_writeAll_failed {failure : Failure}
    (h : (writeAll s partners).perform site = (.error failure, after)) :
    (run s partners).perform site = (.error failure, after) := by
  unfold run
  rw [Action.perform_bind, h]

/-- A failure of the installation ends the run. -/
theorem run_of_install_failed {reports : List ModuleReport} {written : Site} {failure : Failure}
    (h : (writeAll s partners).perform site = (.ok reports, written))
    (hi : (Installation.install s).perform written = (.error failure, after)) :
    (run s partners).perform site = (.error failure, after) := by
  unfold run
  rw [Action.perform_bind, h]
  simp only
  rw [Action.perform_bind, hi]

/-- A run that had something formatted got through the installation. -/
theorem install_of_formatted {outcome : Except Failure RunReport} {new : List Event}
    (hw : Unformatted site.journal ((writeAll s partners).perform site).2)
    (h : (run s partners).perform site = (outcome, after)) (hnew : after.journal = site.journal ++ new)
    {folder : Path} (hf : .formatted folder ∈ new) :
    ∃ reports written n installed, (writeAll s partners).perform site = (.ok reports, written) ∧
      (Installation.install s).perform written = (.ok n, installed) := by
  have hnot : ¬ Unformatted site.journal after := by
    rintro ⟨new', hnew', hf'⟩
    rw [hnew] at hnew'
    exact hf' folder (List.append_cancel_left hnew' ▸ hf)
  rcases hr : (writeAll s partners).perform site with ⟨failure | reports, written⟩
  · rw [hr] at hw
    rw [run_of_writeAll_failed hr] at h
    cases h
    exact absurd hw hnot
  · rw [hr] at hw
    have hi := unformatted_install site.journal s written hw
    rcases hinstall : (Installation.install s).perform written with ⟨failure | n, installed⟩
    · rw [hinstall] at hi
      rw [run_of_install_failed hr hinstall] at h
      cases h
      exact absurd hi hnot
    · exact ⟨reports, written, n, installed, rfl, hinstall⟩

/-! ### Failed runs and the sources -/

/-- A root that is written as names only is not reached through its own sources. -/
theorem outsideSources_of_names {d : Disk} {names : List String}
    (h : s.root.moves = names.map .into) : OutsideSources d s := by
  intro n rest
  rw [Disk.place_along s.sourceFolder_under.toAlong, List.append_assoc]
  exact Disk.not_onWay_below h "src" (n :: rest)

/-- A run that fails before the installation leaves everything below the sources as it was and has
nothing formatted; and nothing is ever formatted before an installation ended well. -/
theorem failed_generation_leaves_sources (hs : s.Standard) (ht : site.disk.tree.Plain)
    (ho : OutsideSources site.disk s)
    (hc : ∀ catalogue, Served s partners site catalogue → Admissible catalogue) :
    (∀ failure after, (writeAll s partners).perform site = (.error failure, after) →
      (run s partners).perform site = (.error failure, after) ∧
        (∀ n rest, after.disk.tree.get? (site.disk.place s.sourceFolder ++ n :: rest) =
          site.disk.tree.get? (site.disk.place s.sourceFolder ++ n :: rest)) ∧
        ∃ new, after.journal = site.journal ++ new ∧ ∀ folder, Event.formatted folder ∉ new) ∧
    ∀ outcome after new folder, (run s partners).perform site = (outcome, after) →
      after.journal = site.journal ++ new → Event.formatted folder ∈ new →
      ∃ reports written n installed, (writeAll s partners).perform site = (.ok reports, written) ∧
        (Installation.install s).perform written = (.ok n, installed) := by
  have hu := @untouched_writeAll s site partners hs ht ho hc
  refine ⟨fun failure after h => ?_, fun outcome after new folder h hnew hf => ?_⟩
  · rw [h] at hu
    exact ⟨run_of_writeAll_failed h, hu.sources, hu.journal⟩
  · exact install_of_formatted hu.journal h hnew hf

/-- The hypotheses hold for a project at `/p` with one source and no network: the run fails, and the
source is still there. -/
theorem failed_generation_leaves_sources_offline :
    let s := Settings.preset .current ⟨"/p"⟩
    let tree := (((Tree.single .folder).graft ["p"] (.single .folder)).graft ["p", "src"]
      (.single .folder)).graft ["p", "src", "Main.elm"] (.single (.file [1]))
    let site : Site := ⟨⟨tree, []⟩, []⟩
    ∃ failure after, (writeAll s CommandLine.offline).perform site = (.error failure, after) ∧
      after.disk.tree.get? ["p", "src", "Main.elm"] = some (.file [1]) := by
  intro s tree site
  have hfail : ((writeAll s CommandLine.offline).perform site).1.isOk = false := by
    decide +kernel
  have ht : tree.Plain := Tree.plain_of_entries (by decide)
  have ho : OutsideSources site.disk s := outsideSources_of_names (show _ = ["p"].map Path.Step.into by decide)
  have hc : ∀ catalogue, Served s CommandLine.offline site catalogue → Admissible catalogue := by
    rintro catalogue ⟨raw, hraw, -⟩
    cases hraw
  have hmain := (failed_generation_leaves_sources (Settings.standard_preset _ _) ht ho hc).1
  obtain ⟨failure, after, h⟩ := Action.exists_of_not_isOk hfail
  refine ⟨failure, after, h, ?_⟩
  have hsame := (hmain failure after h).2.1 "Main.elm" []
  have hplace : site.disk.place s.sourceFolder = ["p", "src"] := by decide
  rw [hplace] at hsame
  rw [show ["p", "src", "Main.elm"] = ["p", "src"] ++ ["Main.elm"] from rfl, hsame]
  decide

/-- Where the path to the root leads through the sources, a failed run can leave a folder there. -/
theorem failed_generation_through_sources :
    let s := Settings.preset .legacy ⟨"src/a/../.."⟩
    let site : Site := ⟨⟨.single .folder, []⟩, []⟩
    site.disk.tree.Plain ∧ (∀ catalogue, ¬ Served s CommandLine.offline site catalogue) ∧
      ((writeAll s CommandLine.offline).perform site).1.isOk = false ∧
      ((writeAll s CommandLine.offline).perform site).2.disk.tree.get?
          (site.disk.place s.sourceFolder ++ ["a"]) = some .folder ∧
      site.disk.tree.get? (site.disk.place s.sourceFolder ++ ["a"]) = none := by
  intro s site
  have hended : ((writeAll s CommandLine.offline).perform site).1.isOk = false ∧
      ((writeAll s CommandLine.offline).perform site).2.disk.tree.get?
        (site.disk.place s.sourceFolder ++ ["a"]) = some .folder := by
    decide +kernel
  refine ⟨Tree.plain_of_entries (by decide), ?_, hended.1, hended.2, by decide⟩
  rintro catalogue ⟨raw, hraw, -⟩
  cases hraw

end IconModules.Generation
