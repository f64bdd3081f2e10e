import IconModules.Proofs.Generation.MovingAgain
import IconModules.Proofs.Generation.ReadyAgain
import IconModules.Proofs.Generation.Restoring

/-! # Where everything stands after an installation

`Placed` says of an installation that ended well what stood at every place, file or folder, when the modules began
to be moved, when they were moved, and in the end (`install_exact`). -/

namespace IconModules.Installation

open Disk (Apart Merged Walked)
open Generation (OutCleared outCleared_of_clear)

variable {s : Settings} {m : String} {names : List String} {site after : Site} {w b x e : Disk}
  {k : Location} {n : Nat} {p : Path}

/-- What is done when the modules were moved. -/
def conclusion (s : Settings) (parked : List (Path × Path)) (n : Nat) : Action Nat := do
  Action.clearIfPresent s.outFolder
  restore parked
  Action.note (.installed n s.sourceFolder)
  return n

/-- An installation of the modules on the disk `w`, with the modules `names` parked meanwhile: on `b` the
modules began to be moved, on `x` they were, and `e` is what was left. -/
structure Placed (s : Settings) (names : List String) (w b x e : Disk) : Prop where
  sublist : names.Sublist s.manualModules
  portable : ∀ m ∈ names, Portable s w (s.sourceFolder.under m) (s.manualHome m)
  /-- Parking and clearing the scaffold changed nothing outside the sources. -/
  home : b.home = w.home
  same : ∀ k, ¬ w.place s.sourceFolder <+: k → b.tree.get? k = w.tree.get? k
  bare : ∀ q, b.tree.get? (w.place s.sourceFolder ++ "Material" :: q) = none
  good : Good b
  root : b.Walked s.root
  moving : Moving s b x
  merged : Merged (b.place s.outFolder) (b.place s.sourceFolder) b x
  restored : Restored s [] names x e
  out : ∀ q, e.tree.get? (w.place s.outFolder ++ q) = none ∨
    e.tree.get? (w.place s.outFolder ++ q) = some .folder

/-! ### The phases -/

/-- Clearing a folder that can be used removes it, if the root can still be reached. -/
theorem clearIfPresent_gone {u : Unit} {ns : List String} (hg : Good site.disk)
    (hp : Path.Under s.root ns p) (hshort : ∀ n ∈ ns, n.utf8ByteSize ≤ Tree.nameLimit)
    (ha : Disk.acceptPath p = .ok ())
    (h : (Action.clearIfPresent p).perform site = (.ok u, after)) (ho : after.disk.OpenRoot s.root) :
    ∀ q, after.disk.tree.get? (site.disk.place p ++ q) = none := by
  have hnone : after.disk.tree.get? (site.disk.place p) = none := by
    obtain ⟨v, mid, hv, h⟩ := Action.perform_bind_ok h
    obtain ⟨rfl, rfl⟩ := Action.perform_holds_ok hv
    split at h
    · obtain ⟨hnone, rfl⟩ := Action.perform_carryOut_ok h
      rcases Disk.clear_cases hg.plain p with ⟨-, hne⟩ | ⟨hfind, -⟩
      · exact absurd hnone hne
      · exact Disk.clear_gone hg.plain hp hfind ho
    · rename_i hheld
      obtain ⟨-, rfl⟩ := Action.perform_pure_ok h
      apply Classical.byContradiction
      intro hne
      exact hheld ((Disk.holds_usable_iff hg.plain hp).2 ⟨⟨ha, ho, hshort⟩, hne⟩)
  intro q
  cases q with
  | nil => rwa [List.append_nil]
  | cons n q => exact Tree.get?_append_cons_of_ne (by simp [hnone])

/-- Clearing keeps everything that is not below the folder. -/
theorem clearIfPresent_keeps {u : Unit} (hg : Good site.disk)
    (h : (Action.clearIfPresent p).perform site = (.ok u, after)) :
    after.disk.home = site.disk.home ∧ Good after.disk ∧
      ∀ k, ¬ site.disk.place p <+: k → after.disk.tree.get? k = site.disk.tree.get? k := by
  rcases clearIfPresent_ok hg h with ⟨-, rfl⟩ | ⟨-, -, hc, hg'⟩
  · exact ⟨rfl, hg, fun _ _ => rfl⟩
  · exact ⟨hc.home, hg', hc.get?⟩

/-- All files in the output are in their places when they were moved. -/
theorem arrived_of_merged (hmoving : Moving s b x)
    (hmerged : Merged (b.place s.outFolder) (b.place s.sourceFolder) b x) : Arrived s b x := by
  refine ⟨hmoving.good.plain, hmoving.home, hmoving.root, fun q c hc => ?_⟩
  rw [hmerged.into, hc, Option.some_or]

section

variable (hs : s.Standard)
include hs

/-- The output is cleared, and the modules are put back. -/
theorem conclusion_exact (hsub : ∀ m ∈ names, m ∈ s.manualModules) (hnd : names.Nodup)
    (hg : Good site.disk) (ha : Disk.acceptPath s.outFolder = .ok ()) (hw : site.disk.Walked s.root)
    (hshort : ∀ x ∈ s.root.moves, Tree.Short x) (hsettled : Settled s site.disk)
    (hvacant : ∀ m ∈ names, ∀ n r,
      ¬ site.disk.OnWay s.root (site.disk.place s.sourceFolder ++ m :: n :: r))
    (hscaffold : ∀ q, ¬ site.disk.OnWay s.root (site.disk.place s.sourceFolder ++ "Material" :: q))
    {n' : Nat}
    (h : (conclusion s (names.map (parking s)) n).perform site = (.ok n', after)) :
    n' = n ∧ Restored s [] names site.disk after.disk := by
  obtain ⟨_, emptySite, hempty, h⟩ := Action.perform_bind_ok h
  obtain ⟨_, restoredSite, hrestore, h⟩ := Action.perform_bind_ok h
  obtain ⟨_, notedSite, hnote, h⟩ := Action.perform_bind_ok h
  obtain rfl := Action.perform_record_ok hnote
  obtain ⟨rfl, rfl⟩ := Action.perform_pure_ok h
  refine ⟨rfl, ?_⟩
  obtain ⟨hcleared, hg'⟩ := outCleared_of_clear hg ha (hw.openRoot hshort) hempty
  have hplace : ∀ p, emptySite.disk.place p = site.disk.place p := Disk.place_of_home hcleared.home
  have hmanual := manualPlace_of_home hcleared.home s
  have hsource : ∀ q, emptySite.disk.tree.get? (site.disk.place s.sourceFolder ++ q) =
      site.disk.tree.get? (site.disk.place s.sourceFolder ++ q) := by
    intro q
    refine hcleared.same _ ?_
    simpa using ((apart_out site.disk s).append [] []).elsewhere q
  have hscaffoldSame : ∀ q, emptySite.disk.tree.get? (manualPlace site.disk s ++ q) =
      site.disk.tree.get? (manualPlace site.disk s ++ q) := by
    intro q
    rw [manualPlace, List.append_assoc]
    exact hsource _
  have hleads : Leads s [] emptySite.disk := by
    refine ⟨fun k hk hout _ => ?_, by simp⟩
    rw [hplace] at hout
    rw [hcleared.same k hout]
    exact hw k ((Disk.onWay_of_home hcleared.home).1 hk)
  have hr := restore_exact hs hsub (by simp) hnd (by simp) hg' (hsettled.of_home hcleared.home) hleads
    (by simpa only [hplace, Disk.onWay_of_home hcleared.home] using hvacant)
    (by simpa only [hplace, Disk.onWay_of_home hcleared.home] using hscaffold) hrestore
  have hthere := hr.there
  have hscaffold' := hr.scaffold
  have hput := hr.put
  have hsame := hr.same
  have hothers := hr.others
  have hrest := hr.rest
  simp only [hplace, hmanual] at hthere hscaffold' hput hsame hothers hrest
  refine ⟨hr.home.trans hcleared.home, fun m hm => ?_, ?_, fun m hm r => ?_, fun m hm => ?_,
    fun q hq hnames hgone => ?_, fun y hy r => ?_, fun k hk hk' => ?_⟩
  · rw [← hsource]
    exact hthere m hm
  · rw [← hsource]
    exact hscaffold'
  · rw [← hsource]
    exact hput m hm r
  · exact hr.left m (.inl (hm.resolve_right (by simp)))
  · rw [← hsource]
    exact hsame q hq hnames hgone
  · rw [← hscaffoldSame]
    exact hothers y hy r
  · exact (hrest k hk hk').trans (hcleared.same k hk')

omit hs in
/-- Where the output could be cleared after the modules were moved, it was a folder whose files all were. -/
theorem moveAll_shifted {u : Unit} {later : Site} (hg : Good site.disk)
    (h : (moveAll s.outFolder s.sourceFolder).perform site = (.ok n, after))
    (hempty : (Action.clearIfPresent s.outFolder).perform after = (.ok u, later)) :
    site.disk.Walked s.root ∧ (∀ x ∈ s.root.moves, Tree.Short x) ∧
      Disk.acceptPath s.outFolder = .ok () ∧
      Shifted (site.disk.place s.outFolder) (site.disk.place s.sourceFolder) site.disk after.disk
        n := by
  obtain ⟨ho, ha, ⟨hfolder, hshift⟩ | ⟨hne, hhold, rfl⟩⟩ := moveAll_ok hg h
  · refine ⟨Disk.walked_of_openRoot ho ?_, ho.short, ha, hshift⟩
    rw [Disk.place_along s.outFolder_under.toAlong] at hfolder
    exact Tree.get?_of_append_cons hfolder
  · -- a file in the place of the output cannot be cleared
    rcases clearIfPresent_ok hg hempty with ⟨hnot, -⟩ | ⟨-, hfolder, -⟩
    · rw [hhold] at hnot
      cases hnot
    · exact absurd hfolder hne

/-- Where everything stood during an installation that ended well. -/
theorem install_exact (hg : Good site.disk) (hw : site.disk.Walked s.root)
    (ha : Disk.acceptPath (s.sourceFolder.join s.scaffold) = .ok ()) (hsettled : Settled s site.disk)
    (h : (install s).perform site = (.ok n, after)) : ∃ names, ∃ begun moved : Site,
      Placed s names site.disk begun.disk moved.disk after.disk ∧
      (moveAll s.outFolder s.sourceFolder).perform begun = (.ok n, moved) ∧
      (conclusion s (names.map (parking s)) n).perform moved = (.ok n, after) := by
  have hi := install_ok hs hg h
  obtain ⟨parked, parkedSite, hpark, h⟩ := Action.perform_bind_ok h
  obtain ⟨names, hsub, rfl, hhome₁, hg₁, -⟩ := park_ok hs (fun m hm => hm) hs.nodup hg hpark
  obtain ⟨_, begun, hclear, h⟩ := Action.perform_bind_ok h
  obtain ⟨hhome₂, hg₂, hsame₂⟩ := clearIfPresent_keeps hg₁ hclear
  obtain ⟨n', moved, hmove, hconclude⟩ := Action.perform_bind_ok h
  change (conclusion s (names.map (parking s)) n').perform moved = (.ok n, after) at hconclude
  obtain ⟨_, emptySite, hempty, -⟩ := Action.perform_bind_ok hconclude
  obtain ⟨hwalked, hshort, haout, hshift⟩ := moveAll_shifted hg₂ hmove hempty
  have hhome : begun.disk.home = site.disk.home := hhome₂.trans hhome₁
  have hplace : ∀ p, begun.disk.place p = site.disk.place p := Disk.place_of_home hhome
  have hplace₁ : ∀ p, parkedSite.disk.place p = site.disk.place p := Disk.place_of_home hhome₁
  -- parking and clearing left the way to the root open
  have hopen := hwalked.openRoot hshort
  have hopen₁ := (clearScaffold_ok hs hg₁ hclear).2.2.1 hopen
  obtain ⟨-, hportable, hsame₁⟩ := park_exact hs (fun m hm => hm) hs.nodup hg hw hpark hopen₁
  have hbare := clearIfPresent_gone hg₁ hs.scaffold_under (by decide) ha hclear hopen
  rw [hplace₁, place_scaffold hs] at hbare
  rw [hplace₁, place_scaffold hs] at hsame₂
  simp only [List.append_assoc, List.singleton_append] at hbare
  have hscaffold : ∀ q, ¬ begun.disk.OnWay s.root (begun.disk.place s.sourceFolder ++ "Material" :: q) := by
    intro q hway
    have hthere := hwalked _ hway
    rw [hplace, hbare] at hthere
    cases hthere
  have hportable' : ∀ m ∈ names, Portable s site.disk (s.sourceFolder.under m) (s.manualHome m) :=
    fun m hm => hportable _ (List.mem_map_of_mem hm)
  have hmovedRoot : moved.disk.Walked s.root := fun k hk =>
    hshift.folders k (hwalked k ((Disk.onWay_of_home hshift.home).1 hk))
  have harrived : Arrived s begun.disk moved.disk := by
    refine ⟨hshift.good.plain, hshift.home, hmovedRoot, fun q c hc => ?_⟩
    rw [hshift.merged.into, hc, Option.some_or]
  have hmoving : Moving s begun.disk moved.disk :=
    (replays_moveAll (Z := fun _ => False) harrived (by simp) begun moved n' (.refl hg₂ hwalked) hmove).1
  obtain ⟨rfl, hrestored⟩ := conclusion_exact hs (fun m hm => hsub.subset hm) (hsub.nodup hs.nodup)
    hshift.good haout hmovedRoot hshort (hsettled.of_home (hshift.home.trans hhome))
    (fun m hm n r => by
      have hvacant := (hportable' m hm).vacant n r
      rw [place_parked hs _ (hsub.subset hm), List.append_assoc] at hvacant
      rw [Disk.place_of_home hshift.home, hplace, Disk.onWay_of_home (hshift.home.trans hhome)]
      exact hvacant)
    (fun q => by
      rw [Disk.place_of_home hshift.home, Disk.onWay_of_home hshift.home]
      exact hscaffold q) hconclude
  refine ⟨names, begun, moved, ⟨hsub, hportable', hhome, fun k hk => ?_, hbare, hg₂, hwalked,
    hmoving, hshift.merged, hrestored, fun q => ?_⟩, hmove, hconclude⟩
  · rw [hsame₂ k fun hp => hk ((List.prefix_append _ _).trans hp), hsame₁ k hk]
  · exact Disk.get?_of_no_file hi.good.plain (hi.out q)

end

end IconModules.Installation
