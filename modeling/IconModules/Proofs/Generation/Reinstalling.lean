import IconModules.Proofs.Generation.Placed

/-! # Installing the same modules again

What an installation left, with its output filled as before, is installed to the same disk again
(`install_again`): the modules written by hand are parked again, the scaffold is cleared again, and from there on
the disk is ahead of the one that the first installation moved its modules on, at the places where those are by
now. -/

namespace IconModules.Installation

open Disk (Ahead Apart Switched Walked)
open IconModules.Action (Quiet Replays)

variable {s : Settings} {m : String} {names : List String} {site after again : Site}
  {w b x e z : Disk} {k : Location} {n : Nat} {p : Path}

/-- The disk `z` is `e` with folders on the way to the drawings, and with the output of `w`. -/
structure Refilled (s : Settings) (w e z : Disk) : Prop where
  home : z.home = w.home
  out : ∀ q, z.tree.get? (w.place s.outFolder ++ q) = w.tree.get? (w.place s.outFolder ++ q)
  way : ∀ k, w.OnWay s.iconsFolder k → ¬ w.place s.outFolder <+: k → z.tree.get? k = some .folder
  same : ∀ k, ¬ w.OnWay s.iconsFolder k → ¬ w.place s.outFolder <+: k → z.tree.get? k = e.tree.get? k

/-! ### What the first installation left -/

namespace Placed

variable (h : Placed s names w b x e)
include h

theorem home_moved : x.home = w.home :=
  h.moving.home.trans h.home

theorem home_after : e.home = w.home :=
  h.restored.home.trans h.home_moved

/-- The way to the root does not lead through the scaffold. -/
theorem not_onWay_scaffold (q : List String) :
    ¬ w.OnWay s.root (w.place s.sourceFolder ++ "Material" :: q) := by
  intro hway
  have hthere := h.root _ ((Disk.onWay_of_home h.home).2 hway)
  rw [h.bare] at hthere
  cases hthere

/-- Outside the sources and the output nothing has changed. -/
theorem rest (hk : ¬ w.place s.sourceFolder <+: k) (hk' : ¬ w.place s.outFolder <+: k) :
    e.tree.get? k = w.tree.get? k := by
  have hplace : ∀ p, x.place p = w.place p := Disk.place_of_home h.home_moved
  have hplace' : ∀ p, b.place p = w.place p := Disk.place_of_home h.home
  rw [h.restored.rest k (by rw [hplace]; exact hk) (by rw [hplace]; exact hk'),
    h.moving.rest k (by rw [hplace']; exact hk) (by rw [hplace']; exact hk'), h.same k hk]

/-- The output was as it is when its files began to be moved. -/
theorem out_before (q : Location) :
    b.tree.get? (w.place s.outFolder ++ q) = w.tree.get? (w.place s.outFolder ++ q) := by
  refine h.same _ ?_
  simpa using ((apart_out w s).append [] []).symm.elsewhere q

/-- What stands in the scaffold after the modules were moved is one of them, or leads to one. -/
theorem moved_scaffold {q : List String}
    (hfree : ∀ r, w.fileAt (w.place s.outFolder ++ "Material" :: (q ++ r)) = none) :
    x.tree.get? (w.place s.sourceFolder ++ "Material" :: q) = none := by
  have hplace : ∀ p, b.place p = w.place p := Disk.place_of_home h.home
  apply Classical.byContradiction
  intro hne
  rw [← hplace] at hne
  rcases h.moving.source _ hne with hb | ⟨r, hr⟩
  · rw [hplace] at hb
    exact hb (h.bare q)
  · rw [hplace, Disk.fileAt_congr (h.out_before _)] at hr
    exact hr (hfree r)

/-- No file stands in the place of the scaffold if the output holds none there. -/
theorem scaffold_after (hfree : w.fileAt (w.place s.outFolder ++ ["Material"]) = none) :
    e.tree.get? (w.place s.sourceFolder ++ ["Material"]) = none ∨
      e.tree.get? (w.place s.sourceFolder ++ ["Material"]) = some .folder := by
  have hplace : ∀ p, x.place p = w.place p := Disk.place_of_home h.home_moved
  have hplace' : ∀ p, b.place p = w.place p := Disk.place_of_home h.home
  have hscaffold := h.restored.scaffold
  rw [hplace] at hscaffold
  rcases hscaffold with hfolder | hsame
  · exact .inr hfolder
  · have hbefore := Disk.fileAt_nowhere (h.bare []) []
    rw [List.append_nil] at hbefore
    have hnone := h.merged.into ["Material"]
    rw [hplace', hplace', Disk.fileAt_congr (h.out_before _), hfree, hbefore] at hnone
    rw [hsame]
    exact Disk.get?_of_no_file h.moving.good.plain hnone

end Placed

/-! ### With the output filled again -/

theorem onWay_icons_source {d : Disk} {q : List String}
    (h : d.OnWay s.iconsFolder (d.place s.sourceFolder ++ q)) :
    d.OnWay s.root (d.place s.sourceFolder ++ q) := by
  rcases (Disk.onWay_along_iff s.iconsFolder_under.toAlong).1 h with hroot | ⟨more, hmore, he⟩
  · exact hroot
  · rw [Disk.place_along s.sourceFolder_under.toAlong, List.append_assoc] at he
    obtain rfl := List.append_cancel_left he
    simp at hmore

namespace Refilled

variable (h : Placed s names w b x e) (hz : Refilled s w e z)
include hz

theorem source_way {q : List String} (hq : w.OnWay s.root (w.place s.sourceFolder ++ q)) :
    z.tree.get? (w.place s.sourceFolder ++ q) = some .folder := by
  refine hz.way _ ((Disk.onWay_along_iff s.iconsFolder_under.toAlong).2 (.inl hq)) ?_
  simpa using ((apart_out w s).append [] []).elsewhere q

theorem source {q : List String} (hq : ¬ w.OnWay s.root (w.place s.sourceFolder ++ q)) :
    z.tree.get? (w.place s.sourceFolder ++ q) = e.tree.get? (w.place s.sourceFolder ++ q) := by
  refine hz.same _ (fun hway => hq (onWay_icons_source hway)) ?_
  simpa using ((apart_out w s).append [] []).elsewhere q

theorem walked (hw : w.Walked s.root) : z.Walked s.root := by
  intro k hk
  rw [Disk.onWay_of_home hz.home] at hk
  by_cases hout : w.place s.outFolder <+: k
  · obtain ⟨q, rfl⟩ := hout
    rw [hz.out, hw _ hk]
  · exact hz.way k ((Disk.onWay_along_iff s.iconsFolder_under.toAlong).2 (.inl hk)) hout

theorem plain (hw : w.tree.Plain) (he : e.tree.Plain) : z.tree.Plain := by
  intro k target
  by_cases hout : w.place s.outFolder <+: k
  · obtain ⟨q, rfl⟩ := hout
    rw [hz.out]
    exact hw _ _
  · by_cases hway : w.OnWay s.iconsFolder k
    · rw [hz.way k hway hout]
      simp
    · rw [hz.same k hway hout]
      exact he k target

include h

theorem scaffold (q : List String) : z.tree.get? (w.place s.sourceFolder ++ "Material" :: q) =
    e.tree.get? (w.place s.sourceFolder ++ "Material" :: q) :=
  hz.source (h.not_onWay_scaffold q)

theorem manual (q : List String) :
    z.tree.get? (manualPlace w s ++ q) = e.tree.get? (manualPlace w s ++ q) := by
  rw [manualPlace, List.append_assoc]
  exact hz.scaffold h _

/-- A module that was put back is home. -/
theorem put (hm : m ∈ names) (r : List String) : z.tree.get? (manualPlace w s ++ m :: r) =
    x.tree.get? (w.place s.sourceFolder ++ m :: r) := by
  have hput := h.restored.put m hm r
  have hplace := Disk.place_of_home h.home_moved s.sourceFolder
  rw [manualPlace, hplace, ← manualPlace] at hput
  rw [hz.manual h, hput]

variable (hs : s.Standard)
include hs

/-- It can be parked again. -/
theorem awaited (hm : m ∈ names) : Awaited s z m := by
  have hportable := h.portable m hm
  have hx : ∀ p, x.place p = w.place p := Disk.place_of_home h.home_moved
  have hthere := h.restored.there m hm
  rw [hx] at hthere
  have hvacant : ∀ n r, ¬ w.OnWay s.root (w.place s.sourceFolder ++ m :: n :: r) := by
    intro n r
    have hnot := hportable.vacant n r
    rwa [place_parked hs _ (h.sublist.subset hm), List.append_assoc] at hnot
  have hleft : Left s e m := h.restored.left m (.inl hm)
  unfold Left at hleft
  rw [Disk.place_of_home h.home_after] at hleft
  simp only [Disk.onWay_of_home h.home_after] at hleft
  refine ⟨hportable.of_home hz.home.symm, ?_, ?_⟩
  · rw [manualPlace_of_home hz.home, hz.put h hm]
    exact hthere
  · rw [manualPlace_of_home hz.home, Disk.place_of_home hz.home]
    by_cases hway : w.OnWay s.root (w.place s.sourceFolder ++ [m])
    · -- the way to the root goes on from where the module was
      refine .inr ⟨?_, hz.source_way hway, fun n => ?_⟩
      · rw [hz.put h hm]
        exact h.moving.root _ ((Disk.onWay_of_home h.home_moved).2 hway)
      · rw [hz.source (hvacant n [])]
        exact (hleft [n]).resolve_right (by simp)
    · rw [hz.source hway]
      exact .inl ((hleft []).resolve_right fun hfolder => hway hfolder.2.2)

omit hs in
/-- A module that was missing is missing still. -/
theorem missing (hm : m ∉ names)
    (hfree : ∀ r, w.fileAt (w.place s.outFolder ++ "Material" :: "Icons" :: m :: r) = none) :
    z.tree.get? (manualPlace w s ++ [m]) = none := by
  have hother := h.restored.others m hm []
  have hplace := Disk.place_of_home h.home_moved s.sourceFolder
  rw [manualPlace, hplace, ← manualPlace] at hother
  rw [hz.manual h, hother, manualPlace, List.append_assoc]
  exact @Placed.moved_scaffold s names w b x e h ["Icons", m] hfree

end Refilled

/-! ### The phases again -/

/-- A folder is removed where its path can be used and the way to the root does not lead through what it holds. -/
theorem clearIfPresent_of_way {ns : List String} (ht : site.disk.tree.Plain)
    (hp : Path.Under s.root ns p) (hu : site.disk.Usable s.root ns p)
    (hway : ∀ n rest, ¬ site.disk.OnWay s.root (site.disk.place p ++ n :: rest))
    (h : site.disk.tree.get? (site.disk.place p) = none ∨
      site.disk.tree.get? (site.disk.place p) = some .folder) :
    ∃ after : Site, (Action.clearIfPresent p).perform site = (.ok (), after) ∧
      after.disk.home = site.disk.home ∧ after.journal = site.journal ∧
      ∀ k, after.disk.tree.get? k =
        if site.disk.place p <+: k then none else site.disk.tree.get? k := by
  unfold Action.clearIfPresent
  simp only [Action.perform_holds_bind]
  rcases h with hnone | hfolder
  · have hholds : ¬ site.disk.holds p = true := fun hholds =>
      ((Disk.holds_usable_iff ht hp).1 hholds).2 hnone
    rw [if_neg hholds]
    refine ⟨site, rfl, rfl, rfl, fun k => ?_⟩
    split
    · rename_i hk
      obtain ⟨q, rfl⟩ := hk
      cases q with
      | nil => rwa [List.append_nil]
      | cons n q => exact Tree.get?_append_cons_of_ne (by simp [hnone])
    · rfl
  · have hholds : site.disk.holds p = true :=
      (Disk.holds_usable_iff ht hp).2 ⟨hu, by simp [hfolder]⟩
    have hfind : site.disk.find false p = .ok (site.disk.place p, .folder) :=
      (Disk.find_usable_iff ht hp).2 ⟨hu, rfl, hfolder⟩
    obtain ⟨hnone, hget⟩ := Disk.clear_of_find ht hp hway hfind
    have hhome := (Disk.clear_of_found ht hp hfind).2.home
    rw [if_pos hholds, Action.perform_carryOut, hnone]
    exact ⟨_, rfl, hhome, rfl, hget⟩

/-- The places where the modules are in the end: among the sources, but not in the scaffold. -/
def AtTop (s : Settings) (d : Disk) (k : Location) : Prop :=
  d.place s.sourceFolder <+: k ∧ ¬ d.place s.sourceFolder ++ ["Material"] <+: k

section

variable (h : Placed s names w b x e) (hz : Refilled s w e z)
include h hz

/-- When the modules are parked again and the scaffold is cleared, the other modules are in their places
already, and all else is as it was then. -/
theorem ahead_of_cleared {z₁ y : Disk} (hw : w.Walked s.iconsFolder)
    (hpark : Switched (manualPlace w s) (w.place s.sourceFolder) names z z₁) (hhome : y.home = z₁.home)
    (hy : ∀ k, y.tree.get? k =
      if w.place s.sourceFolder ++ ["Material"] <+: k then none else z₁.tree.get? k) :
    Ahead (AtTop s w) x b y := by
  have hx : ∀ p, x.place p = w.place p := Disk.place_of_home h.home_moved
  have hmanual : ∀ m : String, manualPlace w s ++ [m] =
      w.place s.sourceFolder ++ ["Material", "Icons", m] := by
    intro m
    simp [manualPlace]
  refine ⟨hhome.trans (hpark.home.trans (hz.home.trans h.home.symm)), fun k hk => ?_, fun k hk => ?_⟩
  · obtain ⟨⟨q, rfl⟩, hnot⟩ := hk
    have hq : ¬ ["Material"] <+: q := fun hp => hnot ((List.prefix_append_right_inj _).2 hp)
    rw [hy, if_neg hnot]
    by_cases hparked : ∃ m ∈ names, [m] <+: q
    · obtain ⟨m, hm, r, rfl⟩ := hparked
      exact (hpark.into m hm r).trans (hz.put h hm r)
    · rw [hpark.rest _ fun m hm => ⟨fun hp => ?_, fun hp => ?_⟩]
      · by_cases hway : w.OnWay s.root (w.place s.sourceFolder ++ q)
        · rw [hz.source_way hway]
          exact (h.moving.root _ ((Disk.onWay_of_home h.home_moved).2 hway)).symm
        · have hsame := h.restored.same q hq (fun m hm hp => hparked ⟨m, hm, hp⟩) (by simp)
          rw [hx] at hsame
          rw [hz.source hway, hsame]
      · rw [hmanual, List.prefix_append_right_inj] at hp
        exact hq ((show ["Material"] <+: ["Material", "Icons", m] from ⟨_, rfl⟩).trans hp)
      · rw [List.prefix_append_right_inj] at hp
        exact hparked ⟨m, hm, hp⟩
  · by_cases hscaffold : w.place s.sourceFolder ++ ["Material"] <+: k
    · rw [hy, if_pos hscaffold]
      obtain ⟨q, rfl⟩ := hscaffold
      rw [List.append_assoc]
      exact (h.bare q).symm
    · have hsrc : ¬ w.place s.sourceFolder <+: k := fun hp => hk ⟨hp, hscaffold⟩
      have hnot : ∀ l, ¬ w.place s.sourceFolder ++ l <+: k :=
        fun l hp => hsrc ((List.prefix_append _ _).trans hp)
      rw [hy, if_neg hscaffold, hpark.rest k fun m _ => ⟨by rw [hmanual]; exact hnot _, hnot _⟩,
        h.same k hsrc]
      by_cases hout : w.place s.outFolder <+: k
      · obtain ⟨q, rfl⟩ := hout
        exact hz.out q
      · by_cases hway : w.OnWay s.iconsFolder k
        · rw [hz.way k hway hout, hw k hway]
        · rw [hz.same k hway hout, h.rest hsrc hout]

/-- Nothing but a folder stands in the place of the scaffold when the modules are parked again. -/
theorem scaffold_of_parked {z₁ : Disk}
    (hpark : Switched (manualPlace w s) (w.place s.sourceFolder) names z z₁)
    (hnames : ∀ m ∈ names, m ≠ "Material")
    (hfree : w.fileAt (w.place s.outFolder ++ ["Material"]) = none) :
    z₁.tree.get? (w.place s.sourceFolder ++ ["Material"]) = none ∨
      z₁.tree.get? (w.place s.sourceFolder ++ ["Material"]) = some .folder := by
  rw [hpark.rest _ fun m hm => ⟨by simp [manualPlace], by simpa using hnames m hm⟩,
    @Refilled.scaffold s names w b x e z h hz []]
  exact h.scaffold_after hfree

end

/-! ### The whole installation again -/

theorem replays_conclusion (parked : List (Path × Path)) (n : Nat) :
    Replays false (fun _ => True) (fun _ => True) Eq (conclusion s parked n) (conclusion s parked n) :=
  Replays.clearIfPresent_same.bind fun _ => (replays_restore fun _ _ => Replays.moveTo_same).bind fun _ =>
    (Replays.note _).bind fun _ => Replays.pure _

/-- What is installed a second time, onto what the first installation left, leaves the same again. -/
theorem install_again (hs : s.Standard) {begun moved : Site}
    (h : Placed s names w begun.disk moved.disk after.disk)
    (hmove : (moveAll s.outFolder s.sourceFolder).perform begun = (.ok n, moved))
    (hconclude : (conclusion s (names.map (parking s)) n).perform moved = (.ok n, after))
    (hg : Good w) (he : after.disk.tree.Plain) (hw : w.Walked s.iconsFolder)
    (hshort : ∀ x ∈ s.root.moves, Tree.Short x)
    (ha : Disk.acceptPath (s.sourceFolder.join s.scaffold) = .ok ())
    (hfree : w.fileAt (w.place s.outFolder ++ ["Material"]) = none)
    (hmanual : ∀ m ∈ s.manualModules, ∀ r,
      w.fileAt (w.place s.outFolder ++ "Material" :: "Icons" :: m :: r) = none)
    (hz : Refilled s w after.disk again.disk) :
    ∃ later : Site, (install s).perform again = (.ok n, later) ∧ later.disk = after.disk ∧
      Quiet again.journal later.journal := by
  have hplace : ∀ p, again.disk.place p = w.place p := Disk.place_of_home hz.home
  have hmanualPlace := manualPlace_of_home hz.home s
  have hroot : w.Walked s.root := ((Disk.walked_iff s.iconsFolder_under.toAlong).1 hw).1
  -- the modules are parked
  obtain ⟨parkedSite, hpark, hswitched, hwalked, hquiet⟩ := park_again hs (fun m hm => hm) hs.nodup
    h.sublist again (hz.plain hg.plain he) (hz.walked hroot) hshort
    (fun q => by
      rw [hplace, Disk.onWay_of_home hz.home]
      exact h.not_onWay_scaffold q)
    (fun m hm => hz.awaited h hs hm) fun m hm hnot => by
      rw [hmanualPlace]
      exact hz.missing h hnot (hmanual m hm)
  rw [hmanualPlace, hplace] at hswitched
  have hhome : parkedSite.disk.home = w.home := hswitched.home.trans hz.home
  have hplace' : ∀ p, parkedSite.disk.place p = w.place p := Disk.place_of_home hhome
  have hplaceScaffold : parkedSite.disk.place (s.sourceFolder.join s.scaffold) =
      w.place s.sourceFolder ++ ["Material"] := by
    rw [place_scaffold hs, hplace']
  -- the scaffold is cleared
  obtain ⟨clearedSite, hclear, hhome', hjournal, hget⟩ := clearIfPresent_of_way
    (hswitched.plain (hz.plain hg.plain he)) hs.scaffold_under
    ⟨ha, hwalked.openRoot hshort, by decide⟩
    (fun n rest => by
      rw [hplaceScaffold, Disk.onWay_of_home hhome, List.append_assoc]
      exact h.not_onWay_scaffold _)
    (by
      rw [hplaceScaffold]
      exact scaffold_of_parked h hz hswitched
        (fun m hm => manual_ne_scaffold hs (h.sublist.subset hm)) hfree)
  rw [hplaceScaffold] at hget
  -- from here on the modules are where they will be
  have hahead := ahead_of_cleared h hz hw hswitched hhome' hget
  obtain ⟨movedAgain, hmove', hend, hquiet'⟩ := ((replays_moveAll
    (arrived_of_merged h.moving h.merged) fun k hk => by
      rw [Disk.place_of_home h.home]
      exact hk.1) begun moved n (.refl h.good h.root) hmove).2 trivial |>.2 clearedSite hahead
  have hsame : moved.disk = movedAgain.disk := by
    refine Disk.ext_get? hend.home.symm fun k => ?_
    by_cases hk : AtTop s w k
    · exact (hend.ahead k hk).symm
    · exact (hend.same k hk).symm
  obtain ⟨later, hconclude', hlater, hquiet''⟩ :=
    ((replays_conclusion _ n) moved after n trivial hconclude).2 trivial |>.2 movedAgain hsame
  refine ⟨later, ?_, hlater.symm, hquiet.trans ((hjournal ▸ hquiet' rfl).trans (hquiet'' rfl))⟩
  exact Action.perform_bind_of_ok hpark (Action.perform_bind_of_ok hclear
    (Action.perform_bind_of_ok hmove' hconclude'))

end IconModules.Installation
