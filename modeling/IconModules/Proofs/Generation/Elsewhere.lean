import IconModules.Proofs.Generation.Installing
import IconModules.Proofs.Generation.Ready

/-! # What the phases of a run leave alone

`Elsewhere P d d'` says that the files at places with the property `P` are on `d'` as they were on `d`. However
it ends,

* preparing the folders leaves everything alone that is not cleared (`keeps_makeReady_elsewhere`),
* installing leaves everything alone outside the sources and the output (`keeps_install_elsewhere`). -/

namespace IconModules

open IconModules.Action (Keeps)
open Installation (Good)

variable {s : Settings} {P : Location → Prop} {d d' : Disk} {old new p : Path}

/-- Files at places with the property `P` are as they were. -/
structure Elsewhere (P : Location → Prop) (d d' : Disk) : Prop where
  good : Good d'
  home : d'.home = d.home
  files : ∀ k, P k → d'.fileAt k = d.fileAt k

theorem Elsewhere.refl (hg : Good d) : Elsewhere P d d :=
  ⟨hg, rfl, fun _ _ => rfl⟩

/-! ### Single actions -/

theorem Elsewhere.makeFolders (h : Elsewhere P d d') (p : Path) :
    Elsewhere P d (d'.makeFolders p).2 := by
  have hgrown := d'.makeFolders_grown h.good.plain p
  refine ⟨⟨hgrown.plain h.good.plain, hgrown.named h.good.named⟩, hgrown.home.trans h.home,
    fun k hk => ?_⟩
  rw [hgrown.fileAt, h.files k hk]

theorem keeps_makeFolders_elsewhere (p : Path) :
    Keeps (fun x => Elsewhere P d x.disk) (Action.makeFolders p) :=
  Keeps.carryOut fun _ h => h.makeFolders p

theorem keeps_clearIfPresent_elsewhere (hp : ∀ k, P k → ¬ d.place p <+: k) :
    Keeps (fun x => Elsewhere P d x.disk) (Action.clearIfPresent p) := by
  intro site h
  rcases hr : (Action.clearIfPresent p).perform site with ⟨r, after⟩
  rcases Installation.clearIfPresent_cases h.good hr with hsame | ⟨-, hc, hgood⟩
  · change Elsewhere P d after.disk
    rw [hsame]
    exact h
  · refine ⟨hgood, hc.home.trans h.home, fun k hk => ?_⟩
    rw [Disk.place_of_home h.home] at hc
    change after.disk.fileAt k = _
    rw [hc.fileAt, if_neg (hp k hk), h.files k hk]

theorem keeps_moveTo_elsewhere (hold : ∀ k, P k → ¬ d.place old <+: k)
    (hnew : ∀ k, P k → ¬ d.place new <+: k) :
    Keeps (fun x => Elsewhere P d x.disk) (Action.moveTo old new) := by
  refine Keeps.moveTo (fun _ _ h => h)
    (Keeps.makeParent fun above _ => keeps_makeFolders_elsewhere above) fun site d' h hmove => ?_
  obtain ⟨hmoved, l, n, hplace, hname, -⟩ := Disk.move_place h.good.plain hmove
  have hnamed := hmoved.named h.good.named ⟨l, n, hplace, hname⟩
  refine ⟨⟨hmoved.plain h.good.plain, hnamed⟩, hmoved.home.trans h.home, fun k hk => ?_⟩
  rw [Disk.place_of_home h.home, Disk.place_of_home h.home] at hmoved
  change d'.fileAt k = _
  rw [hmoved.fileAt, if_neg (hnew k hk), if_neg (hold k hk), h.files k hk]

/-! ### Whole phases -/

namespace Generation

/-- However it ends, preparing the folders changes no file at a place that is not cleared. -/
theorem keeps_makeReady_elsewhere (s : Settings) (d : Disk) :
    Keeps (fun x => Elsewhere (Lasting s d) d x.disk) (makeReady s) := by
  have hrest : Keeps (fun x => Elsewhere (Lasting s d) d x.disk) (do
      Action.makeFolders s.iconsFolder
      Action.clearIfPresent s.outFolder
      Action.makeFolders s.outFolder) :=
    (keeps_makeFolders_elsewhere _).bind fun _ =>
      (keeps_clearIfPresent_elsewhere fun k hk => hk.1).bind fun _ => keeps_makeFolders_elsewhere _
  unfold makeReady
  dsimp only
  split
  · rename_i hpurge
    exact (keeps_clearIfPresent_elsewhere fun k hk => hk.2 hpurge).bind fun _ => hrest
  · exact hrest

end Generation

namespace Installation

/-- However it ends, an installation changes no file outside the sources and the output. -/
theorem keeps_install_elsewhere (hs : s.Standard) (d : Disk) :
    Keeps (fun x => Elsewhere
      (fun k => ¬ d.place s.sourceFolder <+: k ∧ ¬ d.place s.outFolder <+: k) d x.disk)
      (install s) := by
  have hsource : ∀ {p : Path} {names : List String}, Path.Along s.root (["src"] ++ names) p →
      ∀ k, ¬ d.place s.sourceFolder <+: k ∧ ¬ d.place s.outFolder <+: k → ¬ d.place p <+: k := by
    intro p names hp k hk hbelow
    rw [Disk.place_along hp, ← List.append_assoc, ← Disk.place_along s.sourceFolder_under.toAlong]
      at hbelow
    exact hk.1 ((List.prefix_append _ _).trans hbelow)
  have hout : ∀ {p : Path} {names : List String},
      Path.Along s.root (["gen", "tmp", "out"] ++ names) p →
      ∀ k, ¬ d.place s.sourceFolder <+: k ∧ ¬ d.place s.outFolder <+: k → ¬ d.place p <+: k := by
    intro p names hp k hk hbelow
    rw [Disk.place_along hp, ← List.append_assoc, ← Disk.place_along s.outFolder_under.toAlong]
      at hbelow
    exact hk.2 ((List.prefix_append _ _).trans hbelow)
  have hhome : ∀ m ∈ s.manualModules, ∀ k, ¬ d.place s.sourceFolder <+: k ∧
      ¬ d.place s.outFolder <+: k → ¬ d.place (s.manualHome m) <+: k := fun m hm =>
    hsource (hs.manualHome_under hm).toAlong
  have htop : ∀ m ∈ s.manualModules, ∀ k, ¬ d.place s.sourceFolder <+: k ∧
      ¬ d.place s.outFolder <+: k → ¬ d.place (s.sourceFolder.under m) <+: k := fun m hm =>
    hsource (parked_under hs hm).toAlong
  refine keeps_install (fun _ _ h => h) (fun m hm => keeps_moveTo_elsewhere (hhome m hm) (htop m hm))
    (fun m hm => keeps_moveTo_elsewhere (htop m hm) (hhome m hm))
    (keeps_clearIfPresent_elsewhere (hsource hs.scaffold_under.toAlong)) ?_
    (keeps_clearIfPresent_elsewhere fun k hk => hk.2)
  exact keeps_moveAll_along (fun _ h => h.good) fun names old new hold hnew =>
    keeps_moveTo_elsewhere (hout hold) (hsource hnew)

end Installation
end IconModules
