import IconModules.Proofs.Files.Carried
import IconModules.Proofs.Generation.Installed

/-! # Installations that end anywhere

No phase of an installation undoes another that failed, so what is kept has to hold after every step.

* Parking, moving and restoring carry files along ways (`keeps_moveTo`), each phase along its own.
* `Parked` holds from the end of the parking to the restoring: the modules written by hand are at the top
  of the sources, and a generated file is below the output or already below the sources.
* `install_loses_nothing` follows the phases to where the installation ends. -/

namespace IconModules.Installation

open IconModules.Action (Keeps)
open Disk (Apart Carried Merged Separate)

variable {s : Settings} {site after : Site} {d₀ d : Disk} {ways : List (Location × Location)}
  {x : Location × Location} {old new p : Path} {l : Location}

/-! ### Moves along ways -/

/-- A disk on which files were only carried along some ways. -/
structure Kept (ways : List (Location × Location)) (d₀ d : Disk) : Prop where
  good : Good d
  home : d.home = d₀.home
  carried : Carried ways d₀ d

theorem Kept.refl (hg : Good d) (ways : List (Location × Location)) : Kept ways d d :=
  ⟨hg, rfl, .refl _ _⟩

theorem keeps_moveTo (hw : Separate ways) (hx : x ∈ ways) (hold : d₀.place old = x.1 ++ l)
    (hnew : d₀.place new = x.2 ++ l) :
    Keeps (fun site => Kept ways d₀ site.disk) (Action.moveTo old new) := by
  refine Keeps.moveTo (fun _ _ h => h) (Keeps.makeParent fun above _ => ?_) fun site d h hd => ?_
  · refine Keeps.carryOut fun site h => ?_
    have hgrown := site.disk.makeFolders_grown h.good.plain above
    exact ⟨⟨hgrown.plain h.good.plain, hgrown.named h.good.named⟩, hgrown.home.trans h.home,
      h.carried.of_fileAt_eq hgrown.fileAt⟩
  · obtain ⟨hmoved, lb, n, hplace, hname, -⟩ := Disk.move_place h.good.plain hd
    have hnamed := hmoved.named h.good.named ⟨lb, n, hplace, hname⟩
    rw [Disk.place_of_home h.home, Disk.place_of_home h.home, hold, hnew] at hmoved
    have hab : Apart (x.1 ++ l) (x.2 ++ l) := (hw x hx x hx).1.append l l
    exact ⟨⟨hmoved.plain h.good.plain, hnamed⟩, hmoved.home.trans h.home,
      h.carried.merged hw hx (hmoved.merged h.good.plain hab)⟩

/-- The ways on which modules written by hand are parked. -/
def parkingWays (d : Disk) (s : Settings) (ms : List String) : List (Location × Location) :=
  ms.map fun m => (manualPlace d s ++ [m], d.place s.sourceFolder ++ [m])

section

variable {ms : List String}

theorem mem_parkingWays {m : String} (hm : m ∈ ms) :
    (manualPlace d s ++ [m], d.place s.sourceFolder ++ [m]) ∈ parkingWays d s ms :=
  List.mem_map.2 ⟨m, hm, rfl⟩

theorem mem_restoringWays {m : String} (hm : m ∈ ms) :
    (d.place s.sourceFolder ++ [m], manualPlace d s ++ [m]) ∈ (parkingWays d s ms).map Prod.swap :=
  List.mem_map.2 ⟨_, mem_parkingWays hm, rfl⟩

variable (hs : s.Standard) (d₀ : Disk) (hsub : ∀ m ∈ ms, m ∈ s.manualModules)
include hs hsub

theorem separate_parkingWays : Separate (parkingWays d₀ s ms) := by
  intro x hx y hy
  obtain ⟨m, hm, rfl⟩ := List.mem_map.1 hx
  obtain ⟨m', hm', rfl⟩ := List.mem_map.1 hy
  refine ⟨apart_manual hs (hsub m' hm'), fun hne => ?_⟩
  have hne' : m ≠ m' := fun e => hne (by rw [e])
  exact ⟨Disk.apart_of_ne hne', Disk.apart_of_ne hne'⟩

theorem keeps_park_ways {l : List String} (hl : ∀ m ∈ l, m ∈ ms) :
    Keeps (fun site => Kept (parkingWays d₀ s ms) d₀ site.disk) (park s l) := by
  refine keeps_park (fun _ _ h => h) fun m hm => ?_
  refine keeps_moveTo (l := []) (separate_parkingWays hs d₀ hsub) (mem_parkingWays (hl m hm)) ?_ ?_
  · rw [place_manualHome hs _ (hsub m (hl m hm)), List.append_nil]
  · rw [place_parked hs _ (hsub m (hl m hm)), List.append_nil]

theorem keeps_restore_ways {parked : List (Path × Path)}
    (hparked : ∀ x ∈ parked, ∃ m ∈ ms, x = parking s m) :
    Keeps (fun site => Kept ((parkingWays d₀ s ms).map Prod.swap) d₀ site.disk)
      (restore parked) := by
  refine keeps_restore fun x hx => ?_
  obtain ⟨m, hm, rfl⟩ := hparked x hx
  refine keeps_moveTo (l := []) (separate_parkingWays hs d₀ hsub).swap (mem_restoringWays hm) ?_ ?_
  · rw [parking, place_parked hs _ (hsub m hm), List.append_nil]
  · rw [parking, place_manualHome hs _ (hsub m hm), List.append_nil]

end

/-- Wherever moving the assembled modules is broken off, they are on the way from the output to the
sources. -/
theorem keeps_moveAll_ways (s : Settings) (d₀ : Disk) :
    Keeps (fun site => Kept [(d₀.place s.outFolder, d₀.place s.sourceFolder)] d₀ site.disk)
      (moveAll s.outFolder s.sourceFolder) := by
  refine keeps_moveAll_along (fun _ h => h.good) fun names old new hold hnew => ?_
  refine keeps_moveTo (l := names) (Disk.separate_singleton (apart_out d₀ s)) List.mem_cons_self ?_ ?_
  · rw [Disk.place_along hold, Disk.place_along s.outFolder_under.toAlong, List.append_assoc]
  · rw [Disk.place_along hnew, Disk.place_along s.sourceFolder_under.toAlong, List.append_assoc]

/-! ### Between the phases -/

/-- The modules written by hand are parked, and each generated file is below the output or at the same
place below the sources. -/
structure Parked (s : Settings) (d₀ d : Disk) : Prop where
  good : Good d
  home : d.home = d₀.home
  manual : ∀ m, Held d₀ s m → ∀ c, d₀.fileAt (manualPlace d₀ s ++ [m]) = some c →
    d.fileAt (d₀.place s.sourceFolder ++ [m]) = some c
  generated : ∀ q c, d₀.fileAt (d₀.place s.outFolder ++ q) = some c →
    d.fileAt (d₀.place s.outFolder ++ q) = some c ∨
      d.fileAt (d₀.place s.sourceFolder ++ q) = some c

/-- Each module written by hand is in its place or parked, and each generated file is below the output or
at the same place below the sources. -/
structure Safe (s : Settings) (d₀ d : Disk) : Prop where
  manual : ∀ m, Held d₀ s m → ∀ c, d₀.fileAt (manualPlace d₀ s ++ [m]) = some c →
    d.fileAt (manualPlace d₀ s ++ [m]) = some c ∨
      d.fileAt (d₀.place s.sourceFolder ++ [m]) = some c
  generated : ∀ q c, d₀.fileAt (d₀.place s.outFolder ++ q) = some c →
    d.fileAt (d₀.place s.outFolder ++ q) = some c ∨
      d.fileAt (d₀.place s.sourceFolder ++ q) = some c

theorem Parked.safe (h : Parked s d₀ d) : Safe s d₀ d :=
  ⟨fun m hm c hc => .inr (h.manual m hm c hc), h.generated⟩

/-- Parking does not reach the output. -/
theorem off_parkingWays (d : Disk) (s : Settings) (ms : List String) (q : Location) :
    ∀ x ∈ parkingWays d s ms, ¬ x.1 <+: d.place s.outFolder ++ q ∧
      ¬ x.2 <+: d.place s.outFolder ++ q := by
  intro x hx
  obtain ⟨m, -, rfl⟩ := List.mem_map.1 hx
  constructor
  · simpa [manualPlace] using
      ((apart_out d s).append [] ["Material", "Icons", m]).symm.elsewhere q
  · simpa using ((apart_out d s).append [] [m]).symm.elsewhere q

theorem safe_of_parking (h : Kept (parkingWays d₀ s s.manualModules) d₀ d) : Safe s d₀ d := by
  refine ⟨fun m hm c hc => ?_, fun q c hc => .inl ?_⟩
  · have harrived := h.carried.arrived (mem_parkingWays hm.1) (q := []) (c := c)
    simp only [List.append_nil] at harrived
    exact harrived hc
  · rw [h.carried.rest _ (off_parkingWays d₀ s _ q), hc]

section

variable {m : String} {c : Octets} {u : Unit} (hs : s.Standard) (hg : Good site.disk)
  (hm : Held site.disk s m) (hc : site.disk.fileAt (manualPlace site.disk s ++ [m]) = some c)
  (h : (Action.moveTo (s.manualHome m) (s.sourceFolder.under m)).perform site = (.ok u, after))
include hs hg hm hc h

/-- A module that was parked is at the top of the sources. -/
theorem parked_at_top : after.disk.fileAt (site.disk.place s.sourceFolder ++ [m]) = some c ∧
    after.disk.fileAt (manualPlace site.disk s ++ [m]) = none := by
  have hmerged := moveTo_merged hg h (by
    rw [place_manualHome hs _ hm.1, place_parked hs _ hm.1]
    exact apart_manual hs hm.1)
  rw [place_manualHome hs _ hm.1, place_parked hs _ hm.1] at hmerged
  have hinto := hmerged.into []
  have hout := hmerged.out []
  simp only [List.append_nil] at hinto hout
  rw [hinto, hc, Option.some_or]
  exact ⟨rfl, hout⟩

/-- Parking a file neither hides nor uncovers another module. -/
theorem held_iff_of_parked {m' : String} (hne : m ≠ m') :
    Held after.disk s m' ↔ Held site.disk s m' := by
  have hfolders := moveTo_folders hg (by rw [place_manualHome hs _ hm.1, hc]) h
  obtain ⟨-, -, -, hhome, -⟩ := moveTo_ok hg h
  have hopen := ((Disk.holds_iff hg.plain (hs.manualHome_under hm.1)).1 hm.2).2.1
  have hopen' : after.disk.OpenRoot s.root := hopen.of_folders hhome hfolders
  exact and_congr_right fun hm' => holds_of_parked hs hg hm.1 hm' hne hm.2 h hopen'

end

/-- The modules written by hand that are found, and are files, are at the top of the sources once they
are parked, and no others are parked. -/
theorem park_parks {ms : List String} (hs : s.Standard) (hsub : ∀ m ∈ ms, m ∈ s.manualModules)
    (hnd : ms.Nodup) (hg : Good site.disk)
    (hfiles : ∀ m ∈ ms, site.disk.tree.get? (manualPlace site.disk s ++ [m]) ≠ some .folder)
    {parked : List (Path × Path)} (h : (park s ms).perform site = (.ok parked, after)) :
    (∀ m ∈ ms, Held site.disk s m → ∀ c,
      site.disk.fileAt (manualPlace site.disk s ++ [m]) = some c →
      after.disk.fileAt (site.disk.place s.sourceFolder ++ [m]) = some c) ∧
    ∀ x ∈ parked, ∃ m ∈ ms, Held site.disk s m ∧ x = parking s m := by
  induction ms generalizing site parked after with
  | nil =>
    obtain ⟨rfl, -⟩ := Action.perform_pure_ok h
    simp
  | cons m ms ih =>
    have hm := hsub m List.mem_cons_self
    have hsub' : ∀ m ∈ ms, m ∈ s.manualModules := fun x hx => hsub x (List.mem_cons_of_mem _ hx)
    obtain ⟨hnot, hnd'⟩ := List.nodup_cons.1 hnd
    have hfiles' := fun x hx => hfiles x (List.mem_cons_of_mem m hx)
    rcases park_cons_ok h with ⟨hholds, u, mid, rest, hmove, hrest, rfl⟩ | ⟨hmissing, hrest⟩
    · -- the module is there, as a file, and is moved
      have hheld : Held site.disk s m := ⟨hm, hholds⟩
      obtain ⟨c₀, hc₀⟩ := fileAt_of_held hs hg hheld (hfiles m List.mem_cons_self)
      obtain ⟨htop, hgone⟩ := parked_at_top hs hg hheld hc₀ hmove
      obtain ⟨-, -, -, hhome, hgmid⟩ := moveTo_ok hg hmove
      have hplace : ∀ p, mid.disk.place p = site.disk.place p := Disk.place_of_home hhome
      have hmanual := manualPlace_of_home hhome s
      have hne : ∀ x ∈ ms, m ≠ x := fun x hx e => hnot (e ▸ hx)
      have hsame : ∀ x ∈ ms, mid.disk.tree.get? (manualPlace site.disk s ++ [x]) =
          site.disk.tree.get? (manualPlace site.disk s ++ [x]) := fun x hx =>
        get?_of_parked hs hg hm (hne x hx) hholds hmove
      have hiff : ∀ x ∈ ms, Held mid.disk s x ↔ Held site.disk s x := fun x hx =>
        held_iff_of_parked hs hg hheld hc₀ hmove (hne x hx)
      obtain ⟨htops, hparked⟩ := ih hsub' hnd' hgmid
        (fun x hx => by rw [hmanual, hsame x hx]; exact hfiles' x hx) hrest
      rw [hmanual, hplace] at htops
      refine ⟨fun x hx hxheld c hc => ?_, fun y hy => ?_⟩
      · rcases List.mem_cons.1 hx with rfl | hx
        · -- later moves do not bring it back
          have hkept := keeps_park_ways hs mid.disk (fun _ hm => hm) hsub' mid (Kept.refl hgmid _)
          rw [hrest] at hkept
          have hstay := hkept.carried.stayed (mem_parkingWays hm) (q := []) (c := c)
          simp only [List.append_nil, hmanual, hplace] at hstay
          obtain rfl := Option.some.inj (hc₀.symm.trans hc)
          exact hstay hgone htop
        · refine htops x hx ((hiff x hx).2 hxheld) c ?_
          rw [Disk.fileAt_congr (hsame x hx), hc]
      · rcases List.mem_cons.1 hy with rfl | hy
        · exact ⟨m, List.mem_cons_self, hheld, rfl⟩
        · obtain ⟨x, hx, hxheld, rfl⟩ := hparked y hy
          exact ⟨x, List.mem_cons_of_mem _ hx, (hiff x hx).1 hxheld, rfl⟩
    · -- the module is missing
      obtain ⟨htops, hparked⟩ := ih hsub' hnd' (by exact hg) (by exact hfiles') hrest
      refine ⟨fun x hx hxheld => ?_, fun y hy => ?_⟩
      · rcases List.mem_cons.1 hx with rfl | hx
        · exact absurd hxheld.2 (by simp [hmissing])
        · exact htops x hx hxheld
      · obtain ⟨x, hx, hxheld, rfl⟩ := hparked y hy
        exact ⟨x, List.mem_cons_of_mem _ hx, hxheld, rfl⟩

/-! ### The phases in turn -/

section

variable (hs : s.Standard)
include hs

theorem parked_of_park (hg : Good site.disk)
    (hfiles : ∀ m ∈ s.manualModules,
      site.disk.tree.get? (manualPlace site.disk s ++ [m]) ≠ some .folder)
    {parked : List (Path × Path)}
    (h : (park s s.manualModules).perform site = (.ok parked, after)) :
    Parked s site.disk after.disk ∧
      (∀ q, after.disk.fileAt (site.disk.place s.outFolder ++ q) =
        site.disk.fileAt (site.disk.place s.outFolder ++ q)) ∧
      ∀ x ∈ parked, ∃ m, Held site.disk s m ∧ x = parking s m := by
  have hkept := keeps_park_ways hs site.disk (fun _ hm => hm) (fun _ hm => hm) site (Kept.refl hg _)
  rw [h] at hkept
  have hout : ∀ q, after.disk.fileAt (site.disk.place s.outFolder ++ q) =
      site.disk.fileAt (site.disk.place s.outFolder ++ q) := fun q =>
    hkept.carried.rest _ (off_parkingWays _ s _ q)
  obtain ⟨htops, hparked⟩ := park_parks hs (fun m hm => hm) hs.nodup hg hfiles h
  refine ⟨⟨hkept.good, hkept.home, fun m hm c hc => ?_, fun q c hc => .inl ?_⟩, hout,
    fun x hx => ?_⟩
  · exact htops m hm.1 hm c hc
  · rw [hout, hc]
  · obtain ⟨m, -, hm, rfl⟩ := hparked x hx
    exact ⟨m, hm, rfl⟩

/-- Clearing the scaffold reaches neither the top of the sources nor the output. -/
theorem parked_of_clearScaffold (hp : Parked s d₀ site.disk)
    (hout : ∀ q, site.disk.fileAt (d₀.place s.outFolder ++ q) =
      d₀.fileAt (d₀.place s.outFolder ++ q)) {r : Except Failure Unit}
    (h : (Action.clearIfPresent (s.sourceFolder.join s.scaffold)).perform site = (r, after)) :
    Parked s d₀ after.disk ∧
      ∀ q, after.disk.fileAt (d₀.place s.outFolder ++ q) =
        d₀.fileAt (d₀.place s.outFolder ++ q) := by
  rcases clearIfPresent_cases hp.good h with hsame | ⟨-, hc, hgood⟩
  · rw [hsame]
    exact ⟨hp, hout⟩
  · rw [place_scaffold hs, Disk.place_of_home hp.home] at hc
    have hgen : ∀ q, after.disk.fileAt (d₀.place s.outFolder ++ q) =
        d₀.fileAt (d₀.place s.outFolder ++ q) := by
      intro q
      rw [hc.fileAt, if_neg, hout]
      simpa using ((apart_out d₀ s).append [] ["Material"]).symm.elsewhere q
    refine ⟨⟨hgood, hc.home.trans hp.home, fun m hm c hmc => ?_, fun q c hq => .inl ?_⟩, hgen⟩
    · rw [hc.fileAt, if_neg, hp.manual m hm c hmc]
      exact Disk.not_prefix_of_ne (Ne.symm (manual_ne_scaffold hs hm.1))
    · rw [hgen, hq]

omit hs in
/-- Wherever the moving ends, nothing takes the place of a parked module. -/
theorem parked_of_moveAll (hp : Parked s d₀ site.disk)
    (hout : ∀ q, site.disk.fileAt (d₀.place s.outFolder ++ q) =
      d₀.fileAt (d₀.place s.outFolder ++ q))
    (htop : ∀ m ∈ s.manualModules, d₀.fileAt (d₀.place s.outFolder ++ [m]) = none)
    {r : Except Failure Nat}
    (h : (moveAll s.outFolder s.sourceFolder).perform site = (r, after)) :
    Parked s d₀ after.disk := by
  have hkept := keeps_moveAll_ways s site.disk site (Kept.refl hp.good _)
  rw [h] at hkept
  have hcarried := hkept.carried
  rw [Disk.place_of_home hp.home, Disk.place_of_home hp.home] at hcarried
  refine ⟨hkept.good, hkept.home.trans hp.home, fun m hm c hc => ?_, fun q c hc => ?_⟩
  · refine hcarried.stayed List.mem_cons_self ?_ (hp.manual m hm c hc)
    rw [hout, htop m hm.1]
  · refine hcarried.arrived List.mem_cons_self ?_
    rw [hout, hc]

omit hs in
/-- Once all files have left the output, clearing it takes none. -/
theorem parked_of_clearOutput (hp : Parked s d₀ site.disk)
    (hempty : site.disk.tree.get? (d₀.place s.outFolder) = some .folder →
      ∀ q, site.disk.fileAt (d₀.place s.outFolder ++ q) = none)
    {r : Except Failure Unit} (h : (Action.clearIfPresent s.outFolder).perform site = (r, after)) :
    Parked s d₀ after.disk := by
  rcases clearIfPresent_cases hp.good h with hsame | ⟨hfolder, hc, hgood⟩
  · rw [hsame]
    exact hp
  · rw [Disk.place_of_home hp.home] at hc hfolder
    have hfiles : ∀ k, after.disk.fileAt k = site.disk.fileAt k := by
      intro k
      rw [hc.fileAt]
      split
      · rename_i hk
        obtain ⟨q, rfl⟩ := hk
        rw [hempty hfolder]
      · rfl
    refine ⟨hgood, hc.home.trans hp.home, fun m hm c hmc => ?_, fun q c hq => ?_⟩
    · rw [hfiles, hp.manual m hm c hmc]
    · rw [hfiles, hfiles]
      exact hp.generated q c hq

/-- Wherever the restoring ends, no module takes the place of a generated file: below a parked module
there is nothing, and no generated file has its place. -/
theorem safe_of_restore (hp : Parked s d₀ site.disk)
    (hfiles : ∀ m, Held d₀ s m → ∃ c, d₀.fileAt (manualPlace d₀ s ++ [m]) = some c)
    (hdistinct : ∀ m ∈ s.manualModules, d₀.fileAt (d₀.place s.outFolder ++ [m]) = none ∧
      d₀.fileAt (d₀.place s.outFolder ++ ["Material", "Icons", m]) = none)
    {parked : List (Path × Path)}
    (hparked : ∀ x ∈ parked, ∃ m, Held d₀ s m ∧ x = parking s m)
    {r : Except Failure Unit} (h : (restore parked).perform site = (r, after)) :
    Safe s d₀ after.disk := by
  have hsub : ∀ m ∈ found d₀ s, m ∈ s.manualModules := fun m hm => (mem_found.1 hm).1
  have hparked' : ∀ x ∈ parked, ∃ m ∈ found d₀ s, x = parking s m := by
    intro x hx
    obtain ⟨m, hm, rfl⟩ := hparked x hx
    exact ⟨m, mem_found.2 hm, rfl⟩
  have hkept := keeps_restore_ways hs site.disk hsub hparked' site (Kept.refl hp.good _)
  rw [h] at hkept
  have hcarried := hkept.carried
  have hways : parkingWays site.disk s (found d₀ s) = parkingWays d₀ s (found d₀ s) := by
    unfold parkingWays manualPlace
    simp only [Disk.place_of_home hp.home]
  rw [hways] at hcarried
  -- where a module is parked stands a file, so nothing is below it
  have htop : ∀ m ∈ found d₀ s, ∀ n q,
      site.disk.fileAt (d₀.place s.sourceFolder ++ m :: n :: q) = none := by
    intro m hm n q
    obtain ⟨c, hc⟩ := hfiles m (mem_found.1 hm)
    have hfile := Disk.fileAt_eq_some.1 (hp.manual m (mem_found.1 hm) c hc)
    have hnofolder : site.disk.tree.get? (d₀.place s.sourceFolder ++ [m]) ≠ some .folder := by
      simp [hfile]
    have hnone := Disk.fileAt_below hnofolder n q
    rwa [List.append_assoc, List.singleton_append] at hnone
  refine ⟨fun m hm c hc => ?_, fun q c hq => ?_⟩
  · have harrived := hcarried.arrived (mem_restoringWays (mem_found.2 hm)) (q := []) (c := c)
    simp only [List.append_nil] at harrived
    exact (harrived (hp.manual m hm c hc)).symm
  · rcases hp.generated q c hq with hout | hsrc
    · left
      rw [hcarried.rest _ fun x hx => ?_, hout]
      obtain ⟨y, hy, rfl⟩ := List.mem_map.1 hx
      exact (off_parkingWays d₀ s _ q y hy).symm
    · right
      by_cases hparkedBelow : ∃ m ∈ found d₀ s, [m] <+: q
      · obtain ⟨m, hm, q', rfl⟩ := hparkedBelow
        cases q' with
        | nil => exact absurd hq (by simp [(hdistinct m (mem_found.1 hm).1).1])
        | cons n q' => exact absurd hsrc (by simp [htop m hm n q'])
      · by_cases hhomeBelow : ∃ m ∈ found d₀ s, ["Material", "Icons", m] <+: q
        · obtain ⟨m, hm, q', rfl⟩ := hhomeBelow
          cases q' with
          | nil => exact absurd hq (by simp [(hdistinct m (mem_found.1 hm).1).2])
          | cons n q' =>
            have hstay := hcarried.stayed (mem_restoringWays hm) (q := n :: q') (c := c)
            simp only [manualPlace, List.append_assoc, List.cons_append, List.nil_append] at hstay
            exact hstay (htop m hm n q') hsrc
        · rw [hcarried.rest _ fun x hx => ?_, hsrc]
          obtain ⟨y, hy, rfl⟩ := List.mem_map.1 hx
          obtain ⟨m, hm, rfl⟩ := List.mem_map.1 hy
          refine ⟨fun hpre => hparkedBelow ⟨m, hm, ?_⟩, fun hpre => hhomeBelow ⟨m, hm, ?_⟩⟩
          · exact (List.prefix_append_right_inj _).1 hpre
          · refine (List.prefix_append_right_inj (d₀.place s.sourceFolder)).1 ?_
            simpa [manualPlace] using hpre

end

/-- However an installation ends, it loses no file: every module written by hand is in its place or parked
at the top of the sources, and every generated file is at the same place below the output or below the
sources. -/
theorem install_loses_nothing (hs : s.Standard) (ht : site.disk.tree.Plain)
    (hn : site.disk.tree.Named)
    (hfiles : ∀ m ∈ s.manualModules,
      site.disk.tree.get? (manualPlace site.disk s ++ [m]) ≠ some .folder)
    (hdistinct : ∀ m ∈ s.manualModules,
      site.disk.fileAt (site.disk.place s.outFolder ++ [m]) = none ∧
        site.disk.fileAt (site.disk.place s.outFolder ++ ["Material", "Icons", m]) = none)
    {outcome : Except Failure Nat} (h : (install s).perform site = (outcome, after)) :
    (∀ m ∈ s.manualModules, ∀ c, site.disk.read (s.manualHome m) = .ok c →
      after.disk.fileAt (manualPlace site.disk s ++ [m]) = some c ∨
        after.disk.fileAt (site.disk.place s.sourceFolder ++ [m]) = some c) ∧
    ∀ q c, site.disk.fileAt (site.disk.place s.outFolder ++ q) = some c →
      after.disk.fileAt (site.disk.place s.outFolder ++ q) = some c ∨
        after.disk.fileAt (site.disk.place s.sourceFolder ++ q) = some c := by
  have hg : Good site.disk := ⟨ht, hn⟩
  have hthere : ∀ m, Held site.disk s m →
      ∃ c, site.disk.fileAt (manualPlace site.disk s ++ [m]) = some c := fun m hm =>
    fileAt_of_held hs hg hm (hfiles m hm.1)
  suffices hsafe : Safe s site.disk after.disk by
    refine ⟨fun m hm c hread => ?_, hsafe.generated⟩
    obtain ⟨hheld, hc⟩ := held_of_read hs ht hm hread
    exact hsafe.manual m hheld c hc
  rcases Action.perform_bind_cases h with ⟨f, hpark, -⟩ | ⟨parked, parkedSite, hpark, h⟩
  · have hkept := keeps_park_ways hs site.disk (fun _ hm => hm) (fun _ hm => hm) site
      (Kept.refl hg (parkingWays site.disk s s.manualModules))
    rw [hpark] at hkept
    exact safe_of_parking hkept
  obtain ⟨hp₁, hout₁, hparked⟩ := parked_of_park hs hg hfiles hpark
  rcases Action.perform_bind_cases h with ⟨f, hclear, -⟩ | ⟨_, clearedSite, hclear, h⟩
  · exact (parked_of_clearScaffold hs hp₁ hout₁ hclear).1.safe
  obtain ⟨hp₂, hout₂⟩ := parked_of_clearScaffold hs hp₁ hout₁ hclear
  have htop := fun m hm => (hdistinct m hm).1
  rcases Action.perform_bind_cases h with ⟨f, hmove, -⟩ | ⟨n, movedSite, hmove, h⟩
  · exact (parked_of_moveAll hp₂ hout₂ htop hmove).safe
  have hp₃ := parked_of_moveAll hp₂ hout₂ htop hmove
  have hempty : movedSite.disk.tree.get? (site.disk.place s.outFolder) = some .folder →
      ∀ q, movedSite.disk.fileAt (site.disk.place s.outFolder ++ q) = none := by
    intro hfolder
    obtain ⟨-, -, hmoved⟩ := moveAll_ok hp₂.good hmove
    rw [Disk.place_of_home hp₂.home] at hmoved
    rcases hmoved with ⟨-, hshift⟩ | ⟨hfile, -, rfl⟩
    · exact hshift.merged.out
    · exact absurd hfolder hfile
  rcases Action.perform_bind_cases h with ⟨f, hclear, -⟩ | ⟨_, emptySite, hclear, h⟩
  · exact (parked_of_clearOutput hp₃ hempty hclear).safe
  have hp₄ := parked_of_clearOutput hp₃ hempty hclear
  rcases Action.perform_bind_cases h with ⟨f, hrestore, -⟩ | ⟨_, restoredSite, hrestore, h⟩
  · exact safe_of_restore hs hp₄ hthere hdistinct hparked hrestore
  · have hsafe := safe_of_restore hs hp₄ hthere hdistinct hparked hrestore
    obtain ⟨-, rfl⟩ := Prod.mk.inj h
    exact hsafe

/-- A project at the root of the file system in which a source stands where an assembled module needs a
folder. -/
def blockedSite : Site where
  disk :=
    { tree := [(["gen"], .folder), (["gen", "tmp"], .folder), (["gen", "tmp", "out"], .folder),
        (["gen", "tmp", "out", "A"], .folder), (["gen", "tmp", "out", "A", "B.elm"], .file [1]),
        (["src"], .folder), (["src", "A"], .file [2]), (["src", "Material"], .folder),
        (["src", "Material", "Icons"], .folder),
        (["src", "Material", "Icons", "Coloring.elm"], .file [3])].foldl
          (fun t x => t.graft x.1 (.single x.2)) (.single .folder)
      home := [] }
  journal := []

/-- There the installation fails, and the parked module and the generated one are not lost. -/
theorem install_loses_nothing_blocked :
    ∃ failure after, (install (Settings.preset .legacy ⟨"/"⟩)).perform blockedSite =
        (.error failure, after) ∧
      (after.disk.fileAt ["src", "Material", "Icons", "Coloring.elm"] = some [3] ∨
        after.disk.fileAt ["src", "Coloring.elm"] = some [3]) ∧
      (after.disk.fileAt ["gen", "tmp", "out", "A", "B.elm"] = some [1] ∨
        after.disk.fileAt ["src", "A", "B.elm"] = some [1]) := by
  have hfail : ((install (Settings.preset .legacy ⟨"/"⟩)).perform blockedSite).1.isOk = false := by
    decide +kernel
  obtain ⟨f, after, h⟩ := Action.exists_of_not_isOk hfail
  obtain ⟨hmanual, hgenerated⟩ := install_loses_nothing (Settings.standard_preset _ _)
    (Tree.plain_of_entries (by decide)) (Tree.named_of_entries (by decide))
    (by decide) (by decide) h
  refine ⟨f, after, h, ?_, ?_⟩
  · exact hmanual "Coloring.elm" (by decide) [3] (ok_of_toOption (by decide))
  · exact hgenerated ["A", "B.elm"] [1] (by decide)

end IconModules.Installation
