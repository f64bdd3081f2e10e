import IconModules.Proofs.Generation.Installing

/-! # Where the files are after an installation

`Installed` says for every place which file stands there after an installation that ended well, in terms
of the files before it; `install_ok` puts it together from the phases. -/

namespace IconModules.Installation

open Disk (Merged MergedAll Cleared Apart)

variable {s : Settings} {site after : Site} {n : Nat}

/-- A module written by hand that an installation finds. -/
def Held (d : Disk) (s : Settings) (m : String) : Prop :=
  m ∈ s.manualModules ∧ d.holds (s.manualHome m) = true

/-- The modules written by hand that an installation finds. -/
def found (d : Disk) (s : Settings) : List String :=
  s.manualModules.filter fun m => d.holds (s.manualHome m)

theorem mem_found {d : Disk} {m : String} : m ∈ found d s ↔ Held d s m := by
  simp [found, Held]

/-- The way to the root does not lead through the output. -/
def OutsideOutput (d : Disk) (s : Settings) : Prop :=
  ∀ q, ¬ d.OnWay s.root (d.place s.outFolder ++ q)

/-- The files after an installation on the disk `d`, which moved `n` of them. -/
structure Installed (s : Settings) (d d' : Disk) (n : Nat) : Prop where
  home : d'.home = d.home
  good : Good d'
  openRoot : d.OpenRoot s.root
  /-- A generated file may have taken the place of a parked module. -/
  manual : ∀ m, Held d s m → ∀ q, d'.fileAt (manualPlace d s ++ m :: q) =
    ((d.fileAt (d.place s.outFolder ++ m :: q)).or
      ((d.fileAt (manualPlace d s ++ m :: q)).or (d.fileAt (d.place s.sourceFolder ++ m :: q)))).or
      (d.fileAt (d.place s.outFolder ++ "Material" :: "Icons" :: m :: q))
  /-- Nothing is left where a module was parked. -/
  top : ∀ m, Held d s m → ∀ q, d'.fileAt (d.place s.sourceFolder ++ m :: q) = none
  /-- Other files among the sources are generated or were there. -/
  outside : ∀ p, (∀ m, Held d s m → ¬ [m] <+: p) → ¬ ["Material"] <+: p →
    d'.fileAt (d.place s.sourceFolder ++ p) =
      (d.fileAt (d.place s.outFolder ++ p)).or (d.fileAt (d.place s.sourceFolder ++ p))
  /-- Files below the scaffold are generated. -/
  scaffold : Disk.acceptPath (s.sourceFolder.join s.scaffold) = .ok () →
    ∀ p, ["Material"] <+: p → (∀ m, Held d s m → ¬ ["Material", "Icons", m] <+: p) →
      d'.fileAt (d.place s.sourceFolder ++ p) = d.fileAt (d.place s.outFolder ++ p)
  /-- A scaffold that cannot be named is left as it is. -/
  unnamed : Disk.acceptPath (s.sourceFolder.join s.scaffold) ≠ .ok () →
    ∀ p, ["Material"] <+: p → (∀ m, Held d s m → ¬ ["Material", "Icons", m] <+: p) →
      d'.fileAt (d.place s.sourceFolder ++ p) =
        (d.fileAt (d.place s.outFolder ++ p)).or (d.fileAt (d.place s.sourceFolder ++ p))
  out : ∀ q, d'.fileAt (d.place s.outFolder ++ q) = none
  /-- The output itself is gone. -/
  gone : OutsideOutput d s → d'.tree.get? (d.place s.outFolder) = none
  rest : ∀ k, ¬ d.place s.sourceFolder <+: k → ¬ d.place s.outFolder <+: k →
    d'.fileAt k = d.fileAt k
  count : ∃ rels : List Location, rels.Nodup ∧ rels.length = n ∧
    ∀ q, q ∈ rels ↔ d.fileAt (d.place s.outFolder ++ q) ≠ none

/-! ### Places -/

theorem apart_out (d : Disk) (s : Settings) :
    Apart (d.place s.outFolder) (d.place s.sourceFolder) := by
  rw [Disk.place_along s.outFolder_under.toAlong, Disk.place_along s.sourceFolder_under.toAlong]
  intro q q' e
  simp at e

/-- A root that is written as names only is not reached through its own output. -/
theorem outsideOutput_of_names {d : Disk} {names : List String}
    (h : s.root.moves = names.map .into) : OutsideOutput d s := by
  intro q
  rw [Disk.place_along s.outFolder_under.toAlong, List.append_assoc]
  exact Disk.not_onWay_below h "gen" (["tmp", "out"] ++ q)

/-- The root of the file system, by a way that leads through its own output. -/
def throughOutput : Settings :=
  .preset .legacy ⟨"/gen/tmp/out/../../.."⟩

theorem place_scaffold (hs : s.Standard) (d : Disk) :
    d.place (s.sourceFolder.join s.scaffold) = d.place s.sourceFolder ++ ["Material"] := by
  rw [Disk.place_along hs.scaffold_under.toAlong, Disk.place_along s.sourceFolder_under.toAlong]
  simp

/-- A module written by hand that can be read is found by an installation. -/
theorem held_of_read {d : Disk} {m : String} {c : Octets} (hs : s.Standard) (ht : d.tree.Plain)
    (hm : m ∈ s.manualModules) (h : d.read (s.manualHome m) = .ok c) :
    Held d s m ∧ d.fileAt (manualPlace d s ++ [m]) = some c := by
  obtain ⟨l, hfind⟩ := Disk.read_ok h
  refine ⟨⟨hm, ?_⟩, ?_⟩
  · unfold Disk.holds
    rw [hfind]
    rfl
  · obtain ⟨-, -, rfl, he⟩ := (Disk.find_iff ht).1 hfind
    rw [← place_manualHome hs d hm, Disk.fileAt_eq_some]
    exact he

/-- A module written by hand that is found is a file, if it is no folder. -/
theorem fileAt_of_held {d : Disk} {m : String} (hs : s.Standard) (hg : Good d) (hm : Held d s m)
    (hfile : d.tree.get? (manualPlace d s ++ [m]) ≠ some .folder) :
    ∃ c, d.fileAt (manualPlace d s ++ [m]) = some c := by
  obtain ⟨-, -, -, hthere⟩ := (Disk.holds_iff hg.plain (hs.manualHome_under hm.1)).1 hm.2
  rw [place_manualHome hs _ hm.1] at hthere
  obtain ⟨e, he⟩ := Option.ne_none_iff_exists'.1 hthere
  cases e with
  | file c => exact ⟨c, Disk.fileAt_eq_some.2 he⟩
  | folder => exact absurd he hfile
  | link target => exact absurd he (hg.plain _ _)

/-! ### The phases in turn -/

/-- The output has to be there. If it is a folder, all its files go to the sources. -/
theorem moveAll_ok (hg : Good site.disk)
    (h : (moveAll s.outFolder s.sourceFolder).perform site = (.ok n, after)) :
    site.disk.OpenRoot s.root ∧ Disk.acceptPath s.outFolder = .ok () ∧
      (site.disk.tree.get? (site.disk.place s.outFolder) = some .folder ∧
          Shifted (site.disk.place s.outFolder) (site.disk.place s.sourceFolder) site.disk
            after.disk n ∨
        site.disk.tree.get? (site.disk.place s.outFolder) ≠ some .folder ∧
          site.disk.holds s.outFolder = true ∧ after = site) := by
  obtain ⟨⟨l, e⟩, mid, hlook, h⟩ := Action.perform_bind_ok h
  obtain ⟨hfind, rfl⟩ := Action.perform_inspect_ok hlook
  have hfind' : site.disk.find true s.outFolder = .ok (l, e) := ok_of_mapError hfind
  obtain ⟨ha, ho, rfl, he⟩ := (Disk.find_iff hg.plain).1 hfind'
  refine ⟨.of_along s.outFolder_under.toAlong ho, ha, ?_⟩
  split at h
  · rename_i heq
    obtain ⟨-, rfl⟩ := Prod.mk.inj heq
    refine .inl ⟨he, moveBelow_ok _ ?_ s.outFolder_under.toAlong s.sourceFolder_under.toAlong hg h⟩
    intro q q' e
    simp at e
  · rename_i hne
    obtain ⟨-, rfl⟩ := Action.perform_pure_ok h
    refine .inr ⟨fun hfolder => ?_, ?_, rfl⟩
    · obtain rfl : e = .folder := Option.some.inj (he.symm.trans hfolder)
      exact hne _ rfl
    · unfold Disk.holds
      rw [hfind']
      rfl

/-- Clearing the scaffold takes the files below it and no others. It is passed over only if nothing is
there or its path cannot be used. -/
theorem clearScaffold_ok (hs : s.Standard) (hg : Good site.disk) {u : Unit}
    (h : (Action.clearIfPresent (s.sourceFolder.join s.scaffold)).perform site = (.ok u, after)) :
    after.disk.home = site.disk.home ∧ Good after.disk ∧
      (after.disk.OpenRoot s.root → site.disk.OpenRoot s.root) ∧
      (∀ k, ¬ site.disk.place s.sourceFolder ++ ["Material"] <+: k →
        after.disk.fileAt k = site.disk.fileAt k) ∧
      ∀ k, site.disk.place s.sourceFolder ++ ["Material"] <+: k →
        after.disk.fileAt k = none ∧ Disk.acceptPath (s.sourceFolder.join s.scaffold) = .ok () ∨
          after.disk.fileAt k = site.disk.fileAt k ∧
          (site.disk.OpenRoot s.root →
            Disk.acceptPath (s.sourceFolder.join s.scaffold) = .ok () → site.disk.fileAt k = none) := by
  have hplace := place_scaffold hs site.disk
  rcases clearIfPresent_ok hg h with ⟨hnot, rfl⟩ | ⟨hholds, hfolder, hc, hg'⟩
  · refine ⟨rfl, hg, id, fun _ _ => rfl, fun k hk => .inr ⟨rfl, fun ho ha => ?_⟩⟩
    have hnone : after.disk.tree.get? (after.disk.place s.sourceFolder ++ ["Material"]) = none := by
      apply Classical.byContradiction
      intro hne
      rw [← hplace] at hne
      have hheld := (Disk.holds_iff hg.plain hs.scaffold_under).2 ⟨ha, ho, by decide, hne⟩
      rw [hnot] at hheld
      cases hheld
    obtain ⟨q, rfl⟩ := hk
    exact Disk.fileAt_nowhere hnone q
  · have haccept := ((Disk.holds_iff hg.plain hs.scaffold_under).1 hholds).1
    rw [hplace] at hc hfolder
    refine ⟨hc.home, hg', fun ho => ?_, fun k hk => ?_, fun k hk => .inl ⟨?_, haccept⟩⟩
    · refine ho.of_folders hc.home.symm fun k hk => ?_
      by_cases hp : site.disk.place s.sourceFolder ++ ["Material"] <+: k
      · by_cases he : k = site.disk.place s.sourceFolder ++ ["Material"]
        · rw [he]
          exact hfolder
        · rw [hc.below k hp he] at hk
          cases hk
      · rwa [hc.get? k hp] at hk
    · rw [hc.fileAt, if_neg hk]
    · rw [hc.fileAt, if_pos hk]

/-- Nothing is left in an output whose files were moved, so clearing it changes no file. -/
theorem clearOutput_files {d : Disk} {u : Unit}
    (h : Shifted (site.disk.place s.outFolder) (site.disk.place s.sourceFolder) d site.disk n)
    (hclear : (Action.clearIfPresent s.outFolder).perform site = (.ok u, after)) :
    after.disk.home = site.disk.home ∧ Good after.disk ∧
      ∀ k, after.disk.fileAt k = site.disk.fileAt k := by
  rcases clearIfPresent_ok h.good hclear with ⟨-, rfl⟩ | ⟨-, -, hc, hg⟩
  · exact ⟨rfl, h.good, fun _ => rfl⟩
  · refine ⟨hc.home, hg, fun k => ?_⟩
    rw [hc.fileAt]
    split
    · rename_i hk
      obtain ⟨q, rfl⟩ := hk
      rw [h.merged.out]
    · rfl

/-- An output folder that the way to the root does not lead through is gone when it is cleared. -/
theorem clearOutput_gone {d : Disk} {u : Unit}
    (h : Shifted (site.disk.place s.outFolder) (site.disk.place s.sourceFolder) d site.disk n)
    (ha : Disk.acceptPath s.outFolder = .ok ()) (ho : d.OpenRoot s.root)
    (hfolder : d.tree.get? (site.disk.place s.outFolder) = some .folder)
    (hout : OutsideOutput site.disk s)
    (hclear : (Action.clearIfPresent s.outFolder).perform site = (.ok u, after)) :
    after.disk.tree.get? (site.disk.place s.outFolder) = none := by
  have hthere : site.disk.holds s.outFolder = true := by
    refine (Disk.holds_iff h.good.plain s.outFolder_under).2 ⟨ha, ?_, by decide, ?_⟩
    · exact ho.of_folders h.home h.folders
    · rw [h.folders _ hfolder]
      simp
  exact clearIfPresent_removes h.good s.outFolder_under (fun n rest => hout (n :: rest)) hthere hclear

/-- The disks between the phases of an installation: `d₁` once the modules `names` are parked, `d₂` once
the scaffold is cleared, `d₃` once the output is moved and `d₄` once it is cleared. -/
structure Phases (s : Settings) (names : List String) (n : Nat) (d d₁ d₂ d₃ d₄ d' : Disk) : Prop where
  held : ∀ m, m ∈ names ↔ Held d s m
  parked : MergedAll (manualPlace d s) (d.place s.sourceFolder) names d d₁
  kept : ∀ k, ¬ d.place s.sourceFolder ++ ["Material"] <+: k → d₂.fileAt k = d₁.fileAt k
  cleared : ∀ k, d.place s.sourceFolder ++ ["Material"] <+: k →
    d₂.fileAt k = none ∧ Disk.acceptPath (s.sourceFolder.join s.scaffold) = .ok () ∨
      d₂.fileAt k = d₁.fileAt k ∧
      (Disk.acceptPath (s.sourceFolder.join s.scaffold) = .ok () → d₁.fileAt k = none)
  moved : Shifted (d.place s.outFolder) (d.place s.sourceFolder) d₂ d₃ n
  emptied : ∀ k, d₄.fileAt k = d₃.fileAt k
  restored : MergedAll (d.place s.sourceFolder) (manualPlace d s) names d₄ d'
  home : d'.home = d.home
  good : Good d'
  openRoot : d.OpenRoot s.root
  gone : OutsideOutput d s → d'.tree.get? (d.place s.outFolder) = none

/-- An installation that ended well went through all its phases. -/
theorem install_phases (hs : s.Standard) (hg : Good site.disk)
    (h : (install s).perform site = (.ok n, after)) :
    ∃ names d₁ d₂ d₃ d₄, Phases s names n site.disk d₁ d₂ d₃ d₄ after.disk := by
  obtain ⟨parked, parkedSite, hpark, h⟩ := Action.perform_bind_ok h
  obtain ⟨names, hsub, rfl, hhome₁, hg₁, hall₁, hclosed, hheld⟩ :=
    park_ok hs (fun m hm => hm) hs.nodup hg hpark
  obtain ⟨_, clearedSite, hclear, h⟩ := Action.perform_bind_ok h
  obtain ⟨hhome₂, hg₂, hopen₂, houtside, hinside⟩ := clearScaffold_ok hs hg₁ hclear
  obtain ⟨n', movedSite, hmove, h⟩ := Action.perform_bind_ok h
  obtain ⟨ho, ha, hmoved⟩ := moveAll_ok hg₂ hmove
  have ho₁ := hopen₂ ho
  have ho₀ : site.disk.OpenRoot s.root := by
    apply Classical.byContradiction
    intro hno
    exact hno (hclosed hno ▸ ho₁)
  obtain ⟨_, emptySite, hempty, h⟩ := Action.perform_bind_ok h
  obtain ⟨_, restoredSite, hrestore, h⟩ := Action.perform_bind_ok h
  obtain ⟨_, notedSite, hnote, h⟩ := Action.perform_bind_ok h
  obtain rfl := Action.perform_record_ok hnote
  obtain ⟨rfl, rfl⟩ := Action.perform_pure_ok h
  have hhome₂ : clearedSite.disk.home = site.disk.home := hhome₂.trans hhome₁
  have hplace₂ := Disk.place_of_home hhome₂
  rw [Disk.place_of_home hhome₁] at houtside hinside
  rcases hmoved with ⟨hfolder, hshift⟩ | ⟨hfile, hhold, rfl⟩
  · have hhome₃ : movedSite.disk.home = site.disk.home := hshift.home.trans hhome₂
    have hplace₃ := Disk.place_of_home hhome₃
    rw [hplace₂, hplace₂, ← hplace₃, ← hplace₃] at hshift
    rw [hplace₂, ← hplace₃] at hfolder
    obtain ⟨hhome₄, hg₄, hfiles₄⟩ := clearOutput_files hshift hempty
    have hhome₄ : emptySite.disk.home = site.disk.home := hhome₄.trans hhome₃
    have hplace₄ := Disk.place_of_home hhome₄
    obtain ⟨hhome₅, hg₅, hall₅⟩ := restore_ok hs (fun m hm => hsub.subset hm)
      (hsub.nodup hs.nodup) hg₄ hrestore
    rw [hplace₄, manualPlace_of_home hhome₄] at hall₅
    have hnames : ∀ m, m ∈ names ↔ Held site.disk s m := by
      intro m
      constructor
      · intro hm
        exact ⟨hsub.subset hm, (hheld ho₁ m (hsub.subset hm)).1 hm⟩
      · rintro ⟨hm, hholds⟩
        exact (hheld ho₁ m hm).2 hholds
    have hgone : OutsideOutput site.disk s →
        restoredSite.disk.tree.get? (site.disk.place s.outFolder) = none := by
      intro hout
      have hout₃ : OutsideOutput movedSite.disk s := by
        intro q
        rw [hplace₃, Disk.onWay_of_home hhome₃]
        exact hout q
      have hroot : ¬ emptySite.disk.OnWay s.root (emptySite.disk.place s.outFolder) := by
        rw [hplace₄, Disk.onWay_of_home hhome₄]
        simpa using hout []
      have hnone : emptySite.disk.tree.get? (emptySite.disk.place s.outFolder) = none := by
        rw [hplace₄, ← hplace₃]
        exact clearOutput_gone hshift ha ho hfolder hout₃ hempty
      rw [← hplace₄]
      exact restore_gone hs (fun m hm => hsub.subset hm) hg₄ hroot hnone hrestore
    rw [hplace₃, hplace₃] at hshift
    exact ⟨names, _, _, _, _, hnames, hall₁, houtside,
      fun k hk => (hinside k hk).imp_right fun ⟨he, hnone⟩ => ⟨he, hnone ho₁⟩, hshift, hfiles₄, hall₅,
      hhome₅.trans hhome₄, hg₅, ho₀, hgone⟩
  · -- a file in the place of the output cannot be cleared
    rcases clearIfPresent_ok hg₂ hempty with ⟨hnot, -⟩ | ⟨-, hfolder, -⟩
    · rw [hhold] at hnot
      cases hnot
    · exact absurd hfolder hfile

namespace Phases

variable {names : List String} {d d₁ d₂ d₃ d₄ d' : Disk} {m : String} {p q : Location}

/-- The output, and what it holds, is not touched before it is moved. -/
theorem fileAt_out (h : Phases s names n d d₁ d₂ d₃ d₄ d') (q : Location) :
    d₂.fileAt (d.place s.outFolder ++ q) = d.fileAt (d.place s.outFolder ++ q) := by
  have hab := apart_out d s
  rw [h.kept, h.parked.rest]
  · intro m _
    refine ⟨?_, ?_⟩
    · simpa [manualPlace] using (hab.append [] ["Material", "Icons", m]).symm.elsewhere q
    · simpa using (hab.append [] [m]).symm.elsewhere q
  · simpa using (hab.append [] ["Material"]).symm.elsewhere q

/-- The files of the output are moved over those of the sources. -/
theorem fileAt_source (h : Phases s names n d d₁ d₂ d₃ d₄ d') (p : Location) :
    d₄.fileAt (d.place s.sourceFolder ++ p) = (d.fileAt (d.place s.outFolder ++ p)).or
      (d₂.fileAt (d.place s.sourceFolder ++ p)) := by
  rw [h.emptied, h.moved.merged.into, h.fileAt_out]

/-- Parking and restoring modules leaves alone what is neither where one is parked nor where it belongs. -/
theorem fileAt_other (h : Phases s names n d d₁ d₂ d₃ d₄ d')
    (hp : ∀ m ∈ names, ¬ [m] <+: p ∧ ¬ ["Material", "Icons", m] <+: p) :
    d₁.fileAt (d.place s.sourceFolder ++ p) = d.fileAt (d.place s.sourceFolder ++ p) ∧
      d'.fileAt (d.place s.sourceFolder ++ p) = (d.fileAt (d.place s.outFolder ++ p)).or
        (d₂.fileAt (d.place s.sourceFolder ++ p)) := by
  have hplaces : ∀ m ∈ names, ¬ d.place s.sourceFolder ++ [m] <+: d.place s.sourceFolder ++ p ∧
      ¬ manualPlace d s ++ [m] <+: d.place s.sourceFolder ++ p := by
    intro m hm
    refine ⟨?_, ?_⟩
    · rw [List.prefix_append_right_inj]
      exact (hp m hm).1
    · rw [manualPlace, List.append_assoc, List.prefix_append_right_inj]
      exact (hp m hm).2
  rw [h.restored.rest _ hplaces, h.fileAt_source]
  exact ⟨h.parked.rest _ fun m hm => (hplaces m hm).symm, rfl⟩

/-- Among the sources, off the scaffold and the parked modules, a file is generated or was there. -/
theorem fileAt_outside (h : Phases s names n d d₁ d₂ d₃ d₄ d') (hp : ∀ m ∈ names, ¬ [m] <+: p)
    (hscaffold : ¬ ["Material"] <+: p) :
    d'.fileAt (d.place s.sourceFolder ++ p) =
      (d.fileAt (d.place s.outFolder ++ p)).or (d.fileAt (d.place s.sourceFolder ++ p)) := by
  obtain ⟨hparked, hend⟩ := h.fileAt_other fun m hm => ⟨hp m hm, fun hpre => hscaffold
    ((show ["Material"] <+: ["Material", "Icons", m] from ⟨_, rfl⟩).trans hpre)⟩
  rw [hend, h.kept, hparked]
  rw [List.prefix_append_right_inj]
  exact hscaffold

/-- Outside the sources and the output no file changes. -/
theorem fileAt_elsewhere (h : Phases s names n d d₁ d₂ d₃ d₄ d') {k : Location}
    (hk : ¬ d.place s.sourceFolder <+: k) (hk' : ¬ d.place s.outFolder <+: k) :
    d'.fileAt k = d.fileAt k := by
  have hnot : ∀ l, ¬ d.place s.sourceFolder ++ l <+: k :=
    fun l hp => hk ((List.prefix_append _ _).trans hp)
  have hnot' : ∀ m ∈ names, ¬ d.place s.sourceFolder ++ [m] <+: k ∧ ¬ manualPlace d s ++ [m] <+: k := by
    intro m _
    refine ⟨hnot _, ?_⟩
    rw [manualPlace, List.append_assoc]
    exact hnot _
  rw [h.restored.rest k hnot', h.emptied, h.moved.merged.rest k hk' hk, h.kept k (hnot _),
    h.parked.rest k fun m hm => (hnot' m hm).symm]

/-- Nothing is left in the output. -/
theorem fileAt_out_end (h : Phases s names n d d₁ d₂ d₃ d₄ d') (q : Location) :
    d'.fileAt (d.place s.outFolder ++ q) = none := by
  have hab := apart_out d s
  rw [h.restored.rest, h.emptied, h.moved.merged.out]
  intro m _
  refine ⟨?_, ?_⟩
  · simpa using (hab.append [] [m]).symm.elsewhere q
  · simpa [manualPlace] using (hab.append [] ["Material", "Icons", m]).symm.elsewhere q

section

variable (hs : s.Standard)
include hs

theorem not_scaffold (h : Phases s names n d d₁ d₂ d₃ d₄ d') (hm : m ∈ names) (q : Location) :
    ¬ ["Material"] <+: m :: q := fun hp =>
  manual_ne_scaffold hs ((h.held m).1 hm).1 (List.cons_prefix_cons.1 hp).1.symm

/-- A module written by hand stands where it belongs, below what was generated where it was parked. -/
theorem fileAt_home (h : Phases s names n d d₁ d₂ d₃ d₄ d') (hm : m ∈ names) (q : Location) :
    d'.fileAt (manualPlace d s ++ m :: q) = ((d.fileAt (d.place s.outFolder ++ m :: q)).or
      ((d.fileAt (manualPlace d s ++ m :: q)).or (d.fileAt (d.place s.sourceFolder ++ m :: q)))).or
      (d.fileAt (d.place s.outFolder ++ "Material" :: "Icons" :: m :: q)) := by
  have hparked : d₂.fileAt (d.place s.sourceFolder ++ m :: q) =
      (d.fileAt (manualPlace d s ++ m :: q)).or (d.fileAt (d.place s.sourceFolder ++ m :: q)) := by
    rw [h.kept, h.parked.into m hm]
    rw [List.prefix_append_right_inj]
    exact h.not_scaffold hs hm q
  have hcleared : d₂.fileAt (manualPlace d s ++ m :: q) = none := by
    have hp : d.place s.sourceFolder ++ ["Material"] <+: manualPlace d s ++ m :: q := by
      rw [manualPlace, List.append_assoc, List.prefix_append_right_inj]
      exact ⟨"Icons" :: m :: q, rfl⟩
    rcases h.cleared _ hp with ⟨he, -⟩ | ⟨he, -⟩
    · exact he
    · rw [he, h.parked.out m hm]
  have hback : manualPlace d s ++ m :: q =
      d.place s.sourceFolder ++ "Material" :: "Icons" :: m :: q := by
    simp [manualPlace]
  rw [h.restored.into m hm, h.fileAt_source, hparked]
  rw [hback] at hcleared ⊢
  rw [h.fileAt_source, hcleared, Option.or_none]

/-- Below the scaffold a file that is no module written by hand is generated or was not cleared. -/
theorem fileAt_below (h : Phases s names n d d₁ d₂ d₃ d₄ d') (hscaffold : ["Material"] <+: p)
    (hp : ∀ m ∈ names, ¬ ["Material", "Icons", m] <+: p) :
    d₁.fileAt (d.place s.sourceFolder ++ p) = d.fileAt (d.place s.sourceFolder ++ p) ∧
      d'.fileAt (d.place s.sourceFolder ++ p) = (d.fileAt (d.place s.outFolder ++ p)).or
        (d₂.fileAt (d.place s.sourceFolder ++ p)) := by
  refine h.fileAt_other fun m hm => ⟨fun hpre => ?_, hp m hm⟩
  obtain ⟨q, rfl⟩ := hpre
  exact h.not_scaffold hs hm q hscaffold

theorem fileAt_scaffold (h : Phases s names n d d₁ d₂ d₃ d₄ d')
    (ha : Disk.acceptPath (s.sourceFolder.join s.scaffold) = .ok ()) (hscaffold : ["Material"] <+: p)
    (hp : ∀ m ∈ names, ¬ ["Material", "Icons", m] <+: p) :
    d'.fileAt (d.place s.sourceFolder ++ p) = d.fileAt (d.place s.outFolder ++ p) := by
  have hnone : d₂.fileAt (d.place s.sourceFolder ++ p) = none := by
    rcases h.cleared _ ((List.prefix_append_right_inj _).2 hscaffold) with ⟨he, -⟩ | ⟨he, hnone⟩
    · exact he
    · rw [he, hnone ha]
  rw [(h.fileAt_below hs hscaffold hp).2, hnone, Option.or_none]

theorem fileAt_unnamed (h : Phases s names n d d₁ d₂ d₃ d₄ d')
    (ha : Disk.acceptPath (s.sourceFolder.join s.scaffold) ≠ .ok ()) (hscaffold : ["Material"] <+: p)
    (hp : ∀ m ∈ names, ¬ ["Material", "Icons", m] <+: p) :
    d'.fileAt (d.place s.sourceFolder ++ p) =
      (d.fileAt (d.place s.outFolder ++ p)).or (d.fileAt (d.place s.sourceFolder ++ p)) := by
  obtain ⟨hparked, hend⟩ := h.fileAt_below hs hscaffold hp
  rcases h.cleared _ ((List.prefix_append_right_inj _).2 hscaffold) with ⟨-, ha'⟩ | ⟨he, -⟩
  · exact absurd ha' ha
  · rw [hend, he, hparked]

end

end Phases

/-- Where the files are after an installation that ended well. -/
theorem install_ok (hs : s.Standard) (hg : Good site.disk)
    (h : (install s).perform site = (.ok n, after)) : Installed s site.disk after.disk n := by
  obtain ⟨names, d₁, d₂, d₃, d₄, hphases⟩ := install_phases hs hg h
  have hheld : ∀ {P : String → Prop}, (∀ m, Held site.disk s m → P m) → ∀ m ∈ names, P m :=
    fun hP m hm => hP m ((hphases.held m).1 hm)
  exact {
    home := hphases.home
    good := hphases.good
    openRoot := hphases.openRoot
    manual := fun m hm => hphases.fileAt_home hs ((hphases.held m).2 hm)
    top := fun m hm => hphases.restored.out m ((hphases.held m).2 hm)
    outside := fun p hp => hphases.fileAt_outside (hheld hp)
    scaffold := fun ha p hscaffold hp => hphases.fileAt_scaffold hs ha hscaffold (hheld hp)
    unnamed := fun ha p hscaffold hp => hphases.fileAt_unnamed hs ha hscaffold (hheld hp)
    out := hphases.fileAt_out_end
    gone := hphases.gone
    rest := fun k => hphases.fileAt_elsewhere
    count := by
      obtain ⟨rels, hnd, hlen, hrels⟩ := hphases.moved.count
      refine ⟨rels, hnd, hlen, fun q => ?_⟩
      rw [hrels, hphases.fileAt_out] }

end IconModules.Installation
