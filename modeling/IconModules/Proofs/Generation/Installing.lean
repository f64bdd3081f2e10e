import IconModules.Generation.Installation
import IconModules.Proofs.Files.Merged
import IconModules.Proofs.Files.Rooted
import IconModules.Proofs.Generation.Keeping
import IconModules.Proofs.Generation.Places

/-! # What an installation does to the files

The four phases of `Installation.install`, each as what it does to the files of a tree without links.

* `park_ok`, `restore_ok`: the modules written by hand go to the top of the sources and back.
* `moveAll_ok`: all files below the output go to the same places below the sources, by induction on
  the depth of the folders and on their lists.
* `clearIfPresent_ok`: a folder that is cleared holds no file.

`Good` is what every phase keeps of a disk. -/

namespace IconModules.Installation

open Disk (Grown Moved Merged MergedAll Cleared Apart)

variable {s : Settings} {site after : Site} {old new p : Path} {u : Unit}

/-- A disk without links, on which everything has a name. -/
structure Good (d : Disk) : Prop where
  plain : d.tree.Plain
  named : d.tree.Named

/-! ### Single actions -/

theorem onWay_parent {d : Disk} {above : Path} {k : Location} (h : p.parent? = some above)
    (hk : d.OnWay above k) : d.OnWay p k := by
  obtain ⟨ms, hms, rfl⟩ := hk
  obtain ⟨habs, hmoves⟩ := Path.moves_parent? h
  refine ⟨ms, hms.trans ?_, ?_⟩
  · rw [hmoves]
    exact List.dropLast_prefix _
  · unfold Disk.start
    rw [habs]

/-- The places where the folder for a path can be made. -/
def OnParentWay (d : Disk) (p : Path) (k : Location) : Prop :=
  ∃ above, p.parent? = some above ∧ d.OnWay above k

theorem makeParent_ok (ht : site.disk.tree.Plain)
    (h : (Action.makeParent p).perform site = (.ok u, after)) :
    Grown (fun k => OnParentWay site.disk p k ∧ ∃ l n, k = l ++ [n] ∧ IsName n)
      site.disk after.disk := by
  unfold Action.makeParent at h
  split at h
  · rename_i above habove
    obtain ⟨-, rfl⟩ := Action.perform_carryOut_ok h
    exact (site.disk.makeFolders_grown ht above).mono fun k hk => ⟨⟨above, habove, hk.1⟩, hk.2⟩
  · obtain ⟨-, rfl⟩ := Action.perform_pure_ok h
    exact .refl _

/-- A file or folder is moved after the folder for it was made. -/
theorem moveTo_ok (hg : Good site.disk)
    (h : (Action.moveTo old new).perform site = (.ok u, after)) :
    ∃ d, Grown (fun k => OnParentWay site.disk new k ∧ ∃ l n, k = l ++ [n] ∧ IsName n) site.disk d ∧
      Moved d (site.disk.place old) (site.disk.place new) after.disk ∧
      after.disk.home = site.disk.home ∧ Good after.disk := by
  obtain ⟨_, noted, hnote, h⟩ := Action.perform_bind_ok h
  obtain rfl := Action.perform_record_ok hnote
  obtain ⟨_, made, hmade, h⟩ := Action.perform_bind_ok h
  have hgrown := makeParent_ok (by exact hg.plain) hmade
  obtain ⟨d, hmove, rfl⟩ := Action.perform_change_ok h
  have hplain := hgrown.plain hg.plain
  obtain ⟨hmoved, l, n, hplace, hname, -⟩ := Disk.move_place hplain hmove
  have hnamed := hmoved.named (hgrown.named hg.named) ⟨l, n, hplace, hname⟩
  rw [Disk.place_of_home hgrown.home, Disk.place_of_home hgrown.home] at hmoved
  exact ⟨made.disk, hgrown, hmoved, hmoved.home.trans hgrown.home, hmoved.plain hplain, hnamed⟩

/-- What a move does to the files does not depend on the folders made for it. -/
theorem moveTo_merged (hg : Good site.disk)
    (h : (Action.moveTo old new).perform site = (.ok u, after))
    (hab : Apart (site.disk.place old) (site.disk.place new)) :
    Merged (site.disk.place old) (site.disk.place new) site.disk after.disk := by
  obtain ⟨d, hgrown, hmoved, -, -⟩ := moveTo_ok hg h
  exact (hmoved.merged (hgrown.plain hg.plain) hab).of_fileAt_eq hgrown.fileAt

/-- Moving a file leaves all folders there. -/
theorem moveTo_folders (hg : Good site.disk) {c : Octets}
    (hfile : site.disk.fileAt (site.disk.place old) = some c)
    (h : (Action.moveTo old new).perform site = (.ok u, after)) (k : Location)
    (hk : site.disk.tree.get? k = some .folder) : after.disk.tree.get? k = some .folder := by
  obtain ⟨d, hgrown, hmoved, -, -⟩ := moveTo_ok hg h
  have hget := hgrown.get?_of_some (Disk.fileAt_eq_some.1 hfile)
  exact hmoved.folders hget k (hgrown.get?_of_some hk)

/-- Clearing a folder changes nothing or leaves no file in it, however it ends. -/
theorem clearIfPresent_cases (hg : Good site.disk) {r : Except Failure Unit}
    (h : (Action.clearIfPresent p).perform site = (r, after)) :
    after.disk = site.disk ∨
      site.disk.tree.get? (site.disk.place p) = some .folder ∧
        Cleared site.disk (site.disk.place p) after.disk ∧ Good after.disk := by
  unfold Action.clearIfPresent at h
  rw [Action.perform_holds_bind] at h
  split at h
  · rw [Action.perform_carryOut] at h
    obtain ⟨-, rfl⟩ := Prod.mk.inj h
    rcases Disk.clear_cases hg.plain p with ⟨hsame, -⟩ | ⟨hfind, hc⟩
    · exact .inl hsame
    · obtain ⟨-, -, -, hfolder⟩ := (Disk.find_iff hg.plain).1 hfind
      exact .inr ⟨hfolder, hc, hc.plain hg.plain, hc.named hg.named hfolder⟩
  · obtain ⟨-, rfl⟩ := Prod.mk.inj h
    exact .inl rfl

theorem clearIfPresent_ok (hg : Good site.disk)
    (h : (Action.clearIfPresent p).perform site = (.ok u, after)) :
    site.disk.holds p = false ∧ after = site ∨
      site.disk.holds p = true ∧ site.disk.tree.get? (site.disk.place p) = some .folder ∧
        Cleared site.disk (site.disk.place p) after.disk ∧ Good after.disk := by
  obtain ⟨v, mid, hv, h⟩ := Action.perform_bind_ok h
  obtain ⟨rfl, rfl⟩ := Action.perform_holds_ok hv
  split at h
  · rename_i hholds
    obtain ⟨hnone, rfl⟩ := Action.perform_carryOut_ok h
    rcases Disk.clear_cases hg.plain p with ⟨-, hne⟩ | ⟨hfind, hc⟩
    · exact absurd hnone hne
    · obtain ⟨-, -, -, hfolder⟩ := (Disk.find_iff hg.plain).1 hfind
      exact .inr ⟨hholds, hfolder, hc, hc.plain hg.plain, hc.named hg.named hfolder⟩
  · rename_i hholds
    obtain ⟨-, rfl⟩ := Action.perform_pure_ok h
    exact .inl ⟨by simpa using hholds, rfl⟩

/-- Clearing a folder that is there removes it, unless the way to the root leads through it. -/
theorem clearIfPresent_removes {root : Path} {names : List String} (hg : Good site.disk)
    (hp : Path.Under root names p)
    (hway : ∀ n rest, ¬ site.disk.OnWay root (site.disk.place p ++ n :: rest))
    (hholds : site.disk.holds p = true)
    (h : (Action.clearIfPresent p).perform site = (.ok u, after)) :
    after.disk.tree.get? (site.disk.place p) = none := by
  obtain ⟨v, mid, hv, h⟩ := Action.perform_bind_ok h
  obtain ⟨rfl, rfl⟩ := Action.perform_holds_ok hv
  rw [if_pos hholds] at h
  obtain ⟨hnone, rfl⟩ := Action.perform_carryOut_ok h
  exact Disk.clear_removes hg.plain hp hway hnone

/-! ### The modules written by hand -/

section

variable {d : Disk} {m m' : String} {ms names : List String} (hs : s.Standard)

/-- Where the modules written by hand live. -/
def manualPlace (d : Disk) (s : Settings) : Location :=
  d.place s.sourceFolder ++ ["Material", "Icons"]

theorem manualPlace_of_home {d' : Disk} (h : d'.home = d.home) (s : Settings) :
    manualPlace d' s = manualPlace d s := by
  unfold manualPlace
  rw [Disk.place_of_home h]

include hs

theorem place_manualHome (d : Disk) (hm : m ∈ s.manualModules) :
    d.place (s.manualHome m) = manualPlace d s ++ [m] := by
  rw [Disk.place_along (hs.manualHome_under hm).toAlong, manualPlace,
    Disk.place_along s.sourceFolder_under.toAlong]
  simp

theorem parked_under (hm : m ∈ s.manualModules) :
    Path.Under s.root ["src", m] (s.sourceFolder.under m) :=
  s.sourceFolder_under.toAlong.under (hs.manual m hm).1

theorem place_parked (d : Disk) (hm : m ∈ s.manualModules) :
    d.place (s.sourceFolder.under m) = d.place s.sourceFolder ++ [m] := by
  rw [Disk.place_along (parked_under hs hm).toAlong, Disk.place_along s.sourceFolder_under.toAlong]
  simp

/-- No module written by hand is called like the scaffold. -/
theorem manual_ne_scaffold (hm : m ∈ s.manualModules) : m ≠ "Material" := by
  rintro rfl
  exact absurd (hs.manual _ hm).2.1 (by decide)

theorem apart_manual (hm' : m' ∈ s.manualModules) :
    Apart (manualPlace d s ++ [m]) (d.place s.sourceFolder ++ [m']) := by
  intro q q' e
  have e' : "Material" = m' ∧ "Icons" :: m :: q = q' := by simpa [manualPlace] using e
  exact manual_ne_scaffold hs hm' e'.1.symm

/-- Where a module lives whose way is open, the folder for parking it is there. -/
theorem exists_of_onParentWay {k : Location} (hm : m ∈ s.manualModules)
    (ho : d.OpenRoot s.root) (hsrc : d.tree.get? (d.place s.sourceFolder) ≠ none)
    (hk : OnParentWay d (s.sourceFolder.under m) k) : d.tree.get? k ≠ none := by
  obtain ⟨above, habove, hway⟩ := hk
  have halong := (parked_under hs hm).parent? habove
  rw [Disk.place_along s.sourceFolder_under.toAlong] at hsrc
  have hroot : d.tree.get? (d.place s.root) ≠ none := by
    obtain ⟨e, he⟩ := Option.ne_none_iff_exists'.1 hsrc
    simp [Tree.get?_of_append he]
  rcases Disk.onWay_along halong hway with hway | ⟨more, hmore, rfl⟩
  · exact Disk.exists_of_onWay ho hroot hway
  · rcases List.prefix_concat_iff.1 (show more <+: [] ++ ["src"] from hmore) with rfl | hnil
    · exact hsrc
    · rw [List.prefix_nil.1 hnil, List.append_nil]
      exact hroot

/-- Parking one module does not change what stands where another one lives. -/
theorem get?_of_parked {site after : Site} (hg : Good site.disk) (hm : m ∈ s.manualModules)
    (hne : m ≠ m') (hheld : site.disk.holds (s.manualHome m) = true)
    (h : (Action.moveTo (s.manualHome m) (s.sourceFolder.under m)).perform site = (.ok u, after)) :
    after.disk.tree.get? (manualPlace site.disk s ++ [m']) =
      site.disk.tree.get? (manualPlace site.disk s ++ [m']) := by
  obtain ⟨-, ho, -, hhome⟩ := (Disk.holds_iff hg.plain (hs.manualHome_under hm)).1 hheld
  rw [place_manualHome hs _ hm] at hhome
  have hsrc : site.disk.tree.get? (site.disk.place s.sourceFolder) ≠ none := by
    obtain ⟨e, he⟩ := Option.ne_none_iff_exists'.1 hhome
    have he' : site.disk.tree.get? (site.disk.place s.sourceFolder ++ "Material" :: ["Icons", m]) =
        some e := by
      simpa [manualPlace] using he
    simp [Tree.get?_of_append_cons he']
  obtain ⟨d, hgrown, hmoved, -, -⟩ := moveTo_ok hg h
  rw [place_manualHome hs _ hm, place_parked hs _ hm] at hmoved
  have hk1 : ¬ site.disk.place s.sourceFolder ++ [m] <+: manualPlace site.disk s ++ [m'] := by
    simpa using (apart_manual (m := m') (d := site.disk) hs hm).symm.elsewhere []
  have hk2 : ¬ manualPlace site.disk s ++ [m] <+: manualPlace site.disk s ++ [m'] :=
    Disk.not_prefix_of_ne hne
  rw [hmoved.get?, if_neg hk1, if_neg hk2]
  rcases hgrown.get? (manualPlace site.disk s ++ [m']) with hk | ⟨hk, -, hway, -⟩
  · exact hk
  · exact absurd hk (exists_of_onParentWay hs hm ho hsrc hway)

/-- Parking one module does not change which others are found. -/
theorem holds_of_parked {site after : Site} (hg : Good site.disk) (hm : m ∈ s.manualModules)
    (hm' : m' ∈ s.manualModules) (hne : m ≠ m') (hheld : site.disk.holds (s.manualHome m) = true)
    (h : (Action.moveTo (s.manualHome m) (s.sourceFolder.under m)).perform site = (.ok u, after))
    (hopen : after.disk.OpenRoot s.root) :
    after.disk.holds (s.manualHome m') = true ↔ site.disk.holds (s.manualHome m') = true := by
  obtain ⟨-, -, -, hhome, hgood⟩ := moveTo_ok hg h
  have hopen' := ((Disk.holds_iff hg.plain (hs.manualHome_under hm)).1 hheld).2.1
  have hget := get?_of_parked hs hg hm hne hheld h
  rw [Disk.holds_iff hgood.plain (hs.manualHome_under hm'), Disk.holds_iff hg.plain (hs.manualHome_under hm'),
    place_manualHome hs _ hm', place_manualHome hs _ hm']
  unfold manualPlace at hget ⊢
  rw [Disk.place_of_home hhome, hget]
  simp only [hopen, hopen']

/-- The modules that are there are parked one after the other: the files of each of them go to the top
of the sources. -/
theorem park_ok (hsub : ∀ m ∈ ms, m ∈ s.manualModules) (hnd : ms.Nodup) {site after : Site}
    (hg : Good site.disk) {parked : List (Path × Path)}
    (h : (park s ms).perform site = (.ok parked, after)) :
    ∃ names, names.Sublist ms ∧ parked = names.map (parking s) ∧
      after.disk.home = site.disk.home ∧ Good after.disk ∧
      MergedAll (manualPlace site.disk s) (site.disk.place s.sourceFolder) names site.disk
        after.disk ∧
      (¬ site.disk.OpenRoot s.root → after.disk = site.disk) ∧
      (after.disk.OpenRoot s.root →
        ∀ m ∈ ms, m ∈ names ↔ site.disk.holds (s.manualHome m) = true) := by
  induction ms generalizing site parked with
  | nil =>
    obtain ⟨rfl, rfl⟩ := Action.perform_pure_ok h
    exact ⟨[], .slnil, rfl, rfl, hg, .nil _ _ _, fun _ => rfl, by simp⟩
  | cons m ms ih =>
    have hm := hsub m List.mem_cons_self
    have hsub' : ∀ m ∈ ms, m ∈ s.manualModules := fun x hx => hsub x (List.mem_cons_of_mem _ hx)
    obtain ⟨hnot, hnd'⟩ := List.nodup_cons.1 hnd
    rcases park_cons_ok h with ⟨hheld, u, mid, rest, hmove, hrest, rfl⟩ | ⟨hheld, hrest⟩
    · -- the module is there and is moved
      obtain ⟨-, -, -, hhome, hgmid⟩ := moveTo_ok hg hmove
      have hmerged := moveTo_merged hg hmove (by
        rw [place_manualHome hs _ hm, place_parked hs _ hm]
        exact apart_manual hs hm)
      rw [place_manualHome hs _ hm, place_parked hs _ hm] at hmerged
      obtain ⟨names, hsublist, rfl, hhome', hg', hall, hclosed, hheld'⟩ := ih hsub' hnd' hgmid hrest
      have hsrc : mid.disk.place s.sourceFolder = site.disk.place s.sourceFolder :=
        Disk.place_of_home hhome _
      rw [hsrc, manualPlace_of_home hhome] at hall
      refine ⟨m :: names, hsublist.cons_cons m, rfl, hhome'.trans hhome, hg', ?_, fun hno => ?_,
        fun hopen m' hm' => ?_⟩
      · refine MergedAll.cons hmerged hall (fun hmem => hnot (hsublist.subset hmem)) ?_
        intro x _ y hy
        refine apart_manual hs ?_
        rcases List.mem_cons.1 hy with rfl | hy
        · exact hm
        · exact hsub' y (hsublist.subset hy)
      · exact absurd ((Disk.holds_iff hg.plain (hs.manualHome_under hm)).1 hheld).2.1 hno
      · rcases List.mem_cons.1 hm' with rfl | hm'
        · simp [hheld]
        · have hne : m ≠ m' := fun e => hnot (e ▸ hm')
          have hopen' : mid.disk.OpenRoot s.root := by
            apply Classical.byContradiction
            intro hno
            exact hno (hclosed hno ▸ hopen)
          have hiff : m' ∈ m :: names ↔ m' ∈ names := by simp [Ne.symm hne]
          rw [hiff, hheld' hopen m' hm', holds_of_parked hs hg hm (hsub' m' hm') hne hheld hmove hopen']
    · -- the module is missing
      obtain ⟨names, hsublist, rfl, hhome', hg', hall, hclosed, hheld'⟩ :=
        ih hsub' hnd' (by exact hg) hrest
      refine ⟨names, hsublist.cons m, rfl, hhome', hg', hall, hclosed, fun hopen m' hm' => ?_⟩
      rcases List.mem_cons.1 hm' with rfl | hm'
      · have hmem : m' ∉ names := fun hmem => hnot (hsublist.subset hmem)
        simp [hmem, hheld]
      · exact hheld' hopen m' hm'

/-- The parked modules are put back: the files of each of them leave the top of the sources. -/
theorem restore_ok (hsub : ∀ m ∈ names, m ∈ s.manualModules) (hnd : names.Nodup) {site after : Site}
    (hg : Good site.disk) (h : (restore (names.map (parking s))).perform site = (.ok u, after)) :
    after.disk.home = site.disk.home ∧ Good after.disk ∧
      MergedAll (site.disk.place s.sourceFolder) (manualPlace site.disk s) names site.disk
        after.disk := by
  induction names generalizing site with
  | nil =>
    obtain ⟨-, rfl⟩ := Action.perform_pure_ok h
    exact ⟨rfl, hg, .nil _ _ _⟩
  | cons m names ih =>
    have hm := hsub m List.mem_cons_self
    have hsub' : ∀ m ∈ names, m ∈ s.manualModules := fun x hx => hsub x (List.mem_cons_of_mem _ hx)
    obtain ⟨hnot, hnd'⟩ := List.nodup_cons.1 hnd
    obtain ⟨_, mid, hmove, h⟩ := Action.perform_bind_ok h
    obtain ⟨-, -, -, hhome, hgmid⟩ := moveTo_ok hg hmove
    have hmerged := moveTo_merged hg hmove (by
      rw [place_manualHome hs _ hm, place_parked hs _ hm]
      exact (apart_manual hs hm).symm)
    rw [place_manualHome hs _ hm, place_parked hs _ hm] at hmerged
    obtain ⟨hhome', hg', hall⟩ := ih hsub' hnd' hgmid h
    rw [Disk.place_of_home hhome, manualPlace_of_home hhome] at hall
    refine ⟨hhome'.trans hhome, hg', MergedAll.cons hmerged hall hnot ?_⟩
    intro x hx y hy
    exact (apart_manual hs (hsub x hx)).symm

/-- Putting the modules back makes no folder in the output. -/
theorem restore_gone (hsub : ∀ m ∈ names, m ∈ s.manualModules) {site after : Site}
    (hg : Good site.disk) (hroot : ¬ site.disk.OnWay s.root (site.disk.place s.outFolder))
    (hnone : site.disk.tree.get? (site.disk.place s.outFolder) = none)
    (h : (restore (names.map (parking s))).perform site = (.ok u, after)) :
    after.disk.tree.get? (site.disk.place s.outFolder) = none := by
  induction names generalizing site with
  | nil =>
    obtain ⟨-, rfl⟩ := Action.perform_pure_ok h
    exact hnone
  | cons m names ih =>
    have hm := hsub m List.mem_cons_self
    have hout := Disk.place_along (d := site.disk) s.outFolder_under.toAlong
    obtain ⟨_, mid, hmove, h⟩ := Action.perform_bind_ok h
    obtain ⟨d, hgrown, hmoved, hhome, hgmid⟩ := moveTo_ok hg hmove
    have hmid : mid.disk.tree.get? (site.disk.place s.outFolder) = none := by
      have hapart : ¬ site.disk.place (s.manualHome m) <+: site.disk.place s.outFolder := by
        rw [Disk.place_along (hs.manualHome_under hm).toAlong, hout, List.prefix_append_right_inj]
        simp
      rw [hmoved.get?, if_neg hapart]
      split
      · rfl
      · rcases hgrown.get? (site.disk.place s.outFolder) with hk | ⟨-, -, ⟨above, habove, hway⟩, -⟩
        · rw [hk, hnone]
        · rcases Disk.onWay_along ((hs.manualHome_under hm).parent? habove) hway with hk | hk
          · exact absurd hk hroot
          · obtain ⟨more, hmore, he⟩ := hk
            rw [hout] at he
            obtain rfl := List.append_cancel_left he
            simp at hmore
    rw [← Disk.place_of_home hhome] at hmid ⊢
    refine ih (fun x hx => hsub x (List.mem_cons_of_mem _ hx)) hgmid ?_ hmid h
    rw [Disk.place_of_home hhome, Disk.onWay_of_home hhome]
    exact hroot

end

/-! ### The assembled modules -/

/-- All files at and below `a` went to `b`, there were `n` of them, and all folders are still there. -/
structure Shifted (a b : Location) (d d' : Disk) (n : Nat) : Prop where
  merged : Merged a b d d'
  home : d'.home = d.home
  good : Good d'
  folders : ∀ k, d.tree.get? k = some .folder → d'.tree.get? k = some .folder
  count : ∃ rels : List Location, rels.Nodup ∧ rels.length = n ∧
    ∀ q, q ∈ rels ↔ d.fileAt (a ++ q) ≠ none

/-- All files under some names in `a` went to `b`, and there were `n` of them. -/
structure ShiftedAll (a b : Location) (names : List String) (d d' : Disk) (n : Nat) : Prop where
  merged : MergedAll a b names d d'
  home : d'.home = d.home
  good : Good d'
  folders : ∀ k, d.tree.get? k = some .folder → d'.tree.get? k = some .folder
  count : ∃ rels : List Location, rels.Nodup ∧ rels.length = n ∧
    ∀ q, q ∈ rels ↔ ∃ m ∈ names, ∃ r, q = m :: r ∧ d.fileAt (a ++ q) ≠ none

section

variable {a b : Location} {d d₁ d' : Disk} {names : List String} {m : String} {n n' : Nat}

/-- The first move leaves the files under the other names alone. -/
theorem Shifted.fileAt_other (h : Shifted (a ++ [m]) (b ++ [m]) d d₁ n) (hab : Apart a b)
    {x : String} (hx : m ≠ x) (q : Location) : d₁.fileAt (a ++ x :: q) = d.fileAt (a ++ x :: q) := by
  refine h.merged.rest _ (Disk.not_prefix_of_ne hx) ?_
  simpa using (hab.append [] [m]).symm.elsewhere (x :: q)

theorem ShiftedAll.cons (h : Shifted (a ++ [m]) (b ++ [m]) d d₁ n)
    (h' : ShiftedAll a b names d₁ d' n') (hm : m ∉ names) (hab : Apart a b) :
    ShiftedAll a b (m :: names) d d' (n + n') := by
  obtain ⟨rels, hnd, hlen, hrels⟩ := h.count
  obtain ⟨rels', hnd', hlen', hrels'⟩ := h'.count
  refine ⟨h.merged.cons_all h'.merged hm hab, h'.home.trans h.home, h'.good,
    fun k hk => h'.folders k (h.folders k hk), rels.map (m :: ·) ++ rels', ?_, ?_, fun q => ?_⟩
  · refine List.nodup_append.2 ⟨?_, hnd', ?_⟩
    · exact List.Pairwise.map _ (fun x y hxy e => hxy (List.cons.inj e).2) hnd
    · rintro q hq r hr rfl
      obtain ⟨q', -, rfl⟩ := List.mem_map.1 hq
      obtain ⟨x, hx, r, e, -⟩ := (hrels' _).1 hr
      exact hm ((List.cons.inj e).1 ▸ hx)
  · rw [List.length_append, List.length_map, hlen, hlen']
  · rw [List.mem_append, List.mem_map, hrels']
    constructor
    · rintro (⟨r, hr, rfl⟩ | ⟨x, hx, r, rfl, hne⟩)
      · exact ⟨m, List.mem_cons_self, r, rfl, by simpa using (hrels r).1 hr⟩
      · have hmx : m ≠ x := fun e => hm (e ▸ hx)
        rw [h.fileAt_other hab hmx] at hne
        exact ⟨x, List.mem_cons_of_mem m hx, r, rfl, hne⟩
    · rintro ⟨x, hx, r, rfl, hne⟩
      rcases List.mem_cons.1 hx with rfl | hx
      · exact .inl ⟨r, (hrels r).2 (by simpa using hne), rfl⟩
      · have hmx : m ≠ x := fun e => hm (e ▸ hx)
        refine .inr ⟨x, hx, r, rfl, ?_⟩
        rwa [h.fileAt_other hab hmx]

/-- Where all names in a folder are moved, all its files are. -/
theorem ShiftedAll.shifted (h : ShiftedAll a b names d d' n)
    (hall : ∀ m q, d.fileAt (a ++ m :: q) ≠ none → m ∈ names) (ha : d.fileAt a = none)
    (hab : Apart a b) : Shifted a b d d' n := by
  obtain ⟨rels, hnd, hlen, hrels⟩ := h.count
  refine ⟨h.merged.merged hall ha hab, h.home, h.good, h.folders, rels, hnd, hlen, fun q => ?_⟩
  rw [hrels]
  constructor
  · rintro ⟨-, -, -, -, hne⟩
    exact hne
  · intro hne
    cases q with
    | nil => exact absurd (by simpa using ha) hne
    | cons m q => exact ⟨m, hall m q hne, q, rfl, hne⟩

end

section

variable {root : Path} {o w : List String} {n : Nat}

/-- A file is moved to the same name in another folder. -/
theorem moveTo_shifted {name : String} {c : Octets} (how : Apart o w)
    (hold : Path.Along root o old) (hnew : Path.Along root w new) (hg : Good site.disk)
    (hname : IsName name) (hfile : site.disk.fileAt (site.disk.place old ++ [name]) = some c)
    (h : (Action.moveTo (old.under name) (new.under name)).perform site = (.ok u, after)) :
    Shifted (site.disk.place old ++ [name]) (site.disk.place new ++ [name]) site.disk after.disk
      1 := by
  have hplace : ∀ {p : Path} {names}, Path.Along root names p →
      site.disk.place (p.under name) = site.disk.place p ++ [name] := by
    intro p names hp
    rw [Disk.place_along (hp.under hname).toAlong, Disk.place_along hp, List.append_assoc]
  have hab : Apart (site.disk.place old) (site.disk.place new) := by
    rw [Disk.place_along hold, Disk.place_along hnew]
    intro q q' e
    exact how q q' (by simpa using e)
  have hmerged := moveTo_merged hg h (by
    rw [hplace hold, hplace hnew]
    exact hab.append _ _)
  rw [hplace hold, hplace hnew] at hmerged
  obtain ⟨-, -, -, hhome, hgood⟩ := moveTo_ok hg h
  have hget := Disk.fileAt_eq_some.1 hfile
  have hfolders := moveTo_folders hg (by rw [hplace hold, hfile]) h
  refine ⟨hmerged, hhome, hgood, hfolders, [[]], by simp, rfl, fun q => ?_⟩
  rw [List.mem_singleton]
  constructor
  · rintro rfl
    simp [hfile]
  · intro hne
    cases q with
    | nil => rfl
    | cons x q =>
      exact absurd (Disk.fileAt_below (by simp [hget]) x q) hne

/-- The entries of a folder are moved one after the other, if folders among them are. -/
theorem moveEntries_ok {below : Path → Path → Action Nat}
    (hbelow : ∀ {o w old new site n after}, Apart o w → Path.Along root o old →
      Path.Along root w new → Good site.disk → (below old new).perform site = (.ok n, after) →
      Shifted (site.disk.place old) (site.disk.place new) site.disk after.disk n)
    (how : Apart o w) (hold : Path.Along root o old) (hnew : Path.Along root w new)
    {entries : List (String × Entry)} (hnd : (entries.map Prod.fst).Nodup)
    (hnames : ∀ x ∈ entries, IsName x.1) (hlinks : ∀ x ∈ entries, ∀ target, x.2 ≠ .link target)
    {site : Site} (hg : Good site.disk)
    (hfiles : ∀ x ∈ entries, ∀ c, x.2 = .file c →
      site.disk.fileAt (site.disk.place old ++ [x.1]) = some c)
    (h : (moveEntries below old new entries).perform site = (.ok n, after)) :
    ShiftedAll (site.disk.place old) (site.disk.place new) (entries.map Prod.fst) site.disk
      after.disk n := by
  have hab : ∀ d : Disk, Apart (d.place old) (d.place new) := by
    intro d
    rw [Disk.place_along hold, Disk.place_along hnew]
    intro q q' e
    exact how q q' (by simpa using e)
  induction entries generalizing site n with
  | nil =>
    obtain ⟨rfl, rfl⟩ := Action.perform_pure_ok h
    exact ⟨.nil _ _ _, rfl, hg, fun _ hk => hk, [], by simp, rfl, by simp⟩
  | cons x rest ih =>
    obtain ⟨name, e⟩ := x
    obtain ⟨hnot, hnd'⟩ := List.nodup_cons.1 hnd
    have hname := hnames _ List.mem_cons_self
    -- the rest is moved after `name` was
    have hrest : ∀ {mid n₁ n₂}, Shifted (site.disk.place old ++ [name])
        (site.disk.place new ++ [name]) site.disk mid.disk n₁ →
        (moveEntries below old new rest).perform mid = (.ok n₂, after) →
        ShiftedAll (site.disk.place old) (site.disk.place new) (name :: rest.map Prod.fst) site.disk
          after.disk (n₁ + n₂) := by
      intro mid n₁ n₂ hfirst hrun
      have hplace := Disk.place_of_home hfirst.home
      have hlater := ih hnd' (fun y hy => hnames y (List.mem_cons_of_mem _ hy))
        (fun y hy => hlinks y (List.mem_cons_of_mem _ hy)) hfirst.good
        (fun y hy c hc => by
          have hne : name ≠ y.1 := fun e => hnot (List.mem_map.2 ⟨y, hy, e.symm⟩)
          rw [hplace, hfirst.fileAt_other (hab _) hne]
          exact hfiles y (List.mem_cons_of_mem _ hy) c hc) hrun
      rw [hplace, hplace] at hlater
      exact ShiftedAll.cons hfirst hlater hnot (hab _)
    cases e with
    | file c =>
      obtain ⟨_, mid, hmove, h⟩ := Action.perform_bind_ok h
      obtain ⟨n', later, hrun, h⟩ := Action.perform_bind_ok h
      obtain ⟨rfl, rfl⟩ := Action.perform_pure_ok h
      exact hrest (moveTo_shifted how hold hnew hg hname
        (hfiles _ List.mem_cons_self c rfl) hmove) hrun
    | folder =>
      obtain ⟨n₁, mid, hmove, h⟩ := Action.perform_bind_ok h
      obtain ⟨n', later, hrun, h⟩ := Action.perform_bind_ok h
      obtain ⟨rfl, rfl⟩ := Action.perform_pure_ok h
      have hfirst := hbelow (how.append [name] [name]) (hold.under hname).toAlong
        (hnew.under hname).toAlong hg hmove
      rw [Disk.place_along (hold.under hname).toAlong, Disk.place_along (hnew.under hname).toAlong,
        ← List.append_assoc, ← List.append_assoc, ← Disk.place_along hold,
        ← Disk.place_along hnew] at hfirst
      exact hrest hfirst hrun
    | link target => exact absurd rfl (hlinks _ List.mem_cons_self target)

theorem listing_ok {es : List (String × Entry)}
    (h : (listing p).perform site = (.ok es, after)) : site.disk.list p = .ok es ∧ site = after := by
  obtain ⟨hl, rfl⟩ := Action.perform_inspect_ok h
  exact ⟨ok_of_mapError hl, rfl⟩

/-- All files below a folder are moved, however deep it is. -/
theorem moveBelow_ok (fuel : Nat) (how : Apart o w) (hold : Path.Along root o old)
    (hnew : Path.Along root w new) (hg : Good site.disk)
    (h : (moveBelow fuel old new).perform site = (.ok n, after)) :
    Shifted (site.disk.place old) (site.disk.place new) site.disk after.disk n := by
  induction fuel generalizing o w old new site n after with
  | zero => cases h
  | succ fuel ih =>
    obtain ⟨es, mid, hlist, h⟩ := Action.perform_bind_ok h
    obtain ⟨hes, rfl⟩ := listing_ok hlist
    obtain ⟨-, hfolder, rfl⟩ := Disk.list_place hg.plain hes
    have hchild : ∀ x ∈ site.disk.tree.children (site.disk.place old),
        site.disk.tree.get? (site.disk.place old ++ [x.1]) = some x.2 :=
      fun x hx => Tree.mem_children.1 hx
    have hall := moveEntries_ok ih how hold hnew (Tree.nodup_children _ _)
      (fun x hx => hg.named _ _ _ (hchild x hx))
      (fun x hx target hl => hg.plain _ target (hl ▸ hchild x hx)) hg
      (fun x hx c hc => Disk.fileAt_eq_some.2 (hc ▸ hchild x hx)) h
    refine hall.shifted (fun m q hne => ?_) ?_ ?_
    · obtain ⟨c, hc⟩ := Option.ne_none_iff_exists'.1 hne
      have hget := Disk.fileAt_eq_some.1 hc
      have hm : ∃ e, site.disk.tree.get? (site.disk.place old ++ [m]) = some e := by
        cases q with
        | nil => exact ⟨_, hget⟩
        | cons x q =>
          exact ⟨.folder, Tree.get?_of_append_cons (by simpa using hget)⟩
      obtain ⟨e, he⟩ := hm
      exact List.mem_map.2 ⟨(m, e), Tree.mem_children.2 he, rfl⟩
    · rw [Disk.fileAt_eq_none]
      simp [hfolder]
    · rw [Disk.place_along hold, Disk.place_along hnew]
      intro q q' e
      exact how q q' (by simpa using e)

end

/-- Moving the assembled modules keeps what is kept by moves from a way below the output to the same way
below the sources. -/
theorem keeps_moveAll_along {I : Site → Prop} (hgood : ∀ site, I site → Good site.disk)
    (hmove : ∀ names old new, Path.Along s.root (["gen", "tmp", "out"] ++ names) old →
      Path.Along s.root (["src"] ++ names) new → Action.Keeps I (Action.moveTo old new)) :
    Action.Keeps I (moveAll s.outFolder s.sourceFolder) := by
  let R : Path → Path → Prop := fun old new => ∃ names,
    Path.Along s.root (["gen", "tmp", "out"] ++ names) old ∧
      Path.Along s.root (["src"] ++ names) new
  refine keeps_moveAll (R := R) ?_ ?_ ⟨[], s.outFolder_under.toAlong, s.sourceFolder_under.toAlong⟩
  · rintro old new ⟨names, hold, hnew⟩
    exact hmove names old new hold hnew
  · rintro site old new es h ⟨names, hold, hnew⟩ hes x hx
    obtain ⟨-, -, rfl⟩ := Disk.list_place (hgood site h).plain hes
    have hname : IsName x.1 := (hgood site h).named _ _ _ (Tree.mem_children.1 hx)
    refine ⟨names ++ [x.1], ?_, ?_⟩
    · rw [← List.append_assoc]
      exact (hold.under hname).toAlong
    · rw [← List.append_assoc]
      exact (hnew.under hname).toAlong

end IconModules.Installation
