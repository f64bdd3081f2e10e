import IconModules.Proofs.Files.Accepted
import IconModules.Proofs.Generation.Filled
import IconModules.Proofs.Generation.Installing
import IconModules.Proofs.Generation.Untouched

/-! # What a run finds when it writes its first module

* `Ready` relates the disk at the start of a run to that on which its folders are prepared: the output holds
  no file, the cache is as it was or purged, and everything else is still there (`makeReady_ok`).
* `loadCatalogue_ok`: the catalogue that was served is stored in its file, and nothing else changes. -/

namespace IconModules

namespace Settings

variable {s : Settings}

/-- The folders of a project are written behind the same beginning. -/
theorem exists_beginning (hs : s.Standard) : ∃ t, s.cacheFolder.text = t ++ "gen/tmp/sot" ∧
    s.iconsFolder.text = t ++ "gen/tmp/sot/icons" ∧
    (s.sourceFolder.join s.scaffold).text = t ++ "src/Material" := by
  have hgen : (s.root.under "gen").text = s.root.text ++ s.root.divider ++ "gen" :=
    Path.text_under (by decide)
  have htmp := Path.text_under (p := s.root.under "gen") (n := "tmp") (by decide)
  rw [Path.divider_of_last hgen (c := 'n') (by decide) (by decide), hgen] at htmp
  have hsot := Path.text_under (p := (s.root.under "gen").under "tmp") (n := "sot") (by decide)
  rw [Path.divider_of_last htmp (c := 'p') (by decide) (by decide), htmp] at hsot
  have hicons := Path.text_under (p := s.cacheFolder) (n := "icons") (by decide)
  rw [cacheFolder, Path.divider_of_last hsot (c := 't') (by decide) (by decide), hsot] at hicons
  have hsrc : (s.root.under "src").text = s.root.text ++ s.root.divider ++ "src" :=
    Path.text_under (by decide)
  have hscaffold := Path.text_join (p := s.sourceFolder) (q := ⟨"Material"⟩) (by decide)
  rw [sourceFolder, Path.divider_of_last hsrc (c := 'c') (by decide) (by decide), hsrc] at hscaffold
  refine ⟨s.root.text ++ s.root.divider, ?_, ?_, ?_⟩
  · rw [cacheFolder, hsot]
    simp only [String.append_assoc]
    rfl
  · rw [iconsFolder, cacheFolder, hicons]
    simp only [String.append_assoc]
    rfl
  · rw [hs.scaffold, sourceFolder, hscaffold]
    simp only [String.append_assoc]
    rfl

theorem accept_scaffold (hs : s.Standard) (h : Disk.acceptPath s.iconsFolder = .ok ()) :
    Disk.acceptPath (s.sourceFolder.join s.scaffold) = .ok () := by
  obtain ⟨t, -, hicons, hscaffold⟩ := exists_beginning hs
  exact Disk.accept_of_text h hicons hscaffold (by decide) (by decide) (by decide)

theorem accept_cacheFolder (hs : s.Standard) (h : Disk.acceptPath s.iconsFolder = .ok ()) :
    Disk.acceptPath s.cacheFolder = .ok () := by
  obtain ⟨t, hcache, hicons, -⟩ := exists_beginning hs
  exact Disk.accept_of_text h hicons hcache (by decide) (by decide) (by decide)

end Settings

namespace Generation

open Disk (Cleared Extends Grown)
open Installation (Good)

variable {s : Settings} {partners : Partners} {site after : Site} {u : Unit} {d d' : Disk}
  {p : Path} {names : List String} {k : Location}

/-! ### Clearing and making one folder -/

/-- Clearing a folder that is there if anything is at its place leaves no file there. -/
theorem clearIfPresent_empties (hg : Good site.disk) (hp : Path.Under s.root names p)
    (hshort : ∀ n ∈ names, n.utf8ByteSize ≤ Tree.nameLimit)
    (h : (Action.clearIfPresent p).perform site = (.ok u, after)) :
    Good after.disk ∧ after.disk.home = site.disk.home ∧
      (∀ k, ¬ site.disk.place p <+: k → after.disk.tree.get? k = site.disk.tree.get? k) ∧
      (∀ k, site.disk.tree.get? k = none → after.disk.tree.get? k = none) ∧
      (Disk.acceptPath p = .ok () →
        (site.disk.tree.get? (site.disk.place p) ≠ none → site.disk.OpenRoot s.root) →
        ∀ q, after.disk.fileAt (site.disk.place p ++ q) = none) := by
  rcases Installation.clearIfPresent_ok hg h with ⟨hnot, rfl⟩ | ⟨-, hfolder, hc, hgood⟩
  · refine ⟨hg, rfl, fun _ _ => rfl, fun _ h => h, fun ha hopen q => Disk.fileAt_nowhere ?_ q⟩
    apply Classical.byContradiction
    intro hne
    rw [(Disk.holds_iff hg.plain hp).2 ⟨ha, hopen hne, hshort, hne⟩] at hnot
    cases hnot
  · refine ⟨hgood, hc.home, hc.get?, fun k hk => ?_, fun _ _ q => ?_⟩
    · by_cases hbelow : site.disk.place p <+: k
      · refine hc.below k hbelow ?_
        rintro rfl
        rw [hfolder] at hk
        cases hk
      · rw [hc.get? k hbelow, hk]
    · rw [hc.fileAt, if_pos (List.prefix_append _ _)]

theorem makeFolders_good (hg : Good site.disk) (hp : Path.Under s.root names p)
    (h : (Action.makeFolders p).perform site = (.ok u, after)) :
    Grown (fun _ => True) site.disk after.disk ∧ Good after.disk ∧
      Disk.acceptPath p = .ok () ∧ after.disk.OpenRoot s.root ∧
      after.disk.tree.get? (site.disk.place p) = some .folder := by
  obtain ⟨hnone, rfl⟩ := Action.perform_carryOut_ok h
  have hgrown := site.disk.makeFolders_grown hg.plain p
  exact ⟨hgrown.mono fun _ _ => trivial, ⟨hgrown.plain hg.plain, hgrown.named hg.named⟩,
    Disk.makeFolders_ok hg.plain hp hnone⟩

/-! ### All folders -/

/-- A place that is not cleared when a run starts. -/
def Lasting (s : Settings) (d : Disk) (k : Location) : Prop :=
  ¬ d.place s.outFolder <+: k ∧ (s.cacheStart = .purge → ¬ d.place s.cacheFolder <+: k)

/-- The disk `d'` is `d` after the folders of a run were prepared. -/
structure Ready (s : Settings) (d d' : Disk) : Prop where
  sound : Sound s d.home d'
  accepted : Disk.acceptPath s.iconsFolder = .ok ()
  empty : ∀ q, d'.fileAt (d.place s.outFolder ++ q) = none
  files : ∀ k, Lasting s d k → d'.fileAt k = d.fileAt k
  there : ∀ k, Lasting s d k → d.tree.get? k ≠ none → d'.tree.get? k ≠ none
  /-- A cache that cannot be reached is not purged, even if the way to it is made later. -/
  purged : s.cacheStart = .purge →
    (d.tree.get? (d.place s.cacheFolder) ≠ none → d.OpenRoot s.root) →
    ∀ q, d'.fileAt (d.place s.cacheFolder ++ q) = none

/-- The folder of drawings is made, and the output is cleared and made again. -/
theorem prepare_ok (hg : Good site.disk)
    (h : (do
      Action.makeFolders s.iconsFolder
      Action.clearIfPresent s.outFolder
      Action.makeFolders s.outFolder).perform site = (.ok u, after)) :
    Sound s site.disk.home after.disk ∧ Disk.acceptPath s.iconsFolder = .ok () ∧
      (∀ q, after.disk.fileAt (site.disk.place s.outFolder ++ q) = none) ∧
      ∀ k, ¬ site.disk.place s.outFolder <+: k → after.disk.fileAt k = site.disk.fileAt k ∧
        (site.disk.tree.get? k ≠ none → after.disk.tree.get? k ≠ none) := by
  obtain ⟨_, iconsSite, hicons, h⟩ := Action.perform_bind_ok h
  obtain ⟨_, emptySite, hclear, hmake⟩ := Action.perform_bind_ok h
  obtain ⟨hgrown, hg₁, haccept, hopen, -⟩ := makeFolders_good hg s.iconsFolder_under hicons
  obtain ⟨hg₂, hhome, hsame, -, hempty⟩ :=
    clearIfPresent_empties hg₁ s.outFolder_under (by decide) hclear
  obtain ⟨hgrown', hg₃, haccept', hopen', -⟩ := makeFolders_good hg₂ s.outFolder_under hmake
  rw [Disk.place_of_home hgrown.home] at hsame hempty
  refine ⟨⟨hg₃.plain, hg₃.named, hgrown'.home.trans (hhome.trans hgrown.home), hopen'⟩, haccept,
    fun q => ?_, fun k hk => ⟨?_, fun hthere => ?_⟩⟩
  · rw [hgrown'.fileAt]
    exact hempty haccept' (fun _ => hopen) q
  · rw [hgrown'.fileAt, Disk.fileAt_congr (hsame k hk), hgrown.fileAt]
  · obtain ⟨e, he⟩ := Option.ne_none_iff_exists'.1 hthere
    have he' := hgrown.get?_of_some he
    rw [← hsame k hk] at he'
    simp [hgrown'.get?_of_some he']

/-- The cache and the output have nothing in common. -/
theorem apart_cache (d : Disk) (s : Settings) :
    Disk.Apart (d.place s.cacheFolder) (d.place s.outFolder) := by
  rw [Disk.place_along s.cacheFolder_under.toAlong, Disk.place_along s.outFolder_under.toAlong]
  intro q q' e
  simp at e

/-- The folders of a run are prepared. -/
theorem makeReady_ok (hs : s.Standard) (hg : Good site.disk)
    (h : (makeReady s).perform site = (.ok u, after)) : Ready s site.disk after.disk := by
  unfold makeReady at h
  dsimp only at h
  split at h
  · rename_i hpurge
    obtain ⟨_, purgedSite, hclear, h⟩ := Action.perform_bind_ok h
    obtain ⟨hg₁, hhome, hsame, -, hempty⟩ :=
      clearIfPresent_empties hg s.cacheFolder_under (by decide) hclear
    obtain ⟨hsound, haccept, hout, hrest⟩ := prepare_ok hg₁ h
    rw [Disk.place_of_home hhome] at hout hrest
    rw [hhome] at hsound
    refine ⟨hsound, haccept, hout, fun k hk => ?_, fun k hk hthere => ?_, fun _ hopen q => ?_⟩
    · rw [(hrest k hk.1).1, Disk.fileAt_congr (hsame k (hk.2 hpurge))]
    · refine (hrest k hk.1).2 ?_
      rwa [hsame k (hk.2 hpurge)]
    · rw [(hrest _ ((apart_cache _ s).symm.elsewhere q)).1]
      exact hempty (Settings.accept_cacheFolder hs haccept) hopen q
  · rename_i hkeep
    obtain ⟨hsound, haccept, hout, hrest⟩ := prepare_ok hg h
    exact ⟨hsound, haccept, hout, fun k hk => (hrest k hk.1).1, fun k hk => (hrest k hk.1).2,
      fun hpurge => absurd hpurge hkeep⟩

/-! ### The catalogue -/

/-- The file of the catalogue does not lie below the folder of drawings. -/
theorem catalogue_apart (s : Settings) (d : Disk) :
    ¬ d.place s.iconsFolder <+: d.place s.catalogueFile := by
  rw [Disk.place_along s.iconsFolder_under.toAlong, Disk.place_along s.catalogueFile_under.toAlong,
    List.prefix_append_right_inj]
  decide

theorem write_catalogue_filled {home : Location} {raw : Octets} (hd : Sound s home d)
    (h : d.write s.catalogueFile raw = .ok d') :
    Filled s [d.place s.catalogueFile] d d' := by
  obtain ⟨l, hl, hput⟩ := Disk.write_ok h
  have hstored := hput.stored hl
  obtain rfl := place_of_stored hd hstored
  refine ⟨hstored.grown, hstored.named, fun k hk _ => ?_, fun k c hicons hc _ => ?_⟩
  · exact (hstored.fileAt k).trans (if_neg (by simpa using hk))
  · refine (hstored.fileAt k).trans ((if_neg ?_).trans hc)
    rintro rfl
    exact catalogue_apart s d hicons

/-- The catalogue that was served is stored in its file, and nothing else changes. -/
theorem loadCatalogue_ok {catalogue : Catalogue} {home : Location} (hd : Sound s home site.disk)
    (h : (loadCatalogue s partners).perform site = (.ok catalogue, after)) :
    Served s partners site catalogue ∧
      Filled s [site.disk.place s.catalogueFile] site.disk after.disk := by
  refine ⟨served_of_loadCatalogue h, ?_⟩
  obtain ⟨_, noted, hnote, h⟩ := Action.perform_bind_ok h
  obtain rfl := Action.perform_record_ok hnote
  obtain ⟨raw, downloaded, hdownload, h⟩ := Action.perform_bind_ok h
  obtain ⟨-, rfl⟩ := Action.perform_attempt_ok hdownload
  obtain ⟨_, written, hwrite, h⟩ := Action.perform_bind_ok h
  obtain ⟨-, rfl⟩ := Action.perform_attempt_ok h
  obtain ⟨d, hd', rfl⟩ := Action.perform_change_ok hwrite
  exact write_catalogue_filled hd hd'

end Generation
end IconModules
