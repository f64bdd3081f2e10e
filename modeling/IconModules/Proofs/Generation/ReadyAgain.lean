import IconModules.Proofs.Generation.CachedModules
import IconModules.Proofs.Generation.Ready

/-! # Folders and catalogue, exactly

`Arranged` says for every place what stands there when the folders of a run that keeps its cache are prepared.
They are prepared as soon as nothing is in the way (`makeReady_of_passable`), and a catalogue that is already
in its file is stored there again without a change (`loadCatalogue_again`). -/

namespace IconModules.Generation

open Disk (Cleared Paved Passable Usable)
open Installation (Good)

variable {s : Settings} {partners : Partners} {site after : Site} {u : Unit} {d d₁ d₂ d' : Disk}
  {k : Location} {raw : Octets} {catalogue : Catalogue}

/-- The disk `d'` is `d` with the folders of a run: the ways to the cache and to the output lead through folders,
and nothing else is in the output. -/
structure Arranged (s : Settings) (d d' : Disk) : Prop where
  home : d'.home = d.home
  out : ∀ k, d.OnWay s.outFolder k → d'.tree.get? k = some .folder
  icons : ∀ k, d.OnWay s.iconsFolder k → d'.tree.get? k = some .folder
  empty : ∀ k, d.place s.outFolder <+: k → ¬ d.OnWay s.outFolder k → d'.tree.get? k = none
  same : ∀ k, ¬ d.place s.outFolder <+: k → ¬ d.OnWay s.outFolder k → ¬ d.OnWay s.iconsFolder k →
    d'.tree.get? k = d.tree.get? k

/-- What is on the way to the folder of drawings is on the way to the root or outside the output. -/
theorem onWay_icons_cases (hk : d.OnWay s.iconsFolder k) :
    d.OnWay s.outFolder k ∨ ¬ d.place s.outFolder <+: k := by
  rw [Disk.onWay_along_iff s.outFolder_under.toAlong]
  rw [Disk.place_along s.outFolder_under.toAlong]
  rcases (Disk.onWay_along_iff s.iconsFolder_under.toAlong).1 hk with hroot | ⟨more, hmore, rfl⟩
  · exact .inl (.inl hroot)
  · refine .inr ?_
    rw [List.prefix_append_right_inj]
    intro hout
    have hboth := hout.trans hmore
    simp at hboth

/-- What clearing the output leaves. -/
structure OutCleared (s : Settings) (d d' : Disk) : Prop where
  home : d'.home = d.home
  below : ∀ n q, d'.tree.get? (d.place s.outFolder ++ n :: q) = none
  itself : d'.tree.get? (d.place s.outFolder) = none ∨
    d'.tree.get? (d.place s.outFolder) = some .folder
  same : ∀ k, ¬ d.place s.outFolder <+: k → d'.tree.get? k = d.tree.get? k

theorem outCleared_of_cleared (h : Cleared d (d.place s.outFolder) d') : OutCleared s d d' :=
  ⟨h.home, fun n q => h.below _ (List.prefix_append _ _) (by simp), h.itself, h.get?⟩

theorem outCleared_of_none (h : d.tree.get? (d.place s.outFolder) = none) : OutCleared s d d :=
  ⟨rfl, fun n q => Tree.get?_append_cons_of_ne (by simp [h]), .inl h, fun _ _ => rfl⟩

theorem arranged_of_steps (hicons : Paved d s.iconsFolder d₁) (hclear : OutCleared s d₁ d₂)
    (hout : Paved d₂ s.outFolder d') : Arranged s d d' := by
  have hhome : d₂.home = d.home := hclear.home.trans hicons.home
  have hplace : d₁.place s.outFolder = d.place s.outFolder := Disk.place_of_home hicons.home _
  have hway : ∀ k, d₂.OnWay s.outFolder k ↔ d.OnWay s.outFolder k := fun k =>
    Disk.onWay_of_home hhome
  have hsame := hclear.same
  have hbelow := hclear.below
  rw [hplace] at hsame hbelow
  refine ⟨hout.home.trans hhome, fun k hk => hout.walked k ((hway k).2 hk), fun k hk => ?_,
    fun k hk hnot => ?_, fun k hk hnot hnot' => ?_⟩
  · by_cases hk' : d.OnWay s.outFolder k
    · exact hout.walked k ((hway k).2 hk')
    · rw [hout.get? k (mt (hway k).1 hk'), hsame k ((onWay_icons_cases hk).resolve_left hk'),
        hicons.walked k hk]
  · rw [hout.get? k (mt (hway k).1 hnot)]
    obtain ⟨q, rfl⟩ := hk
    cases q with
    | nil =>
      rw [List.append_nil] at hnot
      exact absurd (Disk.onWay_place d s.outFolder) hnot
    | cons n q => exact hbelow n q
  · rw [hout.get? k (mt (hway k).1 hnot), hsame k hk, hicons.get? k hnot']

/-- The way to the output that was cleared is passable, unless it begins there. -/
theorem OutCleared.passable (h : OutCleared s d d') (hicons : d.Walked s.iconsFolder)
    (hshort : ∀ x ∈ s.root.moves, Tree.Short x)
    (hstart : ¬ d.place s.outFolder <+: d.start s.root) : d'.Passable s.outFolder := by
  have hroot := ((Disk.walked_iff s.iconsFolder_under.toAlong).1 hicons).1
  have hbegin : d'.start s.outFolder = d.start s.root := by
    rw [Disk.start_along s.outFolder_under.toAlong]
    unfold Disk.start
    rw [h.home]
  refine ⟨?_, fun x hx => ?_, fun k hk => ?_⟩
  · rw [hbegin, h.same _ hstart]
    exact hroot _ ⟨[], List.nil_prefix, rfl⟩
  · rw [s.outFolder_under.moves] at hx
    rcases List.mem_append.1 hx with hx | hx
    · exact hshort x hx
    · obtain ⟨n, hn, rfl⟩ := List.mem_map.1 hx
      exact (show ∀ n ∈ ["gen", "tmp", "out"], n.utf8ByteSize ≤ Tree.nameLimit by decide) n hn
  · by_cases hout : d.place s.outFolder <+: k
    · obtain ⟨q, rfl⟩ := hout
      cases q with
      | nil =>
        rw [List.append_nil]
        exact h.itself
      | cons n q => exact .inl (h.below n q)
    · rw [h.same k hout]
      rw [Disk.onWay_of_home h.home, Disk.onWay_along_iff s.outFolder_under.toAlong] at hk
      rw [Disk.place_along s.outFolder_under.toAlong] at hout
      have hroad : d.OnRoad s.root ["gen", "tmp"] k := by
        rcases (show d.OnRoad s.root (["gen", "tmp"] ++ ["out"]) k from hk) with hk | ⟨more, hmore, he⟩
        · exact .inl hk
        · rcases List.prefix_concat_iff.1 hmore with hall | hmore
          · rw [he, hall] at hout
            exact absurd (List.prefix_refl _) hout
          · exact .inr ⟨more, hmore, he⟩
      refine .inr (hicons k ?_)
      rw [Disk.onWay_along_iff s.iconsFolder_under.toAlong]
      exact hroad.mono (by decide)

/-! ### Preparing them -/

theorem makeFolders_action_paved {p : Path} {names : List String} (hg : Good site.disk)
    (hp : Path.Under s.root names p) (h : (Action.makeFolders p).perform site = (.ok u, after)) :
    Paved site.disk p after.disk ∧ Good after.disk ∧ Disk.acceptPath p = .ok () ∧
      after.disk.OpenRoot s.root := by
  obtain ⟨-, hg', ha, ho, -⟩ := makeFolders_good hg hp h
  obtain ⟨hnone, rfl⟩ := Action.perform_carryOut_ok h
  exact ⟨(Disk.makeFolders_paved hg.plain hp hnone).2.2, hg', ha, ho⟩

theorem makeFolders_action_of_passable {p : Path} {names : List String} (hg : Good site.disk)
    (hp : Path.Under s.root names p) (ha : Disk.acceptPath p = .ok ()) (h : site.disk.Passable p) :
    ∃ after, (Action.makeFolders p).perform site = (.ok (), after) ∧ Paved site.disk p after.disk ∧
      Good after.disk := by
  obtain ⟨hnone, hpaved⟩ := Disk.makeFolders_of_passable hg.plain hp.tidy (.inl ha) h
  have hperform : (Action.makeFolders p).perform site =
      (.ok (), { site with disk := (site.disk.makeFolders p).2 }) := by
    rw [Action.makeFolders, Action.perform_carryOut, hnone]
  exact ⟨_, hperform, hpaved, (makeFolders_good hg hp hperform).2.1⟩

/-- Clearing the output where the way to it is open. -/
theorem outCleared_of_clear (hg : Good site.disk) (ha : Disk.acceptPath s.outFolder = .ok ())
    (ho : site.disk.OpenRoot s.root)
    (h : (Action.clearIfPresent s.outFolder).perform site = (.ok u, after)) :
    OutCleared s site.disk after.disk ∧ Good after.disk := by
  rcases Installation.clearIfPresent_ok hg h with ⟨hnot, rfl⟩ | ⟨-, -, hc, hg'⟩
  · refine ⟨outCleared_of_none ?_, hg⟩
    apply Classical.byContradiction
    intro hne
    rw [(Disk.holds_usable_iff hg.plain s.outFolder_under).2 ⟨⟨ha, ho, by decide⟩, hne⟩] at hnot
    cases hnot
  · exact ⟨outCleared_of_cleared hc, hg'⟩

/-- Clearing ends well if a folder or nothing is there. -/
theorem clearIfPresent_of_folder {p : Path} {names : List String} (ht : site.disk.tree.Plain)
    (hp : Path.Under s.root names p)
    (h : site.disk.tree.get? (site.disk.place p) = none ∨
      site.disk.tree.get? (site.disk.place p) = some .folder) :
    ∃ after, (Action.clearIfPresent p).perform site = (.ok (), after) := by
  unfold Action.clearIfPresent
  simp only [Action.perform_holds_bind]
  split
  · rename_i hholds
    obtain ⟨hu, hne⟩ := (Disk.holds_usable_iff ht hp).1 hholds
    have hfind : site.disk.find false p = .ok (site.disk.place p, .folder) :=
      (Disk.find_usable_iff ht hp).2 ⟨hu, rfl, h.resolve_left hne⟩
    have hnone := (Disk.clear_of_found ht hp hfind).1
    rw [Action.perform_carryOut, hnone]
    exact ⟨_, rfl⟩
  · exact ⟨_, rfl⟩

/-- The folders of a run that keeps its cache are prepared. -/
theorem makeReady_arranged (hg : Good site.disk) (hkeep : s.cacheStart = .keep)
    (h : (makeReady s).perform site = (.ok u, after)) :
    Arranged s site.disk after.disk ∧ Stocked s site.disk.home after.disk ∧
      Disk.acceptPath s.iconsFolder = .ok () ∧ Disk.acceptPath s.outFolder = .ok () := by
  unfold makeReady at h
  dsimp only at h
  rw [if_neg (by rw [hkeep]; simp)] at h
  obtain ⟨hsound, -⟩ := prepare_ok hg h
  obtain ⟨_, iconsSite, hicons, h⟩ := Action.perform_bind_ok h
  obtain ⟨_, emptySite, hclear, hmake⟩ := Action.perform_bind_ok h
  obtain ⟨hpaved, hg₁, ha, ho⟩ := makeFolders_action_paved hg s.iconsFolder_under hicons
  have hg₂ : Good emptySite.disk := by
    rcases Installation.clearIfPresent_ok hg₁ hclear with ⟨-, rfl⟩ | ⟨-, -, -, hg₂⟩
    · exact hg₁
    · exact hg₂
  obtain ⟨hpaved', -, ha', -⟩ := makeFolders_action_paved hg₂ s.outFolder_under hmake
  have harranged := arranged_of_steps hpaved (outCleared_of_clear hg₁ ha' ho hclear).1 hpaved'
  refine ⟨harranged, ⟨hsound, fun k hk => ?_⟩, ha, ha'⟩
  exact harranged.icons k ((Disk.onWay_of_home harranged.home).1 hk)

/-- They can be prepared if nothing is in the way, and the start of a way is not in the output. -/
theorem makeReady_of_passable (hg : Good site.disk) (hkeep : s.cacheStart = .keep)
    (ha : Disk.acceptPath s.iconsFolder = .ok ()) (ha' : Disk.acceptPath s.outFolder = .ok ())
    (hicons : site.disk.Passable s.iconsFolder)
    (hout : ∀ q, site.disk.tree.get? (site.disk.place s.outFolder ++ q) = none ∨
      site.disk.tree.get? (site.disk.place s.outFolder ++ q) = some .folder)
    (hstart : ¬ site.disk.place s.outFolder <+: site.disk.start s.root) :
    ∃ after, (makeReady s).perform site = (.ok (), after) ∧ Arranged s site.disk after.disk := by
  obtain ⟨iconsSite, hmake, hpaved, hg₁⟩ :=
    makeFolders_action_of_passable hg s.iconsFolder_under ha hicons
  have hplace : iconsSite.disk.place s.outFolder = site.disk.place s.outFolder :=
    Disk.place_of_home hpaved.home _
  have hout' : ∀ q, iconsSite.disk.tree.get? (site.disk.place s.outFolder ++ q) = none ∨
      iconsSite.disk.tree.get? (site.disk.place s.outFolder ++ q) = some .folder := by
    intro q
    by_cases hway : site.disk.OnWay s.iconsFolder (site.disk.place s.outFolder ++ q)
    · exact .inr (hpaved.walked _ hway)
    · rw [hpaved.get? _ hway]
      exact hout q
  have hwalked : iconsSite.disk.Walked s.root :=
    ((Disk.walked_iff s.iconsFolder_under.toAlong).1 hpaved.walked_all).1
  have hshort : ∀ x ∈ s.root.moves, Tree.Short x := fun x hx =>
    hicons.short x (s.iconsFolder_under.moves ▸ List.mem_append_left _ hx)
  obtain ⟨emptySite, hclear⟩ := clearIfPresent_of_folder hg₁.plain s.outFolder_under
    (by rw [hplace]; simpa using hout' [])
  obtain ⟨hcleared, hg₂⟩ := outCleared_of_clear hg₁ ha' (hwalked.openRoot hshort) hclear
  have hsame := hcleared.same
  rw [hplace] at hsame
  have hbegin : iconsSite.disk.start s.root = site.disk.start s.root := by
    unfold Disk.start
    rw [hpaved.home]
  have hpassable := hcleared.passable hpaved.walked_all hshort (by rw [hplace, hbegin]; exact hstart)
  obtain ⟨after, hmake', hpaved', -⟩ := makeFolders_action_of_passable hg₂ s.outFolder_under ha' hpassable
  refine ⟨after, ?_, arranged_of_steps hpaved hcleared hpaved'⟩
  unfold makeReady
  dsimp only
  rw [if_neg (by rw [hkeep]; simp)]
  exact Action.perform_bind_of_ok hmake (Action.perform_bind_of_ok hclear hmake')

/-! ### The catalogue -/

/-- The catalogue is loaded if it is served, can be stored and can be read. -/
theorem loadCatalogue_iff : (loadCatalogue s partners).perform site = (.ok catalogue, after) ↔
    ∃ raw d, partners.fetch (site.journal ++ [.noted (.downloadingCatalogue s.catalogueUrl)])
        s.catalogueUrl = .ok raw ∧ Catalogue.read raw = .ok catalogue ∧
      site.disk.write s.catalogueFile raw = .ok d ∧
      after = ⟨d, site.journal ++ [.noted (.downloadingCatalogue s.catalogueUrl)] ++
        [.fetched s.catalogueUrl]⟩ := by
  constructor
  · intro h
    obtain ⟨_, noted, hnote, h⟩ := Action.perform_bind_ok h
    obtain rfl := Action.perform_record_ok hnote
    obtain ⟨raw, downloaded, hdownload, h⟩ := Action.perform_bind_ok h
    obtain ⟨hfetch, rfl⟩ := Action.perform_attempt_ok hdownload
    obtain ⟨_, written, hwrite, h⟩ := Action.perform_bind_ok h
    obtain ⟨hread, rfl⟩ := Action.perform_attempt_ok h
    obtain ⟨d, hd, rfl⟩ := Action.perform_change_ok hwrite
    exact ⟨raw, d, hfetch, ok_of_mapError hread, hd, rfl⟩
  · rintro ⟨raw, d, hfetch, hread, hd, rfl⟩
    unfold loadCatalogue
    rw [Action.note, Action.perform_record_bind]
    have hdownload : (Action.download partners s.catalogueUrl).perform
        { site with journal := site.journal ++ [.noted (.downloadingCatalogue s.catalogueUrl)] } =
        (.ok raw, ⟨site.disk, site.journal ++
          [.noted (.downloadingCatalogue s.catalogueUrl)] ++ [.fetched s.catalogueUrl]⟩) := by
      change (Action.attempt (partners.fetch _ _)).perform _ = _
      rw [Action.perform_attempt, hfetch]
    have hstore : (Action.change s.catalogueFile (·.write s.catalogueFile raw)).perform
        ⟨site.disk, site.journal ++
          [.noted (.downloadingCatalogue s.catalogueUrl)] ++ [.fetched s.catalogueUrl]⟩ =
        (.ok (), ⟨d, site.journal ++
          [.noted (.downloadingCatalogue s.catalogueUrl)] ++ [.fetched s.catalogueUrl]⟩) := by
      rw [Action.perform_change, hd]
    refine Action.perform_bind_of_ok hdownload (Action.perform_bind_of_ok hstore ?_)
    rw [Action.perform_attempt, hread]
    rfl

/-- The catalogue that was served is in its file afterwards. -/
theorem loadCatalogue_exact (ht : site.disk.tree.Plain)
    (h : (loadCatalogue s partners).perform site = (.ok catalogue, after)) :
    ∃ raw, partners.fetch (site.journal ++ [.noted (.downloadingCatalogue s.catalogueUrl)])
        s.catalogueUrl = .ok raw ∧ Catalogue.read raw = .ok catalogue ∧
      Disk.Put site.disk (site.disk.place s.catalogueFile) (.file raw) after.disk ∧
      site.disk.Usable s.root ["gen", "tmp", "sot", "icons.json"] s.catalogueFile := by
  obtain ⟨raw, d, hfetch, hread, hd, rfl⟩ := loadCatalogue_iff.1 h
  obtain ⟨l, hl, -⟩ := Disk.write_ok hd
  obtain ⟨-, ha, ho, hshort⟩ := Disk.usable_of_placeToWrite ht s.catalogueFile_under hl
  exact ⟨raw, hfetch, hread, Disk.write_place ht hd, ha, ho, hshort⟩

/-- Writing to a file what it holds changes nothing. -/
theorem write_same {p root : Path} {ns : List String} {n : String} (ht : d.tree.Plain)
    (hp : Path.Under root (ns ++ [n]) p) (hu : d.Usable root (ns ++ [n]) p)
    (hfile : d.tree.get? (d.place p) = some (.file raw)) : d.write p raw = .ok d := by
  have hfolder : d.tree.get? (d.place root ++ ns) = some .folder := by
    rw [Disk.place_along hp.toAlong, ← List.append_assoc] at hfile
    exact Tree.get?_of_append hfile
  obtain ⟨d', hwrite⟩ := Disk.write_of_usable ht hp hu hfolder (by simp [hfile]) raw
  have hput := Disk.write_place ht hwrite
  rw [hwrite]
  refine congrArg Except.ok (Disk.ext_get? hput.home fun k => ?_)
  rw [hput.get?]
  split
  · rename_i hk
    rw [hk, hfile]
  · rfl

/-- A catalogue that is served again is stored and read as before. -/
theorem loadCatalogue_again (ht : site.disk.tree.Plain)
    (hu : site.disk.Usable s.root ["gen", "tmp", "sot", "icons.json"] s.catalogueFile)
    (hfile : site.disk.tree.get? (site.disk.place s.catalogueFile) = some (.file raw))
    (hfetch : partners.fetch (site.journal ++ [.noted (.downloadingCatalogue s.catalogueUrl)])
      s.catalogueUrl = .ok raw) (hread : Catalogue.read raw = .ok catalogue) :
    (loadCatalogue s partners).perform site = (.ok catalogue, ⟨site.disk, site.journal ++
      [.noted (.downloadingCatalogue s.catalogueUrl), .fetched s.catalogueUrl]⟩) := by
  have hwrite := @write_same site.disk raw s.catalogueFile s.root ["gen", "tmp", "sot"] "icons.json"
    ht s.catalogueFile_under hu hfile
  exact loadCatalogue_iff.2 ⟨raw, site.disk, hfetch, hread, hwrite, by simp⟩

end IconModules.Generation
