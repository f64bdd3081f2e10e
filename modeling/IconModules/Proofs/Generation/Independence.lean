import IconModules.Proofs.Files.Alike
import IconModules.Proofs.Generation.FamilyFiles

/-! # The order of families

Writing the modules of two families leaves the same files in either order: neither looks at the files of the
other, and the folders that both make are the same.

* `Disk.Laid own way d d'` says exactly what is new: files at the places with the property `own`, and folders
  at those with the property `way`.
* `writeModule_again` writes a module again on a disk that differs elsewhere; `writeModules_perm` puts that
  together for all orders of families, by induction on the rearrangement. -/

namespace IconModules

open IconModules.Action (Keeps)

namespace Disk

variable {own way own' way' : Location → Prop} {d d' d'' e e' : Disk} {k l : Location}

/-- Files were put at the places with the property `own` and folders made at those with the property `way`. -/
structure Laid (own way : Location → Prop) (d d' : Disk) : Prop where
  confined : Confined own way d d'
  files : ∀ k, own k → ∃ c, d'.tree.get? k = some (.file c)
  ways : ∀ k, way k → d'.tree.get? k = some .folder

namespace Laid

theorem disjoint (h : Laid own way d d') (hk : own k) : ¬ way k := by
  intro hway
  obtain ⟨c, hc⟩ := h.files k hk
  rw [h.ways k hway] at hc
  cases hc

/-- Nothing was in the way of the folders. -/
theorem free (h : Laid own way d d') (hk : way k) :
    d.tree.get? k = none ∨ d.tree.get? k = some .folder := by
  rcases h.confined.get? k (fun hown => h.disjoint hown hk) with he | ⟨hnone, -, -⟩
  · exact .inr (he ▸ h.ways k hk)
  · exact .inl hnone

/-- One after the other, if the second leaves the files of the first alone and has none on its ways. -/
theorem trans (h : Laid own way d d') (h' : Laid own' way' d' d'')
    (hfiles : ∀ k, own k → ¬ own' k ∧ ¬ way' k) (hways : ∀ k, way k → ¬ own' k) :
    Laid (fun k => own k ∨ own' k) (fun k => way k ∨ way' k) d d'' := by
  refine ⟨⟨h'.confined.plain, h'.confined.home.trans h.confined.home, fun k hk => ?_⟩, fun k hk => ?_,
    fun k hk => ?_⟩
  · obtain ⟨hk, hk'⟩ := not_or.1 hk
    rcases h.confined.get? k hk with he | ⟨hnone, hfolder, hway⟩
    · rw [← he]
      exact (h'.confined.get? k hk').imp_right fun ⟨hnone, hfolder, hway⟩ => ⟨hnone, hfolder, .inr hway⟩
    · exact .inr ⟨hnone, h'.confined.folder hk' hfolder, .inl hway⟩
  · rcases hk with hk | hk
    · obtain ⟨hk', hway⟩ := hfiles k hk
      rw [h'.confined.same hk' hway]
      exact h.files k hk
    · exact h'.files k hk
  · rcases hk with hk | hk
    · exact h'.confined.folder (hways k hk) (h.ways k hk)
    · exact h'.ways k hk

end Laid

/-- Where the same files were put and the same folders made, disks that were alike are so still. -/
theorem Alike.laid (h : Alike l d e) (hd : Laid own way d d') (he : Laid own way e e')
    (hsame : ∀ k, own k → e'.tree.get? k = d'.tree.get? k) : Alike l d' e' := by
  refine ⟨he.confined.home.trans (h.home.trans hd.confined.home.symm), fun k => ?_⟩
  by_cases hown : own k
  · exact .inl (hsame k hown)
  by_cases hway : way k
  · exact .inl ((he.ways k hway).trans (hd.ways k hway).symm)
  · rw [hd.confined.same hown hway, he.confined.same hown hway]
    exact h.get? k

end Disk

namespace Generation

open Disk (Alike Confined Laid Walked)
open Installation (OnParentWay)

variable {s : Settings} {partners partners' : Partners} {f : Finish} {family family' : String}
  {catalogue : Catalogue} {categories : List Category} {families families' : List String}
  {home k l : Location} {d e x y : Disk} {p p' : Path} {site after again : Site}
  {report : ModuleReport} {reports : List ModuleReport} {reply : String → Except Failure Octets}
  {translation : String → Except Failure String} {patience : Nat}

/-! ### The files of a family -/

/-- The place of a file of a family. -/
def IsPlaceOf (s : Settings) (home : Location) (catalogue : Catalogue) (family : String) (k : Location) :
    Prop :=
  ∃ p, IsFileOf s catalogue family p ∧ ∀ d : Disk, d.home = home → d.place p = k

/-- A place on the way to a file of a family. -/
def IsWayTo (s : Settings) (home : Location) (catalogue : Catalogue) (family : String) (k : Location) :
    Prop :=
  ∃ p, IsFileOf s catalogue family p ∧ ∀ d : Disk, d.home = home → OnParentWay d p k

theorem isPlaceOf_place (hp : IsFileOf s catalogue family p) (hd : d.home = home) :
    IsPlaceOf s home catalogue family (d.place p) :=
  ⟨p, hp, fun _ he => Disk.place_of_home (he.trans hd.symm) p⟩

theorem isWayTo_of_onParentWay (hp : IsFileOf s catalogue family p) (hd : d.home = home)
    (hk : OnParentWay d p k) : IsWayTo s home catalogue family k :=
  ⟨p, hp, fun _ he => (onParentWay_of_home (he.trans hd.symm)).2 hk⟩

/-- From `d` to `d'`, the files of a family were written and the folders for them made. -/
def Wrote (s : Settings) (home : Location) (catalogue : Catalogue) (family : String) (d d' : Disk) : Prop :=
  Laid (IsPlaceOf s home catalogue family) (IsWayTo s home catalogue family) d d'

/-- A disk on which a run can work, with folders all along the way to the root. -/
structure Grounded (s : Settings) (home : Location) (d : Disk) : Prop extends Sound s home d where
  root : d.Walked s.root

theorem Grounded.based (h : Grounded s home d) : Based s home d :=
  ⟨h.plain, h.home, h.root, h.way.short⟩

theorem Grounded.alike (h : Grounded s home d) (ha : Alike l d e) : Grounded s home e := by
  have hroot : e.Walked s.root := fun k hk =>
    ha.shape.folder_iff.2 (h.root k ((Disk.onWay_of_home ha.home).1 hk))
  exact ⟨⟨ha.plain h.plain, ha.named h.named, ha.home.trans h.home, hroot.openRoot h.way.short⟩, hroot⟩

/-- The way to something below the root leads through folders. -/
theorem folder_of_onParentWay {names : List String} {n : String} (hp : Path.Under s.root (names ++ [n]) p)
    (hroot : d.Walked s.root) (hthere : d.tree.get? (d.place p) ≠ none) (hk : OnParentWay d p k) :
    d.tree.get? k = some .folder := by
  obtain ⟨above, habove, hway⟩ := hk
  rcases Disk.onWay_along (hp.parent? habove) hway with hway | ⟨more, hmore, rfl⟩
  · exact hroot k hway
  · obtain ⟨e, he⟩ := Option.ne_none_iff_exists'.1 hthere
    rw [List.dropLast_concat] at hmore
    obtain ⟨rest, rfl⟩ := hmore
    rw [Disk.place_along hp.toAlong, List.append_assoc, ← List.append_assoc] at he
    cases rest with
    | nil => exact Tree.get?_of_append_cons he
    | cons m rest => exact Tree.get?_of_append_cons he

/-! ### One family -/

section

variable (hs : s.Standard) (hf : FamilyName family)
  (hicons : ∀ i ∈ catalogue.icons, '/' ∉ i.name.toList)
include hs hf hicons

/-- A module that was written is there with its drawings, and nothing else has changed. -/
theorem wrote_of_writeModule (hd : Grounded s home site.disk)
    (h : (Assembly.writeModule s partners f family catalogue categories).perform site =
      (.ok report, after)) :
    report = reportOf s catalogue family ∧ Grounded s home after.disk ∧
      Wrote s home catalogue family site.disk after.disk := by
  obtain ⟨hreport, hsound, -, definitions, hmap, hcoded, hfile⟩ :=
    writeModule_filled hs hf hicons hd.toSound h
  have hroot := hd.root.of_extends (Assembly.extends_of_writeModule h)
  have hfiles : ∀ p, IsFileOf s catalogue family p →
      ∃ c, after.disk.tree.get? (after.disk.place p) = some (.file c) := by
    rintro p (hp | ⟨i, hi, hp⟩)
    · rw [hp, Disk.place_of_home (hsound.home.trans hd.home.symm)]
      exact ⟨_, Disk.fileAt_eq_some.1 hfile⟩
    · rw [← hmap] at hi
      obtain ⟨x, hx, rfl⟩ := List.mem_map.1 hi
      obtain ⟨c, -, -, hc, -⟩ := (hcoded x hx).2
      rw [hp]
      exact ⟨c, Disk.fileAt_eq_some.1 hc⟩
  refine ⟨hreport, ⟨hsound, hroot⟩, ?_, ?_, ?_⟩
  · exact (confined_writeModule categories (fun p hp => isPlaceOf_place hp hd.home)
      (fun p hp k hk => .inr (isWayTo_of_onParentWay hp hd.home hk))).of_perform h (.refl hd.plain)
  · rintro k ⟨p, hp, hk⟩
    rw [← hk after.disk hsound.home]
    exact hfiles p hp
  · rintro k ⟨p, hp, hk⟩
    obtain ⟨folders, file, hunder, -⟩ := hp.under hs hf hicons
    obtain ⟨c, hc⟩ := hfiles p hp
    refine folder_of_onParentWay hunder hroot ?_ (hk after.disk hsound.home)
    rw [hc]
    simp

/-- Where its files and the ways to them look the same, the module of a family is written again, and its files
are the same again. -/
theorem writeModule_again (hanswers : Answering s reply translation patience partners)
    (hanswers' : Answering s reply translation patience partners') (hx : Grounded s home site.disk)
    (hy : Grounded s home again.disk)
    (hsame : ∀ k, IsPlaceOf s home catalogue family k →
      again.disk.tree.get? k = site.disk.tree.get? k)
    (hfree : ∀ k, IsWayTo s home catalogue family k →
      again.disk.tree.get? k = none ∨ again.disk.tree.get? k = some .folder)
    (h : (Assembly.writeModule s partners f family catalogue categories).perform site =
      (.ok report, after)) :
    ∃ later, (Assembly.writeModule s partners' f family catalogue categories).perform again =
        (.ok report, later) ∧
      ∀ k, IsPlaceOf s home catalogue family k →
        later.disk.tree.get? k = after.disk.tree.get? k := by
  have hlevel : Level s home catalogue family site.disk again.disk := by
    refine ⟨hy.based, fun p hp => ?_, fun p hp k hk => ?_⟩
    · rw [hx.based.place hy.based]
      exact hsame _ (isPlaceOf_place hp hx.home)
    · exact hfree k (isWayTo_of_onParentWay hp hy.home hk)
  obtain ⟨hafter, hreplay⟩ := replays_writeModule_level hs hf hicons hanswers hanswers' categories
    site after report hx.based h
  obtain ⟨later, hrun, hlater, -⟩ := (hreplay trivial).2 again hlevel
  refine ⟨later, hrun, ?_⟩
  rintro k ⟨p, hp, hk⟩
  have hfile := hlater.files p hp
  rwa [hk _ hlater.based.home, hk _ hafter.home] at hfile

/-- On a disk that is alike, a module is written alike. -/
theorem writeModule_alike (hanswers : Answering s reply translation patience partners)
    (hanswers' : Answering s reply translation patience partners') (hx : Grounded s home site.disk)
    (hl : ¬ IsPlaceOf s home catalogue family l) (ha : Alike l site.disk again.disk)
    (h : (Assembly.writeModule s partners f family catalogue categories).perform site =
      (.ok report, after)) :
    ∃ later, (Assembly.writeModule s partners' f family catalogue categories).perform again =
        (.ok report, later) ∧ Alike l after.disk later.disk := by
  obtain ⟨-, -, hwrote⟩ := wrote_of_writeModule hs hf hicons hx h
  have hy := hx.alike ha
  obtain ⟨later, hrun, hsame⟩ := writeModule_again hs hf hicons hanswers hanswers' hx hy
    (fun k hk => ha.same (by rintro rfl; exact hl hk))
    (fun k hk => (hwrote.free hk).imp ha.shape.none_iff.2 ha.shape.folder_iff.2) h
  obtain ⟨-, -, hwrote'⟩ := wrote_of_writeModule hs hf hicons hy hrun
  exact ⟨later, hrun, ha.laid hwrote hwrote' hsame⟩

end

/-! ### Two families -/

section

variable (hs : s.Standard) (hf : FamilyName family) (hf' : FamilyName family')
  (hicons : ∀ i ∈ catalogue.icons, '/' ∉ i.name.toList)
  (hne : s.modulePlace family ≠ s.modulePlace family')
include hs hf hf' hicons hne

/-- Families with different modules have no file in common. -/
theorem not_isPlaceOf_other (hk : IsPlaceOf s home catalogue family k) :
    ¬ IsPlaceOf s home catalogue family' k := by
  obtain ⟨p, hp, hk⟩ := hk
  rintro ⟨p', hp', hk'⟩
  let d : Disk := ⟨.single .folder, home⟩
  have he : d.place p = d.place p' := (hk d rfl).trans (hk' d rfl).symm
  have hicon : ∀ {family i}, i ∈ catalogue.supported family → '/' ∉ i.name.toList := fun hi =>
    hicons _ (List.mem_filter.1 hi).1
  rcases hp with hp | ⟨i, hi, hp⟩ <;> rcases hp' with hp' | ⟨i', hi', hp'⟩ <;> rw [hp, hp'] at he
  · exact hne (modulePlace_injective hs hf hf' d he)
  · have hbelow := entry_below (s := s) hf' (hicon hi') d
    rw [← he] at hbelow
    exact module_apart hs hf d hbelow
  · have hbelow := entry_below (s := s) hf (hicon hi) d
    rw [he] at hbelow
    exact module_apart hs hf' d hbelow
  · rw [Disk.place_along (Settings.cachePath_under hf (hicon hi)).toAlong,
      Disk.place_along (Settings.cachePath_under hf' (hicon hi')).toAlong] at he
    simp only [List.append_cancel_left_eq] at he
    exact hne (by rw [Settings.family_of_entryPlace he])

/-- What was written of one family is neither a file of the other nor on the way to one. -/
theorem Wrote.apart (h : Wrote s home catalogue family d e) (he : Grounded s home e)
    (hk : IsPlaceOf s home catalogue family k) :
    ¬ IsPlaceOf s home catalogue family' k ∧ ¬ IsWayTo s home catalogue family' k := by
  refine ⟨not_isPlaceOf_other hs hf hf' hicons hne hk, ?_⟩
  rintro ⟨p', hp', hway⟩
  obtain ⟨c, hc⟩ := h.files k hk
  obtain ⟨p, hp, hk⟩ := hk
  obtain rfl := hk e he.home
  have hfolder := he.root _ (onWay_root_of_file hs hf hicons hf' hp hp' e (hway e he.home))
  rw [hc] at hfolder
  cases hfolder

/-- Two modules can be written the other way round, on a disk that is alike. -/
theorem writeModule_swap (hanswers : Answering s reply translation patience partners)
    (hanswers' : Answering s reply translation patience partners') {mid mid' : Site}
    {report' : ModuleReport} (hx : Grounded s home site.disk)
    (hl : ¬ IsPlaceOf s home catalogue family l) (hl' : ¬ IsPlaceOf s home catalogue family' l)
    (ha : Alike l site.disk again.disk)
    (h : (Assembly.writeModule s partners f family catalogue categories).perform site =
      (.ok report, mid)) (hmid : mid'.disk = mid.disk)
    (h' : (Assembly.writeModule s partners f family' catalogue categories).perform mid' =
      (.ok report', after)) :
    ∃ first, (Assembly.writeModule s partners' f family' catalogue categories).perform again =
        (.ok report', first) ∧
      ∀ first' : Site, first'.disk = first.disk →
        ∃ later, (Assembly.writeModule s partners' f family catalogue categories).perform first' =
            (.ok report, later) ∧ Alike l after.disk later.disk := by
  obtain ⟨-, hm, hw⟩ := wrote_of_writeModule hs hf hicons hx h
  have hm' : Grounded s home mid'.disk := hmid ▸ hm
  obtain ⟨-, hz, hw'⟩ := wrote_of_writeModule hs hf' hicons hm' h'
  rw [hmid] at hw'
  have hy := hx.alike ha
  have hapart := fun k => hw.apart hs hf hf' hicons hne hm (k := k)
  have hapart' := fun k => hw'.apart hs hf' hf hicons hne.symm hz (k := k)
  -- the second family is written first: nothing of the first one matters for it
  obtain ⟨first, hfirst, hsame'⟩ := writeModule_again hs hf' hicons hanswers hanswers' hm' hy
    (fun k hk => by
      rw [hmid, hw.confined.same (hapart' k hk).1 (hapart' k hk).2]
      exact ha.same (by rintro rfl; exact hl' hk))
    (fun k hk => by
      have hfree := hw'.free hk
      have hk' : ¬ IsPlaceOf s home catalogue family k := fun hown => (hapart k hown).2 hk
      rcases hw.confined.get? k hk' with he | ⟨hnone, -, -⟩
      · rw [he] at hfree
        exact hfree.imp ha.shape.none_iff.2 ha.shape.folder_iff.2
      · exact .inl (ha.shape.none_iff.2 hnone)) h'
  refine ⟨first, hfirst, fun first' hfirst' => ?_⟩
  obtain ⟨-, hone, hwone⟩ := wrote_of_writeModule hs hf' hicons hy hfirst
  have hone' : Grounded s home first'.disk := hfirst' ▸ hone
  -- and then the first family, for which nothing of the second one matters
  obtain ⟨later, hlater, hsame⟩ := writeModule_again hs hf hicons hanswers hanswers' hx hone'
    (fun k hk => by
      rw [hfirst', hwone.confined.same (hapart k hk).1 (hapart k hk).2]
      exact ha.same (by rintro rfl; exact hl hk))
    (fun k hk => by
      have hk' : ¬ IsPlaceOf s home catalogue family' k := fun hown => (hapart' k hown).2 hk
      rw [hfirst']
      rcases hwone.confined.get? k hk' with he | ⟨-, hfolder, -⟩
      · rw [he]
        exact (hw.free hk).imp ha.shape.none_iff.2 ha.shape.folder_iff.2
      · exact .inr hfolder) h
  obtain ⟨-, -, hwlater⟩ := wrote_of_writeModule hs hf hicons hone' hlater
  rw [hfirst'] at hwlater
  have hlaid := hw.trans hw' hapart fun k hk hown => (hapart' k hown).2 hk
  have hlaid' := hwone.trans hwlater hapart' fun k hk hown => (hapart k hown).2 hk
  refine ⟨later, hlater, ha.laid hlaid (by simpa only [or_comm] using hlaid') ?_⟩
  rintro k (hk | hk)
  · rw [hsame k hk, hw'.confined.same (hapart k hk).1 (hapart k hk).2]
  · rw [hwlater.confined.same (hapart' k hk).1 (hapart' k hk).2, hsame' k hk]

end

/-! ### All families -/

section

variable (hs : s.Standard) (hicons : ∀ i ∈ catalogue.icons, '/' ∉ i.name.toList)
  (hanswers : Answering s reply translation patience partners)
  (hanswers' : Answering s reply translation patience partners')
include hs hicons hanswers hanswers'

/-- On a disk that is alike, the modules of the same families are written alike. -/
theorem writeModules_alike (hf : ∀ family ∈ families, FamilyName family) (hx : Grounded s home site.disk)
    (hl : ∀ family ∈ families, ¬ IsPlaceOf s home catalogue family l) (ha : Alike l site.disk again.disk)
    (h : (writeModules s partners f catalogue categories families).perform site = (.ok reports, after)) :
    ∃ later, (writeModules s partners' f catalogue categories families).perform again =
        (.ok reports, later) ∧ Alike l after.disk later.disk := by
  induction families generalizing site again reports with
  | nil =>
    obtain ⟨rfl, rfl⟩ := Action.perform_pure_ok h
    exact ⟨again, rfl, ha⟩
  | cons family rest ih =>
    obtain ⟨hf, hfs⟩ := List.forall_mem_cons.1 hf
    obtain ⟨hl, hls⟩ := List.forall_mem_cons.1 hl
    obtain ⟨report, written, reports', hwrite, hrest, rfl⟩ := writeModules_cons_iff.1 h
    obtain ⟨-, hw, -⟩ := wrote_of_writeModule hs hf hicons hx hwrite
    obtain ⟨written', hwrite', ha'⟩ := writeModule_alike hs hf hicons hanswers hanswers' hx hl ha hwrite
    let noted' : Site := ⟨written'.disk, written'.journal ++ [.noted (.moduleWritten report.path)]⟩
    have hnoted : Alike l written.disk noted'.disk := ha'
    obtain ⟨later, hrest', hlater⟩ := ih hfs (by exact hw) hls (by exact hnoted) hrest
    exact ⟨later, writeModules_cons_iff.2 ⟨report, written', reports', hwrite', hrest', rfl⟩, hlater⟩

omit hanswers hanswers' in
/-- What was written is reported, and a run can go on. -/
theorem grounded_of_writeModules (hf : ∀ family ∈ families, FamilyName family)
    (hx : Grounded s home site.disk)
    (h : (writeModules s partners f catalogue categories families).perform site = (.ok reports, after)) :
    reports = families.map (reportOf s catalogue) ∧ Grounded s home after.disk := by
  induction families generalizing site reports with
  | nil =>
    obtain ⟨rfl, rfl⟩ := Action.perform_pure_ok h
    exact ⟨rfl, hx⟩
  | cons family rest ih =>
    obtain ⟨hf, hfs⟩ := List.forall_mem_cons.1 hf
    obtain ⟨report, written, reports', hwrite, hrest, rfl⟩ := writeModules_cons_iff.1 h
    obtain ⟨hreport, hw, -⟩ := wrote_of_writeModule hs hf hicons hx hwrite
    obtain ⟨hreports, hw'⟩ := ih hfs (by exact hw) hrest
    exact ⟨by rw [hreport, hreports, List.map_cons], hw'⟩

end

/-- The modules of families can be written in any order, and on a disk that is alike: the same is reported of
each, and the disks are alike in the end. -/
theorem writeModules_perm (hs : s.Standard) (hicons : ∀ i ∈ catalogue.icons, '/' ∉ i.name.toList)
    (hanswers : Answering s reply translation patience partners)
    (hanswers' : Answering s reply translation patience partners') (hperm : families.Perm families')
    (hf : ∀ family ∈ families, FamilyName family) (hnodup : (families.map s.modulePlace).Nodup)
    (hl : ∀ family ∈ families, ¬ IsPlaceOf s home catalogue family l) (hx : Grounded s home site.disk)
    (ha : Alike l site.disk again.disk)
    (h : (writeModules s partners f catalogue categories families).perform site = (.ok reports, after)) :
    ∃ reports' later, (writeModules s partners' f catalogue categories families').perform again =
        (.ok reports', later) ∧ reports.Perm reports' ∧ Alike l after.disk later.disk := by
  induction hperm generalizing site again after partners reports with
  | nil =>
    obtain ⟨later, hrun, hlater⟩ :=
      writeModules_alike hs hicons hanswers hanswers' hf hx hl ha h
    exact ⟨reports, later, hrun, .refl _, hlater⟩
  | @cons family rest rest' hperm ih =>
    obtain ⟨hf, hfs⟩ := List.forall_mem_cons.1 hf
    obtain ⟨hl, hls⟩ := List.forall_mem_cons.1 hl
    rw [List.map_cons, List.nodup_cons] at hnodup
    obtain ⟨report, written, reports, hwrite, hrest, rfl⟩ := writeModules_cons_iff.1 h
    obtain ⟨-, hw, -⟩ := wrote_of_writeModule hs hf hicons hx hwrite
    obtain ⟨written', hwrite', ha'⟩ := writeModule_alike hs hf hicons hanswers hanswers' hx hl ha hwrite
    let noted' : Site := ⟨written'.disk, written'.journal ++ [.noted (.moduleWritten report.path)]⟩
    have hnoted : Alike l written.disk noted'.disk := ha'
    obtain ⟨reports', later, hrest', hreports, hlater⟩ :=
      ih hanswers hfs hnodup.2 hls (by exact hw) (by exact hnoted) hrest
    exact ⟨report :: reports', later,
      writeModules_cons_iff.2 ⟨report, written', reports', hwrite', hrest', rfl⟩, hreports.cons _, hlater⟩
  | swap family' family rest =>
    obtain ⟨hf, hf', hfs⟩ : _ ∧ _ ∧ _ := by simpa using hf
    obtain ⟨hl, hl', hls⟩ : _ ∧ _ ∧ _ := by simpa using hl
    have hne : s.modulePlace family ≠ s.modulePlace family' := by
      intro he
      simp [he] at hnodup
    obtain ⟨report, mid, _, hwrite, hthen, rfl⟩ := writeModules_cons_iff.1 h
    obtain ⟨report', written, reports, hwrite', hrest, rfl⟩ := writeModules_cons_iff.1 hthen
    obtain ⟨-, hm, -⟩ := wrote_of_writeModule hs hf hicons hx hwrite
    obtain ⟨-, hw, -⟩ := wrote_of_writeModule hs hf' hicons (by exact hm) hwrite'
    obtain ⟨first, hfirst, hback⟩ := writeModule_swap hs hf hf' hicons hne hanswers hanswers' hx hl hl' ha
      hwrite (by rfl) hwrite'
    let first' : Site := ⟨first.disk, first.journal ++ [.noted (.moduleWritten report'.path)]⟩
    obtain ⟨second, hsecond, ha'⟩ := hback first' rfl
    let noted' : Site := ⟨second.disk, second.journal ++ [.noted (.moduleWritten report.path)]⟩
    have hnoted : Alike l written.disk noted'.disk := ha'
    obtain ⟨later, hrest', hlater⟩ := writeModules_alike hs hicons hanswers hanswers' hfs (by exact hw) hls
      (by exact hnoted) hrest
    refine ⟨report' :: report :: reports, later, ?_, .swap _ _ _, hlater⟩
    exact writeModules_cons_iff.2 ⟨report', first, _, hfirst,
      writeModules_cons_iff.2 ⟨report, second, _, hsecond, hrest', rfl⟩, rfl⟩
  | @trans families middle families' hperm hperm' ih ih' =>
    obtain ⟨reports', later, hrun, hreports, hlater⟩ := ih hanswers hf hnodup hl hx ha h
    have hmem : ∀ family ∈ middle, family ∈ families := fun family hm => hperm.mem_iff.2 hm
    obtain ⟨reports'', later', hrun', hreports', hlater'⟩ := ih' hanswers'
      (fun family hm => hf family (hmem family hm)) ((hperm.map _).nodup_iff.1 hnodup)
      (fun family hm => hl family (hmem family hm)) (hx.alike ha) (.refl _ _) hrun
    exact ⟨reports'', later', hrun', hreports.trans hreports', hlater.trans hlater'⟩

end Generation
end IconModules
