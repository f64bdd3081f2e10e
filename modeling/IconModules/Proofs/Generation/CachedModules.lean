import IconModules.Proofs.Generation.Again
import IconModules.Proofs.Generation.Families
import IconModules.Proofs.Generation.Replays

/-! # Writing modules from the cache

Modules that were all written are written again, text for text, when the cache holds the drawings that it held
in the end: a drawing that is in its entry is not downloaded (`drawing_of_read`), whatever it took to get it
there, and outside the output nothing changes (`replays_writeModules_cached`). -/

namespace IconModules.Generation

open IconModules.Action (Keeps Replays)
open Disk (Ahead Walked Extends)

variable {s : Settings} {partners partners' : Partners} {f : Finish} {family : String}
  {catalogue : Catalogue} {categories : List Category} {families : List String} {i : Icon}
  {site after : Site} {home : Location} {d d' w c x y : Disk} {ls : List Location} {content : Octets}

/-! ### Entries that hold a drawing -/

/-- A drawing that its entry holds is taken from there, and nothing happens. -/
theorem drawing_of_read (hread : site.disk.read (s.cachePath family i) = .ok content)
    (hdrawing : Markup.isDrawing (shown s content) = true) :
    (Cache.drawing s partners family i).perform site = (.ok (shown s content), site) := by
  have hholds : site.disk.holds (s.cachePath family i) = true := by
    obtain ⟨l, hfind⟩ := Disk.read_ok hread
    unfold Disk.holds
    rw [hfind]
    rfl
  have hensure : (Cache.ensure s partners family i false).perform site =
      (.ok (s.cachePath family i), site) := by
    unfold Cache.ensure
    simp only [Action.perform_holds_bind, hholds, Bool.not_true, Bool.or_self, Bool.false_eq_true,
      if_false]
    rfl
  have hcontents : (Cache.contents s (s.cachePath family i)).perform site =
      (.ok (shown s content), site) := by
    unfold Cache.contents
    have hinspect : (Action.inspect (s.cachePath family i) (·.read (s.cachePath family i))).perform site =
        (.ok content, site) := by
      rw [Action.perform_inspect, hread]
      rfl
    exact Action.perform_bind_of_ok hinspect rfl
  unfold Cache.drawing
  refine Action.perform_bind_of_ok hensure ?_
  cases s.repairs.limit.getD partners.patience with
  | zero =>
    unfold Cache.repair
    refine Action.perform_bind_of_ok hcontents ?_
    rw [if_pos hdrawing]
    rfl
  | succ left =>
    unfold Cache.repair
    refine Action.perform_bind_of_ok hcontents ?_
    rw [if_pos hdrawing]
    rfl

/-! ### What fetching a drawing leaves alone -/

/-- A disk on which a run can work, with the folder of drawings. -/
structure Stocked (s : Settings) (home : Location) (d : Disk) : Prop where
  sound : Sound s home d
  icons : d.Walked s.iconsFolder

theorem Stocked.root (h : Stocked s home d) : d.Walked s.root :=
  ((Disk.walked_iff s.iconsFolder_under.toAlong).1 h.icons).1

theorem Stocked.extends (h : Stocked s home d) (hd : Extends d d') (hn : d.tree.Named → d'.tree.Named) :
    Stocked s home d' :=
  ⟨⟨hd.plain h.sound.plain, hn h.sound.named, hd.home.trans h.sound.home, hd.openRoot h.sound.way⟩,
    h.icons.of_extends hd⟩

/-- A disk on the way that looks like `d` outside the folder of drawings. -/
structure Beside (s : Settings) (home : Location) (d d' : Disk) : Prop where
  stocked : Stocked s home d'
  same : ∀ k, ¬ d'.place s.iconsFolder <+: k → d'.tree.get? k = d.tree.get? k

theorem keeps_drawing_beside (hf : FamilyName family) (hi : '/' ∉ i.name.toList) :
    Keeps (fun x => Beside s home d x.disk) (Cache.drawing s partners family i) := by
  have hp := Settings.cachePath_under (s := s) hf hi
  refine Cache.keeps_drawing (fun _ _ => Keeps.record fun _ h => h) fun content => ?_
  unfold Cache.store
  refine Keeps.bind (Keeps.makeParent fun above habove => Keeps.carryOut fun site h => ?_) fun _ =>
    Keeps.change fun site d' h hwrite => ?_
  · have hgrown := site.disk.makeFolders_grown h.stocked.sound.plain above
    have hextends := (site.disk.makeFolders_extends above).1
    refine ⟨h.stocked.extends hextends (site.disk.makeFolders_extends above).2.1, fun k hk => ?_⟩
    rw [Disk.place_of_home hextends.home] at hk
    rw [← h.same k hk]
    rcases hgrown.get? k with he | ⟨hnone, -, hway, -⟩
    · exact he
    · -- on the way to the folder of drawings everything is there
      refine absurd hnone ?_
      have hroad := ((Disk.onWay_along_iff (hp.parent? habove)).1 hway).mono (List.dropLast_prefix _)
      rw [Disk.place_along s.iconsFolder_under.toAlong] at hk
      have hicons := (Disk.onWay_along_iff s.iconsFolder_under.toAlong).2
        (hroad.cases.resolve_right hk)
      rw [h.stocked.icons k hicons]
      simp
  · have hput := Disk.write_place h.stocked.sound.plain hwrite
    obtain ⟨l, hl, hput'⟩ := Disk.write_ok hwrite
    have hstored := hput'.stored hl
    refine ⟨h.stocked.extends hstored.grown hstored.named, fun k hk => ?_⟩
    rw [Disk.place_of_home hput.home] at hk
    rw [← h.same k hk, hput.get?, if_neg]
    intro he
    rw [he] at hk
    exact hk (entry_below hf hi site.disk)

/-! ### The assembly again -/

/-- A place that is not in the output. -/
def OutsideOut (s : Settings) (d : Disk) (k : Location) : Prop :=
  ¬ d.place s.outFolder <+: k

/-- On `c` the second run begins to write modules: the output is there, and the cache is the one that the first
run left on `w`. -/
structure Cached (s : Settings) (home : Location) (w c : Disk) : Prop where
  plain : c.tree.Plain
  home : c.home = home
  out : c.Walked s.outFolder
  entries : ∀ k, c.place s.iconsFolder <+: k → c.fileAt k = w.fileAt k

section

variable (hc : Cached s home w c)
include hc

/-- A drawing that was fetched is in its entry when it is needed again. -/
theorem replays_drawing (hf : FamilyName family) (hi : '/' ∉ i.name.toList) (hw : w.home = home) :
    Replays false (Stocked s home) (Filled s ls · w) (Ahead (OutsideOut s c) c)
      (Cache.drawing s partners family i) (Cache.drawing s partners' family i) := by
  have hp := Settings.cachePath_under (s := s) hf hi
  intro site after svg hI h
  obtain ⟨hfilled, hconfirmed⟩ := drawing_filled hf hi hI.sound h
  obtain ⟨content, hread, rfl, hdrawing⟩ := hconfirmed svg rfl
  have hbeside : Beside s home site.disk after.disk :=
    have hkeeps : Keeps (fun x => Beside s home site.disk x.disk)
        (Cache.drawing s partners family i) := keeps_drawing_beside hf hi
    hkeeps.of_perform h ⟨hI, fun _ _ => rfl⟩
  refine ⟨hbeside.stocked, fun hB => ⟨(hfilled.mono (List.nil_subset _)).trans hB, fun again hR => ?_⟩⟩
  have hplace : ∀ {d : Disk}, d.home = home → ∀ p, d.place p = c.place p := fun hd p =>
    Disk.place_of_home (hd.trans hc.home.symm) p
  obtain ⟨hu, hfile⟩ := (Disk.read_usable_iff hbeside.stocked.sound.plain hp).1 hread
  -- the entry is still as it was when the first run ended
  have hkept : w.fileAt (c.place (s.cachePath family i)) = some content := by
    have hentry := entry_filled hf hi hB (Disk.fileAt_eq_some.2 hfile) hdrawing
    rwa [hplace hw] at hentry
  have hbelow := entry_below (s := s) hf hi c
  have hout : OutsideOut s c (c.place (s.cachePath family i)) := by
    intro hp
    obtain ⟨q, hq⟩ := hbelow
    rw [← hq, Disk.place_along s.iconsFolder_under.toAlong, Disk.place_along s.outFolder_under.toAlong,
      List.append_assoc, List.prefix_append_right_inj] at hp
    simp at hp
  have hhome : again.disk.home = home := hR.home.trans hI.sound.home
  have hthere : again.disk.tree.get? (again.disk.place (s.cachePath family i)) =
      some (.file content) := by
    rw [hplace hhome, hR.ahead _ hout, ← Disk.fileAt_eq_some, hc.entries _ hbelow, hkept]
  have hwalked : again.disk.Walked s.root :=
    hR.walked ((Disk.walked_iff s.outFolder_under.toAlong).1 hc.out).1
      (hc.home.trans hI.sound.home.symm) hI.root
  have hread' : again.disk.read (s.cachePath family i) = .ok content :=
    (Disk.read_usable_iff (hR.plain hc.plain hI.sound.plain) hp).2
      ⟨hu.on (hwalked.openRoot hI.sound.way.short), hthere⟩
  refine ⟨again, drawing_of_read hread' hdrawing, ⟨?_, hR.ahead, fun k hk => ?_⟩, fun _ => .refl _⟩
  · rw [hhome, hbeside.stocked.sound.home]
  · rw [hR.same k hk]
    refine (hbeside.same k fun hicons => ?_).symm
    rw [hplace hbeside.stocked.sound.home] at hicons
    obtain ⟨q, rfl⟩ := Classical.byContradiction hk
    rw [Disk.place_along s.iconsFolder_under.toAlong, Disk.place_along s.outFolder_under.toAlong,
      List.append_assoc, List.prefix_append_right_inj] at hicons
    simp at hicons

/-- A piece that was added to a module is added again. -/
theorem replays_append (hs : s.Standard) (hf : FamilyName family) (hl : c.place (s.moduleFile family) ∈ ls)
    (piece : String) :
    Replays false (Stocked s home) (Filled s ls · w) (Ahead (OutsideOut s c) c)
      (Assembly.append (s.moduleFile family) piece) (Assembly.append (s.moduleFile family) piece) := by
  intro site after u hI h
  have hplace : ∀ p, site.disk.place p = c.place p := fun p =>
    Disk.place_of_home (hI.sound.home.trans hc.home.symm) p
  obtain ⟨hfilled, -⟩ := append_filled hs hf hI.sound h
  rw [hplace] at hfilled
  refine ⟨hI.extends hfilled.grown hfilled.named, fun hB =>
    ⟨(hfilled.mono (by simpa using hl)).trans hB, fun again hR => ?_⟩⟩
  obtain ⟨folders, file, hmodule, -⟩ := hs.modulePlace_eq hf
  have hp := hs.moduleFile_under hf
  rw [hmodule, ← List.append_assoc] at hp
  have hhome : c.home = site.disk.home := hc.home.trans hI.sound.home.symm
  have hm : ∀ k, site.disk.OnRoad s.root (["gen", "tmp", "out"] ++ folders) k → OutsideOut s c k →
      c.tree.get? k = some .folder := by
    intro k hk hout
    refine hc.out k ?_
    rw [OutsideOut, ← hplace, Disk.place_along s.outFolder_under.toAlong] at hout
    rw [Disk.onWay_of_home hhome, Disk.onWay_along_iff s.outFolder_under.toAlong]
    exact hk.cases.resolve_right hout
  have hmoduleOut : ¬ OutsideOut s c (site.disk.place (s.moduleFile family)) := by
    rw [OutsideOut, Classical.not_not, ← hplace, Disk.place_along (hs.moduleFile_under hf).toAlong,
      Disk.place_along s.outFolder_under.toAlong, ← List.append_assoc]
    exact List.prefix_append _ _
  obtain ⟨later, hperform, hahead, hjournal⟩ :=
    Assembly.append_again hI.sound.plain hc.plain hp (by simp) hI.root hm hmoduleOut hR h
  exact ⟨later, hperform, hahead, fun _ => hjournal ▸ .refl _⟩

/-- All modules are written again as they were. -/
theorem replays_writeModules_cached {translation : String → Except Failure String}
    (htranslate : ∀ j markup, partners.translate j markup = translation markup)
    (htranslate' : ∀ j markup, partners'.translate j markup = translation markup)
    (hs : s.Standard) (hi : ∀ i ∈ catalogue.icons, '/' ∉ i.name.toList)
    (hf : ∀ family ∈ families, FamilyName family)
    (hl : ∀ family ∈ families, c.place (s.moduleFile family) ∈ ls) (hw : w.home = home) :
    Replays false (Stocked s home) (Filled s ls · w) (Ahead (OutsideOut s c) c)
      (writeModules s partners f catalogue categories families)
      (writeModules s partners' f catalogue categories families) :=
  replays_writeModules fun family hm =>
    Assembly.replays_writeModule htranslate htranslate'
      (replays_append hc hs (hf family hm) (hl family hm))
      fun i hi' => replays_drawing hc (hf family hm) (hi i (List.mem_filter.1 hi').1) hw

end

end IconModules.Generation
