import IconModules.Proofs.Generation.Again
import IconModules.Proofs.Generation.Confined
import IconModules.Proofs.Generation.Families
import IconModules.Proofs.Generation.Replays

/-! # What writing a module depends on

The module of a family is written the same on every disk that looks the same at the files of the family, if
nothing but folders is in the way to them (`replays_writeModule_level`): nothing else is looked at.

* `Answering` are partners whose answers do not change, `Based` the disks on the way of a run.
* `Level` relates two of them that look the same at the files of a family. -/

namespace IconModules.Generation

open IconModules.Action (Replays)
open Disk (Paved Passable Put Usable Walked)
open Installation (OnParentWay)

variable {s : Settings} {partners partners' : Partners} {f : Finish} {family : String}
  {catalogue : Catalogue} {home : Location} {x x' y y' d d' : Disk} {p : Path} {k : Location}
  {site after again : Site} {u : Unit} {c : Octets}

/-- Partners that give the same answer whenever they are asked for a drawing or a translation. -/
structure Answering (s : Settings) (reply : String → Except Failure Octets)
    (translation : String → Except Failure String) (patience : Nat) (partners : Partners) : Prop where
  fetch : ∀ j family name version, partners.fetch j (s.drawingUrl family name version) =
    reply (s.drawingUrl family name version)
  translate : ∀ j markup, partners.translate j markup = translation markup
  patience : partners.patience = patience

/-- A disk without links on which the way to the root leads through folders. -/
structure Based (s : Settings) (home : Location) (d : Disk) : Prop where
  plain : d.tree.Plain
  home : d.home = home
  root : d.Walked s.root
  short : ∀ x ∈ s.root.moves, Tree.Short x

namespace Based

theorem way (h : Based s home d) : d.OpenRoot s.root :=
  h.root.openRoot h.short

theorem place (hx : Based s home x) (hy : Based s home y) (p : Path) : y.place p = x.place p :=
  Disk.place_of_home (hy.home.trans hx.home.symm) p

theorem paved {above : Path} (h : Based s home x) (hp : Paved x above x') : Based s home x' := by
  refine ⟨hp.plain h.plain, hp.home.trans h.home, fun k hk => ?_, h.short⟩
  by_cases hway : x.OnWay above k
  · exact hp.walked k hway
  · rw [hp.get? k hway]
    exact h.root k ((Disk.onWay_of_home hp.home).1 hk)

theorem put {l : Location} (h : Based s home x) (hl : x.tree.get? l ≠ some .folder)
    (hp : Put x l (.file c) x') : Based s home x' := by
  refine ⟨hp.plain h.plain, hp.home.trans h.home, fun k hk => ?_, h.short⟩
  have hfolder := h.root k ((Disk.onWay_of_home hp.home).1 hk)
  rw [hp.get?, if_neg, hfolder]
  rintro rfl
  exact hl hfolder

end Based

/-- The disk `y` looks like `x` at the files of a family, and nothing but folders is in the way to them. -/
structure Level (s : Settings) (home : Location) (catalogue : Catalogue) (family : String) (x y : Disk) :
    Prop where
  based : Based s home y
  files : ∀ p, IsFileOf s catalogue family p → y.tree.get? (y.place p) = x.tree.get? (x.place p)
  free : ∀ p, IsFileOf s catalogue family p → ∀ k, OnParentWay y p k →
    y.tree.get? k = none ∨ y.tree.get? k = some .folder

section

variable (hs : s.Standard) (hf : FamilyName family)
  (hicons : ∀ i ∈ catalogue.icons, '/' ∉ i.name.toList)
include hs hf hicons

/-- A file of a family is on the way to no file of any family, unless it is on the way to the root. -/
theorem onWay_root_of_file {family' : String} (hf' : FamilyName family') {p' : Path}
    (hp : IsFileOf s catalogue family p) (hp' : IsFileOf s catalogue family' p') (d : Disk)
    (hway : OnParentWay d p' (d.place p)) : d.OnWay s.root (d.place p) := by
  obtain ⟨folders, file, hunder, -, -, hdot⟩ := hp.under hs hf hicons
  obtain ⟨folders', file', hunder', -, hdots, -⟩ := hp'.under hs hf' hicons
  obtain ⟨above, habove, hway⟩ := hway
  rcases Disk.onWay_along (hunder'.parent? habove) hway with hroot | ⟨more, hmore, he⟩
  · exact hroot
  · -- the name of a file has a dot, and those of the folders have none
    rw [List.dropLast_concat] at hmore
    rw [Disk.place_along hunder.toAlong, List.append_cancel_left_eq] at he
    have hmem : file ∈ "gen" :: folders' := hmore.subset (he ▸ by simp)
    rcases List.mem_cons.1 hmem with rfl | hmem
    · exact absurd hdot (by decide)
    · exact absurd hdot (hdots file hmem)

end

/-! ### One file -/

namespace Level

/-- Folders were made on the way to a file of the family on both disks. -/
theorem paved {above : Path} (h : Level s home catalogue family x y) (hx : Based s home x)
    (hp : Paved x above x') (hp' : Paved y above y') : Level s home catalogue family x' y' := by
  have hhome : y.home = x.home := h.based.home.trans hx.home.symm
  refine ⟨h.based.paved hp', fun q hq => ?_, fun q hq k hk => ?_⟩
  · have hsame := h.files q hq
    rw [Disk.place_of_home hp.home, Disk.place_of_home hp'.home, hx.place h.based]
    rw [hx.place h.based] at hsame
    by_cases hway : x.OnWay above (x.place q)
    · rw [hp.walked _ hway, hp'.walked _ ((Disk.onWay_of_home hhome).2 hway)]
    · rw [hp.get? _ hway, hp'.get? _ (fun hway' => hway ((Disk.onWay_of_home hhome).1 hway')), hsame]
  · by_cases hway : y.OnWay above k
    · exact .inr (hp'.walked k hway)
    · rw [hp'.get? k hway]
      exact h.free q hq k ((onParentWay_of_home hp'.home).1 hk)

/-- The same was put into a file of the family on both disks. -/
theorem put (hs : s.Standard) (hf : FamilyName family)
    (hicons : ∀ i ∈ catalogue.icons, '/' ∉ i.name.toList) (h : Level s home catalogue family x y)
    (hx : Based s home x) (hfile : IsFileOf s catalogue family p)
    (hthere : x.tree.get? (x.place p) ≠ some .folder) (hput : Put x (x.place p) (.file c) x')
    (hput' : Put y (y.place p) (.file c) y') : Level s home catalogue family x' y' := by
  have hplace := hx.place h.based
  refine ⟨h.based.put (h.files p hfile ▸ hthere) hput', fun q hq => ?_, fun q hq k hk => ?_⟩
  · have hsame := h.files q hq
    rw [Disk.place_of_home hput.home, Disk.place_of_home hput'.home, hput.get?, hput'.get?, hplace,
      hplace]
    rw [hplace] at hsame
    rw [hsame]
  · have hk := (onParentWay_of_home hput'.home).1 hk
    rw [hput'.get?, if_neg]
    · exact h.free q hq k hk
    · rintro rfl
      have hroot := onWay_root_of_file hs hf hicons hf hfile hq y hk
      exact hthere (h.files p hfile ▸ h.based.root _ hroot)

end Level

section

variable (hs : s.Standard) (hf : FamilyName family)
  (hicons : ∀ i ∈ catalogue.icons, '/' ∉ i.name.toList)
include hs hf hicons

/-- Whatever could be put into a file of the family is put there again. -/
theorem replays_put {content : Option Octets → Octets} {op : Disk → Except FileError Disk}
    (hputs : Disk.Puts p content op) (hfile : IsFileOf s catalogue family p) :
    Replays true (Based s home) (fun _ => True) (Level s home catalogue family)
      (do Action.makeParent p; Action.change p op) (do Action.makeParent p; Action.change p op) := by
  obtain ⟨folders, file, hunder, -⟩ := hfile.under hs hf hicons
  intro site after u hx hrun
  obtain ⟨above, d, habove, hunder', ha, hpassable, hpaved, hu, hthere, hput⟩ :=
    Action.put_exact hputs hunder hx.plain (by simp) hx.root.start hrun
  have hd := hx.paved hpaved
  rw [← Disk.place_of_home hpaved.home] at hthere hput
  refine ⟨hd.put hthere hput, fun _ => ⟨trivial, fun again h => ?_⟩⟩
  have hhome : again.disk.home = site.disk.home := h.based.home.trans hx.home.symm
  have hfree : again.disk.Passable above := by
    refine ⟨?_, hpassable.short, fun k hk => h.free p hfile k ⟨above, habove, hk⟩⟩
    rw [Disk.start_along hunder'.toAlong]
    exact h.based.root.start
  have hlevel : ∀ d', Paved again.disk above d' → Level s home catalogue family d d' :=
    fun d' hpaved' => h.paved hx hpaved hpaved'
  obtain ⟨later, d', hperform, hpaved', hput', -⟩ := Action.put_of_passable hputs hunder h.based.plain
    habove hunder' ha hfree hu.accepted hu.short fun d' hpaved' => by
      rw [← Disk.place_of_home hpaved'.home, (hlevel d' hpaved').files p hfile]
      exact hthere
  rw [← Disk.place_of_home hpaved'.home, Disk.fileAt_congr ((hlevel d' hpaved').files p hfile)] at hput'
  exact ⟨later, hperform, (hlevel d' hpaved').put hs hf hicons hd hfile hthere hput hput',
    Bool.noConfusion⟩

/-- Whether an entry is there and what it holds is the same. -/
theorem holds_level {i : Icon} (hi : i ∈ catalogue.supported family) (hx : Based s home x)
    (h : Level s home catalogue family x y) :
    y.holds (s.cachePath family i) = x.holds (s.cachePath family i) := by
  have hfile : IsFileOf s catalogue family (s.cachePath family i) := .inr ⟨i, hi, rfl⟩
  obtain ⟨folders, file, hunder, -⟩ := hfile.under hs hf hicons
  rw [Bool.eq_iff_iff, Disk.holds_usable_iff hx.plain hunder, Disk.holds_usable_iff h.based.plain hunder,
    h.files _ hfile]
  exact and_congr_left fun _ => ⟨fun hu => hu.on hx.way, fun hu => hu.on h.based.way⟩

theorem read_level {i : Icon} (hi : i ∈ catalogue.supported family) (hx : Based s home x)
    (h : Level s home catalogue family x y) (hread : x.read (s.cachePath family i) = .ok c) :
    y.read (s.cachePath family i) = .ok c := by
  have hfile : IsFileOf s catalogue family (s.cachePath family i) := .inr ⟨i, hi, rfl⟩
  obtain ⟨folders, file, hunder, -⟩ := hfile.under hs hf hicons
  obtain ⟨hu, he⟩ := (Disk.read_usable_iff hx.plain hunder).1 hread
  exact (Disk.read_usable_iff h.based.plain hunder).2 ⟨hu.on h.based.way, (h.files _ hfile).trans he⟩

/-! ### The whole module -/

/-- Where the files of the family look the same, its module is written again. -/
theorem replays_writeModule_level {reply : String → Except Failure Octets}
    {translation : String → Except Failure String} {patience : Nat}
    (hanswers : Answering s reply translation patience partners)
    (hanswers' : Answering s reply translation patience partners') (categories : List Category) :
    Replays true (Based s home) (fun _ => True) (Level s home catalogue family)
      (Assembly.writeModule s partners f family catalogue categories)
      (Assembly.writeModule s partners' f family catalogue categories) :=
  Assembly.replays_writeModule hanswers.translate hanswers'.translate
    (fun piece => replays_put hs hf hicons (Disk.puts_append _ (Text.encode piece)) (.inl rfl))
    fun i hi => Cache.replays_drawing (hanswers'.patience.trans hanswers.patience.symm)
      (fun j => hanswers.fetch j _ _ _) (fun j => hanswers'.fetch j _ _ _)
      (fun _ _ => holds_level hs hf hicons hi)
      (fun content => replays_put hs hf hicons (Disk.puts_write _ content) (.inr ⟨i, hi, rfl⟩))
      fun _ _ _ => read_level hs hf hicons hi

end

end IconModules.Generation
