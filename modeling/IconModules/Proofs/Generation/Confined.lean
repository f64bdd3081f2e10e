import IconModules.Proofs.Generation.Installing

/-! # Where the module of a family is written

`Disk.Confined own new d d'` says that from `d` to `d'` anything may have changed at places with the
property `own`, and that elsewhere there are at most more folders, at places with the property `new`.
Writing the module of a family is confined to its file, to its entries of the cache and to the ways there
(`confined_writeModule`), whatever the partners answer and wherever it fails. -/

namespace IconModules

open IconModules.Action (Keeps)

namespace Disk

variable {own new own' new' P : Location → Prop} {d d' d'' : Disk} {l k : Location} {c : Octets}

/-- Apart from places with the property `own`, folders were made at places with the property `new`. -/
structure Confined (own new : Location → Prop) (d d' : Disk) : Prop where
  plain : d'.tree.Plain
  home : d'.home = d.home
  get? : ∀ k, ¬ own k → d'.tree.get? k = d.tree.get? k ∨
    d.tree.get? k = none ∧ d'.tree.get? k = some .folder ∧ new k

namespace Confined

theorem refl (ht : d.tree.Plain) : Confined own new d d :=
  ⟨ht, rfl, fun _ _ => .inl rfl⟩

theorem trans (h : Confined own new d d') (h' : Confined own new d' d'') : Confined own new d d'' where
  plain := h'.plain
  home := h'.home.trans h.home
  get? k hk := by
    rcases h.get? k hk with he | ⟨hnone, hfolder, hnew⟩
    · rw [← he]
      exact h'.get? k hk
    · rcases h'.get? k hk with he | ⟨hnone', -, -⟩
      · exact .inr ⟨hnone, he.trans hfolder, hnew⟩
      · rw [hfolder] at hnone'
        cases hnone'

/-- Folders stay where nothing else may have changed. -/
theorem folder (h : Confined own new d d') (hk : ¬ own k) (hf : d.tree.get? k = some .folder) :
    d'.tree.get? k = some .folder := by
  rcases h.get? k hk with he | ⟨hnone, -, -⟩
  · rw [he, hf]
  · rw [hf] at hnone
    cases hnone

/-- Where no folder was made either, nothing has changed. -/
theorem same (h : Confined own new d d') (hk : ¬ own k) (hk' : ¬ new k) :
    d'.tree.get? k = d.tree.get? k :=
  (h.get? k hk).resolve_right fun h => hk' h.2.2

end Confined

theorem Grown.confined (ht : d.tree.Plain) (h : Grown P d d') (hP : ∀ k, P k → own k ∨ new k) :
    Confined own new d d' := by
  refine ⟨h.plain ht, h.home, fun k hk => (h.get? k).imp_right fun ⟨hnone, hfolder, hk'⟩ => ?_⟩
  exact ⟨hnone, hfolder, (hP k hk').resolve_left hk⟩

theorem Put.confined (ht : d.tree.Plain) (h : Put d l (.file c) d') (hl : own l) :
    Confined own new d d' := by
  refine ⟨h.plain ht, h.home, fun k hk => .inl ?_⟩
  rw [h.get?, if_neg]
  rintro rfl
  exact hk hl

end Disk

namespace Generation

open Disk (Confined)
open Installation (OnParentWay onWay_parent)

variable {s : Settings} {partners : Partners} {f : Finish} {family : String} {catalogue : Catalogue}
  {own new : Location → Prop} {d : Disk} {p : Path} {i : Icon}

/-! ### Single files -/

theorem onParentWay_of_home {d' : Disk} {k : Location} (h : d'.home = d.home) :
    OnParentWay d' p k ↔ OnParentWay d p k := by
  unfold OnParentWay
  simp only [Disk.onWay_of_home h]

section

variable (hways : ∀ k, OnParentWay d p k → own k ∨ new k)
include hways

theorem keeps_makeParent_confined :
    Keeps (fun site => Confined own new d site.disk) (Action.makeParent p) := by
  refine Keeps.makeParent fun above habove => Keeps.carryOut fun site h => ?_
  refine h.trans ((site.disk.makeFolders_grown h.plain above).confined h.plain fun k hk => ?_)
  exact hways k ⟨above, habove, (Disk.onWay_of_home h.home).1 hk.1⟩

variable (hown : own (d.place p))
include hown

theorem keeps_store_confined (content : Octets) :
    Keeps (fun site => Confined own new d site.disk) (Cache.store p content) := by
  unfold Cache.store
  refine (keeps_makeParent_confined hways).bind fun _ => Keeps.change fun site d' h hw => ?_
  refine h.trans ((Disk.write_place h.plain hw).confined h.plain ?_)
  rwa [Disk.place_of_home h.home]

theorem keeps_piece_confined (piece : String) :
    Keeps (fun site => Confined own new d site.disk) (Assembly.append p piece) := by
  unfold Assembly.append
  refine (keeps_makeParent_confined hways).bind fun _ => Keeps.change fun site d' h hw => ?_
  refine h.trans ((Disk.append_place h.plain hw).confined h.plain ?_)
  rwa [Disk.place_of_home h.home]

end

/-! ### Whole modules -/

/-- The files of a family: its module and the drawings of its icons. -/
def IsFileOf (s : Settings) (catalogue : Catalogue) (family : String) (p : Path) : Prop :=
  p = s.moduleFile family ∨ ∃ i ∈ catalogue.supported family, p = s.cachePath family i

/-- A file of a family has a dot in its name, and the folders that lead to it from `gen` have none. -/
theorem IsFileOf.under (hs : s.Standard) (hf : FamilyName family)
    (hicons : ∀ i ∈ catalogue.icons, '/' ∉ i.name.toList) (h : IsFileOf s catalogue family p) :
    ∃ folders file, Path.Under s.root ("gen" :: folders ++ [file]) p ∧ folders ≠ [] ∧
      (∀ n ∈ folders, '.' ∉ n.toList) ∧ '.' ∈ file.toList := by
  rcases h with h | ⟨i, hi, h⟩
  · obtain ⟨folders, file, hway, hfolders, -, stem, -, hfile⟩ := hs.modulePlace_eq hf
    have hunder := hs.moduleFile_under hf
    rw [hway, ← h] at hunder
    refine ⟨"tmp" :: "out" :: folders, file, by simpa using hunder, by simp, ?_, by simp [hfile]⟩
    simpa using fun n hn => (hfolders n hn).2
  · have hunder := Settings.cachePath_under (s := s) hf (hicons i (List.mem_filter.1 hi).1)
    rw [← h] at hunder
    refine ⟨"tmp" :: "sot" :: "icons" :: (if family = "" then [] else [family]), i.entryName,
      by simpa [Settings.entryPlace] using hunder, by simp, ?_, by simp [Icon.entryName]⟩
    split <;> simp [hf.noDot]

/-- Writing the module of a family changes its files and makes the folders for them, and no more. -/
theorem confined_writeModule (categories : List Category)
    (hown : ∀ p, IsFileOf s catalogue family p → own (d.place p))
    (hways : ∀ p, IsFileOf s catalogue family p → ∀ k, OnParentWay d p k → own k ∨ new k) :
    Keeps (fun site => Confined own new d site.disk)
      (Assembly.writeModule s partners f family catalogue categories) :=
  have hrecord : Action.KeepsRecords fun site => Confined own new d site.disk :=
    fun _ _ => Keeps.record fun _ h => h
  Assembly.keeps_writeModule hrecord (keeps_piece_confined (hways _ (.inl rfl)) (hown _ (.inl rfl)))
    (fun i hi => Cache.keeps_drawing hrecord (keeps_store_confined (hways _ (.inr ⟨i, hi, rfl⟩))
      (hown _ (.inr ⟨i, hi, rfl⟩)))) categories

end Generation
end IconModules
