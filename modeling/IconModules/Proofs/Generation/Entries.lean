import IconModules.Proofs.Generation.Families
import IconModules.Proofs.Generation.Ready

/-! # The entries of the cache while modules are written

* `Filling` holds of every disk on the way, however it ends: drawings stay (`keeps_writeModules_filling`).
* `Listed` says which files there may be below the folder of drawings.
* When all modules are written, every entry that they needed holds a drawing (`writeModules_drawn`). -/

namespace IconModules.Generation

open IconModules.Action (Keeps)
open Disk (Extends Stored)

variable {s : Settings} {partners : Partners} {f : Finish} {family : String} {catalogue : Catalogue}
  {categories : List Category} {families : List String} {i : Icon} {site after : Site}
  {home : Location} {d d' : Disk} {ls : List Location} {E : Location → Prop}

/-! ### Drawings stay -/

/-- A disk on the way of a run that filled the disk `d`. -/
structure Filling (s : Settings) (home : Location) (ls : List Location) (d d' : Disk) : Prop where
  sound : Sound s home d'
  filled : Filled s ls d d'

theorem Filling.refl (hd : Sound s home d) : Filling s home ls d d :=
  ⟨hd, .refl d⟩

/-- What fills the disk further, at one of the places `ls` or none, goes on filling it. -/
theorem Filling.step {ls' : List Location} {d'' : Disk} (h : Filling s home ls d d')
    (hfilled : Filled s ls' d' d'') (hls : ls' ⊆ ls) : Filling s home ls d d'' :=
  ⟨hfilled.sound h.sound, h.filled.trans (hfilled.mono hls)⟩

theorem keeps_drawing_filling (hf : FamilyName family) (hi : '/' ∉ i.name.toList) :
    Keeps (fun x => Filling s home ls d x.disk) (Cache.drawing s partners family i) := by
  intro site h
  rcases hr : (Cache.drawing s partners family i).perform site with ⟨r, after⟩
  exact h.step (drawing_filled hf hi h.sound hr).1 (List.nil_subset _)

section

variable (hs : s.Standard) (he : d.home = home)
include he

theorem keeps_loadCatalogue_filling (hl : d.place s.catalogueFile ∈ ls) :
    Keeps (fun x => Filling s home ls d x.disk) (loadCatalogue s partners) := by
  have hrecords : Action.KeepsRecords (fun x => Filling s home ls d x.disk) :=
    Assembly.keepsRecords_disk _
  unfold loadCatalogue
  refine (Action.keeps_note hrecords _).bind fun _ => (Action.keeps_download hrecords _ _).bind
    fun raw => Keeps.bind ?_ fun _ => Keeps.attempt _
  refine Keeps.change fun x d' h hwrite => h.step (write_catalogue_filled h.sound hwrite) ?_
  rw [Disk.place_of_home (h.sound.home.trans he.symm)]
  simpa using hl

include hs

theorem keeps_append_filling (hf : FamilyName family) (hl : d.place (s.moduleFile family) ∈ ls)
    (piece : String) : Keeps (fun x => Filling s home ls d x.disk)
      (Assembly.append (s.moduleFile family) piece) := by
  intro site h
  rcases hr : (Assembly.append (s.moduleFile family) piece).perform site with ⟨failure | _, after⟩
  · exact h.step (.of_folders (Assembly.append_failed hr)) (List.nil_subset _)
  · refine h.step (append_filled hs hf h.sound hr).1 ?_
    rw [Disk.place_of_home (h.sound.home.trans he.symm)]
    simpa using hl

variable (hi : ∀ i ∈ catalogue.icons, '/' ∉ i.name.toList)
include hi

/-- However it ends, writing a module keeps all drawings. -/
theorem keeps_writeModule_filling (hf : FamilyName family)
    (hl : d.place (s.moduleFile family) ∈ ls) :
    Keeps (fun x => Filling s home ls d x.disk)
      (Assembly.writeModule s partners f family catalogue categories) :=
  Assembly.keeps_writeModule (Assembly.keepsRecords_disk _) (keeps_append_filling hs he hf hl)
    (fun i hm => keeps_drawing_filling hf (hi i (List.mem_filter.1 hm).1)) categories

theorem keeps_writeModules_filling (hf : ∀ family ∈ families, FamilyName family)
    (hl : ∀ family ∈ families, d.place (s.moduleFile family) ∈ ls) :
    Keeps (fun x => Filling s home ls d x.disk)
      (writeModules s partners f catalogue categories families) :=
  keeps_writeModules (Assembly.keepsRecords_disk _) fun family hm =>
    keeps_writeModule_filling hs he hi (hf family hm) (hl family hm)

end

/-! ### Nothing else is stored -/

/-- A disk on the way of a run where every file below the folder of drawings is at a place with the property
`E`. -/
structure Listed (s : Settings) (home : Location) (E : Location → Prop) (d : Disk) : Prop where
  sound : Sound s home d
  listed : ∀ k, d.place s.iconsFolder <+: k → d.fileAt k ≠ none → E k

theorem Listed.folders (h : Listed s home E d) (above : Path) :
    Listed s home E (d.makeFolders above).2 := by
  have hfilled : Filled s [] d (d.makeFolders above).2 := .of_folders (d.makeFolders_extends above)
  refine ⟨hfilled.sound h.sound, fun k hk hfile => ?_⟩
  rw [Disk.place_of_home hfilled.grown.home] at hk
  rw [(d.makeFolders_extends above).2.2] at hfile
  exact h.listed k hk hfile

theorem Listed.stored {p : Path} {l : Location} {c : Octets} (h : Listed s home E d)
    (hstored : Stored d p l c d') (hp : d.place s.iconsFolder <+: d.place p → E (d.place p)) :
    Listed s home E d' := by
  have hgrown := hstored.grown
  obtain rfl := place_of_stored h.sound hstored
  refine ⟨⟨hgrown.plain h.sound.plain, hstored.named h.sound.named,
    hgrown.home.trans h.sound.home, hgrown.openRoot h.sound.way⟩, fun k hk hfile => ?_⟩
  rw [Disk.place_of_home hgrown.home] at hk
  rw [hstored.fileAt] at hfile
  split at hfile
  · rename_i hkp
    rw [hkp] at hk ⊢
    exact hp hk
  · exact h.listed k hk hfile

section

variable (he : d.home = home)
include he

theorem keeps_drawing_listed (hE : E (d.place (s.cachePath family i))) :
    Keeps (fun x => Listed s home E x.disk) (Cache.drawing s partners family i) := by
  refine Cache.keeps_drawing (Assembly.keepsRecords_disk _)
    (Cache.keeps_store (fun _ above h => h.folders above) fun d₁ _ _ _ h hstored => ?_)
  refine h.stored hstored fun _ => ?_
  rwa [Disk.place_of_home (h.sound.home.trans he.symm)]

/-- However it ends, writing modules stores no drawing but those of their icons. -/
theorem keeps_writeModules_listed (hs : s.Standard) (hf : ∀ family ∈ families, FamilyName family)
    (hE : ∀ family ∈ families, ∀ i ∈ catalogue.supported family,
      E (d.place (s.cachePath family i))) :
    Keeps (fun x => Listed s home E x.disk)
      (writeModules s partners f catalogue categories families) := by
  refine keeps_writeModules (Assembly.keepsRecords_disk _) fun family hm => ?_
  refine Assembly.keeps_writeModule (Assembly.keepsRecords_disk _) ?_
    (fun i hi => keeps_drawing_listed he (hE family hm i hi)) categories
  refine Assembly.keeps_append (fun _ above h => h.folders above) fun d₁ _ _ _ h hstored => ?_
  exact h.stored hstored fun hbelow => absurd hbelow (module_apart hs (hf family hm) d₁)

end

theorem keeps_loadCatalogue_listed :
    Keeps (fun x => Listed s home E x.disk) (loadCatalogue s partners) := by
  have hrecords : Action.KeepsRecords (fun x => Listed s home E x.disk) :=
    Assembly.keepsRecords_disk _
  unfold loadCatalogue
  refine (Action.keeps_note hrecords _).bind fun _ => (Action.keeps_download hrecords _ _).bind
    fun raw => Keeps.bind ?_ fun _ => Keeps.attempt _
  refine Keeps.change fun x d' h hwrite => ?_
  obtain ⟨l, hl, hput⟩ := Disk.write_ok hwrite
  exact h.stored (hput.stored hl) fun hbelow => absurd hbelow (catalogue_apart s x.disk)

/-! ### Everything that is needed is stored -/

/-- The entry of an icon holds a drawing. -/
def Drawn (s : Settings) (family : String) (i : Icon) (d : Disk) : Prop :=
  ∃ c, d.fileAt (d.place (s.cachePath family i)) = some c ∧ Markup.isDrawing (shown s c) = true

/-- Modules that were all written have the drawings of all their icons in the cache. -/
theorem writeModules_drawn (hs : s.Standard) (hi : ∀ i ∈ catalogue.icons, '/' ∉ i.name.toList)
    (hf : ∀ family ∈ families, FamilyName family) (hd : Sound s home site.disk)
    {reports : List ModuleReport}
    (h : (writeModules s partners f catalogue categories families).perform site =
      (.ok reports, after)) :
    ∀ family ∈ families, ∀ i ∈ catalogue.supported family, Drawn s family i after.disk := by
  induction families generalizing site reports with
  | nil => simp
  | cons family rest ih =>
    have hf' : ∀ family ∈ rest, FamilyName family := fun x hx => hf x (List.mem_cons_of_mem _ hx)
    obtain ⟨report, written, reports', hwrite, hrest, -⟩ := writeModules_cons_iff.1 h
    have hfamily := hf family List.mem_cons_self
    obtain ⟨-, hsound, -, definitions, hmap, hdefinitions, -⟩ :=
      writeModule_filled hs hfamily hi hd hwrite
    refine List.forall_mem_cons.2 ⟨fun i hm => ?_, ih hf' (by exact hsound) hrest⟩
    rw [← hmap] at hm
    obtain ⟨x, hx, rfl⟩ := List.mem_map.1 hm
    obtain ⟨c, -, -, hc, hdrawing, -⟩ := (hdefinitions x hx).2
    have hname : '/' ∉ x.1.name.toList := by
      rw [hmap] at hm
      exact hi x.1 (List.mem_filter.1 hm).1
    -- the other modules leave the drawing in its entry
    have hkeeps : Keeps (fun x => Filling s home
        (rest.map fun family => written.disk.place (s.moduleFile family)) written.disk x.disk)
        (writeModules s partners f catalogue categories rest) :=
      keeps_writeModules_filling hs hsound.home hi hf' fun _ hm' => List.mem_map_of_mem hm'
    have hkept := hkeeps.of_perform hrest ⟨hsound, .refl written.disk⟩
    exact ⟨c, entry_filled hfamily hname hkept.filled hc hdrawing, hdrawing⟩

end IconModules.Generation
