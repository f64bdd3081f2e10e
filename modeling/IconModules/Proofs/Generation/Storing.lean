import IconModules.Proofs.Files.Growth
import IconModules.Proofs.Generation.Keeping
import IconModules.Proofs.Generation.ModuleWriting

/-! # Storing files in folders that are made for them

What `Cache.store` and `Assembly.append` do to the files, in any tree: they store one file at the place
to which the path leads (`Disk.Stored`).

While a module is written, its pieces are stored at one place, and its text comes together there
unless the drawings are stored there too (`writeModule_extends`). -/

namespace IconModules

open IconModules.Action (Keeps)
open Disk (Extends Stored)

variable {s : Settings} {partners : Partners} {f : Finish} {family : String} {catalogue : Catalogue}
  {i : Icon} {site after : Site} {u : Unit} {p : Path} {l : Location} {c : Octets} {piece : String}

theorem Action.makeParent_extends {r : Except Failure Unit}
    (h : (Action.makeParent p).perform site = (r, after)) :
    Extends site.disk after.disk ∧ (site.disk.tree.Named → after.disk.tree.Named) ∧
      ∀ k, after.disk.fileAt k = site.disk.fileAt k := by
  unfold Action.makeParent at h
  split at h
  · rw [Action.makeFolders, Action.perform_carryOut] at h
    obtain ⟨-, rfl⟩ := Prod.mk.inj h
    exact Disk.makeFolders_extends _ _
  · obtain ⟨-, rfl⟩ := Prod.mk.inj h
    exact ⟨.refl _, id, fun _ => rfl⟩

theorem Cache.store_ok (h : (Cache.store p c).perform site = (.ok u, after)) :
    ∃ l, Stored site.disk p l c after.disk := by
  obtain ⟨_, made, hmade, h⟩ := Action.perform_bind_ok h
  obtain ⟨hextends, hnamed, hfiles⟩ := Action.makeParent_extends hmade
  obtain ⟨d, hwrite, rfl⟩ := Action.perform_change_ok h
  obtain ⟨l, hl, hput⟩ := Disk.write_ok hwrite
  exact ⟨l, (hput.stored hl).after hextends hnamed hfiles⟩

/-- What could not be stored leaves at most folders behind. -/
theorem Cache.store_failed {failure : Failure}
    (h : (Cache.store p c).perform site = (.error failure, after)) :
    Extends site.disk after.disk ∧ (site.disk.tree.Named → after.disk.tree.Named) ∧
      ∀ k, after.disk.fileAt k = site.disk.fileAt k := by
  rcases Action.perform_bind_cases h with ⟨f, hmade, -⟩ | ⟨_, made, hmade, h⟩
  · exact Action.makeParent_extends hmade
  · obtain rfl := Action.perform_change_failed h
    exact Action.makeParent_extends hmade

theorem Assembly.append_failed {failure : Failure}
    (h : (Assembly.append p piece).perform site = (.error failure, after)) :
    Extends site.disk after.disk ∧ (site.disk.tree.Named → after.disk.tree.Named) ∧
      ∀ k, after.disk.fileAt k = site.disk.fileAt k := by
  rcases Action.perform_bind_cases h with ⟨f, hmade, -⟩ | ⟨_, made, hmade, h⟩
  · exact Action.makeParent_extends hmade
  · obtain rfl := Action.perform_change_failed h
    exact Action.makeParent_extends hmade

theorem Assembly.append_ok (h : (Assembly.append p piece).perform site = (.ok u, after)) :
    ∃ l, Stored site.disk p l ((site.disk.fileAt l).getD [] ++ Text.encode piece) after.disk := by
  obtain ⟨_, made, hmade, h⟩ := Action.perform_bind_ok h
  obtain ⟨hextends, hnamed, hfiles⟩ := Action.makeParent_extends hmade
  obtain ⟨d, happend, rfl⟩ := Action.perform_change_ok h
  obtain ⟨l, hl, hput⟩ := Disk.append_ok happend
  refine ⟨l, ?_⟩
  rw [← hfiles]
  exact (hput.stored hl).after hextends hnamed hfiles

/-! ### What storing keeps -/

section

variable {J : Disk → Prop}
  (hfolders : ∀ d above, J d → J (d.makeFolders above).2)
  (hstored : ∀ d d' l c, J d → Stored d p l c d' → J d')
include hfolders

theorem Action.keeps_makeParent : Keeps (fun x => J x.disk) (Action.makeParent p) :=
  Keeps.makeParent fun above _ => Keeps.carryOut fun x hx => hfolders x.disk above hx

include hstored

theorem Cache.keeps_store (c : Octets) : Keeps (fun x => J x.disk) (Cache.store p c) := by
  unfold Cache.store
  refine (Action.keeps_makeParent hfolders).bind fun _ => Keeps.change fun x d hx hwrite => ?_
  obtain ⟨l, hl, hput⟩ := Disk.write_ok hwrite
  exact hstored _ _ l c hx (hput.stored hl)

theorem Assembly.keeps_append (piece : String) :
    Keeps (fun x => J x.disk) (Assembly.append p piece) := by
  unfold Assembly.append
  refine (Action.keeps_makeParent hfolders).bind fun _ => Keeps.change fun x d hx happend => ?_
  obtain ⟨l, hl, hput⟩ := Disk.append_ok happend
  exact hstored _ _ l _ hx (hput.stored hl)

end

/-! ### Writing a module -/

namespace Assembly

variable {d e : Disk}

theorem keepsRecords_disk (J : Disk → Prop) : Action.KeepsRecords (fun x => J x.disk) :=
  fun _ _ => Keeps.record fun _ h => h

/-- However it ends, writing a module only adds files and folders. -/
theorem keeps_extends_writeModule (categories : List Category) :
    Keeps (fun x => Extends d x.disk)
      (writeModule s partners f family catalogue categories) := by
  have hfolders : ∀ x above, Extends d x → Extends d (x.makeFolders above).2 :=
    fun x above hx => hx.trans (x.makeFolders_extends above).1
  have hstored : ∀ {p : Path}, ∀ x x' l c, Extends d x → Stored x p l c x' → Extends d x' :=
    fun _ _ _ _ hx h => hx.trans h.grown
  exact keeps_writeModule (keepsRecords_disk _) (keeps_append hfolders hstored)
    (fun _ _ => Cache.keeps_drawing (keepsRecords_disk _) (Cache.keeps_store hfolders hstored))
    categories

/-- Since the disk `d`, files were only added, and if the disk `e` comes out of them the file at `l` is
what it was. -/
def Spares (e : Disk) (l : Location) (d x : Disk) : Prop :=
  Extends d x ∧ (Extends x e → x.fileAt l = d.fileAt l)

theorem keeps_store_spares (hp : ∀ k, e.placeToWrite p = .ok k → e.fileAt k ≠ none → k ≠ l)
    (c : Octets) : Keeps (fun x => Spares e l d x.disk) (Cache.store p c) := by
  refine Cache.keeps_store (fun x above hx => ?_) (fun x x' k c hx hstored => ?_) c
  · obtain ⟨hextends, -, hfiles⟩ := x.makeFolders_extends above
    exact ⟨hx.1.trans hextends, fun he => (hfiles l).trans (hx.2 (hextends.trans he))⟩
  · refine ⟨hx.1.trans hstored.grown, fun he => ?_⟩
    obtain ⟨hleads, hfile⟩ := hstored.leads_of_extends he
    rw [hstored.fileAt, if_neg (hp k hleads hfile).symm]
    exact hx.2 (hstored.grown.trans he)

/-- Fetching a drawing does not touch a file to which its entry does not lead. -/
theorem fetchesCode_extends
    (hp : ∀ k, e.placeToWrite (s.cachePath family i) = .ok k → e.fileAt k ≠ none → k ≠ l) :
    FetchesCode s partners f family (fun _ => True) (Extends · e) l
      (fun _ code => ∃ t, code = f.apply t) i := by
  intro site after code _ h
  have hkeeps : Keeps (fun x => Spares e l site.disk x.disk)
      (Cache.drawing s partners family i >>= Action.translate partners) :=
    (Cache.keeps_drawing (keepsRecords_disk _) (keeps_store_spares hp)).bind fun markup =>
      Action.keeps_translate (keepsRecords_disk _) partners markup
  have hspares := hkeeps site ⟨.refl _, fun _ => rfl⟩
  rw [h] at hspares
  exact ⟨trivial, fun he => ⟨hspares.1.trans he, hspares.2 he, code, rfl⟩⟩

/-- The pieces of a module are stored where its path leads in the end. -/
theorem addsPieces_extends (hl : ∀ k, e.placeToWrite p = .ok k → k = l) :
    AddsPieces (fun _ => True) (Extends · e) l p := by
  intro site after u piece _ h
  obtain ⟨k, hstored⟩ := append_ok h
  refine ⟨trivial, fun he => ⟨hstored.grown.trans he, ?_⟩⟩
  obtain rfl := hl k (hstored.leads_of_extends he).1
  rw [hstored.fileAt, if_pos rfl]

theorem exists_fileAt_eq_none (d : Disk) : ∃ l, d.fileAt l = none := by
  by_cases h : d.tree.get? [] = some .folder
  · refine ⟨[], ?_⟩
    unfold Disk.fileAt
    rw [h]
  · refine ⟨[""], ?_⟩
    unfold Disk.fileAt
    rw [← List.nil_append [""], Tree.get?_append_cons_of_ne h]

section

variable {categories : List Category} {report : ModuleReport}
  (h : (writeModule s partners f family catalogue categories).perform site = (.ok report, after))
include h

theorem extends_of_writeModule : Extends site.disk after.disk := by
  have hkeeps : Keeps (fun x => Extends site.disk x.disk)
      (writeModule s partners f family catalogue categories) :=
    keeps_extends_writeModule categories
  have hafter := hkeeps site (.refl site.disk)
  rwa [h] at hafter

/-- If no drawing is stored where the path of a module leads, the text of the module is added to the file
there. -/
theorem writeModule_extends (hl : ∀ k, after.disk.placeToWrite (s.moduleFile family) = .ok k → k = l)
    (hi : ∀ i ∈ catalogue.supported family, ∀ k,
      after.disk.placeToWrite (s.cachePath family i) = .ok k → after.disk.fileAt k ≠ none → k ≠ l) :
    report = ⟨family, s.moduleName family, s.moduleFile family,
        (catalogue.supported family).length⟩ ∧
      (∀ i ∈ catalogue.supported family, HasSymbol s i) ∧
      ∃ definitions : List (Icon × String),
        definitions.map Prod.fst = catalogue.supported family ∧
        (∀ x ∈ definitions, ∃ t, x.2 = f.apply t) ∧
        after.disk.fileAt l = some ((site.disk.fileAt l).getD [] ++
          Text.encode (moduleText s family catalogue categories definitions)) := by
  have hadds : AddsPieces (fun _ => True) (Extends · after.disk) l (s.moduleFile family) :=
    addsPieces_extends hl
  have hfetch : ∀ i ∈ catalogue.supported family, FetchesCode s partners f family (fun _ => True)
      (Extends · after.disk) l (fun _ code => ∃ t, code = f.apply t) i :=
    fun i hi' => fetchesCode_extends (hi i hi')
  obtain ⟨hreport, hsymbols, -, hB⟩ := writeModule_ok hadds rfl hfetch trivial h
  exact ⟨hreport, hsymbols, (hB (.refl _)).2⟩

/-- The path of a module that was written leads to a place for a file. -/
theorem writeModule_leads : ∃ l, after.disk.placeToWrite (s.moduleFile family) = .ok l := by
  apply Classical.byContradiction
  intro hnot
  -- otherwise the text would stand where no file is
  obtain ⟨l, hl⟩ := exists_fileAt_eq_none after.disk
  have hplace : ∀ k, after.disk.placeToWrite (s.moduleFile family) = .ok k → k = l :=
    fun k hk => absurd ⟨k, hk⟩ hnot
  have hdrawings : ∀ i ∈ catalogue.supported family, ∀ k,
      after.disk.placeToWrite (s.cachePath family i) = .ok k → after.disk.fileAt k ≠ none →
        k ≠ l := by
    rintro i - k - hk rfl
    exact hk hl
  obtain ⟨-, -, definitions, -, -, hfile⟩ := writeModule_extends h hplace hdrawings
  rw [hl] at hfile
  cases hfile

end

end Assembly
end IconModules
