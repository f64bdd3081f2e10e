import IconModules.Proofs.Catalogue
import IconModules.Proofs.Generation.RejectedNames
import IconModules.Settings.Presets

/-! # How far a module has come

The pieces of a module are added to its file one by one, and between two definitions a drawing is looked for and
translated, which may fail.

* **`writeUpTo k`** is the part of `writeModule` up to the `k`-th definition, and **`makeCode`** is what is done
  for the next one before it is added.
* **`Shows`** says which text a file shows behind what it held before. Every piece goes behind it
  (`Shows.append`), and what is done between two pieces leaves it alone (`Shows.keeps_makeCode`).
* **`Progress`** puts together how a module can end and what its file holds then. -/

namespace IconModules

/-! ### Actions one after the other -/

namespace Action

variable {α : Type} {l : List α} {f : α → Action Unit} {k : Nat} {a : α} {site x after : Site}
  {failure : Failure}

theorem perform_of_fst {β : Type} {a : Action β} {r : Except Failure β} (h : (a.perform site).1 = r) :
    a.perform site = (r, (a.perform site).2) := by
  rw [← h]

theorem forM_take_succ (h : l[k]? = some a) :
    (l.take (k + 1)).forM f = (do (l.take k).forM f; f a) := by
  have hone : [a].forM f = f a := bind_pure_unit
  rw [List.take_add_one, h, Option.toList_some]
  exact List.forM_append.trans (bind_congr fun _ => hone)

/-- What fails for one element when all before it were done ends the whole. -/
theorem forM_fails (h : l[k]? = some a) (hbefore : ((l.take k).forM f).perform site = (.ok (), x))
    (hfail : (f a).perform x = (.error failure, after)) :
    (l.forM f).perform site = (.error failure, after) := by
  induction l generalizing k site with
  | nil => cases h
  | cons b l ih =>
    change (f b >>= fun _ => l.forM f).perform site = _
    cases k with
    | zero =>
      obtain ⟨-, rfl⟩ := perform_pure_ok hbefore
      obtain rfl := Option.some.inj h
      rw [perform_bind, hfail]
    | succ k =>
      obtain ⟨_, mid, hfirst, hbefore⟩ := perform_bind_ok hbefore
      exact perform_bind_of_ok hfirst (ih h hbefore)

/-- What ended with a failure failed for one element when all before it were done. -/
theorem forM_failed (h : (l.forM f).perform site = (.error failure, after)) :
    ∃ k a x, l[k]? = some a ∧ ((l.take k).forM f).perform site = (.ok (), x) ∧
      (f a).perform x = (.error failure, after) := by
  induction l generalizing site with
  | nil => cases h
  | cons b l ih =>
    change (f b >>= fun _ => l.forM f).perform site = _ at h
    rcases perform_bind_cases h with ⟨_, hfail, hr⟩ | ⟨_, mid, hfirst, h⟩
    · obtain rfl := Except.error.inj hr
      exact ⟨0, b, site, rfl, rfl, hfail⟩
    · obtain ⟨k, a, x, ha, hbefore, hfail⟩ := ih h
      exact ⟨k + 1, a, x, ha, perform_bind_of_ok hfirst hbefore, hfail⟩

end Action

open IconModules.Action (Keeps)
open Disk (Extends)

namespace Assembly

/-! ### The pieces of a module -/

section

variable (s : Settings) (partners : Partners) (f : Finish) (family : String) (catalogue : Catalogue)
  (categories : List Category)

/-- The pieces in front of the definitions: header, heading and symbols of each section, imports. -/
def frontPieces : List String :=
  ModuleText.header (s.moduleName family) ((catalogue.supported family).map (symbolOf s)) ::
    (categories.flatMap fun c => [ModuleText.heading c.name, ModuleText.docs s.docStyle
      ((ModuleText.documented ((catalogue.supported family).map (·.name)) c).map (symbolOf s))]) ++
    [ModuleText.imports s.preamble]

/-- Writes a module up to the definitions of its first `k` icons. -/
def writeUpTo (k : Nat) : Action Unit := do
  writeFront s family catalogue categories
  ((catalogue.supported family).take k).forM (writeIcon s partners f (s.moduleFile family) family)

/-- Finds the drawing of an icon and has it translated. -/
def makeCode (i : Icon) : Action String := do
  Action.note (.processingIcon family (symbolOf s i))
  let svg ← Cache.drawing s partners family i
  Action.translate partners svg

/-- At `x`, the run that began at `site` adds this piece to the file of the module. -/
inductive Adds (site : Site) : Site → String → Prop
  | front {j : Nat} {piece : String} {x : Site} :
    (frontPieces s family catalogue categories)[j]? = some piece →
    (do
      Action.note (.processingFamily family (catalogue.supported family).length)
      ((frontPieces s family catalogue categories).take j).forM
        (append (s.moduleFile family))).perform site = (.ok (), x) →
    Adds site x piece
  | definition {k : Nat} {i : Icon} {code : String} {x : Site} :
    (catalogue.supported family)[k]? = some i →
    (do
      writeUpTo s partners f family catalogue categories k
      makeCode s partners family i).perform site = (.ok code, x) →
    Adds site x (blockText s (i, f.apply code))

end

variable {s : Settings} {partners : Partners} {f : Finish} {family : String} {catalogue : Catalogue}
  {categories : List Category} {i : Icon} {site x after : Site} {u : Unit} {p : Path}
  {before : Disk} {text piece : String} {k : Nat} {failure : Failure}

theorem moduleText_eq (definitions : List (Icon × String)) :
    moduleText s family catalogue categories definitions =
      String.join (frontPieces s family catalogue categories) ++
        String.join (definitions.map (blockText s)) := by
  have hsections : ∀ names : List String, String.join (categories.map (sectionText s names)) =
      String.join (categories.flatMap fun c => [ModuleText.heading c.name,
        ModuleText.docs s.docStyle ((ModuleText.documented names c).map (symbolOf s))]) := by
    intro names
    induction categories with
    | nil => rfl
    | cons c categories ih =>
      rw [List.map_cons, String.join_cons, ih, List.flatMap_cons, String.join_append]
      simp [sectionText, String.append_assoc]
  rw [moduleText, hsections, frontPieces]
  simp [String.join_append, String.append_assoc]

/-- If all icons have identifiers, the pieces in front are added one after the other. -/
theorem writeFront_eq (h : ∀ i ∈ catalogue.supported family, HasSymbol s i) :
    writeFront s family catalogue categories = (do
      Action.note (.processingFamily family (catalogue.supported family).length)
      (frontPieces s family catalogue categories).forM (append (s.moduleFile family))) := by
  have hattempt : ∀ icons : List Icon, (∀ i ∈ icons, HasSymbol s i) →
      Action.attempt (symbols s icons) = pure (icons.map (symbolOf s)) := fun icons hicons => by
    rw [symbols_eq_ok hicons, Action.attempt]
  have hsections : categories.forM
      (writeSection s (s.moduleFile family) ((catalogue.supported family).map (·.name))) =
      (categories.flatMap fun c => [ModuleText.heading c.name, ModuleText.docs s.docStyle
        ((ModuleText.documented ((catalogue.supported family).map (·.name)) c).map
          (symbolOf s))]).forM (append (s.moduleFile family)) := by
    induction categories with
    | nil => rfl
    | cons c categories ih =>
      have hsection : writeSection s (s.moduleFile family) ((catalogue.supported family).map (·.name)) c =
          (do
            append (s.moduleFile family) (ModuleText.heading c.name)
            append (s.moduleFile family) (ModuleText.docs s.docStyle
              ((ModuleText.documented ((catalogue.supported family).map (·.name)) c).map
                (symbolOf s)))) := by
        rw [writeSection, hattempt _ fun i hi => hasSymbol_documented h hi]
        simp only [pure_bind]
      change (writeSection _ _ _ c >>= fun _ => categories.forM _) = _
      rw [ih, hsection]
      simp only [List.flatMap_cons, List.cons_append, List.nil_append, List.forM_eq_forM, List.forM_cons,
        bind_assoc]
  rw [writeFront, hattempt _ h, hsections, frontPieces]
  simp only [List.forM_eq_forM, List.cons_append, List.forM_cons, List.forM_append, List.forM_nil, bind_pure_unit, pure_bind]

/-- If its icon has an identifier, a definition is added when its code was made. -/
theorem writeIcon_eq_makeCode (h : HasSymbol s i) : writeIcon s partners f p family i = (do
    let code ← makeCode s partners family i
    append p (blockText s (i, f.apply code))) := by
  simp only [writeIcon, symbol_eq_ok h, Action.attempt, pure_bind, makeCode, bind_assoc, blockText]

/-! ### What the file shows -/

/-- Behind what the file of a path held on the disk `before`, it shows this text. -/
structure Shows (before : Disk) (p : Path) (text : String) (d : Disk) : Prop where
  grown : Extends before d
  leads : d.placeToWrite p = .ok (before.place p)
  file : d.fileAt (before.place p) =
    some (before.contentAt (before.place p) ++ Text.encode text)

/-- Without links, a piece is added where its path leads at any time. -/
theorem append_place (ht : before.tree.Plain) (hgrown : Extends before site.disk)
    (h : (append p piece).perform site = (.ok u, after)) :
    Extends before after.disk ∧ after.disk.placeToWrite p = .ok (before.place p) ∧
      after.disk.fileAt (before.place p) =
        some (site.disk.contentAt (before.place p) ++ Text.encode piece) := by
  obtain ⟨l, hstored⟩ := append_ok h
  have hafter := hgrown.trans hstored.grown
  obtain rfl : l = before.place p := by
    rw [(Disk.placeToWrite_eq (hafter.plain ht) hstored.leads).2.1, Disk.place_of_home hafter.home]
  refine ⟨hafter, hstored.leads, ?_⟩
  rw [hstored.fileAt, if_pos rfl, Disk.contentAt_eq]

/-- The first piece goes behind what the file held. -/
theorem Shows.begin (ht : site.disk.tree.Plain) (h : (append p piece).perform site = (.ok u, after)) :
    Shows site.disk p piece after.disk := by
  obtain ⟨hgrown, hleads, hfile⟩ := append_place ht (.refl _) h
  exact ⟨hgrown, hleads, hfile⟩

/-- Every further piece goes behind the text that the file shows. -/
theorem Shows.append (ht : before.tree.Plain) (hshows : Shows before p text site.disk)
    (h : (append p piece).perform site = (.ok u, after)) :
    Shows before p (text ++ piece) after.disk := by
  obtain ⟨hgrown, hleads, hfile⟩ := append_place ht hshows.grown h
  refine ⟨hgrown, hleads, ?_⟩
  rw [hfile, Disk.contentAt_eq, hshows.file, Option.getD_some, Text.encode_append, List.append_assoc]

theorem Shows.appendAll (ht : before.tree.Plain) {pieces : List String}
    (hshows : Shows before p text site.disk)
    (h : (pieces.forM (Assembly.append p)).perform site = (.ok u, after)) :
    Shows before p (text ++ String.join pieces) after.disk := by
  induction pieces generalizing site text with
  | nil =>
    obtain ⟨-, rfl⟩ := Action.perform_pure_ok h
    simpa using hshows
  | cons piece pieces ih =>
    obtain ⟨_, mid, hpiece, h⟩ := Action.perform_bind_ok h
    rw [String.join_cons, ← String.append_assoc]
    exact ih (hshows.append ht hpiece) h

/-- However it ends, making code leaves the file of a module alone. -/
theorem Shows.keeps_makeCode (ht : before.tree.Plain) (hext : s.extension = "elm")
    (hi : '/' ∉ i.name.toList) :
    Keeps (fun x => Shows before (s.moduleFile family) text x.disk) (makeCode s partners family i) := by
  have hgrow : ∀ d d' : Disk, Shows before (s.moduleFile family) text d → Extends d d' →
      d'.fileAt (before.place (s.moduleFile family)) = d.fileAt (before.place (s.moduleFile family)) →
        Shows before (s.moduleFile family) text d' := fun d d' h hgrown hsame =>
    ⟨h.grown.trans hgrown, hgrown.placeToWrite h.leads (by simp [hsame, h.file]), hsame.trans h.file⟩
  have hstore : ∀ content, Keeps (fun x => Shows before (s.moduleFile family) text x.disk)
      (Cache.store (s.cachePath family i) content) := by
    refine fun content => Cache.keeps_store (fun d above h => ?_) (fun d d' l c h hstored => ?_) content
    · obtain ⟨hgrown, -, hfiles⟩ := d.makeFolders_extends above
      exact hgrow _ _ h hgrown (hfiles _)
    · refine hgrow _ _ h hstored.grown ?_
      -- the drawing is stored in its entry, which is another file
      have hafter := h.grown.trans hstored.grown
      rw [hstored.fileAt, if_neg]
      rw [(Disk.placeToWrite_eq (hafter.plain ht) hstored.leads).2.1, Disk.place_of_home hafter.home]
      exact (Settings.place_cachePath_ne before hext hi).symm
  exact (Action.keeps_note (keepsRecords_disk _) _).bind fun _ =>
    (Cache.keeps_drawing (keepsRecords_disk _) hstore).bind fun svg =>
      Action.keeps_translate (keepsRecords_disk _) partners svg

/-! ### Up to the next definition -/

theorem writeUpTo_succ (hi : (catalogue.supported family)[k]? = some i) (h : HasSymbol s i) :
    writeUpTo s partners f family catalogue categories (k + 1) = (do
      writeUpTo s partners f family catalogue categories k
      let code ← makeCode s partners family i
      append (s.moduleFile family) (blockText s (i, f.apply code))) := by
  unfold writeUpTo
  rw [Action.forM_take_succ hi, writeIcon_eq_makeCode h]
  simp only [bind_assoc]

theorem writeModule_eq_writeUpTo : writeModule s partners f family catalogue categories = (do
    writeUpTo s partners f family catalogue categories (catalogue.supported family).length
    return ⟨family, s.moduleName family, s.moduleFile family, (catalogue.supported family).length⟩) := by
  rw [writeModule_eq, writeUpTo, List.take_length]
  simp only [bind_assoc]

/-- The definitions of the first `k` icons. The code of each one is what the translator answered when the
definitions before it had been written. -/
structure Defines (s : Settings) (partners : Partners) (f : Finish) (family : String)
    (catalogue : Catalogue) (categories : List Category) (site : Site) (k : Nat)
    (definitions : List (Icon × String)) : Prop where
  icons : definitions.map Prod.fst = (catalogue.supported family).take k
  code : ∀ j i code, definitions[j]? = some (i, code) → ∃ raw x,
    (do
      writeUpTo s partners f family catalogue categories j
      makeCode s partners family i).perform site = (.ok raw, x) ∧ code = f.apply raw

/-- The run determines the definitions. -/
theorem Defines.unique {definitions definitions' : List (Icon × String)}
    (h : Defines s partners f family catalogue categories site k definitions)
    (h' : Defines s partners f family catalogue categories site k definitions') :
    definitions = definitions' := by
  have hicons : definitions.map Prod.fst = definitions'.map Prod.fst := h.icons.trans h'.icons.symm
  refine List.ext_getElem (by simpa using congrArg List.length hicons) fun j hj hj' => ?_
  have hicon : definitions[j].1 = definitions'[j].1 := by
    have hget := congrArg (·[j]?) hicons
    simpa [hj, hj'] using hget
  obtain ⟨raw, x, hraw, hcode⟩ := h.code j definitions[j].1 definitions[j].2
    (List.getElem?_eq_getElem hj)
  obtain ⟨raw', x', hraw', hcode'⟩ := h'.code j definitions'[j].1 definitions'[j].2
    (List.getElem?_eq_getElem hj')
  rw [hicon, hraw', Prod.mk.injEq, Except.ok.injEq] at hraw
  exact Prod.ext hicon (by rw [hcode, hcode', hraw.1])

/-- One more definition. -/
theorem Defines.add {definitions : List (Icon × String)} {raw : String}
    (h : Defines s partners f family catalogue categories site k definitions)
    (hi : (catalogue.supported family)[k]? = some i)
    (hcode : (do
      writeUpTo s partners f family catalogue categories k
      makeCode s partners family i).perform site = (.ok raw, x)) :
    Defines s partners f family catalogue categories site (k + 1)
      (definitions ++ [(i, f.apply raw)]) := by
  have hlength : definitions.length = k := by
    have hlt := (List.getElem?_eq_some_iff.1 hi).1
    have hlength := congrArg List.length h.icons
    rw [List.length_map, List.length_take] at hlength
    omega
  refine ⟨?_, fun j i' code hj => ?_⟩
  · rw [List.map_append, h.icons, List.take_add_one, hi]
    rfl
  · rcases Nat.lt_trichotomy j k with hlt | rfl | hgt
    · rw [List.getElem?_append_left (by omega)] at hj
      exact h.code j i' code hj
    · rw [← hlength, List.getElem?_concat_length] at hj
      obtain ⟨rfl, rfl⟩ := Prod.mk.inj (Option.some.inj hj)
      exact ⟨raw, x, hcode, rfl⟩
    · rw [List.getElem?_eq_none (by simp; omega)] at hj
      cases hj

section

variable (hext : s.extension = "elm") (ht : site.disk.tree.Plain)
  (hnames : ∀ i ∈ catalogue.supported family, '/' ∉ i.name.toList)
  (hsymbols : ∀ i ∈ catalogue.supported family, HasSymbol s i)
include ht hsymbols

/-- When the part in front of the definitions is written, the file shows it. -/
theorem shows_writeFront (h : (writeFront s family catalogue categories).perform site = (.ok u, x)) :
    Shows site.disk (s.moduleFile family) (moduleText s family catalogue categories []) x.disk := by
  rw [writeFront_eq hsymbols, Action.note, Action.perform_record_bind, frontPieces, List.cons_append] at h
  obtain ⟨_, mid, hheader, h⟩ := Action.perform_bind_ok h
  have hbegin := Shows.begin (by exact ht) hheader
  have hall := hbegin.appendAll (by exact ht) h
  rw [moduleText_eq, List.map_nil, String.join_nil, String.append_empty, frontPieces, List.cons_append,
    String.join_cons]
  exact hall

include hext hnames

/-- When the first `k` definitions are written, the file shows the text up to them. -/
theorem shows_writeUpTo (hk : k ≤ (catalogue.supported family).length)
    (h : (writeUpTo s partners f family catalogue categories k).perform site = (.ok u, x)) :
    ∃ definitions, Defines s partners f family catalogue categories site k definitions ∧
      Shows site.disk (s.moduleFile family) (moduleText s family catalogue categories definitions)
        x.disk := by
  -- one definition more: its code is made, which leaves the file alone, and it is added behind the text
  induction k generalizing x with
  | zero =>
    obtain ⟨_, front, hfront, h⟩ := Action.perform_bind_ok h
    obtain ⟨-, rfl⟩ := Action.perform_pure_ok h
    exact ⟨[], ⟨rfl, fun j i code hj => by cases hj⟩, shows_writeFront ht hsymbols hfront⟩
  | succ k ih =>
    obtain ⟨i, hi⟩ : ∃ i, (catalogue.supported family)[k]? = some i := ⟨_, List.getElem?_eq_getElem hk⟩
    have hmem := List.mem_of_getElem? hi
    rw [writeUpTo_succ hi (hsymbols i hmem)] at h
    obtain ⟨_, reached, hreached, h⟩ := Action.perform_bind_ok h
    obtain ⟨raw, made, hcode, h⟩ := Action.perform_bind_ok h
    obtain ⟨definitions, hdefines, hshows⟩ := ih (Nat.le_of_lt hk) hreached
    refine ⟨_, hdefines.add hi (Action.perform_bind_of_ok hreached hcode), ?_⟩
    have hkept := (Shows.keeps_makeCode ht hext (hnames i hmem)).of_perform hcode hshows
    have hadded := hkept.append ht h
    rw [moduleText_eq] at hadded ⊢
    rw [List.map_append, String.join_append, ← String.append_assoc]
    simpa using hadded

/-- When the module is written, the file shows its whole text. -/
theorem shows_writeModule {report : ModuleReport}
    (h : (writeModule s partners f family catalogue categories).perform site = (.ok report, after)) :
    report = ⟨family, s.moduleName family, s.moduleFile family, (catalogue.supported family).length⟩ ∧
      ∃ definitions, Defines s partners f family catalogue categories site
          (catalogue.supported family).length definitions ∧
        Shows site.disk (s.moduleFile family) (moduleText s family catalogue categories definitions)
          after.disk := by
  rw [writeModule_eq_writeUpTo] at h
  obtain ⟨_, written, hwritten, h⟩ := Action.perform_bind_ok h
  obtain ⟨rfl, rfl⟩ := Action.perform_pure_ok h
  exact ⟨rfl, shows_writeUpTo hext ht hnames hsymbols (Nat.le_refl _) hwritten⟩

end

/-! ### Ends -/

/-- How a module can end and what its file holds then. -/
structure Progress (s : Settings) (partners : Partners) (f : Finish) (family : String)
    (catalogue : Catalogue) (categories : List Category) (site : Site) : Prop where
  /-- If the module is written, the file shows its whole text. -/
  whole : ∀ report after,
    (writeModule s partners f family catalogue categories).perform site = (.ok report, after) →
    report = ⟨family, s.moduleName family, s.moduleFile family, (catalogue.supported family).length⟩ ∧
      ∃ definitions, Defines s partners f family catalogue categories site
          (catalogue.supported family).length definitions ∧
        Shows site.disk (s.moduleFile family) (moduleText s family catalogue categories definitions)
          after.disk
  /-- If no code can be made for an icon, this is how the module ends, and the file shows the text up to it. -/
  broken : ∀ k i x failure after, (catalogue.supported family)[k]? = some i →
    (writeUpTo s partners f family catalogue categories k).perform site = (.ok (), x) →
    (makeCode s partners family i).perform x = (.error failure, after) →
    (writeModule s partners f family catalogue categories).perform site = (.error failure, after) ∧
      ∃ definitions, Defines s partners f family catalogue categories site k definitions ∧
        Shows site.disk (s.moduleFile family) (moduleText s family catalogue categories definitions)
          after.disk
  /-- If every piece can be added, there is no other way to end. -/
  ends : (∀ x piece, Adds s partners f family catalogue categories site x piece →
      ∃ after, (append (s.moduleFile family) piece).perform x = (.ok (), after)) →
    (∃ report after,
      (writeModule s partners f family catalogue categories).perform site = (.ok report, after)) ∨
    ∃ k i x failure after, (catalogue.supported family)[k]? = some i ∧
      (writeUpTo s partners f family catalogue categories k).perform site = (.ok (), x) ∧
      (makeCode s partners family i).perform x = (.error failure, after)
  /-- A section lists the icons of its category whose names are those of supported ones. -/
  sections : ∀ category ∈ categories, ModuleText.SortedByName
    (category.icons.filter fun i => ((catalogue.supported family).map (·.name)).contains i.name)
    (ModuleText.documented ((catalogue.supported family).map (·.name)) category)

/-- An icon for which no code can be made ends the module. -/
theorem writeModule_fails (hi : (catalogue.supported family)[k]? = some i) (h : HasSymbol s i)
    (hreached : (writeUpTo s partners f family catalogue categories k).perform site = (.ok (), x))
    (hfail : (makeCode s partners family i).perform x = (.error failure, after)) :
    (writeModule s partners f family catalogue categories).perform site = (.error failure, after) := by
  obtain ⟨_, front, hfront, hbefore⟩ := Action.perform_bind_ok hreached
  have hicon : (writeIcon s partners f (s.moduleFile family) family i).perform x =
      (.error failure, after) := by
    rw [writeIcon_eq_makeCode h, Action.perform_bind, hfail]
  rw [writeModule_eq]
  refine Action.perform_bind_of_ok hfront ?_
  rw [Action.perform_bind, Action.forM_fails hi hbefore hicon]

/-- A module that cannot be written ends with a piece that cannot be added, or with an icon for which no code
can be made. -/
theorem writeModule_failed (hsymbols : ∀ i ∈ catalogue.supported family, HasSymbol s i)
    (h : (writeModule s partners f family catalogue categories).perform site = (.error failure, after)) :
    (∃ x piece, Adds s partners f family catalogue categories site x piece ∧
      (append (s.moduleFile family) piece).perform x = (.error failure, after)) ∨
    ∃ k i x, (catalogue.supported family)[k]? = some i ∧
      (writeUpTo s partners f family catalogue categories k).perform site = (.ok (), x) ∧
      (makeCode s partners family i).perform x = (.error failure, after) := by
  rw [writeModule_eq] at h
  rcases Action.perform_bind_cases h with ⟨_, hfront, hr⟩ | ⟨_, front, hfront, h⟩
  · -- in front of the definitions there are only pieces to add
    obtain rfl := Except.error.inj hr
    rw [writeFront_eq hsymbols, Action.note, Action.perform_record_bind] at hfront
    obtain ⟨j, piece, x, hpiece, hbefore, hfail⟩ := Action.forM_failed hfront
    refine .inl ⟨x, piece, .front hpiece ?_, hfail⟩
    rw [Action.note, Action.perform_record_bind]
    exact hbefore
  · rcases Action.perform_bind_cases h with ⟨_, hicons, hr⟩ | ⟨_, _, _, h⟩
    · obtain rfl := Except.error.inj hr
      obtain ⟨k, i, x, hi, hbefore, hfail⟩ := Action.forM_failed hicons
      have hreached : (writeUpTo s partners f family catalogue categories k).perform site = (.ok (), x) :=
        Action.perform_bind_of_ok hfront hbefore
      rw [writeIcon_eq_makeCode (hsymbols i (List.mem_of_getElem? hi))] at hfail
      rcases Action.perform_bind_cases hfail with ⟨_, hcode, hr⟩ | ⟨code, made, hcode, hfail⟩
      · obtain rfl := Except.error.inj hr
        exact .inr ⟨k, i, x, hi, hreached, hcode⟩
      · exact .inl ⟨made, _, .definition hi (Action.perform_bind_of_ok hreached hcode), hfail⟩
    · cases h

/-- A module grows piece by piece behind what its file held: in the end the file shows its whole text, or the text
up to the first icon whose drawing could not be confirmed or translated, and nothing is done after that. -/
theorem module_progress (s : Settings) (partners : Partners) (f : Finish) (family : String)
    (catalogue : Catalogue) (categories : List Category) (site : Site) (hext : s.extension = "elm")
    (ht : site.disk.tree.Plain) (hnames : ∀ i ∈ catalogue.supported family, '/' ∉ i.name.toList)
    (hsymbols : ∀ i ∈ catalogue.supported family, HasSymbol s i) :
    Progress s partners f family catalogue categories site where
  whole _ _ h := shows_writeModule hext ht hnames hsymbols h
  broken k i x failure after hi hreached hfail := by
    have hmem := List.mem_of_getElem? hi
    have hk := Nat.le_of_lt (List.getElem?_eq_some_iff.1 hi).1
    refine ⟨writeModule_fails hi (hsymbols i hmem) hreached hfail, ?_⟩
    obtain ⟨definitions, hdefines, hshows⟩ := shows_writeUpTo hext ht hnames hsymbols hk hreached
    exact ⟨definitions, hdefines, (Shows.keeps_makeCode ht hext (hnames i hmem)).of_perform hfail hshows⟩
  ends hadds := by
    rcases h : (writeModule s partners f family catalogue categories).perform site with
      ⟨failure | report, after⟩
    · rcases writeModule_failed hsymbols h with ⟨x, piece, hpiece, hfail⟩ | ⟨k, i, x, hi, hreached, hfail⟩
      · obtain ⟨_, hok⟩ := hadds x piece hpiece
        rw [hok] at hfail
        cases hfail
      · exact .inr ⟨k, i, x, failure, after, hi, hreached, hfail⟩
    · exact .inl ⟨report, after, rfl⟩
  sections category _ := ModuleText.sortedByName_documented _ category

/-- A translator that gives up after the first drawing. -/
def tired : Partners where
  fetch _ _ := .ok (Text.encode "<svg></svg>")
  translate journal _ :=
    if (translations journal).isEmpty then .ok "svg [] []" else .error (.tool "html-elm" "tired")
  format _ _ d := (.ok (), d)
  patience := 0

/-- Two icons, drawn for all families. -/
def twoIcons : Catalogue :=
  ⟨[⟨"search", 1, ["action"], []⟩, ⟨"home", 1, ["maps"], []⟩], ["A"]⟩

/-- A project in which the file of the module is there already. -/
def begunProject : Site where
  disk :=
    { tree := [(["gen"], .folder), (["gen", "tmp"], .folder), (["gen", "tmp", "out"], .folder),
        (["gen", "tmp", "out", "A.elm"], .file (Text.encode "begun\n"))].foldl
          (fun t x => t.graft x.1 (.single x.2)) (.single .folder)
      home := [] }
  journal := []

/-- Writes the module of the two icons up to a definition. -/
def beginTwo (k : Nat) : Action Unit :=
  writeUpTo (.preset .legacy ⟨"/"⟩) tired ⟨[], "    "⟩ "A" twoIcons (Category.ofIcons twoIcons.icons) k

/-- The translator fails for the second icon. The file shows the definition of the first one, and it shows it
behind what it held. -/
theorem module_progress_second_icon : ∃ after,
    (writeModule (.preset .legacy ⟨"/"⟩) tired ⟨[], "    "⟩ "A" twoIcons
      (Category.ofIcons twoIcons.icons)).perform begunProject =
        (.error (.tool "html-elm" "tired"), after) ∧
      after.disk.fileAt ["gen", "tmp", "out", "A.elm"] =
        some (Text.encode "begun\n" ++ Text.encode (moduleText (.preset .legacy ⟨"/"⟩) "A" twoIcons
          (Category.ofIcons twoIcons.icons) [(⟨"search", 1, ["action"], []⟩, "svg [] []")])) := by
  have hsymbols : ∀ i ∈ twoIcons.supported "A", HasSymbol (.preset .legacy ⟨"/"⟩) i := by
    simp only [hasSymbol_iff]
    decide
  have hprogress := module_progress (.preset .legacy ⟨"/"⟩) tired ⟨[], "    "⟩ "A" twoIcons
    (Category.ofIcons twoIcons.icons) begunProject rfl (Tree.plain_of_entries (by decide))
    (by decide) hsymbols
  -- the first icon is reached and has its code, the second one is reached and has none
  obtain ⟨hreached, hcode, hcodeless⟩ : ((beginTwo 1).perform begunProject).1 = .ok () ∧
      ((beginTwo 0 >>= fun _ => makeCode (.preset .legacy ⟨"/"⟩) tired "A"
        ⟨"search", 1, ["action"], []⟩).perform begunProject).1 = .ok "svg [] []" ∧
      ((makeCode (.preset .legacy ⟨"/"⟩) tired "A" ⟨"home", 1, ["maps"], []⟩).perform
        ((beginTwo 1).perform begunProject).2).1 = .error (.tool "html-elm" "tired") := by
    decide +kernel
  obtain ⟨hrun, definitions, hdefines, hshows⟩ :=
    hprogress.broken 1 ⟨"home", 1, ["maps"], []⟩ _ _ _ (by decide)
      (Action.perform_of_fst hreached) (Action.perform_of_fst hcodeless)
  refine ⟨_, hrun, ?_⟩
  -- one definition, whose code is known
  obtain ⟨definition, rfl⟩ : ∃ x, definitions = [x] := by
    rw [← List.length_eq_one_iff, ← List.length_map Prod.fst, hdefines.icons]
    decide
  obtain ⟨i, code⟩ := definition
  obtain rfl : i = ⟨"search", 1, ["action"], []⟩ := by
    have hicons : [i] = [⟨"search", 1, ["action"], []⟩] := hdefines.icons.trans (by decide)
    exact (List.cons.inj hicons).1
  obtain ⟨raw, x, hraw, rfl⟩ := hdefines.code 0 _ _ rfl
  obtain rfl : "svg [] []" = raw := Except.ok.inj (hcode.symm.trans (congrArg Prod.fst hraw))
  have happly : Finish.apply ⟨[], "    "⟩ "svg [] []" = "svg [] []" := by decide
  have hfile := hshows.file
  rw [happly] at hfile
  have hplace : begunProject.disk.place (Settings.moduleFile (.preset .legacy ⟨"/"⟩) "A") =
      ["gen", "tmp", "out", "A.elm"] := by
    decide
  rw [hplace] at hfile
  have hbefore : begunProject.disk.contentAt ["gen", "tmp", "out", "A.elm"] = Text.encode "begun\n" := by
    decide
  rw [hbefore] at hfile
  exact hfile

end Assembly
end IconModules
