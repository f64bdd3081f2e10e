import IconModules.Proofs.Files.Alike
import IconModules.Proofs.Generation.Mirrored
import IconModules.Proofs.Generation.ModuleProgress

/-! # Modules written side by side

Two modules of a family with the same icons may be documented differently. Apart from that they come about in the
same way: what is written into the file of a module makes no difference to anything else.

* **`Twin`** sites have the same journal and the same files, but for the content of one file.
* **`Action.Agrees a b`** says that on twin sites the actions `a` and `b` end the same way and leave twin sites. There
  is one rule for each way to make an action.
* Modules with the same icons end the same way (`same_writeModule`), and their definitions are the same
  (`same_definitions`). -/

namespace IconModules

open Disk (Alike Extends)

/-- Sites with the same journal and the same files, but for the content of the file at `l` to which `p` leads. -/
structure Twin (p : Path) (l : Location) (x y : Site) : Prop where
  journal : y.journal = x.journal
  plain : x.disk.tree.Plain
  leads : x.disk.placeToWrite p = .ok l
  file : x.disk.fileAt l ≠ none
  alike : Alike l x.disk y.disk

variable {α β : Type} {p : Path} {l : Location} {x y z x' y' : Site}

namespace Twin

theorem refl (ht : x.disk.tree.Plain) (hleads : x.disk.placeToWrite p = .ok l)
    (hfile : x.disk.fileAt l ≠ none) : Twin p l x x :=
  ⟨rfl, ht, hleads, hfile, .refl _ _⟩

theorem symm (h : Twin p l x y) : Twin p l y x := by
  refine ⟨h.journal.symm, h.alike.plain h.plain, (h.alike.placeToWrite p).trans h.leads, ?_, h.alike.symm⟩
  obtain ⟨c, hc⟩ := Option.ne_none_iff_exists'.1 h.file
  rcases h.alike.get? l with hl | ⟨-, -, c', hc'⟩
  · rw [Disk.fileAt_congr hl, hc]
    exact Option.some_ne_none c
  · rw [Disk.fileAt_eq_some.2 hc']
    exact Option.some_ne_none c'

theorem trans (h : Twin p l x y) (h' : Twin p l y z) : Twin p l x z :=
  ⟨h'.journal.trans h.journal, h.plain, h.leads, h.file, h.alike.trans h'.alike⟩

/-- Twin sites to which the same is added. -/
theorem grow (h : Twin p l x y) (hgrown : Extends x.disk x'.disk) (hjournal : y'.journal = x'.journal)
    (halike : Alike l x'.disk y'.disk) : Twin p l x' y' :=
  ⟨hjournal, hgrown.plain h.plain, hgrown.placeToWrite h.leads (hgrown.file l h.file),
    hgrown.file l h.file, halike⟩

theorem eq_place (h : Twin p l x y) : l = x.disk.place p :=
  (Disk.placeToWrite_eq h.plain h.leads).2.1

/-- Whatever is added to the file, it is added, and nothing else changes. -/
theorem append (h : Twin p l x y) (piece : String) :
    ∃ after, (Assembly.append p piece).perform x = (.ok (), after) ∧ Twin p l x after := by
  obtain ⟨c, hc⟩ := Option.ne_none_iff_exists'.1 h.file
  obtain ⟨d, happend⟩ := (Disk.puts_append p (Text.encode piece)).of_place _ _ h.leads
  have hparent := Action.makeParent_of_placeToWrite h.plain h.leads
  refine ⟨{ x with disk := d }, Action.perform_bind_of_ok hparent ?_, rfl, h.plain, h.leads, h.file, ?_⟩
  · rw [Action.perform_change, happend]
  · obtain ⟨place, hplace, hput⟩ := Disk.append_ok happend
    obtain rfl := Except.ok.inj (h.leads.symm.trans hplace)
    exact .of_put hc hput

theorem appendAll (h : Twin p l x y) (pieces : List String) :
    ∃ after, (pieces.forM (Assembly.append p)).perform x = (.ok (), after) ∧ Twin p l x after := by
  induction pieces generalizing x with
  | nil => exact ⟨x, rfl, .refl h.plain h.leads h.file⟩
  | cons piece pieces ih =>
    obtain ⟨mid, hpiece, hmid⟩ := h.append piece
    obtain ⟨after, hrest, hafter⟩ := ih (hmid.symm.trans h)
    exact ⟨after, Action.perform_bind_of_ok hpiece hrest, hmid.trans hafter⟩

end Twin

/-! ### Actions side by side -/

namespace Action

/-- On twin sites the actions end the same way, and they leave twin sites. -/
def Agrees (p : Path) (l : Location) (a b : Action α) : Prop :=
  ∀ x y, Twin p l x y → (b.perform y).1 = (a.perform x).1 ∧ Twin p l (a.perform x).2 (b.perform y).2

namespace Agrees

variable {a a' : Action α} {b b' : α → Action β} {partners : Partners}

theorem pure (v : α) : Agrees p l (Pure.pure v : Action α) (Pure.pure v) :=
  Mirrors.pure v

theorem bind (ha : Agrees p l a a') (hb : ∀ v, Agrees p l (b v) (b' v)) :
    Agrees p l (a >>= b) (a' >>= b') :=
  Mirrors.bind ha hb

theorem forM {f : β → Action Unit} {items : List β} (h : ∀ v ∈ items, Agrees p l (f v) (f v)) :
    Agrees p l (items.forM f) (items.forM f) := by
  induction items with
  | nil => exact pure _
  | cons v items ih =>
    exact (h v List.mem_cons_self).bind fun _ => ih fun w hw => h w (List.mem_cons_of_mem v hw)

theorem record (e : Event) : Agrees p l (record e) (record e) :=
  fun _ _ h => ⟨rfl, h.grow (.refl _) (congrArg (· ++ [e]) h.journal) h.alike⟩

theorem holds (q : Path) : Agrees p l (holds q) (holds q) :=
  fun _ _ h => ⟨congrArg Except.ok (h.alike.holds q), h⟩

/-- Another file is read. -/
theorem read (hq : ∀ d : Disk, d.place q ≠ d.place p) :
    Agrees p l (inspect q (·.read q)) (inspect q (·.read q)) := by
  intro x y h
  rw [perform_inspect, perform_inspect, h.alike.read h.plain (h.eq_place ▸ hq _)]
  exact ⟨rfl, h⟩

theorem makeParent (q : Path) : Agrees p l (makeParent q) (makeParent q) := by
  unfold Action.makeParent
  split
  · rename_i above _
    intro x y h
    obtain ⟨hsame, halike⟩ := h.alike.makeFolders above
    rw [Action.makeFolders, perform_carryOut, perform_carryOut, hsame]
    exact ⟨rfl, h.grow (x.disk.makeFolders_extends above).1 h.journal halike⟩
  · exact pure _

theorem write (q : Path) (c : Octets) : Agrees p l (change q (·.write q c)) (change q (·.write q c)) := by
  intro x y h
  have hwrite := h.alike.write q c
  rw [perform_change, perform_change]
  cases hx : x.disk.write q c with
  | error e =>
    rw [hx] at hwrite
    generalize y.disk.write q c = r at hwrite
    cases hwrite
    exact ⟨rfl, h⟩
  | ok d =>
    obtain ⟨place, hplace, hput⟩ := Disk.write_ok hx
    rw [hx] at hwrite
    generalize y.disk.write q c = r at hwrite
    cases hwrite with
    | ok halike => exact ⟨rfl, h.grow (hput.stored hplace).grown h.journal halike⟩

theorem download (url : String) : Agrees p l (download partners url) (download partners url) := by
  intro x y h
  rw [Cache.perform_download, Cache.perform_download, h.journal]
  exact ⟨rfl, h.grow (.refl _) rfl h.alike⟩

theorem translate (markup : String) :
    Agrees p l (translate partners markup) (translate partners markup) := by
  have hperform : ∀ site, (Action.translate partners markup).perform site =
      (partners.translate site.journal markup,
        { site with journal := site.journal ++ [.translated markup] }) := by
    intro site
    change (Action.attempt _).perform _ = _
    rw [perform_attempt]
  intro x y h
  rw [hperform, hperform, h.journal]
  exact ⟨rfl, h.grow (.refl _) rfl h.alike⟩

/-- Different pieces may be added to the file. -/
theorem appendAll (pieces pieces' : List String) :
    Agrees p l (pieces.forM (Assembly.append p)) (pieces'.forM (Assembly.append p)) := by
  intro x y h
  obtain ⟨x', hx, hx'⟩ := h.appendAll pieces
  obtain ⟨y', hy, hy'⟩ := h.symm.appendAll pieces'
  rw [hx, hy]
  exact ⟨rfl, hx'.symm.trans (h.trans hy')⟩

theorem append (piece : String) : Agrees p l (Assembly.append p piece) (Assembly.append p piece) := by
  have h : Agrees p l ([piece].forM (Assembly.append p)) ([piece].forM (Assembly.append p)) := appendAll _ _
  rwa [show [piece].forM (Assembly.append p) = Assembly.append p piece from bind_pure_unit] at h

end Agrees
end Action

open IconModules.Action (Agrees)

variable {s : Settings} {partners : Partners} {f : Finish} {family : String} {i : Icon}
  {catalogue catalogue' : Catalogue} {categories categories' : List Category} {site : Site}

/-! ### The cache -/

namespace Cache

theorem agrees_store (q : Path) (c : Octets) : Agrees p l (store q c) (store q c) :=
  (Agrees.makeParent q).bind fun _ => .write q c

/-- A drawing is looked for in the same way if its entry is another file. -/
theorem agrees_drawing (hentry : ∀ d : Disk, d.place (s.cachePath family i) ≠ d.place p) :
    Agrees p l (drawing s partners family i) (drawing s partners family i) :=
  mirrors_drawing Agrees.record (Agrees.holds _) Agrees.download (agrees_store _) (Agrees.read hentry)

end Cache

/-! ### Modules -/

namespace Assembly

/-- Two actions ended the same way, with the same journal and the same files but for the content of the one
at `l`. -/
structure Same (l : Location) (r r' : Except Failure α × Site) : Prop where
  result : r'.1 = r.1
  journal : r'.2.journal = r.2.journal
  alike : Alike l r.2.disk r'.2.disk

theorem Same.of_twin {a b : Action α} (h : Agrees p l a b) (htwin : Twin p l x y) :
    Same l (a.perform x) (b.perform y) :=
  have hsame := h x y htwin
  ⟨hsame.1, hsame.2.journal, hsame.2.alike⟩

section

variable (hext : s.extension = "elm")
include hext

theorem agrees_makeCode (hi : '/' ∉ i.name.toList) : Agrees (s.moduleFile family) l
    (makeCode s partners family i) (makeCode s partners family i) :=
  (Agrees.record _).bind fun _ =>
    (Cache.agrees_drawing fun d => Settings.place_cachePath_ne d hext hi).bind fun _ => .translate _

theorem agrees_writeIcon (h : HasSymbol s i) (hi : '/' ∉ i.name.toList) : Agrees (s.moduleFile family) l
    (writeIcon s partners f (s.moduleFile family) family i)
    (writeIcon s partners f (s.moduleFile family) family i) := by
  rw [writeIcon_eq_makeCode h]
  exact (agrees_makeCode hext hi).bind fun _ => .append _

end

/-- The header depends on the icons alone. All other pieces go into a file that is there. -/
theorem writeFront_header (hsymbols : ∀ i ∈ catalogue.supported family, HasSymbol s i) :
    writeFront s family catalogue categories = (do
      Action.note (.processingFamily family (catalogue.supported family).length)
      append (s.moduleFile family)
        (ModuleText.header (s.moduleName family) ((catalogue.supported family).map (symbolOf s)))
      (frontPieces s family catalogue categories).tail.forM (append (s.moduleFile family))) := by
  rw [writeFront_eq hsymbols]
  simp only [frontPieces, List.cons_append, List.tail_cons, List.forM_eq_forM, List.forM_cons]

section

variable (ht : site.disk.tree.Plain) (hsupported : catalogue'.supported family = catalogue.supported family)
include ht hsupported

/-- What is written behind the first part of a module depends on its icons, and not on what is documented. -/
theorem same_after_front {a : Action α} (ha : (∀ i ∈ catalogue.supported family, HasSymbol s i) →
      Agrees (s.moduleFile family) (site.disk.place (s.moduleFile family)) a a) :
    Same (site.disk.place (s.moduleFile family))
      ((writeFront s family catalogue categories >>= fun _ => a).perform site)
      ((writeFront s family catalogue' categories' >>= fun _ => a).perform site) := by
  by_cases hsymbols : ∀ i ∈ catalogue.supported family, HasSymbol s i
  · rw [writeFront_header hsymbols, writeFront_header (hsupported ▸ hsymbols), hsupported]
    simp only [bind_assoc, Action.note, Action.perform_record_bind]
    generalize hnoted : ({ site with journal := _ } : Site) = noted
    have hdisk : noted.disk = site.disk := by rw [← hnoted]
    generalize ModuleText.header _ _ = header
    rcases hheader : (append (s.moduleFile family) header).perform noted with ⟨failure | u, headed⟩
    · rw [Action.perform_bind, Action.perform_bind, hheader]
      exact ⟨rfl, rfl, .refl _ _⟩
    · -- up to here both modules are the same, and the file is there from now on
      rw [Action.perform_bind_of_ok hheader rfl, Action.perform_bind_of_ok hheader rfl]
      obtain ⟨hgrown, hleads, hfile⟩ := append_place ht (hdisk ▸ .refl _) hheader
      have htwin : Twin (s.moduleFile family) (site.disk.place (s.moduleFile family)) headed headed :=
        .refl (hgrown.plain ht) hleads (hfile ▸ Option.some_ne_none _)
      exact .of_twin ((Agrees.appendAll _ _).bind fun _ => ha hsymbols) htwin
  · obtain ⟨i, hi⟩ := exists_rejected hsymbols
    rw [Action.perform_bind, Action.perform_bind, writeFront_rejected hi,
      writeFront_rejected (hsupported ▸ hi), hsupported]
    exact ⟨rfl, rfl, .refl _ _⟩

variable (hext : s.extension = "elm") (hnames : ∀ i ∈ catalogue.supported family, '/' ∉ i.name.toList)
include hext hnames

/-- A module comes about in the same way whatever is documented. -/
theorem same_writeModule : Same (site.disk.place (s.moduleFile family))
    ((writeModule s partners f family catalogue categories).perform site)
    ((writeModule s partners f family catalogue' categories').perform site) := by
  rw [writeModule_eq, writeModule_eq, hsupported]
  exact same_after_front ht hsupported fun hsymbols =>
    (Agrees.forM fun i hi => agrees_writeIcon hext (hsymbols i hi) (hnames i hi)).bind fun _ => .pure _

theorem same_makeCode {k : Nat} (hi : '/' ∉ i.name.toList) : Same (site.disk.place (s.moduleFile family))
    ((do
      writeUpTo s partners f family catalogue categories k
      makeCode s partners family i).perform site)
    ((do
      writeUpTo s partners f family catalogue' categories' k
      makeCode s partners family i).perform site) := by
  simp only [writeUpTo, bind_assoc]
  rw [hsupported]
  refine same_after_front ht hsupported fun hsymbols => (Agrees.forM fun j hj => ?_).bind fun _ =>
    agrees_makeCode hext hi
  have hj := List.mem_of_mem_take hj
  exact agrees_writeIcon hext (hsymbols j hj) (hnames j hj)

/-- When a module is written, it is written as well if it is documented otherwise, and with the same
definitions. -/
theorem same_definitions {report : ModuleReport} {after : Site}
    (h : (writeModule s partners f family catalogue categories).perform site = (.ok report, after)) :
    ∃ after' definitions,
      (writeModule s partners f family catalogue' categories').perform site = (.ok report, after') ∧
      definitions.map Prod.fst = catalogue.supported family ∧
      Shows site.disk (s.moduleFile family) (moduleText s family catalogue categories definitions)
        after.disk ∧
      Shows site.disk (s.moduleFile family) (moduleText s family catalogue' categories' definitions)
        after'.disk := by
  have hsymbols := hasSymbol_of_writeModule h
  have hsame : Same (site.disk.place (s.moduleFile family))
      ((writeModule s partners f family catalogue categories).perform site)
      ((writeModule s partners f family catalogue' categories').perform site) :=
    same_writeModule ht hsupported hext hnames
  obtain ⟨rfl, definitions, hdefines, hshows⟩ := shows_writeModule hext ht hnames hsymbols h
  rw [h] at hsame
  rcases h' : (writeModule s partners f family catalogue' categories').perform site with ⟨r, after'⟩
  obtain rfl : r = _ := by simpa [h'] using hsame.result
  obtain ⟨-, definitions', hdefines', hshows'⟩ :=
    shows_writeModule hext ht (hsupported ▸ hnames) (hsupported ▸ hsymbols) h'
  -- the translator answers the same
  have htransfer : Defines s partners f family catalogue' categories' site
      (catalogue'.supported family).length definitions := by
    rw [hsupported]
    refine ⟨hsupported ▸ hdefines.icons, fun j i code hj => ?_⟩
    obtain ⟨raw, x, hraw, hcode⟩ := hdefines.code j i code hj
    have hmem : i ∈ catalogue.supported family := by
      have hi : i ∈ definitions.map Prod.fst := List.mem_map_of_mem (List.mem_of_getElem? hj)
      rw [hdefines.icons] at hi
      exact List.mem_of_mem_take hi
    have hmade : Same (site.disk.place (s.moduleFile family))
        ((do
          writeUpTo s partners f family catalogue categories j
          makeCode s partners family i).perform site)
        ((do
          writeUpTo s partners f family catalogue' categories' j
          makeCode s partners family i).perform site) :=
      same_makeCode ht hsupported hext hnames (hnames i hmem)
    rw [hraw] at hmade
    exact ⟨raw, _, Action.perform_of_fst hmade.result, hcode⟩
  obtain rfl := htransfer.unique hdefines'
  refine ⟨after', definitions, rfl, ?_, hshows, hshows'⟩
  rw [hdefines.icons, List.take_length]

end

end Assembly
end IconModules
