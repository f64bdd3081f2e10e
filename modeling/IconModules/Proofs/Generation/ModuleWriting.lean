import IconModules.Generation.Assembly
import IconModules.Proofs.Files.Changes
import IconModules.Proofs.Generation.Effects
import IconModules.Text.Utf8.Lemmas

/-! # Writing a module piece by piece

`Assembly.moduleText` is the whole text of a module, given the code of each icon. `writeModule_ok` shows
that writing the module adds this text to its file. What it has to know of the file system and of the
cache is taken as hypotheses:

* `I` holds of all disks on the way, `B` of those from which the run got to its end;
* a piece that is written is added to the file at one place `l`, and fetching and translating a drawing
  leaves that file alone. -/

namespace IconModules.Assembly

variable {s : Settings} {partners : Partners} {f : Finish} {family : String}
  {catalogue : Catalogue} {site after : Site} {u : Unit}

/-! ### The text -/

/-- The identifier of an icon that has one. -/
def symbolOf (s : Settings) (i : Icon) : String :=
  (Naming.symbol? s.digitNames i.name).getD ""

/-- Whether an icon has an identifier. -/
def HasSymbol (s : Settings) (i : Icon) : Prop :=
  Naming.symbol? s.digitNames i.name ≠ none

/-- The text of the section of a category. -/
def sectionText (s : Settings) (names : List String) (category : Category) : String :=
  ModuleText.heading category.name ++
    ModuleText.docs s.docStyle ((ModuleText.documented names category).map (symbolOf s))

/-- The text of the definition of an icon. -/
def blockText (s : Settings) (definition : Icon × String) : String :=
  ModuleText.block (symbolOf s definition.1) s.signature definition.2

/-- The whole text of the module of a family, with the code of each icon. -/
def moduleText (s : Settings) (family : String) (catalogue : Catalogue) (categories : List Category)
    (definitions : List (Icon × String)) : String :=
  ModuleText.header (s.moduleName family) ((catalogue.supported family).map (symbolOf s)) ++
    String.join (categories.map (sectionText s ((catalogue.supported family).map (·.name)))) ++
    ModuleText.imports s.preamble ++
    String.join (definitions.map (blockText s))

/-! ### Symbols -/

theorem symbol_ok {i : Icon} {symbol : String} (h : Assembly.symbol s i.name = .ok symbol) :
    symbol = symbolOf s i ∧ HasSymbol s i := by
  unfold Assembly.symbol at h
  unfold symbolOf HasSymbol
  split at h
  · rename_i symbol' hs
    obtain rfl := Except.ok.inj h
    simp [hs]
  · cases h

theorem symbols_ok {icons : List Icon} {l : List String} (h : symbols s icons = .ok l) :
    l = icons.map (symbolOf s) ∧ ∀ i ∈ icons, HasSymbol s i := by
  induction icons generalizing l with
  | nil =>
    obtain rfl := Except.ok.inj h
    exact ⟨rfl, by simp⟩
  | cons i icons ih =>
    unfold symbols at h
    rw [List.mapM_cons] at h
    obtain ⟨symbol, hsymbol, h⟩ := ok_of_bind h
    obtain ⟨rest, hrest, h⟩ := ok_of_bind h
    obtain rfl := Except.ok.inj h
    obtain ⟨rfl, hi⟩ := symbol_ok hsymbol
    obtain ⟨rfl, hicons⟩ := ih hrest
    exact ⟨rfl, List.forall_mem_cons.2 ⟨hi, hicons⟩⟩

/-! ### Pieces -/

section

variable {I B : Disk → Prop} {Φ : Icon → String → Prop} {l : Location} {text : Octets}

/-- Every piece that is written to a path is added to the file at `l`. -/
def AddsPieces (I B : Disk → Prop) (l : Location) (p : Path) : Prop :=
  ∀ {site after : Site} {u : Unit} {piece : String}, I site.disk →
    (append p piece).perform site = (.ok u, after) →
    I after.disk ∧ (B after.disk → B site.disk ∧
      after.disk.fileAt l = some ((site.disk.fileAt l).getD [] ++ Text.encode piece))

/-- Fetching and translating a drawing leaves the file at `l` alone; the code is as `Φ` says. -/
def FetchesCode (s : Settings) (partners : Partners) (f : Finish) (family : String)
    (I B : Disk → Prop) (l : Location) (Φ : Icon → String → Prop) (i : Icon) : Prop :=
  ∀ {site after : Site} {code : String}, I site.disk →
    (Cache.drawing s partners family i >>= Action.translate partners).perform site =
      (.ok code, after) →
    I after.disk ∧ (B after.disk → B site.disk ∧
      after.disk.fileAt l = site.disk.fileAt l ∧ Φ i (f.apply code))

variable {p : Path} (hp : AddsPieces I B l p)

theorem encode_empty : Text.encode "" = [] := by
  decide

theorem encode_join_cons (x : String) (xs : List String) :
    Text.encode (String.join (x :: xs)) = Text.encode x ++ Text.encode (String.join xs) := by
  rw [← Text.encode_append, String.join_cons]

include hp

/-- The sections are added one after the other. -/
theorem writeSections_ok {names : List String} {categories : List Category} (hI : I site.disk)
    (h : (categories.forM (writeSection s p names)).perform site = (.ok u, after)) :
    I after.disk ∧ (B after.disk → B site.disk ∧ ∀ text, site.disk.fileAt l = some text →
      after.disk.fileAt l =
        some (text ++ Text.encode (String.join (categories.map (sectionText s names))))) := by
  induction categories generalizing site with
  | nil =>
    obtain ⟨-, rfl⟩ := Action.perform_pure_ok h
    exact ⟨hI, fun hB => ⟨hB, fun text ht => by simpa [encode_empty] using ht⟩⟩
  | cons category categories ih =>
    obtain ⟨_, written, hsection, h⟩ := Action.perform_bind_ok h
    obtain ⟨_, headed, hheading, hsection⟩ := Action.perform_bind_ok hsection
    obtain ⟨documented, _, hattempt, hdocs⟩ := Action.perform_bind_ok hsection
    obtain ⟨hdocumented, rfl⟩ := Action.perform_attempt_ok hattempt
    obtain ⟨rfl, -⟩ := symbols_ok hdocumented
    obtain ⟨hI₁, hB₁⟩ := hp hI hheading
    obtain ⟨hI₂, hB₂⟩ := hp hI₁ hdocs
    obtain ⟨hI₃, hB₃⟩ := ih hI₂ h
    refine ⟨hI₃, fun hB => ?_⟩
    obtain ⟨hb₂, ht₃⟩ := hB₃ hB
    obtain ⟨hb₁, ht₂⟩ := hB₂ hb₂
    obtain ⟨hb, ht₁⟩ := hB₁ hb₁
    refine ⟨hb, fun text ht => ?_⟩
    rw [ht] at ht₁
    rw [ht₁] at ht₂
    rw [ht₃ _ ht₂, List.map_cons, encode_join_cons, sectionText, Text.encode_append]
    simp

/-- The definitions are added one after the other, each with the code that was fetched for it. -/
theorem writeIcons_ok {icons : List Icon}
    (hi : ∀ i ∈ icons, FetchesCode s partners f family I B l Φ i) (hI : I site.disk)
    (h : (icons.forM (writeIcon s partners f p family)).perform site = (.ok u, after)) :
    I after.disk ∧ (B after.disk → B site.disk ∧ ∃ definitions : List (Icon × String),
      definitions.map Prod.fst = icons ∧ (∀ x ∈ definitions, Φ x.1 x.2) ∧
      ∀ text, site.disk.fileAt l = some text → after.disk.fileAt l =
        some (text ++ Text.encode (String.join (definitions.map (blockText s))))) := by
  induction icons generalizing site with
  | nil =>
    obtain ⟨-, rfl⟩ := Action.perform_pure_ok h
    exact ⟨hI, fun hB => ⟨hB, [], rfl, by simp, fun text ht => by simpa [encode_empty] using ht⟩⟩
  | cons i icons ih =>
    obtain ⟨_, written, hwrite, h⟩ := Action.perform_bind_ok h
    obtain ⟨symbol, _, hattempt, hwrite⟩ := Action.perform_bind_ok hwrite
    obtain ⟨hsymbol, rfl⟩ := Action.perform_attempt_ok hattempt
    obtain ⟨rfl, -⟩ := symbol_ok hsymbol
    obtain ⟨_, noted, hnote, hwrite⟩ := Action.perform_bind_ok hwrite
    obtain rfl := Action.perform_record_ok hnote
    obtain ⟨svg, drawn, hdrawing, hwrite⟩ := Action.perform_bind_ok hwrite
    obtain ⟨code, translated, htranslate, hblock⟩ := Action.perform_bind_ok hwrite
    have hfetch := Action.perform_bind_of_ok hdrawing htranslate
    obtain ⟨hI₁, hB₁⟩ := hi i List.mem_cons_self (by exact hI) hfetch
    obtain ⟨hI₂, hB₂⟩ := hp hI₁ hblock
    obtain ⟨hI₃, hB₃⟩ := ih (fun j hj => hi j (List.mem_cons_of_mem _ hj)) hI₂ h
    refine ⟨hI₃, fun hB => ?_⟩
    obtain ⟨hb₂, definitions, hmap, hΦ, ht₃⟩ := hB₃ hB
    obtain ⟨hb₁, ht₂⟩ := hB₂ hb₂
    obtain ⟨hb, hsame, hcode⟩ := hB₁ hb₁
    refine ⟨hb, (i, f.apply code) :: definitions, ?_, ?_, fun text ht => ?_⟩
    · rw [List.map_cons, hmap]
    · exact List.forall_mem_cons.2 ⟨hcode, hΦ⟩
    · rw [hsame] at ht₂
      rw [ht] at ht₂
      rw [ht₃ _ ht₂, List.map_cons, encode_join_cons]
      simp [blockText]

/-- Writing a module adds its whole text to its file. -/
theorem writeModule_ok (hpath : p = s.moduleFile family) {categories : List Category}
    {report : ModuleReport}
    (hi : ∀ i ∈ catalogue.supported family, FetchesCode s partners f family I B l Φ i)
    (hI : I site.disk)
    (h : (writeModule s partners f family catalogue categories).perform site =
      (.ok report, after)) :
    report = ⟨family, s.moduleName family, p, (catalogue.supported family).length⟩ ∧
      (∀ i ∈ catalogue.supported family, HasSymbol s i) ∧ I after.disk ∧
      (B after.disk → B site.disk ∧ ∃ definitions : List (Icon × String),
        definitions.map Prod.fst = catalogue.supported family ∧ (∀ x ∈ definitions, Φ x.1 x.2) ∧
        after.disk.fileAt l = some ((site.disk.fileAt l).getD [] ++
          Text.encode (moduleText s family catalogue categories definitions))) := by
  unfold writeModule at h
  rw [← hpath] at h
  obtain ⟨_, noted, hnote, h⟩ := Action.perform_bind_ok h
  obtain rfl := Action.perform_record_ok hnote
  obtain ⟨exposed, _, hattempt, h⟩ := Action.perform_bind_ok h
  obtain ⟨hexposed, rfl⟩ := Action.perform_attempt_ok hattempt
  obtain ⟨rfl, hsymbols⟩ := symbols_ok hexposed
  obtain ⟨_, headed, hheader, h⟩ := Action.perform_bind_ok h
  obtain ⟨_, documented, hsections, h⟩ := Action.perform_bind_ok h
  obtain ⟨_, imported, himports, h⟩ := Action.perform_bind_ok h
  obtain ⟨_, defined, hicons, h⟩ := Action.perform_bind_ok h
  obtain ⟨rfl, rfl⟩ := Action.perform_pure_ok h
  obtain ⟨hI₁, hB₁⟩ := hp (by exact hI) hheader
  obtain ⟨hI₂, hB₂⟩ := writeSections_ok hp hI₁ hsections
  obtain ⟨hI₃, hB₃⟩ := hp hI₂ himports
  obtain ⟨hI₄, hB₄⟩ := writeIcons_ok hp hi hI₃ hicons
  refine ⟨rfl, hsymbols, hI₄, fun hB => ?_⟩
  obtain ⟨hb₃, definitions, hmap, hΦ, ht₄⟩ := hB₄ hB
  obtain ⟨hb₂, ht₃⟩ := hB₃ hb₃
  obtain ⟨hb₁, ht₂⟩ := hB₂ hb₂
  obtain ⟨hb, ht₁⟩ := hB₁ hb₁
  refine ⟨hb, definitions, hmap, hΦ, ?_⟩
  rw [ht₂ _ ht₁] at ht₃
  rw [ht₄ _ ht₃, moduleText]
  simp [Text.encode_append]

end

end IconModules.Assembly
