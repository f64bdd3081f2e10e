import IconModules.Generation.Run
import IconModules.Proofs.Generation.ModuleReading
import IconModules.Proofs.Generation.Places
import IconModules.Proofs.Generation.Storing
import IconModules.Proofs.Renaming.Spellings

/-! # Written modules can be read back

A module that was written exports the symbols of its icons, defines them and documents them, whatever
the translator answered. This is read from the text of the file. -/

namespace IconModules.Assembly

open ModuleText

variable {s : Settings} {partners : Partners} {f : Finish} {family : String} {catalogue : Catalogue}
  {site after : Site} {definitions : List (Icon × String)}

theorem indent_of_finish (h : Generation.finish s = .ok f) : f.indent = s.indent := by
  unfold Generation.finish at h
  split at h
  · rename_i f' hf
    obtain rfl := Except.ok.inj h
    obtain ⟨rules, -, rfl⟩ := Option.map_eq_some_iff.1 hf
    rfl
  · cases h

/-- What is documented under the categories of all icons is what is exported, in another order. Icons
with the name of a supported one are documented with it. -/
theorem documented_symbols (s : Settings) (catalogue : Catalogue) (family : String) :
    let names := (catalogue.supported family).map (·.name)
    let symbols := ((Category.ofIcons catalogue.icons).flatMap (documented names)).map (symbolOf s)
    (∀ n, n ∈ symbols ↔ n ∈ (catalogue.supported family).map (symbolOf s)) ∧
      ((catalogue.icons.map (·.name)).Nodup →
        symbols.Perm ((catalogue.supported family).map (symbolOf s))) := by
  intro names symbols
  have hperm := (documented_perm names catalogue.icons).map (symbolOf s)
  refine ⟨fun n => ?_, fun hnodup => ?_⟩
  · rw [hperm.mem_iff, List.mem_map, List.mem_map]
    constructor
    · rintro ⟨i, hi, rfl⟩
      have hi' := (List.mem_filter.1 hi).2
      rw [List.contains_iff_mem, List.mem_map] at hi'
      obtain ⟨j, hj, he⟩ := hi'
      refine ⟨j, hj, ?_⟩
      unfold symbolOf
      rw [he]
    · rintro ⟨i, hi, rfl⟩
      refine ⟨i, List.mem_filter.2 ⟨(List.mem_filter.1 hi).1, ?_⟩, rfl⟩
      rw [List.contains_iff_mem]
      exact List.mem_map_of_mem hi
  · rw [filter_names family hnodup] at hperm
    exact hperm

/-- Where the path of a module leads that was written in a new file, its text stands, and exports,
definitions and documentation can be read from it. Only where links are can the entry of a drawing lead
to the same file, which then is not the text of a module. -/
theorem written_module_reads_back (e : Edition) (root : Path) (hs : s = Settings.preset e root)
    (hf : Generation.finish s = .ok f) (hnames : ∀ i ∈ catalogue.icons, Identifier i.name)
    (hcategories : ∀ i ∈ catalogue.icons, '\n' ∉ i.category.toList) {report : ModuleReport}
    (h : (writeModule s partners f family catalogue (Category.ofIcons catalogue.icons)).perform site =
      (.ok report, after)) :
    ∃ l, after.disk.placeToWrite (s.moduleFile family) = .ok l ∧
      (site.disk.contentAt l = [] →
        (site.disk.tree.Plain ∨ ∀ i ∈ catalogue.supported family,
          after.disk.placeToWrite (s.cachePath family i) ≠ .ok l) →
        ∃ text, after.disk.fileAt l = some (Text.encode text) ∧
          (exports text).map some =
            (catalogue.supported family).map (fun i => Naming.symbol? s.digitNames i.name) ∧
          ModuleText.definitions text =
            (exports text).flatMap (fun symbol => marginLines symbol s.signature) ∧
          (∀ n, n ∈ documentedSymbols text ↔ n ∈ exports text) ∧
          ((catalogue.icons.map (·.name)).Nodup →
            (documentedSymbols text).Perm (exports text))) := by
  obtain ⟨l, hl⟩ := writeModule_leads h
  refine ⟨l, hl, fun hfresh hplain => ?_⟩
  have haside : ∀ i ∈ catalogue.supported family,
      after.disk.placeToWrite (s.cachePath family i) ≠ .ok l := by
    rcases hplain with hplain | haside
    · intro i hi
      have hname := (hnames i (List.mem_filter.1 hi).1).not_mem (c := '/') (by decide)
      exact Settings.placeToWrite_cachePath_ne ((extends_of_writeModule h).plain hplain) (hs ▸ rfl) hname hl
    · exact haside
  have hreadable : s.Readable := hs ▸ Settings.readable_preset e root
  obtain ⟨-, hsymbols, definitions, hicons, hcode, hfile⟩ := writeModule_extends h
    (fun k hk => Except.ok.inj (hk.symm.trans hl)) fun i hi k hk _ he => haside i hi (he ▸ hk)
  have hidentifiers : ∀ i ∈ catalogue.supported family, Identifier (symbolOf s i) := fun i hi =>
    identifier_symbolOf hreadable (hnames i (List.mem_filter.1 hi).1) (hsymbols i hi)
  have hdefined : ∀ x ∈ definitions, Identifier (symbolOf s x.1) := by
    intro x hx
    refine hidentifiers x.1 ?_
    rw [← hicons]
    exact List.mem_map_of_mem hx
  have hnoBreak : ∀ c ∈ Category.ofIcons catalogue.icons, '\n' ∉ c.name.toList := by
    intro c hc
    obtain ⟨i, hi, he⟩ := Category.name_of_mem_ofIcons hc
    rw [he]
    exact hcategories i hi
  have hhanging : ∀ x ∈ definitions, Text.Hanging x.2.toList := by
    intro x hx
    obtain ⟨t, he⟩ := hcode x hx
    rw [he]
    exact Finish.hanging_apply ((indent_of_finish hf).trans hreadable.indent) t
  rw [← Disk.contentAt_eq, hfresh, List.nil_append] at hfile
  refine ⟨_, hfile, ?_⟩
  rw [exports_moduleText hidentifiers,
    definitions_moduleText hreadable hnoBreak hdefined hidentifiers hhanging,
    documentedSymbols_moduleText hreadable hnoBreak hdefined hidentifiers, hicons]
  obtain ⟨hmem, hperm⟩ := documented_symbols s catalogue family
  refine ⟨?_, ?_, hmem, hperm⟩
  · rw [List.map_map]
    refine List.map_congr_left fun i hi => ?_
    obtain ⟨symbol, hsymbol⟩ := Option.ne_none_iff_exists'.1 (hsymbols i hi)
    simp [symbolOf, hsymbol]
  · rw [List.flatMap_map]

/-! ### Texts without brackets -/

section

open Markup

theorem mem_withoutBlock {opening closing cs : List Char} {c : Char} (h : c ∈ withoutBlock opening closing cs) :
    c ∈ cs := by
  induction cs with
  | nil => cases h
  | cons x cs ih =>
    unfold withoutBlock at h
    split at h
    · split at h
      · exact List.mem_of_mem_drop h
      · exact h
    · rcases List.mem_cons.1 h with rfl | h
      · exact List.mem_cons_self
      · exact List.mem_cons_of_mem _ (ih h)

/-- Passes add nothing but spaces. -/
theorem mem_run {denylist : List String} {p : Pass} {cs : List Char} {c : Char} (hp : p ∈ passes denylist)
    (h : c ∈ p.run cs) : c ∈ cs ∨ c = ' ' := by
  rcases List.mem_append.1 hp with hp | hp
  · simp only [List.mem_cons, List.not_mem_nil, or_false] at hp
    rcases hp with rfl | rfl | rfl | rfl
    · exact .inl ((Naming.mem_replaceSpans h).resolve_right List.not_mem_nil)
    · exact .inl ((Naming.mem_replaceSpans h).resolve_right List.not_mem_nil)
    · exact .inl (mem_withoutBlock h)
    · exact .inl (mem_withoutBlock h)
  · obtain ⟨name, -, rfl⟩ := List.mem_map.1 hp
    exact (Naming.mem_replaceSpans h).imp_right List.mem_singleton.1

/-- Stripping makes no brackets, so what is a drawing afterwards held one before. -/
theorem bracket_mem_of_isDrawing {denylist : List String} {raw : String}
    (h : isDrawing (strip denylist raw) = true) : '<' ∈ raw.toList := by
  have hall : ∀ ps : List Pass, (∀ p ∈ ps, p ∈ passes denylist) → ∀ cs : List Char,
      '<' ∈ ps.foldl (fun s p => p.run s) cs → '<' ∈ cs := by
    intro ps hps
    induction ps with
    | nil => exact fun cs hm => hm
    | cons p ps ih =>
      intro cs hm
      obtain ⟨hp, hps⟩ := List.forall_mem_cons.1 hps
      exact (mem_run hp (ih hps _ hm)).resolve_right (by decide)
  unfold isDrawing at h
  rw [Bool.or_eq_true, List.isPrefixOf_iff_prefix, List.isPrefixOf_iff_prefix] at h
  have hsvg : '<' ∈ "<svg".toList := by decide
  have hxml : '<' ∈ "<?xml".toList := by decide
  have hm : '<' ∈ (strip denylist raw).toList := h.elim (fun h => h.subset hsvg) fun h => h.subset hxml
  unfold strip at hm
  rw [String.toList_ofList] at hm
  exact hall _ (fun p hp => hp) _ hm

/-- Whether octets hold an opening bracket. -/
def bracketed (content : Octets) : Bool :=
  (Text.events content).any fun
    | .char c _ => c == '<'
    | _ => false

/-- Only what holds a bracket has to be stripped to see whether it is a drawing. -/
theorem isDrawing_shown (denylist : List String) (content : Octets) :
    isDrawing (strip denylist (Text.decodeLossy content)) =
      (bracketed content && isDrawing (strip denylist (Text.decodeLossy content))) := by
  cases h : isDrawing (strip denylist (Text.decodeLossy content)) with
  | false => simp
  | true =>
    have hm := bracket_mem_of_isDrawing h
    unfold Text.decodeLossy at hm
    rw [String.toList_ofList, List.mem_map] at hm
    obtain ⟨e, he, hc⟩ := hm
    have hbracketed : bracketed content = true := by
      refine List.any_eq_true.2 ⟨e, he, ?_⟩
      cases e <;> simp_all
    simp [hbracketed]

/-- Looking for a drawing, step by step up to the first download that is forced. -/
theorem drawing_eq (i : Icon) : Cache.drawing s partners family i = (do
    let path ← Cache.ensure s partners family i false
    let content ← Action.inspect path (·.read path)
    if bracketed content && isDrawing (strip s.denylist (Text.decodeLossy content)) then
      return strip s.denylist (Text.decodeLossy content)
    match s.repairs.limit.getD partners.patience with
    | 0 => throw (Cache.giveUp s i)
    | left + 1 =>
      Action.note (.waiting s.repairs.pause i.name family)
      Action.sleep s.repairs.pause
      Cache.repair s partners family i left (← Cache.ensure s partners family i true)) := by
  unfold Cache.drawing
  refine bind_congr fun path => ?_
  rw [Cache.repair.eq_def]
  unfold Cache.contents
  cases s.repairs.limit.getD partners.patience with
  | zero => simp only [bind_assoc, pure_bind, ← isDrawing_shown]
  | succ left => simp only [bind_assoc, pure_bind, ← isDrawing_shown]

/-- The octets of the imports come from the characters of the preamble. -/
theorem encode_imports (e : Edition) (root : Path) :
    Text.encode (imports (Settings.preset e root).preamble) =
      ("-\x7d\n\n".toList ++ e.preamble.toList).flatMap Text.encodeChar := by
  have hpreamble : (Settings.preset e root).preamble = e.preamble := rfl
  rw [Text.encode, imports, String.toList_append, hpreamble]

end

/-! ### Two projects -/

/-- Partners that have an answer to everything. The translator tries to add a definition. -/
def obliging : Partners where
  fetch _ _ := .ok (Text.encode "<svg></svg>")
  translate _ _ := .ok "svg [] []\nsneaky = 1"
  format _ _ d := (.ok (), d)
  patience := 1

/-- One icon, drawn for all families. -/
def oneIcon : Catalogue :=
  ⟨[⟨"search", 1, ["action"], []⟩], ["A"]⟩

/-- A project at the root of the file system. -/
def rootSettings : Settings :=
  .preset .legacy ⟨"/"⟩

/-- The finish of that project. -/
def rootFinish : Finish :=
  (Generation.finish rootSettings).toOption.getD ⟨[], ""⟩

theorem finish_root : Generation.finish rootSettings = .ok rootFinish := by
  have hpreset : Generation.finish rootSettings = .ok (.ofEdition .legacy) := Finish.finish_preset _ _
  rw [rootFinish, hpreset]
  rfl

/-- Writes the module of the icon. -/
def writeOne (site : Site) : Except Failure ModuleReport × Site :=
  (writeModule rootSettings obliging rootFinish "A" oneIcon (Category.ofIcons oneIcon.icons)).perform
    site

/-- A project without files. -/
def emptyProject : Site :=
  ⟨⟨.single .folder, []⟩, []⟩

/-- A project in which the entry of the drawing is a link to the module. -/
def linkedProject : Site where
  disk :=
    { tree := [(["gen"], .folder), (["gen", "tmp"], .folder), (["gen", "tmp", "sot"], .folder),
        (["gen", "tmp", "sot", "icons"], .folder), (["gen", "tmp", "sot", "icons", "A"], .folder),
        (["gen", "tmp", "sot", "icons", "A", "v1-search.svg"], .link "../../../out/A.elm")].foldl
          (fun t x => t.graft x.1 (.single x.2)) (.single .folder)
      home := [] }
  journal := []

/-- In the empty project one symbol is exported, and what the translator tried did not succeed. -/
theorem written_module_reads_back_one : ∃ text,
    (writeOne emptyProject).2.disk.fileAt ["gen", "tmp", "out", "A.elm"] = some (Text.encode text) ∧
      (exports text).map some = [some "search"] ∧
      ModuleText.definitions text =
        (exports text).flatMap (fun symbol => marginLines symbol rootSettings.signature) ∧
      (documentedSymbols text).Perm (exports text) := by
  obtain ⟨hok, hmodule⟩ : (writeOne emptyProject).1.isOk = true ∧
      ((writeOne emptyProject).2.disk.placeToWrite (rootSettings.moduleFile "A")).toOption =
        some ["gen", "tmp", "out", "A.elm"] := by
    decide +kernel
  obtain ⟨report, after, h⟩ := Action.exists_of_isOk hok
  change writeOne emptyProject = (.ok report, after) at h
  rw [h] at hmodule ⊢
  obtain ⟨l, hl, hread⟩ := written_module_reads_back .legacy ⟨"/"⟩ rfl finish_root
    (by decide) (by decide) h
  obtain rfl := Except.ok.inj (hl.symm.trans (ok_of_toOption hmodule))
  obtain ⟨text, hfile, hexports, hdefinitions, -, hperm⟩ := hread (by decide)
    (.inl (Tree.plain_of_entries (by decide)))
  have hsymbols : (oneIcon.supported "A").map
      (fun i => Naming.symbol? rootSettings.digitNames i.name) = [some "search"] := by
    decide
  exact ⟨text, hfile, hexports.trans hsymbols, hdefinitions, hperm (by decide)⟩

/-- Where a link leads from the entry of the drawing to the module, the drawing takes the place of the
beginning of the module, and nothing is exported. -/
theorem written_module_overwritten :
    (writeOne linkedProject).1.isOk = true ∧
      linkedProject.disk.fileAt ["gen", "tmp", "out", "A.elm"] = none ∧
      ((writeOne linkedProject).2.disk.placeToWrite (rootSettings.moduleFile "A")).toOption =
        some ["gen", "tmp", "out", "A.elm"] ∧
      ((writeOne linkedProject).2.disk.fileAt ["gen", "tmp", "out", "A.elm"]).map
        (fun content => exports (Text.decodeLossy content)) = some [] ∧
      (oneIcon.supported "A").map (fun i => Naming.symbol? rootSettings.digitNames i.name) =
        [some "search"] := by
  -- the module is looked at as a drawing before it is overwritten; it holds no bracket, so it need not be stripped
  delta writeOne writeModule writeIcon
  have himports : Text.encode (imports rootSettings.preamble) = _ := encode_imports .legacy ⟨"/"⟩
  simp only [drawing_eq, append, himports]
  -- the characters of a literal cost least when they are listed before anything is computed
  delta Edition.preamble
  dsimp only
  simp only [String.toList_append, String.reduceToList]
  decide +kernel

end IconModules.Assembly
