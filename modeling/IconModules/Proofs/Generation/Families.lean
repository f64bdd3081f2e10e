import IconModules.Proofs.Generation.Filled

/-! # The modules of all families

`HoldsModule` says that a file holds the module of a family, with the code that the translator gives for
the drawings in the cache. Writing one module stores it (`writeModule_filled`); the modules after it and
their drawings leave it as it is (`HoldsModule.filled`), so all modules are there in the end
(`writeModules_filled`). -/

namespace IconModules.Generation

open Assembly (HasSymbol moduleText)

variable {s : Settings} {partners : Partners} {translation : String → Except Failure String}
  {f : Finish} {family : String} {catalogue : Catalogue} {i : Icon} {site after : Site}
  {home l : Location} {d d' e : Disk} {ls : List Location}

/-- The code of an icon is that of the drawing which its entry holds. -/
def Coded (s : Settings) (translation : String → Except Failure String) (f : Finish) (family : String)
    (d : Disk) (i : Icon) (code : String) : Prop :=
  ∃ c t, d.fileAt (d.place (s.cachePath family i)) = some c ∧
    Markup.isDrawing (shown s c) = true ∧ translation (shown s c) = .ok t ∧ code = f.apply t

/-- The code of an icon is what the translator once gave for the drawing which its entry holds. -/
def Translated (s : Settings) (partners : Partners) (f : Finish) (family : String) (d : Disk)
    (i : Icon) (code : String) : Prop :=
  ∃ c j t, d.fileAt (d.place (s.cachePath family i)) = some c ∧
    Markup.isDrawing (shown s c) = true ∧ partners.translate j (shown s c) = .ok t ∧
    code = f.apply t

/-- A translator that always gives the same for the same markup leaves no choice. -/
theorem Translated.coded {code : String}
    (htranslate : ∀ j markup, partners.translate j markup = translation markup)
    (h : Translated s partners f family d i code) : Coded s translation f family d i code := by
  obtain ⟨c, j, t, hc, hdrawing, ht, hcode⟩ := h
  exact ⟨c, t, hc, hdrawing, (htranslate j _).symm.trans ht, hcode⟩

/-- The file at a place is the module of a family. -/
def HoldsModule (s : Settings) (translation : String → Except Failure String) (f : Finish)
    (catalogue : Catalogue) (family : String) (d : Disk) (l : Location) : Prop :=
  ∃ definitions : List (Icon × String), definitions.map Prod.fst = catalogue.supported family ∧
    (∀ x ∈ definitions, HasSymbol s x.1 ∧ Coded s translation f family d x.1 x.2) ∧
    d.fileAt l = some (Text.encode
      (moduleText s family catalogue (Category.ofIcons catalogue.icons) definitions))

/-- What is reported of a family. -/
def reportOf (s : Settings) (catalogue : Catalogue) (family : String) : ModuleReport :=
  ⟨family, s.moduleName family, s.moduleFile family, (catalogue.supported family).length⟩

/-! ### Drawings stay -/

/-- An entry that holds a drawing goes on holding it. -/
theorem entry_filled {c : Octets} (hf : FamilyName family) (hi : '/' ∉ i.name.toList)
    (hfilled : Filled s ls d d') (hc : d.fileAt (d.place (s.cachePath family i)) = some c)
    (hdrawing : Markup.isDrawing (shown s c) = true) :
    d'.fileAt (d'.place (s.cachePath family i)) = some c := by
  rw [Disk.place_of_home hfilled.grown.home]
  exact hfilled.drawn _ c (entry_below hf hi d) hc hdrawing

theorem Coded.filled {code : String} (hf : FamilyName family) (hi : '/' ∉ i.name.toList)
    (h : Coded s translation f family d i code) (hfilled : Filled s ls d d') :
    Coded s translation f family d' i code := by
  obtain ⟨c, t, hc, hdrawing, hrest⟩ := h
  exact ⟨c, t, entry_filled hf hi hfilled hc hdrawing, hdrawing, hrest⟩

theorem Translated.filled {code : String} (hf : FamilyName family) (hi : '/' ∉ i.name.toList)
    (h : Translated s partners f family d i code) (hfilled : Filled s ls d d') :
    Translated s partners f family d' i code := by
  obtain ⟨c, j, t, hc, hdrawing, hrest⟩ := h
  exact ⟨c, j, t, entry_filled hf hi hfilled hc hdrawing, hdrawing, hrest⟩

/-- A module stays as it is while others are written. -/
theorem HoldsModule.filled (hf : FamilyName family) (hi : ∀ i ∈ catalogue.icons, '/' ∉ i.name.toList)
    (h : HoldsModule s translation f catalogue family d l) (hfilled : Filled s ls d d')
    (hl : l ∉ ls) (hicons : ¬ d.place s.iconsFolder <+: l) :
    HoldsModule s translation f catalogue family d' l := by
  obtain ⟨definitions, hmap, hcoded, hfile⟩ := h
  refine ⟨definitions, hmap, fun x hx => ⟨(hcoded x hx).1, (hcoded x hx).2.filled hf ?_ hfilled⟩, ?_⟩
  · have hmem : x.1 ∈ catalogue.supported family := by
      rw [← hmap]
      exact List.mem_map_of_mem hx
    exact hi x.1 (List.mem_filter.1 hmem).1
  · rw [hfilled.files l hl hicons, hfile]

/-- A module can be moved where the drawings stay. -/
theorem HoldsModule.moved {l' : Location} (hf : FamilyName family)
    (hi : ∀ i ∈ catalogue.icons, '/' ∉ i.name.toList)
    (h : HoldsModule s translation f catalogue family d l) (hhome : d'.home = d.home)
    (hicons : ∀ k, d.place s.iconsFolder <+: k → d'.fileAt k = d.fileAt k)
    (hl : d'.fileAt l' = d.fileAt l) : HoldsModule s translation f catalogue family d' l' := by
  obtain ⟨definitions, hmap, hcoded, hfile⟩ := h
  refine ⟨definitions, hmap, fun x hx => ⟨(hcoded x hx).1, ?_⟩, hl.trans hfile⟩
  obtain ⟨c, t, hc, hrest⟩ := (hcoded x hx).2
  have hmem : x.1 ∈ catalogue.supported family := by
    rw [← hmap]
    exact List.mem_map_of_mem hx
  refine ⟨c, t, ?_, hrest⟩
  rw [Disk.place_of_home hhome, hicons _ (entry_below hf (hi x.1 (List.mem_filter.1 hmem).1) d), hc]

/-! ### One module -/

section

variable (hs : s.Standard) (hf : FamilyName family)
include hs hf

/-- The pieces of a module are added at its place. -/
theorem addsPieces_filled (he : e.home = home) :
    Assembly.AddsPieces (Sound s home) (Filled s [e.place (s.moduleFile family)] · e)
      (e.place (s.moduleFile family)) (s.moduleFile family) := by
  intro site after u piece hd h
  have hplace : site.disk.place (s.moduleFile family) = e.place (s.moduleFile family) :=
    Disk.place_of_home (hd.home.trans he.symm) _
  obtain ⟨hfilled, hfile⟩ := append_filled hs hf hd h
  rw [hplace] at hfilled hfile
  exact ⟨hfilled.sound hd, fun hB => ⟨hfilled.trans hB, hfile⟩⟩

/-- Fetching and translating a drawing leaves the file of the module alone. -/
theorem fetchesCode_filled (he : e.home = home) (hi : '/' ∉ i.name.toList) :
    Assembly.FetchesCode s partners f family (Sound s home)
      (Filled s [e.place (s.moduleFile family)] · e) (e.place (s.moduleFile family))
      (Translated s partners f family e) i := by
  intro site after code hd h
  obtain ⟨svg, drawn, hdrawing, h⟩ := Action.perform_bind_ok h
  obtain ⟨hfilled, hconfirmed⟩ := drawing_filled hf hi hd hdrawing
  obtain ⟨c, hread, rfl, hshown⟩ := hconfirmed svg rfl
  have hc := (Disk.found_of_read (hfilled.sound hd).plain (Settings.cachePath_under hf hi) hread).2
  obtain ⟨htranslated, hrecorded⟩ := Action.perform_attempt_ok h
  have hdisk : after.disk = drawn.disk := by
    rw [← hrecorded]
  rw [hdisk]
  refine ⟨hfilled.sound hd, fun hB => ⟨(hfilled.mono (List.nil_subset _)).trans hB, ?_, ?_⟩⟩
  · refine hfilled.files _ List.not_mem_nil ?_
    rw [← Disk.place_of_home (hd.home.trans he.symm) (s.moduleFile family)]
    exact module_apart hs hf site.disk
  · exact Translated.filled hf hi ⟨c, _, code, hc, hshown, htranslated, rfl⟩ hB

/-- Writing a module adds its text to its file, with the code of the drawings in the cache. -/
theorem writeModule_filled (hi : ∀ i ∈ catalogue.icons, '/' ∉ i.name.toList)
    (hd : Sound s home site.disk) {categories : List Category} {report : ModuleReport}
    (h : (Assembly.writeModule s partners f family catalogue categories).perform site =
      (.ok report, after)) :
    report = reportOf s catalogue family ∧ Sound s home after.disk ∧
      Filled s [site.disk.place (s.moduleFile family)] site.disk after.disk ∧
      ∃ definitions : List (Icon × String), definitions.map Prod.fst = catalogue.supported family ∧
        (∀ x ∈ definitions, HasSymbol s x.1 ∧
          Translated s partners f family after.disk x.1 x.2) ∧
        after.disk.fileAt (site.disk.place (s.moduleFile family)) =
          some ((site.disk.fileAt (site.disk.place (s.moduleFile family))).getD [] ++
            Text.encode (moduleText s family catalogue categories definitions)) := by
  have hhome : after.disk.home = home :=
    (Assembly.extends_of_writeModule h).home.trans hd.home
  have hplace : site.disk.place (s.moduleFile family) = after.disk.place (s.moduleFile family) :=
    Disk.place_of_home (hd.home.trans hhome.symm) _
  have hfetch : ∀ i ∈ catalogue.supported family, Assembly.FetchesCode s partners f family
      (Sound s home) (Filled s [after.disk.place (s.moduleFile family)] · after.disk)
      (after.disk.place (s.moduleFile family)) (Translated s partners f family after.disk) i :=
    fun i hm => fetchesCode_filled hs hf hhome (hi i (List.mem_filter.1 hm).1)
  obtain ⟨hreport, hsymbols, hsound, hB⟩ :=
    Assembly.writeModule_ok (addsPieces_filled hs hf hhome) rfl hfetch hd h
  obtain ⟨hfilled, definitions, hmap, htranslated, hfile⟩ := hB (.refl _)
  rw [hplace]
  refine ⟨hreport, hsound, hfilled, definitions, hmap, fun x hx => ⟨?_, htranslated x hx⟩, hfile⟩
  refine hsymbols x.1 ?_
  rw [← hmap]
  exact List.mem_map_of_mem hx

/-- In a new file, what was written is the module. -/
theorem holdsModule_of_write
    (htranslate : ∀ j markup, partners.translate j markup = translation markup)
    (hi : ∀ i ∈ catalogue.icons, '/' ∉ i.name.toList) (hd : Sound s home site.disk)
    (hfresh : site.disk.fileAt (site.disk.place (s.moduleFile family)) = none)
    {report : ModuleReport}
    (h : (Assembly.writeModule s partners f family catalogue
      (Category.ofIcons catalogue.icons)).perform site = (.ok report, after)) :
    HoldsModule s translation f catalogue family after.disk
      (site.disk.place (s.moduleFile family)) := by
  obtain ⟨-, -, -, definitions, hmap, hcoded, hfile⟩ := writeModule_filled hs hf hi hd h
  rw [hfresh, Option.getD_none, List.nil_append] at hfile
  exact ⟨definitions, hmap, fun x hx => ⟨(hcoded x hx).1, (hcoded x hx).2.coded htranslate⟩, hfile⟩

end

/-! ### All modules -/

/-- Different ways below the folder of modules lead to different files. -/
theorem modulePlace_injective (hs : s.Standard) {family' : String} (hf : FamilyName family)
    (hf' : FamilyName family') (d : Disk)
    (h : d.place (s.moduleFile family) = d.place (s.moduleFile family')) :
    s.modulePlace family = s.modulePlace family' := by
  rw [Disk.place_along (hs.moduleFile_under hf).toAlong,
    Disk.place_along (hs.moduleFile_under hf').toAlong] at h
  simpa using h

/-- Modules of different files are stored one after the other. -/
theorem writeModules_filled (hs : s.Standard)
    (htranslate : ∀ j markup, partners.translate j markup = translation markup)
    (hi : ∀ i ∈ catalogue.icons, '/' ∉ i.name.toList) {families : List String}
    (hf : ∀ family ∈ families, FamilyName family) (hnodup : (families.map s.modulePlace).Nodup)
    (hd : Sound s home site.disk)
    (hfresh : ∀ family ∈ families, site.disk.fileAt (site.disk.place (s.moduleFile family)) = none)
    {reports : List ModuleReport}
    (h : (writeModules s partners f catalogue (Category.ofIcons catalogue.icons) families).perform
      site = (.ok reports, after)) :
    reports = families.map (reportOf s catalogue) ∧ Sound s home after.disk ∧
      Filled s (families.map fun family => site.disk.place (s.moduleFile family)) site.disk
        after.disk ∧
      ∀ family ∈ families, HoldsModule s translation f catalogue family after.disk
        (site.disk.place (s.moduleFile family)) := by
  induction families generalizing site reports with
  | nil =>
    obtain ⟨rfl, rfl⟩ := Action.perform_pure_ok h
    exact ⟨rfl, hd, .refl _, by simp⟩
  | cons family rest ih =>
    obtain ⟨report, written, reports', hwrite, hrest, rfl⟩ := writeModules_cons_iff.1 h
    have hfamily := hf family List.mem_cons_self
    rw [List.map_cons, List.nodup_cons] at hnodup
    obtain ⟨hreport, hsound, hfilled, -⟩ := writeModule_filled hs hfamily hi hd hwrite
    have hmodule := holdsModule_of_write hs hfamily htranslate hi hd
      (hfresh family List.mem_cons_self) hwrite
    have hplace : ∀ p, written.disk.place p = site.disk.place p := fun p =>
      Disk.place_of_home hfilled.grown.home p
    have hother : ∀ family' ∈ rest,
        site.disk.place (s.moduleFile family') ≠ site.disk.place (s.moduleFile family) := by
      intro family' hm he
      have hsame := modulePlace_injective hs (hf family' (List.mem_cons_of_mem _ hm)) hfamily _ he
      exact hnodup.1 (hsame ▸ List.mem_map_of_mem hm)
    have hfresh' : ∀ family' ∈ rest,
        written.disk.fileAt (written.disk.place (s.moduleFile family')) = none := by
      intro family' hm
      rw [hplace, hfilled.files _ (by simpa using hother family' hm)
        (module_apart hs (hf family' (List.mem_cons_of_mem _ hm)) _)]
      exact hfresh family' (List.mem_cons_of_mem _ hm)
    obtain ⟨hreports, hsound', hfilled', hmodules⟩ := ih
      (fun family' hm => hf family' (List.mem_cons_of_mem _ hm)) hnodup.2 (by exact hsound)
      (by exact hfresh') hrest
    simp only [hplace] at hfilled' hmodules
    have hmodule' := hmodule.filled hfamily hi hfilled' (by simpa using hother)
      (by rw [hplace]; exact module_apart hs hfamily _)
    refine ⟨by rw [hreport, hreports, List.map_cons], hsound', ?_, ?_⟩
    · rw [List.map_cons]
      exact (hfilled.mono (by simp)).trans (hfilled'.mono (List.subset_cons_self _ _))
    · exact List.forall_mem_cons.2 ⟨hmodule', hmodules⟩

end IconModules.Generation
