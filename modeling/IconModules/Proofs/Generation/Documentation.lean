import IconModules.Proofs.Generation.SideBySide
import IconModules.Settings.Presets

/-! # What the documentation of a module lists

* `documentation` is the text of all sections under the categories of a catalogue. It does not depend on the order
  of the icons (`documentation_of_perm`).
* `docSymbols` are the symbols that it lists: those that the module exports, and those of its
  **`Catalogue.namesakes`** once more, which are the icons that are not drawn for the family but share their name
  with one that is (`docSymbols_perm`). -/

namespace IconModules

/-- The icons that are not drawn for a family, but have the name of one that is. -/
def Catalogue.namesakes (c : Catalogue) (family : String) : List Icon :=
  c.icons.filter fun i => !i.supports family && ((c.supported family).map (·.name)).contains i.name

namespace Assembly

open ModuleText

/-- The documentation of a family's module under the categories of its catalogue: headings and symbols. -/
def documentation (s : Settings) (family : String) (catalogue : Catalogue) : String :=
  String.join ((Category.ofIcons catalogue.icons).map
    (sectionText s ((catalogue.supported family).map (·.name))))

/-- The symbols that the documentation lists, section by section. -/
def docSymbols (s : Settings) (family : String) (catalogue : Catalogue) : List String :=
  ((Category.ofIcons catalogue.icons).flatMap
    (documented ((catalogue.supported family).map (·.name)))).map (symbolOf s)

variable {s : Settings} {family : String} {catalogue catalogue' : Catalogue} {p : Path}

/-- The documentation stands between header and imports. -/
theorem moduleText_documentation (definitions : List (Icon × String)) :
    moduleText s family catalogue (Category.ofIcons catalogue.icons) definitions =
      header (s.moduleName family) ((catalogue.supported family).map (symbolOf s)) ++
        documentation s family catalogue ++ imports s.preamble ++
        String.join (definitions.map (blockText s)) := rfl

/-! ### The order of the icons -/

section

variable {names names' : List String} {c c' : Category} (hname : c'.name = c.name)
  (h : (documented names' c').map (·.name) = (documented names c).map (·.name))
include hname h

/-- Sections that document the same names have the same text. -/
theorem sectionText_congr : sectionText s names' c' = sectionText s names c := by
  have hsymbols : ∀ icons : List Icon, icons.map (symbolOf s) =
      (icons.map (·.name)).map fun n => (Naming.symbol? s.digitNames n).getD "" := fun icons => by
    rw [List.map_map]
    rfl
  rw [sectionText, sectionText, hsymbols, hsymbols, h, hname]

/-- Sections that document the same names are written in the same way. -/
theorem writeSection_congr : writeSection s p names' c' = writeSection s p names c := by
  have hchecked : ∀ icons : List Icon, symbols s icons = (icons.map (·.name)).mapM (symbol s) :=
    fun icons => by
      rw [List.mapM_map]
      rfl
  rw [writeSection, writeSection, hchecked, hchecked, h, hname]

end

/-- The documentation does not depend on the order of the icons: catalogues with the same icons have the same
documentation, it is written in the same way, and it stands in the modules of both. -/
theorem documentation_of_perm (s : Settings) (family : String) {catalogue catalogue' : Catalogue}
    (h : catalogue.icons.Perm catalogue'.icons) :
    documentation s family catalogue' = documentation s family catalogue ∧
      (∀ p, (Category.ofIcons catalogue'.icons).forM
          (writeSection s p ((catalogue'.supported family).map (·.name))) =
        (Category.ofIcons catalogue.icons).forM
          (writeSection s p ((catalogue.supported family).map (·.name)))) ∧
      ∀ definitions, moduleText s family catalogue' (Category.ofIcons catalogue'.icons) definitions =
        header (s.moduleName family) ((catalogue'.supported family).map (symbolOf s)) ++
          documentation s family catalogue ++ imports s.preamble ++
          String.join (definitions.map (blockText s)) := by
  have hnames : ∀ n, n ∈ (catalogue'.supported family).map (·.name) ↔
      n ∈ (catalogue.supported family).map (·.name) := fun n =>
    ((h.filter _).map _).mem_iff.symm
  -- both have the same categories, with the same icons in another order
  let category (icons : List Icon) (n : String) : Category := ⟨n, icons.filter fun i => i.category = n⟩
  obtain ⟨ns, hns, hns'⟩ : ∃ ns : List String,
      Category.ofIcons catalogue.icons = ns.map (category catalogue.icons) ∧
      Category.ofIcons catalogue'.icons = ns.map (category catalogue'.icons) :=
    ⟨_, Category.ofIcons_eq _, Category.names_ofIcons_of_perm h ▸ Category.ofIcons_eq _⟩
  have hdocumented : ∀ n, (documented ((catalogue'.supported family).map (·.name))
        (category catalogue'.icons n)).map (·.name) =
      (documented ((catalogue.supported family).map (·.name)) (category catalogue.icons n)).map (·.name) :=
    fun n => map_name_documented (h.filter _) hnames
  have hdocumentation : documentation s family catalogue' = documentation s family catalogue := by
    rw [documentation, documentation, hns, hns', List.map_map, List.map_map]
    exact congrArg String.join (List.map_congr_left fun n _ => sectionText_congr rfl (hdocumented n))
  refine ⟨hdocumentation, fun p => ?_, fun definitions => ?_⟩
  · rw [hns, hns']
    simp only [List.forM_eq_forM, List.forM_map]
    exact congrArg (forM ns) (funext fun n => writeSection_congr rfl (hdocumented n))
  · rw [moduleText_documentation, hdocumentation]

/-- Two versions of an icon, of which the old one is not drawn for `A`, and another icon between them. -/
def oldVersion : Catalogue :=
  ⟨[⟨"search", 1, ["action"], ["A"]⟩, ⟨"home", 1, ["maps"], []⟩, ⟨"search", 2, ["action"], []⟩], ["A"]⟩

/-- Entries of one name may change places. -/
theorem documentation_of_perm_versions :
    oldVersion.icons.Perm oldVersion.icons.reverse ∧
      documentation (.preset .current ⟨"/"⟩) "A" { oldVersion with icons := oldVersion.icons.reverse } =
        documentation (.preset .current ⟨"/"⟩) "A" oldVersion :=
  have h : oldVersion.icons.Perm oldVersion.icons.reverse := by decide
  ⟨h, (documentation_of_perm _ _ h).1⟩

/-! ### Icons that are not drawn for the family -/

/-- The documentation lists what is exported, and the namesakes once more. -/
theorem docSymbols_perm (s : Settings) (family : String) (catalogue : Catalogue) :
    (docSymbols s family catalogue).Perm
      ((catalogue.supported family).map (symbolOf s) ++ (catalogue.namesakes family).map (symbolOf s)) := by
  have hlisted := documented_perm ((catalogue.supported family).map (·.name)) catalogue.icons
  refine (hlisted.map (symbolOf s)).trans ?_
  rw [← List.map_append]
  refine List.Perm.map _ ?_
  -- what is listed is drawn for the family or is not
  refine (List.filter_append_perm (·.supports family) _).symm.trans ?_
  rw [List.filter_filter, List.filter_filter]
  refine .of_eq (congrArg₂ (· ++ ·) (List.filter_congr fun i hi => ?_) rfl)
  cases hsupports : i.supports family with
  | false => rfl
  | true =>
    have hmem : i ∈ catalogue.supported family := List.mem_filter.2 ⟨hi, hsupports⟩
    rw [Bool.true_and, List.contains_iff_mem]
    exact List.mem_map_of_mem hmem

/-- An icon is a namesake if it is not drawn for the family and one of its name is. -/
theorem mem_namesakes {i : Icon} : i ∈ catalogue.namesakes family ↔
    i ∈ catalogue.icons ∧ family ∈ i.unsupported ∧ i.name ∈ (catalogue.supported family).map (·.name) := by
  unfold Catalogue.namesakes
  rw [List.mem_filter, Bool.and_eq_true, Bool.not_eq_true', ← Bool.not_eq_true, Icon.supports_iff, not_not,
    List.contains_iff_mem]

section

variable {front back : List Icon} {e : Icon} (hicons : catalogue.icons = front ++ e :: back)
  (hexcluded : family ∈ e.unsupported)
include hicons hexcluded

theorem supported_delete :
    Catalogue.supported { catalogue with icons := front ++ back } family = catalogue.supported family := by
  have hno : e.supports family = false := by
    rw [← Bool.not_eq_true, Icon.supports_iff, not_not]
    exact hexcluded
  unfold Catalogue.supported
  rw [hicons, List.filter_append, List.filter_append, List.filter_cons_of_neg (by simp [hno])]

/-- If a namesake is deleted, it is listed once less. -/
theorem docSymbols_delete : (docSymbols s family catalogue).Perm
    ((if e ∈ catalogue.namesakes family then [symbolOf s e] else []) ++
      docSymbols s family { catalogue with icons := front ++ back }) := by
  have hlisted := docSymbols_perm s family { catalogue with icons := front ++ back }
  rw [supported_delete hicons hexcluded] at hlisted
  have hnamesakes : (catalogue.namesakes family).Perm ((if e ∈ catalogue.namesakes family then [e] else []) ++
      Catalogue.namesakes { catalogue with icons := front ++ back } family) := by
    unfold Catalogue.namesakes
    rw [supported_delete hicons hexcluded, hicons]
    refine (List.perm_middle.filter _).trans (.of_eq ?_)
    rw [List.filter_cons]
    simp only [List.mem_filter, List.mem_append, List.mem_cons, true_or, or_true, true_and]
    split <;> rfl
  have hsplit : (if e ∈ catalogue.namesakes family then [symbolOf s e] else []) =
      (if e ∈ catalogue.namesakes family then [e] else []).map (symbolOf s) := by
    split <;> rfl
  refine (docSymbols_perm s family catalogue).trans ?_
  refine ((hnamesakes.map (symbolOf s)).append_left _).trans ?_
  rw [hsplit, List.map_append]
  refine List.Perm.trans ?_ (hlisted.symm.append_left _)
  rw [← List.append_assoc, ← List.append_assoc]
  exact List.perm_append_comm.append_right _

end

/-- What becomes of the module of a family when an icon is deleted that is not drawn for it. -/
structure Deletes (s : Settings) (family : String) (catalogue : Catalogue) (e : Icon)
    (without : Catalogue) : Prop where
  /-- The same icons are exported and defined. -/
  supported : without.supported family = catalogue.supported family
  /-- A namesake was listed, and is not listed any more. -/
  listed : (docSymbols s family catalogue).Perm
    ((if e ∈ catalogue.namesakes family then [symbolOf s e] else []) ++ docSymbols s family without)
  /-- The documentation lists the same symbols exactly if the icon was no namesake. -/
  unchanged : (docSymbols s family without).Perm (docSymbols s family catalogue) ↔
    e ∉ catalogue.namesakes family
  /-- The module is written as before, with the same definitions. -/
  written : ∀ partners f site, s.extension = "elm" → site.disk.tree.Plain →
    (∀ i ∈ catalogue.supported family, '/' ∉ i.name.toList) →
    Same (site.disk.place (s.moduleFile family))
        ((writeModule s partners f family catalogue (Category.ofIcons catalogue.icons)).perform site)
        ((writeModule s partners f family without (Category.ofIcons without.icons)).perform site) ∧
      ∀ report after,
        (writeModule s partners f family catalogue (Category.ofIcons catalogue.icons)).perform site =
          (.ok report, after) →
        ∃ after' definitions,
          (writeModule s partners f family without (Category.ofIcons without.icons)).perform site =
            (.ok report, after') ∧
          definitions.map Prod.fst = catalogue.supported family ∧
          Shows site.disk (s.moduleFile family)
            (moduleText s family catalogue (Category.ofIcons catalogue.icons) definitions) after.disk ∧
          Shows site.disk (s.moduleFile family)
            (moduleText s family without (Category.ofIcons without.icons) definitions) after'.disk

/-- Icons that are not drawn for a family have no part in what its module exports and defines, but its documentation
lists those that share their name with one that is drawn. So every symbol is documented as often as it is exported
exactly if there are no such icons. -/
theorem namesakes_are_documented (s : Settings) (family : String) (catalogue : Catalogue) :
    (docSymbols s family catalogue).Perm
      ((catalogue.supported family).map (symbolOf s) ++ (catalogue.namesakes family).map (symbolOf s)) ∧
    ((docSymbols s family catalogue).Perm ((catalogue.supported family).map (symbolOf s)) ↔
      ∀ e ∈ catalogue.icons, family ∈ e.unsupported →
        e.name ∉ (catalogue.supported family).map (·.name)) ∧
    ∀ front e back, catalogue.icons = front ++ e :: back → family ∈ e.unsupported →
      Deletes s family catalogue e { catalogue with icons := front ++ back } := by
  have hlisted := docSymbols_perm s family catalogue
  refine ⟨hlisted, ⟨fun h e he hexcluded hname => ?_, fun h => ?_⟩, fun front e back hicons hexcluded => ?_⟩
  · have hlength := (hlisted.symm.trans h).length_eq
    rw [List.length_append, List.length_map, List.length_map] at hlength
    have hmem := List.length_pos_of_mem (mem_namesakes.2 ⟨he, hexcluded, hname⟩)
    omega
  · have hnone : catalogue.namesakes family = [] := List.eq_nil_iff_forall_not_mem.2 fun e he =>
      have he := mem_namesakes.1 he
      h e he.1 he.2.1 he.2.2
    rwa [hnone, List.map_nil, List.append_nil] at hlisted
  · have hsupported := supported_delete hicons hexcluded
    have hdelete := docSymbols_delete (s := s) hicons hexcluded
    refine ⟨hsupported, hdelete, ⟨fun h he => ?_, fun he => ?_⟩, fun partners f site hext ht hnames =>
      ⟨same_writeModule ht hsupported hext hnames, fun report after h =>
        same_definitions ht hsupported hext hnames h⟩⟩
    · have hlength := (h.trans hdelete).length_eq
      rw [if_pos he, List.length_append, List.length_singleton] at hlength
      omega
    · rw [if_neg he] at hdelete
      exact hdelete.symm

/-- Two versions of an icon, of which the new one is not drawn for `A`. -/
def newVersion : Catalogue :=
  ⟨[⟨"search", 1, ["action"], []⟩, ⟨"search", 2, ["action"], ["A"]⟩], ["A"]⟩

/-- The catalogue without the new version. -/
def withoutVersion : Catalogue :=
  { newVersion with icons := [⟨"search", 1, ["action"], []⟩] }

/-- Without the new version, the documentation lists one symbol less, and the same definition is written. -/
theorem namesakes_are_documented_new_version :
    ¬ (docSymbols (.preset .legacy ⟨"/"⟩) "A" withoutVersion).Perm
        (docSymbols (.preset .legacy ⟨"/"⟩) "A" newVersion) ∧
    ∃ report after after' definitions,
      (writeModule (.preset .legacy ⟨"/"⟩) tired ⟨[], "    "⟩ "A" newVersion
        (Category.ofIcons newVersion.icons)).perform begunProject = (.ok report, after) ∧
      (writeModule (.preset .legacy ⟨"/"⟩) tired ⟨[], "    "⟩ "A" withoutVersion
        (Category.ofIcons withoutVersion.icons)).perform begunProject = (.ok report, after') ∧
      Shows begunProject.disk (Settings.moduleFile (.preset .legacy ⟨"/"⟩) "A")
        (moduleText (.preset .legacy ⟨"/"⟩) "A" newVersion (Category.ofIcons newVersion.icons) definitions)
        after.disk ∧
      Shows begunProject.disk (Settings.moduleFile (.preset .legacy ⟨"/"⟩) "A")
        (moduleText (.preset .legacy ⟨"/"⟩) "A" withoutVersion (Category.ofIcons withoutVersion.icons)
          definitions) after'.disk := by
  have hdeletes : Deletes (.preset .legacy ⟨"/"⟩) "A" newVersion ⟨"search", 2, ["action"], ["A"]⟩
      withoutVersion :=
    (namesakes_are_documented (.preset .legacy ⟨"/"⟩) "A" newVersion).2.2
      [⟨"search", 1, ["action"], []⟩] ⟨"search", 2, ["action"], ["A"]⟩ [] rfl (by decide)
  obtain ⟨hsame, hwritten⟩ := hdeletes.written tired ⟨[], "    "⟩ begunProject rfl
    (Tree.plain_of_entries (by decide)) (by decide)
  refine ⟨fun h => hdeletes.unchanged.1 h (by decide), ?_⟩
  -- the documentation of one icon need not be sorted, so this run is computed
  have hok : ((writeModule (.preset .legacy ⟨"/"⟩) tired ⟨[], "    "⟩ "A" withoutVersion
      (Category.ofIcons withoutVersion.icons)).perform begunProject).1 =
        .ok ⟨"A", "A", Settings.moduleFile (.preset .legacy ⟨"/"⟩) "A", 1⟩ := by
    decide +kernel
  have hrun := Action.perform_of_fst (hsame.result.symm.trans hok)
  obtain ⟨after', definitions, hrun', -, hshows, hshows'⟩ := hwritten _ _ hrun
  exact ⟨_, _, after', definitions, hrun, hrun', hshows, hshows'⟩

/-- One symbol is exported, and it is documented twice, unless the new version is deleted. -/
theorem excluded_version_documented :
    (newVersion.supported "A").map (symbolOf (.preset .legacy ⟨"/"⟩)) = ["search"] ∧
      docSymbols (.preset .legacy ⟨"/"⟩) "A" newVersion = ["search", "search"] ∧
      (withoutVersion.supported "A").map (symbolOf (.preset .legacy ⟨"/"⟩)) = ["search"] ∧
      docSymbols (.preset .legacy ⟨"/"⟩) "A" withoutVersion = ["search"] := by
  have hexported : (newVersion.supported "A").map (symbolOf (.preset .legacy ⟨"/"⟩)) = ["search"] := by
    decide
  have hnamesakes : (newVersion.namesakes "A").map (symbolOf (.preset .legacy ⟨"/"⟩)) = ["search"] := by
    decide
  refine ⟨hexported, ?_, by decide, by decide +kernel⟩
  have hlisted := docSymbols_perm (.preset .legacy ⟨"/"⟩) "A" newVersion
  rw [hexported, hnamesakes] at hlisted
  have hboth : (docSymbols (.preset .legacy ⟨"/"⟩) "A" newVersion).Perm (List.replicate 2 "search") :=
    hlisted
  exact List.perm_replicate.1 hboth

end Assembly
end IconModules
