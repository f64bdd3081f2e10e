import IconModules.CommandLine.Launch
import IconModules.Proofs.Files.Plain
import IconModules.Proofs.Naming

/-! # Where a run works

Every path of a run goes on from the root of the project through names (`Path.Under`): into `gen` for
what is downloaded and assembled, into `src` for the sources.

* `Settings.Standard` are the settings whose names are those of the presets, whatever else they say.
* `Settings.modulePlace` is the way to the module of a family from the folder of all modules. -/

namespace IconModules

namespace Settings

variable {s : Settings} {family m : String} {i : Icon}

/-- Settings with the names of the presets. -/
structure Standard (s : Settings) : Prop where
  familyLead : s.familyLead = "Material Icons"
  extension : s.extension = "elm"
  manualFolder : s.manualFolder = ⟨"Material/Icons"⟩
  scaffold : s.scaffold = ⟨"Material"⟩
  manual : ∀ m ∈ s.manualModules, IsName m ∧ '.' ∈ m.toList ∧ m.utf8ByteSize ≤ Tree.nameLimit
  nodup : s.manualModules.Nodup

theorem standard_preset (e : Edition) (root : Path) : (preset e root).Standard := by
  have hfolder : (⟨"Material"⟩ : Path).under "Icons" = ⟨"Material/Icons"⟩ := by decide
  have hmanual : ∀ m ∈ e.manualModules,
      IsName m ∧ '.' ∈ m.toList ∧ m.utf8ByteSize ≤ Tree.nameLimit := by
    cases e <;> decide
  have hnodup : e.manualModules.Nodup := by
    cases e <;> decide
  exact ⟨rfl, rfl, hfolder, rfl, hmanual, hnodup⟩

/-- Options of the command line do not change the names. -/
theorem standard_settingsFor (o : CommandLine.Options) (root : Path) :
    (CommandLine.settingsFor o root).Standard :=
  have h := standard_preset o.edition root
  ⟨h.familyLead, h.extension, h.manualFolder, h.scaffold, h.manual, h.nodup⟩

/-! ### The folder of generated files -/

theorem cacheFolder_under (s : Settings) : Path.Under s.root ["gen", "tmp", "sot"] s.cacheFolder :=
  (((Path.Along.refl s.root).under (n := "gen") (by decide)).toAlong.under (n := "tmp")
    (by decide)).toAlong.under (by decide)

theorem outFolder_under (s : Settings) : Path.Under s.root ["gen", "tmp", "out"] s.outFolder :=
  (((Path.Along.refl s.root).under (n := "gen") (by decide)).toAlong.under (n := "tmp")
    (by decide)).toAlong.under (by decide)

theorem catalogueFile_under (s : Settings) :
    Path.Under s.root ["gen", "tmp", "sot", "icons.json"] s.catalogueFile :=
  s.cacheFolder_under.toAlong.under (by decide)

theorem iconsFolder_under (s : Settings) :
    Path.Under s.root ["gen", "tmp", "sot", "icons"] s.iconsFolder :=
  s.cacheFolder_under.toAlong.under (by decide)

/-- The way to an entry of the cache from the folder of drawings. A family without a name has no
folder of its own. -/
def entryPlace (family : String) (i : Icon) : List String :=
  (if family = "" then [] else [family]) ++ [i.entryName]

/-- Entries of different families are in different folders. -/
theorem family_of_entryPlace {family' : String} {i' : Icon}
    (h : entryPlace family i = entryPlace family' i') : family = family' := by
  unfold entryPlace at h
  split at h <;> split at h <;> simp_all

theorem toList_entryName (i : Icon) : i.entryName.toList =
    'v' :: ((toString i.version.toNat).toList ++ '-' :: (i.name.toList ++ ".svg".toList)) := by
  simp [Icon.entryName]

/-- A version is written in digits. -/
theorem not_mem_version {c : Char} (hc : c.isDigit = false) (version : UInt32) :
    c ∉ (toString version.toNat).toList := by
  rw [Nat.toString_eq_repr, Nat.toList_repr]
  intro hm
  have hdigit := Nat.isDigit_of_mem_toDigits (by decide) (by decide) hm
  rw [hc] at hdigit
  cases hdigit

theorem isName_entryName (h : '/' ∉ i.name.toList) : IsName i.entryName := by
  have hne : ∀ t : String, t.toList.head? ≠ some 'v' → i.entryName ≠ t := by
    rintro t ht rfl
    rw [toList_entryName] at ht
    exact ht rfl
  refine ⟨?_, ?_, hne _ (by decide)⟩
  · rw [toList_entryName]
    have hsvg : '/' ∉ ".svg".toList := by decide
    simp only [List.mem_cons, List.mem_append, not_or]
    exact ⟨by decide, not_mem_version (by decide) i.version, by decide, h, hsvg⟩
  · rw [Path.isIdle, Bool.or_eq_false_iff, beq_eq_false_iff_ne, beq_eq_false_iff_ne]
    exact ⟨hne _ (by decide), hne _ (by decide)⟩

/-- A family whose name is that of a folder has this folder. -/
theorem cachePath_under_of_isName (hf : IsName family) (hi : '/' ∉ i.name.toList) :
    Path.Under s.root (["gen", "tmp", "sot", "icons"] ++ ([family] ++ [i.entryName]))
      (s.cachePath family i) := by
  rw [← List.append_assoc]
  exact (s.iconsFolder_under.toAlong.under hf).toAlong.under (isName_entryName hi)

theorem cachePath_under (hf : FamilyName family) (hi : '/' ∉ i.name.toList) :
    Path.Under s.root (["gen", "tmp", "sot", "icons"] ++ entryPlace family i)
      (s.cachePath family i) := by
  unfold entryPlace
  by_cases h : family = ""
  · subst h
    rw [if_pos rfl]
    unfold cachePath
    have hidle : Path.Along s.root ["gen", "tmp", "sot", "icons"] (s.iconsFolder.under "") := by
      have hu := s.iconsFolder_under
      refine ⟨?_, ?_, hu.isName⟩
      · rw [Path.under, Path.isAbsolute_join _ rfl, hu.isAbsolute]
      · rw [Path.under, Path.moves_join _ rfl, hu.moves, Path.moves_empty, List.append_nil]
    exact hidle.under (isName_entryName hi)
  · rw [if_neg h]
    exact cachePath_under_of_isName (isName_of_noDot hf.noSlash hf.noDot h) hi

/-- The path of an entry ends in its name, even if the name of the family leads elsewhere. -/
theorem getLast?_parts_cachePath (s : Settings) (family : String) (h : '/' ∉ i.name.toList) :
    (s.cachePath family i).parts.getLast? = some i.entryName := by
  have hslash := (isName_entryName h).1
  have habsolute : (⟨i.entryName⟩ : Path).isAbsolute = false := by
    rw [Path.isAbsolute, beq_eq_false_iff_ne]
    exact fun he => hslash (List.mem_of_mem_head? he)
  rw [cachePath, Path.under, Path.getLast?_parts_join _ habsolute, Path.parts_of_noSlash hslash]
  rfl

/-- The path of a module ends in a name with the ending, whatever the name of the family. -/
theorem getLast?_parts_moduleFile (family : String) (h : s.extension = "elm") :
    ∃ stem, '/' ∉ stem ∧ (s.moduleFile family).parts.getLast? =
      some (String.ofList (stem ++ ".elm".toList)) := by
  obtain ⟨stem, hstem, hlast⟩ := Naming.getLast?_parts_moduleFile family s.familyLead
  refine ⟨stem, hstem, ?_⟩
  rw [moduleFile, h, Path.under]
  cases habsolute : (⟨Naming.moduleFile family s.familyLead "elm"⟩ : Path).isAbsolute with
  | false => rw [Path.getLast?_parts_join _ habsolute, hlast]
  | true => rw [Path.join, if_pos habsolute, hlast]

/-- The entry of a drawing and the file of a module have different endings. -/
theorem place_cachePath_ne (d : Disk) (hext : s.extension = "elm") (hi : '/' ∉ i.name.toList) :
    d.place (s.cachePath family i) ≠ d.place (s.moduleFile family) := by
  intro he
  obtain ⟨stem, hstem, hmodule⟩ := getLast?_parts_moduleFile family hext
  obtain ⟨folder, hplace⟩ := d.exists_place_eq_concat (isName_entryName hi)
    (getLast?_parts_cachePath s family hi)
  obtain ⟨folder', hplace'⟩ := d.exists_place_eq_concat (Naming.isName_ending hstem) hmodule
  have hsame : i.entryName = String.ofList (stem ++ ".elm".toList) :=
    (List.concat_inj.1 (by simpa using hplace.symm.trans (he.trans hplace'))).2
  have hsvg : i.entryName.toList =
      ("v" ++ toString i.version.toNat ++ "-" ++ i.name ++ ".sv").toList ++ ['g'] := by
    simp [Icon.entryName]
  have helm : (String.ofList (stem ++ ".elm".toList)).toList = (stem ++ ".el".toList) ++ ['m'] := by
    simp
  rw [hsame, helm] at hsvg
  have hlast := (List.append_inj' hsvg rfl).2
  exact absurd hlast (by decide)

/-- In a tree without links, the entry of a drawing never leads to the file of a module. -/
theorem placeToWrite_cachePath_ne {d : Disk} {l : Location} (ht : d.tree.Plain)
    (hext : s.extension = "elm") (hi : '/' ∉ i.name.toList)
    (hl : d.placeToWrite (s.moduleFile family) = .ok l) :
    d.placeToWrite (s.cachePath family i) ≠ .ok l := by
  intro hentry
  exact place_cachePath_ne d hext hi
    ((Disk.placeToWrite_eq ht hentry).2.1.symm.trans (Disk.placeToWrite_eq ht hl).2.1)

/-- The way to a family's module from the folder of all modules. -/
def modulePlace (s : Settings) (family : String) : List String :=
  (⟨Naming.moduleFile family s.familyLead s.extension⟩ : Path).parts

/-- The parts of the way to a module: folders without dots, and a file with the ending. -/
theorem Standard.modulePlace_eq (hs : s.Standard) (hf : FamilyName family) :
    ∃ folders file, s.modulePlace family = folders ++ [file] ∧
      (∀ n ∈ folders, IsName n ∧ '.' ∉ n.toList) ∧ IsName file ∧
      ∃ stem, '.' ∉ stem ∧ file.toList = stem ++ ".elm".toList := by
  unfold modulePlace
  rw [hs.familyLead, hs.extension]
  exact Naming.moduleFile_parts hf

/-- A module lies below nothing whose name has a dot. -/
theorem Standard.modulePlace_ne (hs : s.Standard) (hf : FamilyName family) {n : String}
    (hn : '.' ∈ n.toList) (front : List String) (hne : s.modulePlace family ≠ front ++ [n])
    (rest : List String) : s.modulePlace family ≠ front ++ n :: rest := by
  obtain ⟨folders, file, e, hfolders, -⟩ := hs.modulePlace_eq hf
  rw [e] at hne ⊢
  intro he
  rcases List.eq_nil_or_concat rest with rfl | ⟨rest', last, rfl⟩
  · exact hne he
  · have he' : folders ++ [file] = (front ++ n :: rest') ++ [last] := by simpa using he
    obtain ⟨rfl, -⟩ := List.append_inj' he' rfl
    exact (hfolders n (by simp)).2 hn

theorem Standard.modulePlace_isName (hs : s.Standard) (hf : FamilyName family) :
    ∀ n ∈ s.modulePlace family, IsName n := by
  obtain ⟨folders, file, e, h1, h2, -⟩ := hs.modulePlace_eq hf
  intro n hn
  rw [e] at hn
  rcases List.mem_append.1 hn with hn | hn
  · exact (h1 n hn).1
  · rw [List.mem_singleton.1 hn]
    exact h2

theorem Standard.moduleFile_under (hs : s.Standard) (hf : FamilyName family) :
    Path.Under s.root (["gen", "tmp", "out"] ++ s.modulePlace family) (s.moduleFile family) := by
  have hparts := hs.modulePlace_isName hf
  unfold modulePlace moduleFile Path.under at *
  generalize (⟨Naming.moduleFile family s.familyLead s.extension⟩ : Path) = file at *
  exact s.outFolder_under.toAlong.join (Path.under_parts hparts)

/-! ### The sources -/

theorem sourceFolder_under (s : Settings) : Path.Under s.root ["src"] s.sourceFolder :=
  (Path.Along.refl s.root).under (by decide)

theorem Standard.scaffold_under (hs : s.Standard) :
    Path.Under s.root ["src", "Material"] (s.sourceFolder.join s.scaffold) := by
  rw [hs.scaffold]
  exact s.sourceFolder_under.toAlong.under (by decide)

/-- Where a module written by hand lives. -/
def manualHome (s : Settings) (m : String) : Path :=
  (s.sourceFolder.join s.manualFolder).under m

theorem Standard.manualHome_under (hs : s.Standard) (hm : m ∈ s.manualModules) :
    Path.Under s.root ["src", "Material", "Icons", m] (s.manualHome m) := by
  have hfolder : Path.Under ⟨""⟩ ["Material", "Icons"] s.manualFolder := by
    have hp : s.manualFolder.parts = ["Material", "Icons"] := by
      rw [hs.manualFolder]
      decide
    have h := Path.under_parts (p := s.manualFolder) (by rw [hp]; decide)
    rwa [hp] at h
  exact (s.sourceFolder_under.toAlong.join hfolder).toAlong.under (hs.manual m hm).1

end Settings
end IconModules
