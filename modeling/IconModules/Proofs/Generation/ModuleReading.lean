import IconModules.Proofs.Catalogue
import IconModules.Proofs.Generation.ModuleWriting
import IconModules.Proofs.Naming
import IconModules.Proofs.Renaming
import IconModules.Proofs.Text.Casing
import IconModules.Settings.Presets

/-! # Reading a module back from its text

`ModuleText.exports`, `documentedSymbols` and `definitions` read a module as text, by its first list, by
the lines of its documentation and by the lines that begin at the margin. What they find in the text of
a module is what was written (`exports_moduleText`, `documentedSymbols_moduleText`,
`definitions_moduleText`). -/

namespace IconModules

/-- A name of letters, digits and underscores. -/
def Identifier (n : String) : Prop :=
  n ≠ "" ∧ ∀ c ∈ n.toList, c.isAlphanum = true ∨ c = '_'

instance (n : String) : Decidable (Identifier n) :=
  -- only the characters of the name are tried, not all there are
  have : Decidable (∀ c ∈ n.toList, c.isAlphanum = true ∨ c = '_') := List.decidableBAll _ n.toList
  inferInstanceAs (Decidable (n ≠ "" ∧ _))

theorem Identifier.not_mem {n : String} {c : Char} (h : Identifier n)
    (hc : c.isAlphanum = false ∧ c ≠ '_') : c ∉ n.toList := by
  intro hm
  rcases h.2 c hm with h' | h'
  · rw [hc.1] at h'
    cases h'
  · exact hc.2 h'

namespace ModuleText

/-! ### The reader -/

/-- The text behind the word that opens the list of exports. -/
def opened (text : String) : List Char :=
  Text.behind " exposing (".toList (text.toList.drop "module ".toList.length)

/-- The names in the list of exports. -/
def exports (text : String) : List String :=
  Text.listed ((opened text).takeWhile (· != ')'))

/-- The lines from the end of the list of exports on. -/
def body (text : String) : List String :=
  Text.lines (String.ofList ((opened text).dropWhile (· != ')')))

/-- The lines of the documentation. -/
def comment (text : String) : List String :=
  ((body text).dropWhile (· != "\x7b-|")).takeWhile (· != "-\x7d")

/-- The names on a line of the documentation. -/
def namesOnLine (line : String) : List String :=
  if "@docs ".toList.isPrefixOf line.toList then
    Text.listed (line.toList.drop "@docs ".toList.length)
  else []

/-- The names that are documented. -/
def documentedSymbols (text : String) : List String :=
  (comment text).flatMap namesOnLine

/-- Whether a line is one of the import lines or empty. -/
def isImport (line : String) : Bool :=
  line == "" || "import ".toList.isPrefixOf line.toList

/-- Whether a line begins at the margin. -/
def atMargin (line : String) : Bool :=
  line.toList.head?.any (· != ' ')

/-- The lines behind the imports that begin at the margin. -/
def definitions (text : String) : List String :=
  ((((body text).dropWhile (· != "-\x7d")).drop 1).dropWhile isImport).filter atMargin

/-! ### The lines of the pieces -/

/-- The lines of the documentation of some symbols. -/
def docsLines (layout : DocStyle) (symbols : List String) : List String :=
  match layout with
  | .onePerLine => symbols.map ("@docs " ++ ·)
  | .joined => if symbols.isEmpty then [] else ["@docs " ++ ", ".intercalate symbols]

/-- The lines at the margin of the definition of an icon. -/
def marginLines (symbol signature : String) : List String :=
  ["\x7b-|-\x7d", symbol ++ " : " ++ signature, symbol ++ " ="]

/-- The lines of the definition of an icon. -/
def blockLines (symbol signature code : String) : List String :=
  "" :: "" :: marginLines symbol signature ++ Text.lines ("    " ++ code)

variable {symbol signature code line : String} {symbols : List String} {layout : DocStyle}

/-- A list of names holds no other characters than theirs, commas and spaces. -/
theorem not_mem_intercalate {c : Char} (hc : c.isAlphanum = false ∧ c ≠ '_' ∧ c ≠ ',' ∧ c ≠ ' ')
    (h : ∀ n ∈ symbols, Identifier n) : c ∉ (", ".intercalate symbols).toList := by
  have hsep : ", ".toList = [',', ' '] := by decide
  rw [String.toList_intercalate, hsep]
  induction symbols with
  | nil => simp
  | cons n symbols ih =>
    have hn := (h n List.mem_cons_self).not_mem ⟨hc.1, hc.2.1⟩
    have hrest := ih fun m hm => h m (List.mem_cons_of_mem _ hm)
    cases symbols with
    | nil => simpa using hn
    | cons m symbols =>
      rw [List.map_cons, List.map_cons, List.intercalate_cons_cons]
      simp only [List.map_cons] at hrest
      simp [hn, hrest, hc]

theorem whole_docs (h : ∀ n ∈ symbols, Identifier n) :
    Text.Whole (docs layout symbols) (docsLines layout symbols) := by
  have hdocs : '\n' ∉ "@docs ".toList := by decide
  cases layout with
  | onePerLine =>
    have hjoin : Text.Whole (docs .onePerLine symbols) (symbols.flatMap fun n => ["@docs " ++ n]) := by
      refine Text.whole_join fun n hn => Text.whole_line ?_
      rw [String.toList_append, List.mem_append, not_or]
      exact ⟨hdocs, (h n hn).not_mem (by decide)⟩
    have hlines : symbols.flatMap (fun n => ["@docs " ++ n]) = symbols.map ("@docs " ++ ·) :=
      List.flatMap_pure_eq_map _ _
    rwa [hlines] at hjoin
  | joined =>
    unfold docs docsLines
    dsimp only
    split
    · exact Text.whole_empty
    · refine Text.whole_line ?_
      rw [String.toList_append, List.mem_append, not_or]
      exact ⟨hdocs, not_mem_intercalate (by decide) h⟩

theorem namesOnLine_docs (h : ∀ n ∈ symbols, Identifier n) :
    namesOnLine ("@docs " ++ ", ".intercalate symbols) = symbols := by
  have hstart : "@docs ".toList.isPrefixOf ("@docs " ++ ", ".intercalate symbols).toList = true := by
    rw [String.toList_append, List.isPrefixOf_iff_prefix]
    exact List.prefix_append _ _
  rw [namesOnLine, if_pos hstart, String.toList_append, List.drop_left]
  exact Text.listed_intercalate fun n hn => ⟨(h n hn).1, (h n hn).not_mem (by decide)⟩

/-- Under either layout, the names on the lines are those that were written. -/
theorem flatMap_docsLines (h : ∀ n ∈ symbols, Identifier n) :
    (docsLines layout symbols).flatMap namesOnLine = symbols := by
  cases layout with
  | onePerLine =>
    unfold docsLines
    rw [List.flatMap_map]
    have hone : ∀ n ∈ symbols, namesOnLine ("@docs " ++ n) = [n] := by
      intro n hn
      have hn' : ∀ m ∈ [n], Identifier m := fun m hm => List.mem_singleton.1 hm ▸ h n hn
      have hlist := namesOnLine_docs hn'
      rwa [String.intercalate_singleton] at hlist
    rw [List.flatMap_congr hone, List.flatMap_singleton']
  | joined =>
    unfold docsLines
    dsimp only
    split
    · rename_i hempty
      rw [List.isEmpty_iff.1 hempty]
      rfl
    · rw [List.flatMap_singleton, namesOnLine_docs h]

theorem atMargin_symbol (h : Identifier symbol) (rest : String) : atMargin (symbol ++ rest) = true := by
  obtain ⟨c, cs, hc⟩ : ∃ c cs, symbol.toList = c :: cs :=
    List.exists_cons_of_ne_nil (by simpa using h.1)
  have hspace : ' ' ∉ symbol.toList := h.not_mem (by decide)
  rw [hc, List.mem_cons, not_or] at hspace
  simp [atMargin, hc, Ne.symm hspace.1]

/-- Finished code behind an indentation has no line at the margin. -/
theorem atMargin_code (h : Text.Hanging code.toList) (hl : line ∈ Text.lines ("    " ++ code)) :
    atMargin line = false := by
  have hindent : "    ".toList = [' ', ' ', ' ', ' '] := by decide
  have hbroken : Text.Hanging ("\n" ++ ("    " ++ code)).toList := by
    intro rest hrest
    have e : ("\n" ++ ("    " ++ code)).toList = '\n' :: ' ' :: ' ' :: ' ' :: ' ' :: code.toList := by
      simp [hindent]
    rw [e] at hrest
    rcases List.suffix_cons_iff.1 hrest with he | hrest
    · rw [(List.cons.inj he).2]
      rfl
    · have hblanks : '\n' ∉ [' ', ' ', ' ', ' '] := by decide
      exact h rest (Text.suffix_of_noBreak hblanks hrest)
  have hhead : line.toList.head? = some ' ' := by
    refine hbroken.lines ?_
    rw [Text.whole_break]
    exact hl
  simp [atMargin, hhead]

/-- The names of a definition are at the margin, and nothing that the translator answers is. -/
theorem filter_blockLines (hs : Identifier symbol) (hcode : Text.Hanging code.toList) :
    (blockLines symbol signature code).filter atMargin = marginLines symbol signature := by
  have hcode : (Text.lines ("    " ++ code)).filter atMargin = [] :=
    List.filter_eq_nil_iff.2 fun line hl => by simp [atMargin_code hcode hl]
  have htype : atMargin (symbol ++ " : " ++ signature) = true := by
    rw [String.append_assoc]
    exact atMargin_symbol hs _
  have hmark : atMargin "\x7b-|-\x7d" = true := by decide
  have hblank : atMargin "" = false := by decide
  rw [blockLines, List.filter_append, hcode]
  simp [marginLines, htype, hmark, hblank, atMargin_symbol hs " ="]

theorem whole_block (hs : Identifier symbol) (hsig : '\n' ∉ signature.toList) (code : String) :
    Text.Whole (block symbol signature code) (blockLines symbol signature code) := by
  have hbreak : '\n' ∉ symbol.toList := hs.not_mem (by decide)
  have hmark : '\n' ∉ "\x7b-|-\x7d".toList := by decide
  have htype : '\n' ∉ (symbol ++ " : " ++ signature).toList := by
    simp [hbreak, hsig]
  have hname : '\n' ∉ (symbol ++ " =").toList := by
    simp [hbreak]
  have hwhole := ((((Text.whole_break.append Text.whole_break).append (Text.whole_line hmark)).append
    (Text.whole_line htype)).append (Text.whole_line hname)).append
    (Text.whole_lines ("    " ++ code))
  have hsplit : "\n" ++ "\n" ++ ("\x7b-|-\x7d" ++ "\n") ++ (symbol ++ " : " ++ signature ++ "\n") ++
      (symbol ++ " =" ++ "\n") ++ ("    " ++ code ++ "\n") = block symbol signature code := by
    unfold block
    rw [← String.toList_inj]
    simp
  rw [hsplit] at hwhole
  exact hwhole

/-! ### Headings -/

/-- A heading is one line if the name of the category is. -/
theorem noBreak_title {category : String} (h : '\n' ∉ category.toList) :
    '\n' ∉ (Naming.title category).toList := by
  have hspaced : '\n' ∉ (Text.replace "_" " " category).toList := by
    rw [Text.replace, String.toList_ofList]
    intro hm
    exact (Naming.mem_replaceSpans hm).elim h (by decide)
  have htrimmed : '\n' ∉ (Text.trimStart (Text.replace "_" " " category)).toList := by
    rw [Text.trimStart, String.toList_ofList]
    exact fun hm => hspaced ((List.dropWhile_suffix _).subset hm)
  have hcut : '\n' ∉ (Naming.dropIdEnding (Text.trimStart (Text.replace "_" " " category))).toList := by
    generalize Text.trimStart (Text.replace "_" " " category) = t at htrimmed
    unfold Naming.dropIdEnding
    split
    · rename_i rest hrest
      rw [String.toList_ofList]
      intro hm
      refine htrimmed (List.mem_reverse.1 ?_)
      rw [hrest]
      simp [List.mem_reverse.1 hm]
    · exact htrimmed
  have hsmall : '\n' ∉ Text.lowerFrom [] _ :=
    Text.caseless_lineBreak.not_mem_lowerFrom hcut
  unfold Naming.title Text.capitalize Text.lowerCase
  split
  · rw [String.toList_ofList]
    exact hsmall
  · rename_i c cs hc
    rw [String.toList_ofList] at hc
    rw [hc, List.mem_cons, not_or] at hsmall
    rw [String.toList_ofList, List.mem_append, not_or]
    exact ⟨Text.caseless_lineBreak.not_mem_upperChar (Ne.symm hsmall.1), hsmall.2⟩

/-! ### The parts of a module -/

/-- The lines of the section of a category. -/
def sectionLines (layout : DocStyle) (category : String) (symbols : List String) : List String :=
  ["", "# " ++ Naming.title category, ""] ++ docsLines layout symbols

theorem whole_heading {category : String} (h : '\n' ∉ category.toList) :
    Text.Whole (heading category) ["", "# " ++ Naming.title category, ""] := by
  have htitle : '\n' ∉ ("# " ++ Naming.title category).toList := by
    simp [noBreak_title h]
  have hwhole := (Text.whole_break.append (Text.whole_line htitle)).append Text.whole_break
  have hsplit : "\n" ++ ("# " ++ Naming.title category ++ "\n") ++ "\n" = heading category := by
    rw [← String.toList_inj]
    simp [heading]
  rwa [hsplit] at hwhole

/-- No line of a section looks like the end of the documentation. -/
theorem end_not_mem_sectionLines {category : String} (hl : line ∈ sectionLines layout category symbols) :
    line ≠ "-\x7d" := by
  have hdocs : ∀ t, "@docs " ++ t ≠ "-\x7d" := by
    intro t he
    have he' := congrArg String.toList he
    simp at he'
  have hheading : ∀ t, "# " ++ t ≠ "-\x7d" := by
    intro t he
    have he' := congrArg String.toList he
    simp at he'
  have hempty : "" ≠ "-\x7d" := by decide
  rcases List.mem_append.1 hl with hl | hl
  · simp only [List.mem_cons, List.not_mem_nil, or_false] at hl
    rcases hl with rfl | rfl | rfl
    · exact hempty
    · exact hheading _
    · exact hempty
  · unfold docsLines at hl
    cases layout with
    | onePerLine =>
      obtain ⟨n, -, rfl⟩ := List.mem_map.1 hl
      exact hdocs n
    | joined =>
      dsimp only at hl
      split at hl
      · exact absurd hl List.not_mem_nil
      · rw [List.mem_singleton.1 hl]
        exact hdocs _

theorem flatMap_sectionLines {category : String} (h : ∀ n ∈ symbols, Identifier n) :
    (sectionLines layout category symbols).flatMap namesOnLine = symbols := by
  have hempty : namesOnLine "" = [] := by decide
  have hheading : namesOnLine ("# " ++ Naming.title category) = [] := by
    rw [namesOnLine, if_neg]
    simp
  rw [sectionLines, List.flatMap_append, flatMap_docsLines h]
  simp [hempty, hheading]

/-- What is read behind the word that opens the list of exports. -/
theorem opened_header {name : String} (h : ' ' ∉ name.toList) (rest : String) :
    opened (header name symbols ++ rest) =
      (", ".intercalate symbols).toList ++ (")" ++ ("\n\n\x7b-|\n" ++ rest)).toList := by
  have hword : " exposing (".toList = ' ' :: "exposing (".toList := by decide
  have hsplit : (header name symbols ++ rest).toList = "module ".toList ++ (name.toList ++
      (" exposing (".toList ++
        ((", ".intercalate symbols).toList ++ (")" ++ ("\n\n\x7b-|\n" ++ rest)).toList))) := by
    simp [header]
  rw [opened, hsplit, List.drop_left, hword, Text.behind_append h]

/-- Where the lines end that begin at the margin and are not imports, the imports end. -/
theorem filter_dropWhile_isImport {ls : List String}
    (h : ∀ line, (ls.filter atMargin).head? = some line → isImport line = false) :
    (ls.dropWhile isImport).filter atMargin = ls.filter atMargin := by
  induction ls with
  | nil => rfl
  | cons l ls ih =>
    cases hl : isImport l with
    | false => rw [List.dropWhile_cons_of_neg (by simp [hl])]
    | true =>
      rw [List.dropWhile_cons_of_pos hl]
      by_cases hm : atMargin l = true
      · rw [List.filter_cons_of_pos hm] at h
        rw [h l rfl] at hl
        cases hl
      · rw [List.filter_cons_of_neg hm] at h ⊢
        exact ih h

end ModuleText
/-! ### Whole modules -/

/-- Settings with which a module can be read back: names in the table of exceptions, one line for the
type, import lines only. -/
structure Settings.Readable (s : Settings) : Prop where
  indent : s.indent = "    "
  digitNames : ∀ x ∈ s.digitNames, Identifier x.2
  signature : '\n' ∉ s.signature.toList
  preamble : ∃ imports, s.preamble = imports ++ "\n" ∧
    ∀ line ∈ Text.lines imports, ModuleText.isImport line = true

namespace Edition

theorem identifier_digitNames (e : Edition) : ∀ x ∈ e.digitNames, Identifier x.2 := by
  cases e <;> decide

theorem noBreak_signature (e : Edition) : '\n' ∉ e.signature.toList := by
  cases e <;> decide

theorem append_ofList {t u : String} {x y : List Char} (ht : t = String.ofList x)
    (hu : u = String.ofList y) : t ++ u = String.ofList (x ++ y) := by
  rw [ht, hu, String.ofList_append]

/-- The characters of the imports, taken from the literals: so the kernel need not decode them. -/
theorem characters_preamble (e : Edition) :
    ∃ cs, e.preamble = String.ofList cs ∧ cs = cs.dropLast ++ ['\n'] ∧
      ∀ q ∈ cs.dropLast.splitOn '\n', ['i', 'm', 'p', 'o', 'r', 't', ' '] <+: q := by
  cases e
  · refine ⟨_, append_ofList (append_ofList (append_ofList (append_ofList rfl rfl) rfl) rfl) rfl, ?_⟩
    decide +kernel
  · refine ⟨_, append_ofList (append_ofList (append_ofList (append_ofList rfl rfl) rfl) rfl) rfl, ?_⟩
    decide +kernel

theorem isImport_preamble (e : Edition) : ∃ imports, e.preamble = imports ++ "\n" ∧
    ∀ line ∈ Text.lines imports, ModuleText.isImport line = true := by
  obtain ⟨cs, hcs, hlast, himport⟩ := e.characters_preamble
  refine ⟨String.ofList cs.dropLast, ?_, fun line hl => ?_⟩
  · rw [hcs, hlast, String.ofList_append, List.dropLast_concat]
  · rw [Text.lines, String.toList_ofList] at hl
    obtain ⟨q, hq, rfl⟩ := List.mem_map.1 hl
    have hword : "import ".toList = ['i', 'm', 'p', 'o', 'r', 't', ' '] := by decide
    rw [ModuleText.isImport, hword, String.toList_ofList,
      List.isPrefixOf_iff_prefix.2 (himport q hq), Bool.or_true]

end Edition

theorem Settings.readable_preset (e : Edition) (root : Path) : (preset e root).Readable :=
  ⟨rfl, e.identifier_digitNames, e.noBreak_signature, e.isImport_preamble⟩

namespace Assembly

open ModuleText

variable {s : Settings} {family : String} {catalogue : Catalogue} {i : Icon} {names : List String}
  {categories : List Category} {definitions : List (Icon × String)}

theorem identifier_symbolOf (hs : s.Readable) (hi : Identifier i.name) (h : HasSymbol s i) :
    Identifier (symbolOf s i) := by
  unfold HasSymbol at h
  unfold symbolOf
  unfold Naming.symbol? at h ⊢
  split
  · rename_i mapped hm
    obtain ⟨l₁, l₂, hl, -⟩ := List.lookup_eq_some_iff.1 hm
    exact hs.digitNames (i.name, mapped) (by simp [hl])
  · rename_i hm
    rw [hm] at h
    split
    · rename_i hd
      simp [hd] at h
    · exact hi

/-- The symbol of an icon depends on its name only. -/
theorem identifier_of_documented {icons : List Icon} {c : Category} {n : String}
    (h : ∀ i ∈ icons, Identifier (symbolOf s i))
    (hn : n ∈ (documented (icons.map (·.name)) c).map (symbolOf s)) : Identifier n := by
  obtain ⟨i, hi, rfl⟩ := List.mem_map.1 hn
  rw [documented, List.mem_mergeSort, List.mem_filter, List.contains_iff_mem, List.mem_map] at hi
  obtain ⟨-, j, hj, he⟩ := hi
  have hsame : symbolOf s i = symbolOf s j := by
    unfold symbolOf
    rw [he]
  rw [hsame]
  exact h j hj

/-- The lines of the section of a category in the module of some icons. -/
def categoryLines (s : Settings) (icons : List Icon) (c : Category) : List String :=
  sectionLines s.docStyle c.name ((documented (icons.map (·.name)) c).map (symbolOf s))

theorem noEnd_categoryLines (s : Settings) (icons : List Icon) (categories : List Category) :
    ∀ line ∈ categories.flatMap (categoryLines s icons), (line != "-\x7d") = true := by
  intro line hl
  obtain ⟨c, -, hl⟩ := List.mem_flatMap.1 hl
  rw [bne_iff_ne]
  exact end_not_mem_sectionLines hl

/-- The lines of one definition. -/
def definitionLines (s : Settings) (x : Icon × String) : List String :=
  blockLines (symbolOf s x.1) s.signature x.2

theorem whole_section {icons : List Icon} {c : Category} (hc : '\n' ∉ c.name.toList)
    (h : ∀ i ∈ icons, Identifier (symbolOf s i)) :
    Text.Whole (sectionText s (icons.map (·.name)) c) (categoryLines s icons c) :=
  (whole_heading hc).append (whole_docs fun _ hn => identifier_of_documented h hn)

/-- The spaces of a family are left out of the name of its module. -/
theorem noSpace_moduleName (s : Settings) (family : String) :
    ' ' ∉ (s.moduleName family).toList := by
  have hspace : " ".toList = [' '] := by decide
  have hempty : "".toList = [] := by decide
  rw [Settings.moduleName, Naming.moduleName, Naming.joinWords, Text.replace, String.toList_ofList,
    hspace, hempty, Naming.replaceSpans_space]
  intro hm
  simpa using (List.mem_filter.1 hm).2

section

variable (hs : s.Readable) (hcategories : ∀ c ∈ categories, '\n' ∉ c.name.toList)
  (hdefinitions : ∀ x ∈ definitions, Identifier (symbolOf s x.1))
  (hsymbols : ∀ i ∈ catalogue.supported family, Identifier (symbolOf s i))
include hsymbols

/-- Where the list of exports of a module ends. -/
theorem opened_moduleText (categories : List Category) (definitions : List (Icon × String)) :
    ∃ list, (∀ c ∈ list, (c != ')') = true) ∧ Text.listed list = (catalogue.supported family).map (symbolOf s) ∧
      opened (moduleText s family catalogue categories definitions) = list ++
        (")" ++ ("\n\n\x7b-|\n" ++ (String.join (categories.map
            (sectionText s ((catalogue.supported family).map (·.name)))) ++
          (ModuleText.imports s.preamble ++ String.join (definitions.map (blockText s)))))).toList := by
  have hlist : ∀ n ∈ (catalogue.supported family).map (symbolOf s), Identifier n := by
    intro n hn
    obtain ⟨i, hi, rfl⟩ := List.mem_map.1 hn
    exact hsymbols i hi
  refine ⟨(", ".intercalate ((catalogue.supported family).map (symbolOf s))).toList,
    fun c hc => ?_, ?_, ?_⟩
  · rw [bne_iff_ne]
    rintro rfl
    exact not_mem_intercalate (by decide) hlist hc
  · exact Text.listed_intercalate fun n hn =>
      ⟨(hlist n hn).1, (hlist n hn).not_mem (by decide)⟩
  · unfold moduleText
    rw [String.append_assoc, String.append_assoc, opened_header (noSpace_moduleName s family)]

/-- The exports of a module are the symbols of the icons drawn for the family. -/
theorem exports_moduleText :
    exports (moduleText s family catalogue categories definitions) =
      (catalogue.supported family).map (symbolOf s) := by
  obtain ⟨list, hinside, hlisted, hopened⟩ := opened_moduleText hsymbols categories definitions
  have hparenthesis : ")".toList = [')'] := by decide
  rw [exports, hopened, List.takeWhile_append_of_pos hinside, String.toList_append, hparenthesis,
    List.singleton_append, List.takeWhile_cons_of_neg (by simp), List.append_nil, hlisted]

include hs hcategories hdefinitions

/-- The lines of a module behind its exports: documentation, imports, definitions. -/
theorem body_moduleText :
    ∃ imports, (∀ line ∈ imports, isImport line = true) ∧
      body (moduleText s family catalogue categories definitions) =
        ")" :: "" :: "\x7b-|" ::
          (categories.flatMap (categoryLines s (catalogue.supported family)) ++
            "-\x7d" :: (imports ++ (definitions.flatMap (definitionLines s) ++ [""]))) := by
  obtain ⟨list, hinside, -, hopened⟩ := opened_moduleText hsymbols categories definitions
  obtain ⟨imports, himports, himport⟩ := hs.preamble
  refine ⟨"" :: Text.lines imports, List.forall_mem_cons.2 ⟨by decide, himport⟩, ?_⟩
  have hparenthesis : ")".toList = [')'] := by decide
  have hclose : '\n' ∉ ")".toList := by decide
  have hopen : '\n' ∉ "\x7b-|".toList := by decide
  have hend : '\n' ∉ "-\x7d".toList := by decide
  have hsections := Text.whole_join fun c hc => whole_section (hcategories c hc) hsymbols
  have hblocks : Text.Whole _ (definitions.flatMap (definitionLines s)) :=
    Text.whole_join fun x hx => whole_block (hdefinitions x hx) hs.signature x.2
  have hwhole := (((((((Text.whole_line hclose).append Text.whole_break).append
    (Text.whole_line hopen)).append hsections).append (Text.whole_line hend)).append
    Text.whole_break).append (Text.whole_lines imports)).append hblocks
  rw [body, hopened, List.dropWhile_append_of_pos hinside, String.toList_append, hparenthesis,
    List.singleton_append, List.dropWhile_cons_of_neg (by simp)]
  have hlines := hwhole.lines
  have hsplit : String.ofList (')' :: ("\n\n\x7b-|\n" ++ (String.join (categories.map
        (sectionText s ((catalogue.supported family).map (·.name)))) ++
      (ModuleText.imports s.preamble ++ String.join (definitions.map (blockText s))))).toList) =
    ")" ++ "\n" ++ "\n" ++ ("\x7b-|" ++ "\n") ++ String.join (categories.map
        (sectionText s ((catalogue.supported family).map (·.name)))) ++ ("-\x7d" ++ "\n") ++ "\n" ++
      (imports ++ "\n") ++ String.join (definitions.map (blockText s)) := by
    rw [← String.toList_inj]
    simp [ModuleText.imports, himports]
  rw [hsplit]
  refine hlines.trans ?_
  simp

/-- The symbols that are documented are those of the sections. -/
theorem documentedSymbols_moduleText :
    documentedSymbols (moduleText s family catalogue categories definitions) =
      (categories.flatMap (documented ((catalogue.supported family).map (·.name)))).map
        (symbolOf s) := by
  obtain ⟨imports, -, hbody⟩ := body_moduleText hs hcategories hdefinitions hsymbols
  have hsections := noEnd_categoryLines s (catalogue.supported family) categories
  have hcomment : comment (moduleText s family catalogue categories definitions) =
      "\x7b-|" :: categories.flatMap (categoryLines s (catalogue.supported family)) := by
    rw [comment, hbody, List.dropWhile_cons_of_pos (by decide), List.dropWhile_cons_of_pos (by decide),
      List.dropWhile_cons_of_neg (by decide), List.takeWhile_cons_of_pos (by decide),
      List.takeWhile_append_of_pos hsections, List.takeWhile_cons_of_neg (by decide), List.append_nil]
  have hopen : namesOnLine "\x7b-|" = [] := by decide
  rw [documentedSymbols, hcomment, List.flatMap_cons, hopen, List.nil_append, List.flatMap_assoc,
    List.map_flatMap]
  refine List.flatMap_congr fun c _ => ?_
  exact flatMap_sectionLines fun n hn => identifier_of_documented hsymbols hn

/-- At the margin behind the imports stand the definitions, each in three lines. -/
theorem definitions_moduleText (hcode : ∀ x ∈ definitions, Text.Hanging x.2.toList) :
    ModuleText.definitions (moduleText s family catalogue categories definitions) =
      (definitions.map Prod.fst).flatMap fun i => marginLines (symbolOf s i) s.signature := by
  obtain ⟨imports, himports, hbody⟩ := body_moduleText hs hcategories hdefinitions hsymbols
  have hsections := noEnd_categoryLines s (catalogue.supported family) categories
  have hlines : (definitions.flatMap (definitionLines s) ++ [""]).filter atMargin =
      (definitions.map Prod.fst).flatMap fun i => marginLines (symbolOf s i) s.signature := by
    have hblank : [""].filter atMargin = [] := by decide
    rw [List.filter_append, hblank, List.append_nil, List.filter_flatMap, List.flatMap_map]
    exact List.flatMap_congr fun x hx => filter_blockLines (hdefinitions x hx) (hcode x hx)
  rw [ModuleText.definitions, hbody, List.dropWhile_cons_of_pos (by decide),
    List.dropWhile_cons_of_pos (by decide), List.dropWhile_cons_of_pos (by decide),
    List.dropWhile_append_of_pos hsections, List.dropWhile_cons_of_neg (by decide), List.drop_one,
    List.tail_cons, List.dropWhile_append_of_pos himports, filter_dropWhile_isImport, hlines]
  intro line hl
  rw [hlines] at hl
  cases definitions with
  | nil => cases hl
  | cons x definitions =>
    obtain rfl := Option.some.inj hl
    decide

end

end Assembly
end IconModules
