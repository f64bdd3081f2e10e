import IconModules.Proofs.Naming
import Mathlib.Data.List.TakeWhile

/-! # The name of a module and the place of its file agree

`Naming.moduleName` and `Naming.moduleFile` carry out the same three replacements with different separators.

* Turning each dot into a slash commutes with each replacement: with all occurrences of some words in a
  text without dots (`map_replaceSpans`), with the first space (`map_replaceFirst`), and with leaving out
  the spaces. So it turns the name into the path (`map_joinWords`).
* None of the replacements changes what is left when spaces and separators are left out
  (`filter_joinWords`). So the name of a module determines the family up to its spaces.
* `moduleFile_agrees` says both. -/

namespace IconModules

namespace Text

variable {c : Char} {f : Char → Char} {p : Char → Bool} {word put cs : List Char} {s s' t t' : String}

theorem toList_replace (word put s : String) : (replace word put s).toList =
    replaceSpans (wordSpan word.toList) put.toList 0 s.toList :=
  String.toList_ofList

/-! ### Changing characters -/

/-- A change that leaves the text as it is only concerns what is put into it. -/
theorem map_replaceSpans (h : ∀ c ∈ cs, f c = c) (span : List Char → Option Nat) (put : List Char)
    (n : Nat) : (replaceSpans span put n cs).map f = replaceSpans span (put.map f) n cs := by
  induction cs generalizing n with
  | nil => simp
  | cons c cs ih =>
    have ih := ih fun d hd => h d (List.mem_cons_of_mem _ hd)
    cases n with
    | succ n => exact ih n
    | zero =>
      unfold replaceSpans
      split
      · rw [List.map_append, ih]
      · rw [List.map_cons, ih, h c List.mem_cons_self]

theorem replaceFirst_of_not_mem (h : c ∉ s.toList) (put : String) : replaceFirst c put s = s := by
  have hdrop : s.toList.dropWhile (· != c) = [] :=
    List.dropWhile_eq_nil_iff.2 fun d hd => bne_iff_ne.2 (ne_of_mem_of_not_mem hd h)
  simp only [replaceFirst, hdrop]

theorem toList_replaceFirst {front back : List Char} (h : s.toList = front ++ c :: back)
    (hfront : c ∉ front) (put : String) :
    (replaceFirst c put s).toList = front ++ put.toList ++ back := by
  have hpos : ∀ d ∈ front, (d != c) = true := fun d hd => bne_iff_ne.2 fun he => hfront (he ▸ hd)
  have htake : s.toList.takeWhile (· != c) = front := by
    rw [h, List.takeWhile_append_of_pos hpos]
    simp
  have hdrop : s.toList.dropWhile (· != c) = c :: back := by
    rw [h, List.dropWhile_append_of_pos hpos]
    simp
  simp only [replaceFirst, hdrop, htake, String.toList_ofList]

/-- A change that makes no further space and loses none is the same before and after the first one is
replaced. -/
theorem map_replaceFirst (hf : ∀ d, f d = c ↔ d = c) (hs : s.toList.map f = s'.toList)
    (ht : t.toList.map f = t'.toList) :
    (replaceFirst c t s).toList.map f = (replaceFirst c t' s').toList := by
  have hmem : ∀ cs : List Char, c ∈ cs.map f ↔ c ∈ cs := fun cs => by simp [hf]
  by_cases hc : c ∈ s.toList
  · obtain ⟨front, back, he, hfront⟩ := List.eq_append_cons_of_mem hc
    have he' : s'.toList = front.map f ++ c :: back.map f := by
      rw [← hs, he, List.map_append, List.map_cons, (hf c).2 rfl]
    rw [toList_replaceFirst he hfront, toList_replaceFirst he' (mt (hmem front).1 hfront),
      List.map_append, List.map_append, ht]
  · have hc' : c ∉ s'.toList := hs ▸ mt (hmem _).1 hc
    rw [replaceFirst_of_not_mem hc, replaceFirst_of_not_mem hc', hs]

/-! ### Leaving out characters -/

/-- What is left is the same if the same is left of the word and of what is put in its place. -/
theorem filter_replaceSpans (h : put.filter p = word.filter p) (n : Nat) (cs : List Char) :
    (replaceSpans (wordSpan word) put n cs).filter p = (cs.drop n).filter p := by
  induction cs generalizing n with
  | nil => simp
  | cons c cs ih =>
    cases n with
    | succ n => exact ih n
    | zero =>
      unfold replaceSpans
      split
      · rename_i n hspan
        obtain ⟨hword, hlength⟩ : word <+: c :: cs ∧ word.length = n + 1 := by
          simpa [wordSpan] using hspan
        obtain ⟨rest, hrest⟩ := hword
        have hdrop : cs.drop n = rest := by
          rw [← List.drop_succ_cons (a := c), ← hrest, ← hlength, List.drop_left]
        rw [List.filter_append, ih, h, hdrop, ← List.filter_append, hrest, List.drop_zero]
      · rw [List.filter_cons, List.drop_zero, List.filter_cons, ih, List.drop_zero]

theorem filter_replaceFirst (hc : p c = false) (ht : t.toList.filter p = []) (s : String) :
    (replaceFirst c t s).toList.filter p = s.toList.filter p := by
  by_cases hm : c ∈ s.toList
  · obtain ⟨front, back, he, hfront⟩ := List.eq_append_cons_of_mem hm
    rw [toList_replaceFirst he hfront, he]
    simp [ht, hc]
  · rw [replaceFirst_of_not_mem hm]

end Text

namespace Naming

variable {family lead : String} {p : Char → Bool}

/-- Putting nothing in the place of the spaces leaves them out. -/
theorem toList_replace_space (s : String) :
    (Text.replace " " "" s).toList = s.toList.filter (· != ' ') := by
  have hspace : " ".toList = [' '] := by decide
  have hempty : "".toList = [] := by decide
  rw [Text.toList_replace, hspace, hempty, replaceSpans_space]

theorem toList_joinWords (family lead separator : String) : (joinWords family lead separator).toList =
    (Text.replaceFirst ' ' separator
      (Text.replace lead (Text.replace " " separator lead) family)).toList.filter (· != ' ') :=
  toList_replace_space _

/-- A dot as a slash, and every other character as it is. -/
def slashed (c : Char) : Char :=
  if c = '.' then '/' else c

theorem slashed_eq_space_iff (c : Char) : slashed c = ' ' ↔ c = ' ' := by
  unfold slashed
  split
  · rename_i h
    simp [h]
  · exact Iff.rfl

theorem slashed_of_noDot {cs : List Char} (h : '.' ∉ cs) : ∀ c ∈ cs, slashed c = c :=
  fun _ hc => if_neg (ne_of_mem_of_not_mem hc h)

/-- Joining words with dots and with slashes runs in parallel. -/
theorem map_joinWords (hfamily : '.' ∉ family.toList) (hlead : '.' ∉ lead.toList) :
    (joinWords family lead ".").toList.map slashed = (joinWords family lead "/").toList := by
  have hdot : ".".toList.map slashed = "/".toList := by decide
  have hput : (Text.replace " " "." lead).toList.map slashed = (Text.replace " " "/" lead).toList := by
    rw [Text.toList_replace, Text.map_replaceSpans (slashed_of_noDot hlead), hdot, Text.toList_replace]
  have hled : (Text.replace lead (Text.replace " " "." lead) family).toList.map slashed =
      (Text.replace lead (Text.replace " " "/" lead) family).toList := by
    rw [Text.toList_replace, Text.map_replaceSpans (slashed_of_noDot hfamily), hput]
    exact (Text.toList_replace _ _ _).symm
  have hkept : (fun c => c != ' ') ∘ slashed = fun c => c != ' ' := by
    funext c
    rw [Function.comp_apply, Bool.eq_iff_iff, bne_iff_ne, bne_iff_ne, Ne, Ne, slashed_eq_space_iff]
  rw [toList_joinWords, toList_joinWords, ← Text.map_replaceFirst slashed_eq_space_iff hled hdot,
    List.filter_map, hkept]

/-- Joining words changes nothing but spaces and separators. -/
theorem filter_joinWords {separator : String} (hspace : p ' ' = false)
    (hseparator : separator.toList.filter p = []) (family lead : String) :
    (joinWords family lead separator).toList.filter p = family.toList.filter p := by
  have hword : separator.toList.filter p = " ".toList.filter p := by
    have he : " ".toList = [' '] := by decide
    simp [hseparator, he, hspace]
  have hput : (Text.replace " " separator lead).toList.filter p = lead.toList.filter p := by
    rw [Text.toList_replace, Text.filter_replaceSpans hword, List.drop_zero]
  have hkept : ∀ cs : List Char, (cs.filter (· != ' ')).filter p = cs.filter p := by
    intro cs
    rw [List.filter_filter]
    refine List.filter_congr fun c _ => ?_
    by_cases hc : c = ' '
    · simp [hc, hspace]
    · simp [hc]
  rw [toList_joinWords, hkept, Text.filter_replaceFirst hspace hseparator, Text.toList_replace,
    Text.filter_replaceSpans hput, List.drop_zero]

theorem not_mem_joinWords (family lead separator : String) :
    ' ' ∉ (joinWords family lead separator).toList := by
  rw [toList_joinWords]
  simp

/-- What is left of the joined words without the separator is the family without its spaces. -/
theorem filter_separator {separator : String} {d : Char} (hseparator : separator.toList = [d])
    (hfamily : d ∉ family.toList) (lead : String) :
    (joinWords family lead separator).toList.filter (· != d) = family.toList.filter (· != ' ') := by
  have hjoined : ∀ c ∈ (joinWords family lead separator).toList, (c != d) = (c != d && c != ' ') := by
    intro c hc
    have hne : c ≠ ' ' := ne_of_mem_of_not_mem hc (not_mem_joinWords family lead separator)
    simp [hne]
  have hplain : ∀ c ∈ family.toList, (c != d && c != ' ') = (c != ' ') := by
    intro c hc
    have hne : c ≠ d := ne_of_mem_of_not_mem hc hfamily
    simp [hne]
  have hnone : separator.toList.filter (fun c => c != d && c != ' ') = [] := by simp [hseparator]
  calc (joinWords family lead separator).toList.filter (· != d)
      = (joinWords family lead separator).toList.filter fun c => c != d && c != ' ' :=
        List.filter_congr hjoined
    _ = family.toList.filter fun c => c != d && c != ' ' := filter_joinWords (by simp) hnone family lead
    _ = family.toList.filter (· != ' ') := List.filter_congr hplain

/-- The place of a module's file is the name of the module with slashes for dots, and the ending. The name has
no spaces, and without its dots it is the family without its spaces. Therefore only families that differ in
nothing but spaces share a module. -/
theorem moduleFile_agrees (hfamily : '.' ∉ family.toList ∧ '/' ∉ family.toList)
    (hlead : '.' ∉ lead.toList) (extension : String) :
    moduleFile family lead extension =
        (moduleName family lead).map (fun c => if c = '.' then '/' else c) ++ "." ++ extension ∧
      ' ' ∉ (moduleName family lead).toList ∧
      (moduleName family lead).toList.filter (· != '.') = family.toList.filter (· != ' ') ∧
      ∀ family', '.' ∉ family'.toList → '/' ∉ family'.toList →
        moduleName family lead = moduleName family' lead ∨
          moduleFile family lead extension = moduleFile family' lead extension →
        family.toList.filter (· != ' ') = family'.toList.filter (· != ' ') := by
  have hdot : ∀ {family}, '.' ∉ family.toList →
      (moduleName family lead).toList.filter (· != '.') = family.toList.filter (· != ' ') :=
    fun h => filter_separator (by decide) h lead
  have hslash : ∀ {family}, '/' ∉ family.toList →
      (joinWords family lead "/").toList.filter (· != '/') = family.toList.filter (· != ' ') :=
    fun h => filter_separator (by decide) h lead
  refine ⟨?_, not_mem_joinWords family lead ".", hdot hfamily.1, ?_⟩
  · have hpath : joinWords family lead "/" = (moduleName family lead).map slashed := by
      rw [← String.toList_inj, String.toList_map, moduleName, map_joinWords hfamily.1 hlead]
    rw [moduleFile, hpath]
    rfl
  · rintro family' hdot' hslash' (hname | hfile)
    · rw [← hdot hfamily.1, ← hdot hdot', hname]
    · have hpath : joinWords family lead "/" = joinWords family' lead "/" := by
        unfold moduleFile at hfile
        simpa using hfile
      rw [← hslash hfamily.2, ← hslash hslash', hpath]

/-- The leading words come twice and next to each other; one of the two families has more spaces. -/
theorem moduleFile_agrees_repeated :
    moduleFile "Material IconsMaterial Icons  Two Tone" "Material Icons" "elm" =
        "Material/IconsMaterial/Icons/TwoTone.elm" ∧
      (moduleName "Material IconsMaterial Icons  Two Tone" "Material Icons" =
          moduleName "Material IconsMaterial Icons Two Tone " "Material Icons" →
        "Material IconsMaterial Icons  Two Tone".toList.filter (· != ' ') =
          "Material IconsMaterial Icons Two Tone ".toList.filter (· != ' ')) := by
  have hagrees := @moduleFile_agrees "Material IconsMaterial Icons  Two Tone" "Material Icons" (by decide)
    (by decide) "elm"
  have hname : moduleName "Material IconsMaterial Icons  Two Tone" "Material Icons" =
      "Material.IconsMaterial.Icons.TwoTone" := by decide
  refine ⟨?_, fun h => hagrees.2.2.2 _ (by decide) (by decide) (.inl h)⟩
  rw [hagrees.1, hname]
  decide +kernel

end Naming
end IconModules
