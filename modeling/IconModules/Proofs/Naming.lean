import IconModules.Naming
import IconModules.Proofs.Files.Ways

/-! # Where the module of a family is stored

`Naming.moduleFile` makes a path from the name of a family. Two kinds of character in the name would
make it lead elsewhere than below the folder of all modules: a dot or a slash, and a space in front,
which would become the first slash.

* `FamilyName` are the names without them.
* The path of such a family has no empty part, so all its parts are names (`moduleFile_parts`). The
  proof follows the three replacements: after the first, each slash stands between two characters
  that are neither slashes nor spaces (`Framed`); afterwards, each slash still follows one
  (`Follows`). -/

namespace IconModules

/-- The name of a family that gives its module a place below the folder of all modules. -/
structure FamilyName (family : String) : Prop where
  noSlash : '/' ∉ family.toList
  noDot : '.' ∉ family.toList
  noLead : family.toList.head? ≠ some ' '

namespace Naming

/-- A character that is neither a slash nor a space. -/
def solid (c : Char) : Bool :=
  c != '/' && c != ' '

/-- Each slash stands between two solid characters; `b` tells whether a solid one stands in front. -/
def Framed : Bool → List Char → Prop
  | _, [] => True
  | b, c :: cs => (c = '/' → b = true ∧ cs.head?.any solid = true) ∧ Framed (solid c) cs

/-- Each slash follows a solid character; `b` tells whether a solid one stands in front. -/
def Follows : Bool → List Char → Prop
  | _, [] => True
  | b, c :: cs => (c = '/' → b = true) ∧ Follows (solid c) cs

variable {b : Bool} {c : Char} {cs u rest : List Char}

theorem Framed.follows (h : Framed b cs) : Follows b cs := by
  induction cs generalizing b with
  | nil => trivial
  | cons c cs ih => exact ⟨fun hc => (h.1 hc).1, ih h.2⟩

/-! ### The three replacements -/

/-- The leading words, written with a slash, frame it. -/
theorem framed_lead (h : Framed true rest) : Framed b ("Material/Icons".toList ++ rest) := by
  have e : "Material/Icons".toList =
      ['M', 'a', 't', 'e', 'r', 'i', 'a', 'l', '/', 'I', 'c', 'o', 'n', 's'] := by decide
  rw [e]
  simp [Framed, solid, h]

theorem framed_replaceSpans {span : List Char → Option Nat} {n : Nat} (h : '/' ∉ cs) :
    Framed b (Text.replaceSpans span "Material/Icons".toList n cs) := by
  induction cs generalizing b n with
  | nil => simp [Framed]
  | cons c cs ih =>
    have hcs : '/' ∉ cs := fun hm => h (List.mem_cons_of_mem _ hm)
    cases n with
    | succ n => exact ih hcs
    | zero =>
      unfold Text.replaceSpans
      split
      · exact framed_lead (ih hcs)
      · refine ⟨fun hc => ?_, ih hcs⟩
        exact absurd (by rw [hc]; exact List.mem_cons_self) h

theorem head?_replaceSpans {span : List Char → Option Nat} (h : cs.head? ≠ some ' ') :
    (Text.replaceSpans span "Material/Icons".toList 0 cs).head? ≠ some ' ' := by
  cases cs with
  | nil => simp
  | cons c cs =>
    unfold Text.replaceSpans
    split
    · have e : "Material/Icons".toList = 'M' :: "aterial/Icons".toList := by decide
      rw [e]
      simp
    · exact h

/-- What stands in a text after replacements stood in it before or was put into it. -/
theorem mem_replaceSpans {span : List Char → Option Nat} {put : List Char} {n : Nat}
    (h : c ∈ Text.replaceSpans span put n cs) : c ∈ cs ∨ c ∈ put := by
  induction cs generalizing n with
  | nil => simp at h
  | cons x cs ih =>
    cases n with
    | succ n => exact (ih h).imp_left (List.mem_cons_of_mem _)
    | zero =>
      unfold Text.replaceSpans at h
      split at h
      · rcases List.mem_append.1 h with h | h
        · exact .inr h
        · exact (ih h).imp_left (List.mem_cons_of_mem _)
      · rcases List.mem_cons.1 h with rfl | h
        · exact .inl List.mem_cons_self
        · exact (ih h).imp_left (List.mem_cons_of_mem _)

/-- A slash in the place of the first space follows a solid character, if the text does not begin with
the space. -/
theorem follows_first (hf : Framed b (u ++ ' ' :: rest)) (hu : ' ' ∉ u) (hb : u = [] → b = true) :
    Follows b (u ++ '/' :: rest) := by
  induction u generalizing b with
  | nil => exact ⟨fun _ => hb rfl, hf.2.follows⟩
  | cons c u ih =>
    have hu' : ' ' ∉ u := fun hm => hu (List.mem_cons_of_mem _ hm)
    have hc : c ≠ ' ' := by
      rintro rfl
      exact hu List.mem_cons_self
    refine ⟨fun hslash => (hf.1 hslash).1, ih hf.2 hu' ?_⟩
    rintro rfl
    by_cases hslash : c = '/'
    · exact absurd (hf.1 hslash).2 (by simp [solid])
    · simp [solid, hc, hslash]

/-- Spaces can be left out: a solid character in front of a slash stays there. -/
theorem follows_filter {b' : Bool} (h : Follows b cs) (hb : b = true → b' = true) :
    Follows b' (cs.filter (· != ' ')) := by
  induction cs generalizing b b' with
  | nil => trivial
  | cons c cs ih =>
    by_cases hc : c = ' '
    · subst hc
      exact ih h.2 (by simp [solid])
    · rw [List.filter_cons_of_pos (by simpa using hc)]
      exact ⟨fun hs => hb (h.1 hs), ih h.2 id⟩

theorem replaceSpans_space (cs : List Char) :
    Text.replaceSpans (Text.wordSpan [' ']) [] 0 cs = cs.filter (· != ' ') := by
  induction cs with
  | nil => rfl
  | cons c cs ih =>
    unfold Text.replaceSpans
    by_cases hc : c = ' '
    · subst hc
      simpa [Text.wordSpan] using ih
    · have hw : Text.wordSpan [' '] (c :: cs) = none := by
        simp [Text.wordSpan, List.isPrefixOf, Ne.symm hc]
      rw [hw, List.filter_cons_of_pos (by simpa using hc), ih]

/-- The words of a family joined by slashes: each slash follows a solid character, and there is no
dot. -/
theorem follows_joinWords {family : String} (h : FamilyName family) :
    ∃ joined, (joinWords family "Material Icons" "/").toList = joined ∧ Follows false joined ∧
      '.' ∉ joined := by
  have hput : Text.replace " " "/" "Material Icons" = "Material/Icons" := by decide
  have hspace : " ".toList = [' '] := by decide
  have hempty : "".toList = [] := by decide
  have hslash : "/".toList = ['/'] := by decide
  unfold joinWords
  rw [hput]
  generalize hl : Text.replace "Material Icons" "Material/Icons" family = led
  have hled : led.toList = Text.replaceSpans (Text.wordSpan "Material Icons".toList)
      "Material/Icons".toList 0 family.toList := by
    rw [← hl, Text.replace, String.toList_ofList]
  have hframed : Framed false led.toList := by
    rw [hled]
    exact framed_replaceSpans h.noSlash
  have hhead : led.toList.head? ≠ some ' ' := by
    rw [hled]
    exact head?_replaceSpans h.noLead
  have hdot : '.' ∉ led.toList := by
    intro hm
    rw [hled] at hm
    exact (mem_replaceSpans hm).elim h.noDot (by decide)
  have hfirst : Follows false (Text.replaceFirst ' ' "/" led).toList ∧
      '.' ∉ (Text.replaceFirst ' ' "/" led).toList := by
    unfold Text.replaceFirst
    simp only
    cases hd : led.toList.dropWhile (· != ' ') with
    | nil => exact ⟨hframed.follows, hdot⟩
    | cons x rest =>
      have hx : x = ' ' := by
        have hx := List.head?_dropWhile_not (· != ' ') led.toList
        rw [hd] at hx
        simpa using hx
      subst hx
      have e : led.toList.takeWhile (· != ' ') ++ ' ' :: rest = led.toList := by
        rw [← hd, List.takeWhile_append_dropWhile]
      simp only [String.toList_ofList, hslash, List.append_assoc, List.singleton_append]
      constructor
      · refine follows_first (by rw [e]; exact hframed) (fun hm => ?_) fun hnil => ?_
        · simpa using List.all_eq_true.1 List.all_takeWhile _ hm
        · rw [hnil] at e
          rw [← e] at hhead
          simp at hhead
      · rw [← e] at hdot
        simpa using hdot
  rw [Text.replace, String.toList_ofList, hspace, hempty, replaceSpans_space]
  refine ⟨_, rfl, follows_filter hfirst.1 id, fun hm => hfirst.2 ?_⟩
  exact (List.mem_filter.1 hm).1

/-! ### The parts of the path -/

/-- Where each slash follows a solid character, there is no empty piece in front of a slash. -/
theorem splitOn_of_follows (h : Follows b (cs ++ '/' :: rest)) {q : List Char}
    {qs : List (List Char)} (hq : cs.splitOn '/' = q :: qs) :
    (b = false → q ≠ []) ∧ ∀ q' ∈ qs, q' ≠ [] := by
  induction cs generalizing b q qs with
  | nil =>
    obtain ⟨rfl, rfl⟩ : [] = q ∧ [] = qs := by simpa using hq
    exact ⟨fun hb => absurd (h.1 rfl) (by simp [hb]), by simp⟩
  | cons c cs ih =>
    obtain ⟨q1, qs1, h1⟩ := List.exists_cons_of_ne_nil (List.splitOn_ne_nil '/' cs)
    obtain ⟨ih1, ih2⟩ := ih h.2 h1
    rw [List.splitOn_cons_eq_if_modifyHead, h1] at hq
    by_cases hc : c = '/'
    · subst hc
      obtain ⟨rfl, rfl⟩ : [] = q ∧ q1 :: qs1 = qs := by simpa using hq
      refine ⟨fun hb => absurd (h.1 rfl) (by simp [hb]), fun q' hq' => ?_⟩
      rcases List.mem_cons.1 hq' with rfl | hq'
      · exact ih1 (by decide)
      · exact ih2 q' hq'
    · obtain ⟨rfl, rfl⟩ : c :: q1 = q ∧ qs1 = qs := by simpa [hc] using hq
      exact ⟨fun _ => by simp, ih2⟩

theorem exists_last_slash (h : '/' ∈ cs) : ∃ front back, cs = front ++ '/' :: back ∧ '/' ∉ back := by
  obtain ⟨back, front, e, hback⟩ := List.eq_append_cons_of_mem (List.mem_reverse.2 h)
  refine ⟨front.reverse, back.reverse, ?_, by simpa using hback⟩
  rw [← List.reverse_reverse cs, e]
  simp

/-- A text with the ending of module files is a name, unless it holds a slash. -/
theorem isName_ending {stem : List Char} (h : '/' ∉ stem) :
    IsName (String.ofList (stem ++ ".elm".toList)) := by
  have hlong : ∀ t : String, t.toList.length ≤ 2 → String.ofList (stem ++ ".elm".toList) ≠ t := by
    rintro t ht rfl
    have hlen : ".elm".toList.length = 4 := by decide
    rw [String.toList_ofList, List.length_append, hlen] at ht
    omega
  refine ⟨?_, ?_, hlong _ (by decide)⟩
  · rw [String.toList_ofList, List.mem_append, not_or]
    exact ⟨h, by decide⟩
  · rw [Path.isIdle, Bool.or_eq_false_iff, beq_eq_false_iff_ne, beq_eq_false_iff_ne]
    exact ⟨hlong _ (by decide), hlong _ (by decide)⟩

theorem splitOn_ending {back : List Char} (h : '/' ∉ back) :
    (back ++ ".elm".toList).splitOn '/' = [back ++ ".elm".toList] := by
  refine List.splitOn_eq_singleton fun hm => ?_
  exact (List.mem_append.1 hm).elim h (by decide)

theorem toList_moduleFile (family lead : String) :
    (moduleFile family lead "elm").toList = (joinWords family lead "/").toList ++ ".elm".toList := by
  have e : ".elm".toList = ".".toList ++ "elm".toList := by decide
  rw [moduleFile, String.toList_append, String.toList_append, e, List.append_assoc]

/-- Whatever the name of a family, the path of its module ends in a name with the ending. -/
theorem getLast?_parts_moduleFile (family lead : String) :
    ∃ stem, '/' ∉ stem ∧ (⟨moduleFile family lead "elm"⟩ : Path).parts.getLast? =
      some (String.ofList (stem ++ ".elm".toList)) := by
  rw [Path.parts, toList_moduleFile]
  generalize (joinWords family lead "/").toList = joined
  by_cases hs : '/' ∈ joined
  · obtain ⟨front, back, rfl, hback⟩ := exists_last_slash hs
    refine ⟨back, hback, ?_⟩
    rw [List.append_assoc, List.cons_append, List.splitOn_append_cons_self, splitOn_ending hback]
    simp
  · refine ⟨joined, hs, ?_⟩
    rw [splitOn_ending hs]
    simp

/-- The parts of the path of a family's module: folders without dots, and a file with the ending. -/
theorem moduleFile_parts {family : String} (h : FamilyName family) :
    ∃ folders file, (⟨moduleFile family "Material Icons" "elm"⟩ : Path).parts =
        folders ++ [file] ∧
      (∀ n ∈ folders, IsName n ∧ '.' ∉ n.toList) ∧ IsName file ∧
      ∃ stem, '.' ∉ stem ∧ file.toList = stem ++ ".elm".toList := by
  obtain ⟨joined, hjoined, hf, hd⟩ := follows_joinWords h
  rw [Path.parts, toList_moduleFile, hjoined]
  by_cases hs : '/' ∈ joined
  · obtain ⟨front, back, rfl, hback⟩ := exists_last_slash hs
    have hdback : '.' ∉ back := fun hx =>
      hd (List.mem_append_right _ (List.mem_cons_of_mem _ hx))
    refine ⟨(front.splitOn '/').map String.ofList, String.ofList (back ++ ".elm".toList), ?_, ?_,
      isName_ending hback, back, hdback, String.toList_ofList⟩
    · rw [List.append_assoc, List.cons_append, List.splitOn_append_cons_self, List.map_append,
        splitOn_ending hback]
      rfl
    · intro n hn
      obtain ⟨q, hq, rfl⟩ := List.mem_map.1 hn
      have hdot : '.' ∉ (String.ofList q).toList := by
        rw [String.toList_ofList]
        exact fun hx => hd (List.mem_append_left _ (Path.mem_of_mem_splitOn hq hx).1)
      have hslash : '/' ∉ (String.ofList q).toList := by
        rw [String.toList_ofList]
        exact fun hx => (Path.mem_of_mem_splitOn hq hx).2 rfl
      have hne : q ≠ [] := by
        obtain ⟨q0, qs, h0⟩ := List.exists_cons_of_ne_nil (List.splitOn_ne_nil '/' front)
        obtain ⟨h1, h2⟩ := splitOn_of_follows hf h0
        rw [h0] at hq
        rcases List.mem_cons.1 hq with rfl | hq
        · exact h1 rfl
        · exact h2 q hq
      exact ⟨isName_of_noDot hslash hdot (by simpa using hne), hdot⟩
  · refine ⟨[], String.ofList (joined ++ ".elm".toList), ?_, by simp, isName_ending hs, joined, hd,
      String.toList_ofList⟩
    rw [splitOn_ending hs]
    rfl

/-! ### Names that begin with a space -/

/-- Each slash follows an `l`, like the one in the leading words; `b` tells whether one stands in
front. -/
def Led : Bool → List Char → Prop
  | _, [] => True
  | b, c :: cs => (c = '/' → b = true) ∧ Led (c == 'l') cs

theorem led_of_noSlash (h : '/' ∉ cs) : Led b cs := by
  induction cs generalizing b with
  | nil => trivial
  | cons c cs ih =>
    rw [List.mem_cons, not_or] at h
    exact ⟨fun hc => absurd hc.symm h.1, ih h.2⟩

theorem led_append {back : List Char} (h : Led b cs) (hback : '/' ∉ back) : Led b (cs ++ back) := by
  induction cs generalizing b with
  | nil => exact led_of_noSlash hback
  | cons c cs ih => exact ⟨h.1, ih h.2⟩

theorem led_lead (h : Led false rest) : Led b ("Material/Icons".toList ++ rest) := by
  have e : "Material/Icons".toList =
      ['M', 'a', 't', 'e', 'r', 'i', 'a', 'l', '/', 'I', 'c', 'o', 'n', 's'] := by decide
  rw [e]
  simpa [Led] using h

theorem led_replaceSpans {span : List Char → Option Nat} {n : Nat} (h : '/' ∉ cs) :
    Led b (Text.replaceSpans span "Material/Icons".toList n cs) := by
  induction cs generalizing b n with
  | nil => simp [Led]
  | cons c cs ih =>
    have hcs : '/' ∉ cs := fun hm => h (List.mem_cons_of_mem _ hm)
    cases n with
    | succ n => exact ih hcs
    | zero =>
      unfold Text.replaceSpans
      split
      · exact led_lead (ih hcs)
      · exact ⟨fun hc => absurd (by rw [hc]; exact List.mem_cons_self) h, ih hcs⟩

theorem led_filter {b' : Bool} (h : Led b cs) (hb : b = true → b' = true) :
    Led b' (cs.filter (· != ' ')) := by
  induction cs generalizing b b' with
  | nil => trivial
  | cons c cs ih =>
    by_cases hc : c = ' '
    · subst hc
      exact ih h.2 (by simp)
    · rw [List.filter_cons_of_pos (by simpa using hc)]
      exact ⟨fun hs => hb (h.1 hs), ih h.2 id⟩

/-- The space in front becomes a slash, and each slash behind it follows an `l`. -/
theorem led_joinWords {family : String} (hslash : '/' ∉ family.toList)
    (hlead : family.toList.head? = some ' ') :
    ∃ joined, (joinWords family "Material Icons" "/").toList = '/' :: joined ∧ Led false joined := by
  obtain ⟨words, hwords⟩ : ∃ words, family.toList = ' ' :: words := by
    cases h : family.toList with
    | nil => simp [h] at hlead
    | cons c words => exact ⟨words, by rw [h] at hlead; simpa using hlead⟩
  have hput : Text.replace " " "/" "Material Icons" = "Material/Icons" := by decide
  have hspace : " ".toList = [' '] := by decide
  have hempty : "".toList = [] := by decide
  have hseparator : "/".toList = ['/'] := by decide
  have hspan : Text.wordSpan "Material Icons".toList (' ' :: words) = none := by
    have e : "Material Icons".toList = 'M' :: "aterial Icons".toList := by decide
    rw [e]
    simp [Text.wordSpan, List.isPrefixOf]
  have hled : (Text.replace "Material Icons" "Material/Icons" family).toList = ' ' ::
      Text.replaceSpans (Text.wordSpan "Material Icons".toList) "Material/Icons".toList 0 words := by
    rw [Text.replace, String.toList_ofList, hwords, Text.replaceSpans, hspan]
  have hwords' : '/' ∉ words := fun hm => hslash (hwords ▸ List.mem_cons_of_mem _ hm)
  unfold joinWords
  rw [hput, Text.replace, String.toList_ofList, hspace, hempty, replaceSpans_space, Text.replaceFirst]
  simp only [hled, List.dropWhile_cons, List.takeWhile_cons, bne_self_eq_false, Bool.false_eq_true,
    ↓reduceIte, hseparator, List.nil_append, List.singleton_append, String.toList_ofList]
  exact ⟨_, rfl, led_filter (led_replaceSpans hwords') id⟩

/-- A text whose first piece is empty, and not the only one, begins with a slash. -/
theorem exists_of_splitOn_nil {q : List Char} {qs : List (List Char)}
    (h : cs.splitOn '/' = [] :: q :: qs) : ∃ rest, cs = '/' :: rest := by
  cases cs with
  | nil => simp at h
  | cons c rest =>
    by_cases hc : c = '/'
    · exact ⟨rest, by rw [hc]⟩
    · obtain ⟨q₁, qs₁, h₁⟩ := List.exists_cons_of_ne_nil (List.splitOn_ne_nil '/' rest)
      rw [List.splitOn_cons_eq_if_modifyHead, h₁] at h
      simp [hc] at h

/-- Where each slash follows an `l`, a piece in front of one is empty or ends in it. -/
theorem splitOn_of_led (h : Led b cs) {q : List Char} {qs : List (List Char)}
    (hq : cs.splitOn '/' = q :: qs) :
    ∀ part ∈ (q :: qs).dropLast, part = [] ∨ part.getLast? = some 'l' := by
  induction cs generalizing b q qs with
  | nil =>
    obtain ⟨rfl, rfl⟩ : [] = q ∧ [] = qs := by simpa using hq
    simp
  | cons c cs ih =>
    obtain ⟨q₁, qs₁, h₁⟩ := List.exists_cons_of_ne_nil (List.splitOn_ne_nil '/' cs)
    have hrest := ih h.2 h₁
    rw [List.splitOn_cons_eq_if_modifyHead, h₁] at hq
    by_cases hc : c = '/'
    · subst hc
      obtain ⟨rfl, rfl⟩ : [] = q ∧ q₁ :: qs₁ = qs := by simpa using hq
      rw [List.dropLast_cons_of_ne_nil (by simp)]
      exact List.forall_mem_cons.2 ⟨.inl rfl, hrest⟩
    obtain ⟨rfl, rfl⟩ : c :: q₁ = q ∧ qs₁ = qs := by simpa [hc] using hq
    cases qs₁ with
    | nil => simp
    | cons q₂ qs₂ =>
      rw [List.dropLast_cons_of_ne_nil (by simp), List.forall_mem_cons] at hrest ⊢
      refine ⟨.inr ?_, hrest.2⟩
      -- an empty piece behind the character means that a slash follows it
      rcases hrest.1 with rfl | hlast
      · obtain ⟨rest, rfl⟩ := exists_of_splitOn_nil h₁
        have hcl : c = 'l' := by simpa using h.2.1 rfl
        simp [hcl]
      · simp [List.getLast?_cons, hlast]

/-- A family whose name begins with a space has a path from the root, and no folder on it has a name
that ends in another letter than an `l`. -/
theorem moduleFile_of_lead {family : String} (hslash : '/' ∉ family.toList)
    (hlead : family.toList.head? = some ' ') :
    (⟨moduleFile family "Material Icons" "elm"⟩ : Path).isAbsolute = true ∧
      ∀ part ∈ (⟨moduleFile family "Material Icons" "elm"⟩ : Path).parts.dropLast,
        part = "" ∨ part.toList.getLast? = some 'l' := by
  obtain ⟨joined, hjoined, hled⟩ := led_joinWords hslash hlead
  have htext : (moduleFile family "Material Icons" "elm").toList =
      '/' :: (joined ++ ".elm".toList) := by
    rw [toList_moduleFile, hjoined, List.cons_append]
  refine ⟨by simp [Path.isAbsolute, htext], fun part hpart => ?_⟩
  have hall : Led true ('/' :: (joined ++ ".elm".toList)) :=
    ⟨fun _ => rfl, led_append hled (by decide)⟩
  obtain ⟨q, qs, hq⟩ := List.exists_cons_of_ne_nil
    (List.splitOn_ne_nil '/' ('/' :: (joined ++ ".elm".toList)))
  rw [Path.parts, htext, hq, ← List.map_dropLast] at hpart
  obtain ⟨piece, hpiece, rfl⟩ := List.mem_map.1 hpart
  rw [String.toList_ofList]
  exact (splitOn_of_led hall hq piece hpiece).imp_left fun h => by rw [h]

end Naming
end IconModules
