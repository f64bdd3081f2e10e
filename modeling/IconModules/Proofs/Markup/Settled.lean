import IconModules.Proofs.Markup.Patterns
import Mathlib.Tactic.TFAE

/-! # Drawings that stripping leaves as they are

* A piece of `Volatile` markup is a declaration, a comment, a block or an attribute of the denylist, written
  out with what stands in it. A text is clean exactly if it holds no such piece (`clean_iff_not_occurs`).
* Passes only delete characters (`run_sublist`): what takes the place of an attribute is the space that it
  began with.
* So stripping deletes characters, at least one as long as volatile markup is left, and comes to an end with
  a text that holds none (`strip_settles`). -/

namespace IconModules

namespace Text

variable {span : List Char → Option Nat} {put s : List Char}

/-- If what is put in is left over of each stretch, replacing only deletes characters. -/
theorem replaceSpans_sublist (h : ∀ s n, span s = some n → put.Sublist (s.take n)) (n : Nat)
    (s : List Char) : (replaceSpans span put n s).Sublist (s.drop n) := by
  induction s generalizing n with
  | nil => simp
  | cons c s ih =>
    cases n with
    | succ n => exact ih n
    | zero =>
      rw [replaceSpans, List.drop_zero]
      split
      · rename_i n hn
        have hall := (h _ _ hn).append (ih n)
        rwa [List.take_succ_cons, List.cons_append, List.take_append_drop] at hall
      · exact (ih 0).cons_cons c

end Text

namespace Markup

open Pattern (between betweenSpan)

variable {denylist : List String} {svg : String} {p : Pass} {s piece : List Char} {name : List Char}
  {n : Nat}

/-! ### Pieces of volatile markup -/

/-- The pieces of volatile markup. -/
inductive Volatile (denylist : List String) : List Char → Prop
  | declaration {inner : List Char} (nonempty : inner ≠ []) (plain : '>' ∉ inner) :
      Volatile denylist ("<?xml".toList ++ (inner ++ ['>', '\n']))
  | comment {inner : List Char} (nonempty : inner ≠ []) (plain : '>' ∉ inner) :
      Volatile denylist ("<!--".toList ++ (inner ++ ['>', '\n']))
  | definitions (inner : List Char) :
      Volatile denylist ("<defs".toList ++ (inner ++ "</defs>".toList))
  | clipping (inner : List Char) :
      Volatile denylist ("<clipPath".toList ++ (inner ++ "</clipPath>".toList))
  | value {name : String} {value : List Char} (listed : name ∈ denylist) (plain : '"' ∉ value) :
      Volatile denylist (' ' :: name.toList ++ ['=', '"'] ++ (value ++ ['"']))

theorem holds_but_iff {x : Char} {inner : List Char} :
    (∀ y ∈ inner, (CharSet.but x).holds y = true) ↔ x ∉ inner := by
  simp only [CharSet.holds_but, bne_iff_ne]
  exact ⟨fun h hx => h x hx rfl, fun h y hy he => h (he ▸ hy)⟩

/-- A pattern of volatile markup matches somewhere in a text that holds a piece of it, and only there. -/
theorem exists_occurs_iff :
    (∃ r ∈ patterns denylist, r.1.Occurs s) ↔ ∃ piece, Volatile denylist piece ∧ piece <:+: s := by
  simp only [patterns, List.mem_append, List.mem_cons, List.not_mem_nil, or_false, List.mem_map]
  constructor
  · rintro ⟨r, (rfl | rfl | rfl | rfl) | ⟨name, hname, rfl⟩, hr⟩
    all_goals obtain ⟨inner, hleast, hinner, hin⟩ := Pattern.between_occurs_iff.1 hr
    · exact ⟨_, .declaration (List.ne_nil_of_length_pos hleast) (holds_but_iff.1 hinner), hin⟩
    · exact ⟨_, .comment (List.ne_nil_of_length_pos hleast) (holds_but_iff.1 hinner), hin⟩
    · exact ⟨_, .definitions inner, hin⟩
    · exact ⟨_, .clipping inner, hin⟩
    · exact ⟨_, .value hname (holds_but_iff.1 hinner), hin⟩
  · rintro ⟨piece, hpiece, hin⟩
    cases hpiece with
    | declaration nonempty plain =>
      exact ⟨_, .inl (.inl rfl), Pattern.between_occurs_iff.2
        ⟨_, List.length_pos_iff.2 nonempty, holds_but_iff.2 plain, hin⟩⟩
    | comment nonempty plain =>
      exact ⟨_, .inl (.inr (.inl rfl)), Pattern.between_occurs_iff.2
        ⟨_, List.length_pos_iff.2 nonempty, holds_but_iff.2 plain, hin⟩⟩
    | definitions inner =>
      exact ⟨_, .inl (.inr (.inr (.inl rfl))), Pattern.between_occurs_iff.2
        ⟨inner, Nat.zero_le _, fun _ _ => rfl, hin⟩⟩
    | clipping inner =>
      exact ⟨_, .inl (.inr (.inr (.inr rfl))), Pattern.between_occurs_iff.2
        ⟨inner, Nat.zero_le _, fun _ _ => rfl, hin⟩⟩
    | value listed plain =>
      exact ⟨_, .inr ⟨_, listed, rfl⟩, Pattern.between_occurs_iff.2
        ⟨_, Nat.zero_le _, holds_but_iff.2 plain, hin⟩⟩

/-- A text is clean if no pattern of volatile markup matches in it. -/
theorem clean_iff_not_occurs :
    Clean denylist svg ↔ ∀ r ∈ patterns denylist, ¬ r.1.Occurs svg.toList := by
  have hall : ∀ {ps rs}, List.Forall₂ Pass.Replaces ps rs →
      ((∀ p ∈ ps, p.Clean svg.toList) ↔ ∀ r ∈ rs, ¬ r.1.Occurs svg.toList) := by
    intro ps rs h
    induction h with
    | nil => simp
    | cons h _ ih => rw [List.forall_mem_cons, List.forall_mem_cons, h.clean, ih]
  exact hall (replaces_passes denylist)

/-! ### Deletions -/

/-- An attribute that is taken out begins with a space. -/
theorem space_sublist_of_valueOf (h : valueOf name s = some n) : [' '].Sublist (s.take n) := by
  have hlength := valueOf_le h
  have hspan : betweenSpan (' ' :: name ++ ['=', '"']) (.but '"') 0 ['"'] s ≠ none := by
    rw [← valueOf_eq, h]
    exact Option.some_ne_none n
  obtain ⟨inner, -, -, rest, rfl⟩ := Pattern.betweenSpan_ne_none_iff.1 hspan
  obtain ⟨m, rfl⟩ := Nat.exists_eq_add_one.2 (Nat.zero_lt_of_lt hlength.1)
  rw [List.cons_append, List.cons_append, List.cons_append, List.take_succ_cons]
  exact (List.nil_sublist _).cons_cons ' '

/-- A pass only deletes characters. -/
theorem run_sublist (hp : p ∈ passes denylist) (s : List Char) : (p.run s).Sublist s := by
  have hnil : ∀ stretch, (Text.replaceSpans stretch [] 0 s).Sublist s := fun stretch =>
    Text.replaceSpans_sublist (fun _ _ _ => List.nil_sublist _) 0 s
  have honce : ∀ {c c' : Char} {opening closing : List Char},
      ((Pass.once (c :: opening) (c' :: closing)).run s).Sublist s := by
    intro c c' opening closing
    rw [Pass.run, ← replaceSpans_block (List.cons_ne_nil _ _) (List.cons_ne_nil _ _)]
    exact hnil _
  rcases List.mem_append.1 hp with hp | hp
  · simp only [List.mem_cons, List.not_mem_nil, or_false] at hp
    rcases hp with rfl | rfl | rfl | rfl
    · exact hnil _
    · exact hnil _
    · exact honce
    · exact honce
  · obtain ⟨name, -, rfl⟩ := List.mem_map.1 hp
    exact Text.replaceSpans_sublist (fun _ _ => space_sublist_of_valueOf) 0 s

theorem foldl_run_sublist {ps : List Pass} (h : ∀ p ∈ ps, ∀ s, (p.run s).Sublist s)
    (s : List Char) : (ps.foldl (fun s p => p.run s) s).Sublist s := by
  induction ps generalizing s with
  | nil => exact List.Sublist.refl s
  | cons p ps ih =>
    rw [List.forall_mem_cons] at h
    exact (ih h.2 (p.run s)).trans (h.1 s)

theorem strip_sublist (denylist : List String) (svg : String) :
    (strip denylist svg).toList.Sublist svg.toList := by
  rw [strip, String.toList_ofList]
  exact foldl_run_sublist (fun _ => run_sublist) svg.toList

/-- Stripping only deletes characters. It leaves a text as it is exactly if no pattern of volatile markup
matches in it, that is, if the text holds no piece of volatile markup; any other text it makes shorter. So
stripping again, at most as many times as the text has characters, leaves a text that stays as it is and
holds no volatile markup. -/
theorem strip_settles (denylist : List String) (svg : String) :
    (strip denylist svg).toList.Sublist svg.toList ∧
    List.TFAE [strip denylist svg = svg,
      ∀ r ∈ patterns denylist, ¬ r.1.Occurs svg.toList,
      ∀ piece, Volatile denylist piece → ¬ piece <:+: svg.toList] ∧
    (strip denylist svg ≠ svg → (strip denylist svg).length < svg.length) ∧
    ∃ n ≤ svg.length, strip denylist ((strip denylist)^[n] svg) = (strip denylist)^[n] svg ∧
      ∀ piece, Volatile denylist piece → ¬ piece <:+: ((strip denylist)^[n] svg).toList := by
  have hpieces : ∀ {svg : String}, (∀ r ∈ patterns denylist, ¬ r.1.Occurs svg.toList) ↔
      ∀ piece, Volatile denylist piece → ¬ piece <:+: svg.toList := by
    intro svg
    have hoccurs : (∃ r ∈ patterns denylist, r.1.Occurs svg.toList) ↔
        ∃ piece, Volatile denylist piece ∧ piece <:+: svg.toList := exists_occurs_iff
    simpa only [not_exists, not_and] using not_congr hoccurs
  obtain ⟨n, hn, hclean⟩ := exists_clean denylist svg
  refine ⟨strip_sublist denylist svg, ?_, fun h => length_strip_lt (mt strip_of_clean h), n, hn,
    strip_of_clean hclean, hpieces.1 (clean_iff_not_occurs.1 hclean)⟩
  tfae_have 1 ↔ 2 := strip_eq_self_iff.trans clean_iff_not_occurs
  tfae_have 2 ↔ 3 := hpieces
  tfae_finish

end Markup
end IconModules
