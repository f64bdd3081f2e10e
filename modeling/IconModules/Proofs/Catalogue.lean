import IconModules.Catalogue.Grouping
import IconModules.Generation.ModuleText
import Mathlib.Data.List.Induction
import Mathlib.Data.List.Nodup
import Mathlib.Data.List.Perm.Basic

/-! # Filing icons under categories

* `Category.ofIcons` keeps every icon, each as often as it was given (`ofIcons_perm`), under the name of
  its category (`name_of_mem_ofIcons`). What is documented of all categories is therefore what is
  documented of all icons (`documented_perm`).
* The categories are in the order of their names, and each keeps its icons in their order (`Filed`). Which
  categories there are does not depend on the order of the icons (`names_ofIcons_of_perm`).
* What is documented of a category is sorted by name, and icons of one name keep their order
  (`sortedByName_documented`). -/

namespace IconModules

namespace Category

variable {i : Icon} {icons : List Icon} {c : Category} {cs : List Category}

/-- Filing an icon adds it and keeps the others. -/
theorem file_perm (i : Icon) (cs : List Category) :
    ((file i cs).flatMap Category.icons).Perm (i :: cs.flatMap Category.icons) := by
  induction cs with
  | nil => exact .refl _
  | cons c cs ih =>
    unfold file
    split
    · exact .refl _
    · split
      · rw [List.flatMap_cons, List.flatMap_cons, List.append_assoc, List.singleton_append]
        exact List.perm_middle
      · rw [List.flatMap_cons, List.flatMap_cons]
        exact (ih.append_left _).trans List.perm_middle

theorem foldl_file_perm (icons : List Icon) (cs : List Category) :
    ((icons.foldl (fun cs i => file i cs) cs).flatMap Category.icons).Perm
      (icons ++ cs.flatMap Category.icons) := by
  induction icons generalizing cs with
  | nil => exact .refl _
  | cons i icons ih =>
    exact ((ih _).trans ((file_perm i cs).append_left icons)).trans List.perm_middle

/-- Each icon is filed once. -/
theorem ofIcons_perm (icons : List Icon) :
    ((ofIcons icons).flatMap Category.icons).Perm icons := by
  simpa [ofIcons] using foldl_file_perm icons []

theorem name_of_mem_file (h : c ∈ file i cs) :
    c.name = i.category ∨ ∃ c' ∈ cs, c.name = c'.name := by
  induction cs with
  | nil =>
    obtain rfl := List.mem_singleton.1 h
    exact .inl rfl
  | cons c' cs ih =>
    unfold file at h
    split at h
    · rcases List.mem_cons.1 h with rfl | h
      · exact .inl rfl
      · exact .inr ⟨c, h, rfl⟩
    · split at h
      · rcases List.mem_cons.1 h with rfl | h
        · exact .inr ⟨c', List.mem_cons_self, rfl⟩
        · exact .inr ⟨c, List.mem_cons_of_mem _ h, rfl⟩
      · rcases List.mem_cons.1 h with rfl | h
        · exact .inr ⟨c, List.mem_cons_self, rfl⟩
        · refine (ih h).imp_right ?_
          rintro ⟨c₁, hc₁, he⟩
          exact ⟨c₁, List.mem_cons_of_mem _ hc₁, he⟩

theorem name_of_mem_foldl_file (h : c ∈ icons.foldl (fun cs i => file i cs) cs) :
    (∃ i ∈ icons, c.name = i.category) ∨ ∃ c' ∈ cs, c.name = c'.name := by
  induction icons generalizing cs with
  | nil => exact .inr ⟨c, h, rfl⟩
  | cons i icons ih =>
    rcases ih h with ⟨j, hj, he⟩ | ⟨c', hc', he⟩
    · exact .inl ⟨j, List.mem_cons_of_mem _ hj, he⟩
    · rcases name_of_mem_file hc' with he' | ⟨c₁, hc₁, he'⟩
      · exact .inl ⟨i, List.mem_cons_self, he.trans he'⟩
      · exact .inr ⟨c₁, hc₁, he.trans he'⟩

/-- Every category has the name under which some icon is filed. -/
theorem name_of_mem_ofIcons (h : c ∈ ofIcons icons) : ∃ i ∈ icons, c.name = i.category := by
  rcases name_of_mem_foldl_file h with h | ⟨_, hc, -⟩
  · exact h
  · exact absurd hc List.not_mem_nil

/-! ### The categories of all icons -/

/-- Filing an icon either adds it to its category, or puts a new one between the smaller and the greater. -/
theorem file_cases (i : Icon) (h : cs.Pairwise fun a b => a.name < b.name) :
    (∃ front c back, cs = front ++ c :: back ∧ c.name = i.category ∧
      file i cs = front ++ { c with icons := c.icons ++ [i] } :: back) ∨
    ∃ front back, cs = front ++ back ∧ (∀ c ∈ front, c.name < i.category) ∧
      (∀ c ∈ back, i.category < c.name) ∧ file i cs = front ++ ⟨i.category, [i]⟩ :: back := by
  induction cs with
  | nil => exact .inr ⟨[], [], rfl, by simp, by simp, rfl⟩
  | cons c cs ih =>
    rw [List.pairwise_cons] at h
    unfold file
    split
    · rename_i hlt
      refine .inr ⟨[], c :: cs, rfl, by simp, List.forall_mem_cons.2 ⟨hlt, fun c' hc' => ?_⟩, rfl⟩
      exact String.lt_trans hlt (h.1 c' hc')
    · rename_i hle
      split
      · rename_i he
        exact .inl ⟨[], c, cs, rfl, he.symm, rfl⟩
      · rename_i hne
        rcases ih h.2 with ⟨front, c', back, he, hc', hfile⟩ | ⟨front, back, he, hfront, hback, hfile⟩
        · exact .inl ⟨c :: front, c', back, by rw [he]; rfl, hc', by rw [hfile]; rfl⟩
        · refine .inr ⟨c :: front, back, by rw [he]; rfl, List.forall_mem_cons.2 ⟨?_, hfront⟩, hback,
            by rw [hfile]; rfl⟩
          exact Classical.byContradiction fun hlt => hne (String.le_antisymm hlt hle)

/-- The categories of some icons: in the order of their names, and each with its icons in their order. -/
structure Filed (icons : List Icon) (cs : List Category) : Prop where
  sorted : cs.Pairwise fun a b => a.name < b.name
  icons_eq : ∀ c ∈ cs, c.icons = icons.filter fun i => i.category = c.name
  names : ∀ n, n ∈ cs.map (·.name) ↔ ∃ i ∈ icons, i.category = n

/-- One more icon is filed behind the others. -/
theorem Filed.file (h : Filed icons cs) (i : Icon) : Filed (icons ++ [i]) (file i cs) := by
  have hother : ∀ c ∈ cs, c.name ≠ i.category →
      c.icons = (icons ++ [i]).filter fun j => j.category = c.name := by
    intro c hc hne
    rw [List.filter_append, ← h.icons_eq c hc]
    simp [Ne.symm hne]
  have hnames : ∀ n, (∃ j ∈ icons ++ [i], j.category = n) ↔ n ∈ cs.map (·.name) ∨ n = i.category := by
    intro n
    rw [h.names]
    simp [or_and_right, exists_or, eq_comm]
  rcases file_cases i h.sorted with ⟨front, c, back, rfl, hc, hfile⟩ | ⟨front, back, rfl, hfront, hback, hfile⟩
  · obtain ⟨hsf, hsb, hacross⟩ := List.pairwise_append.1 h.sorted
    rw [List.pairwise_cons] at hsb
    refine ⟨?_, fun c' hc' => ?_, fun n => ?_⟩
    · rw [hfile, List.pairwise_append, List.pairwise_cons]
      refine ⟨hsf, hsb, fun a ha => List.forall_mem_cons.2 ⟨?_, fun b hb => ?_⟩⟩
      · exact hacross a ha c List.mem_cons_self
      · exact hacross a ha b (List.mem_cons_of_mem _ hb)
    · rw [hfile, List.mem_append, List.mem_cons] at hc'
      rcases hc' with hc' | rfl | hc'
      · refine hother c' (List.mem_append_left _ hc') fun he => ?_
        exact String.lt_irrefl _ (hc ▸ he ▸ hacross c' hc' c List.mem_cons_self)
      · rw [List.filter_append, ← h.icons_eq c (by simp)]
        simp [hc]
      · refine hother c' (by simp [hc']) fun he => ?_
        exact String.lt_irrefl _ (hc ▸ he ▸ hsb.1 c' hc')
    · rw [hfile, hnames]
      simp only [List.map_append, List.map_cons, List.mem_append, List.mem_cons, hc]
      tauto
  · obtain ⟨hsf, hsb, hacross⟩ := List.pairwise_append.1 h.sorted
    refine ⟨?_, fun c' hc' => ?_, fun n => ?_⟩
    · rw [hfile, List.pairwise_append, List.pairwise_cons]
      refine ⟨hsf, ⟨hback, hsb⟩, fun a ha => List.forall_mem_cons.2 ⟨hfront a ha, hacross a ha⟩⟩
    · rw [hfile, List.mem_append, List.mem_cons] at hc'
      rcases hc' with hc' | rfl | hc'
      · exact hother c' (by simp [hc']) (String.ne_of_lt (hfront c' hc'))
      · -- no icon before this one is of its category
        have hnone : icons.filter (fun j => j.category = i.category) = [] := by
          refine List.filter_eq_nil_iff.2 fun j hj => ?_
          rw [decide_eq_true_eq]
          intro he
          obtain ⟨c, hc, hn⟩ := List.mem_map.1 ((h.names i.category).2 ⟨j, hj, he⟩)
          rcases List.mem_append.1 hc with hc | hc
          · exact String.lt_irrefl _ (hn ▸ hfront c hc)
          · exact String.lt_irrefl _ (hn ▸ hback c hc)
        simp [hnone]
      · exact hother c' (by simp [hc']) (String.ne_of_lt (hback c' hc')).symm
    · rw [hfile, hnames]
      simp only [List.map_append, List.map_cons, List.mem_append, List.mem_cons]
      tauto

theorem filed_ofIcons (icons : List Icon) : Filed icons (ofIcons icons) := by
  induction icons using List.reverseRecOn with
  | nil => exact ⟨.nil, by simp [ofIcons], by simp [ofIcons]⟩
  | append_singleton icons i ih =>
    rw [ofIcons, List.foldl_append]
    exact ih.file i

/-- Which categories there are and in which order does not depend on the order of the icons. -/
theorem names_ofIcons_of_perm {icons' : List Icon} (h : icons.Perm icons') :
    (ofIcons icons').map (·.name) = (ofIcons icons).map (·.name) := by
  have hsorted : ∀ icons, ((ofIcons icons).map (·.name)).Pairwise (· < ·) := fun icons =>
    List.pairwise_map.2 (filed_ofIcons icons).sorted
  refine List.Perm.eq_of_pairwise (fun a b _ _ hab hba => absurd hba (String.lt_asymm hab))
    (hsorted icons') (hsorted icons) ?_
  rw [List.perm_ext_iff_of_nodup ((hsorted icons').imp String.ne_of_lt)
    ((hsorted icons).imp String.ne_of_lt)]
  intro n
  rw [(filed_ofIcons icons').names, (filed_ofIcons icons).names]
  simp only [h.mem_iff]

/-- The categories with the icons that belong to each. -/
theorem ofIcons_eq (icons : List Icon) : ofIcons icons =
    ((ofIcons icons).map (·.name)).map fun n => ⟨n, icons.filter fun i => i.category = n⟩ := by
  rw [List.map_map]
  refine (List.map_id _).symm.trans (List.map_congr_left fun c hc => ?_)
  rw [Function.comp_apply, ← (filed_ofIcons icons).icons_eq c hc]
  rfl

end Category

namespace ModuleText

/-- The icons that are documented in some category are those with the given names. -/
theorem documented_perm (names : List String) (icons : List Icon) :
    ((Category.ofIcons icons).flatMap (documented names)).Perm
      (icons.filter fun i => names.contains i.name) := by
  have hsort : ∀ cs : List Category, (cs.flatMap (documented names)).Perm
      ((cs.flatMap Category.icons).filter fun i => names.contains i.name) := by
    intro cs
    rw [List.filter_flatMap]
    exact List.Perm.flatMap_left _ fun c _ => List.mergeSort_perm _ _
  exact (hsort _).trans ((Category.ofIcons_perm icons).filter _)

/-- A list of icons put in the order of their names, where icons of one name keep their order. -/
structure SortedByName (icons sorted : List Icon) : Prop where
  ordered : sorted.Pairwise fun i j => i.name ≤ j.name
  stable : ∀ n, (sorted.filter fun i => i.name = n) = icons.filter fun i => i.name = n

theorem sortedByName_documented (names : List String) (c : Category) :
    SortedByName (c.icons.filter fun i => names.contains i.name) (documented names c) := by
  have htrans : ∀ a b c : Icon, decide (a.name ≤ b.name) = true → decide (b.name ≤ c.name) = true →
      decide (a.name ≤ c.name) = true := fun a b c hab hbc =>
    decide_eq_true (String.le_trans (of_decide_eq_true hab) (of_decide_eq_true hbc))
  have htotal : ∀ a b : Icon, (decide (a.name ≤ b.name) || decide (b.name ≤ a.name)) = true := by
    simpa using fun a b : Icon => String.le_total a.name b.name
  refine ⟨(List.pairwise_mergeSort htrans htotal _).imp of_decide_eq_true, fun n => ?_⟩
  unfold documented
  generalize (c.icons.filter fun i => names.contains i.name) = icons
  -- the icons of one name are a sublist before and after, and there are as many
  have hsame : (icons.filter fun i => i.name = n).Pairwise fun a b => decide (a.name ≤ b.name) = true := by
    refine List.Pairwise.imp_of_mem (R := fun _ _ => True) (fun ha hb _ => ?_)
      (List.pairwise_of_forall fun _ _ => trivial)
    have hn := of_decide_eq_true (List.mem_filter.1 ha).2
    have hn' := of_decide_eq_true (List.mem_filter.1 hb).2
    exact decide_eq_true (hn.trans hn'.symm ▸ String.le_refl _)
  have hsub := (List.sublist_mergeSort htrans htotal hsame List.filter_sublist).filter fun i => i.name = n
  rw [List.filter_filter] at hsub
  simp only [Bool.and_self] at hsub
  exact (hsub.eq_of_length ((List.mergeSort_perm _ _).filter _).length_eq.symm).symm

/-- The names that are documented in a category do not depend on the order of its icons. -/
theorem map_name_documented {names names' : List String} {c c' : Category} (h : c.icons.Perm c'.icons)
    (hnames : ∀ n, n ∈ names' ↔ n ∈ names) :
    (documented names' c').map (·.name) = (documented names c).map (·.name) := by
  have hsorted : ∀ (names : List String) (c : Category),
      ((documented names c).map (·.name)).Pairwise (· ≤ ·) := fun names c =>
    List.pairwise_map.2 (sortedByName_documented names c).ordered
  refine List.Perm.eq_of_pairwise (fun a b _ _ => String.le_antisymm) (hsorted names' c')
    (hsorted names c) (List.Perm.map _ ?_)
  have hfilter : (c'.icons.filter fun i => names'.contains i.name) =
      c'.icons.filter fun i => names.contains i.name := by
    refine List.filter_congr fun i _ => ?_
    rw [Bool.eq_iff_iff, List.contains_iff_mem, List.contains_iff_mem, hnames]
  unfold documented
  rw [hfilter]
  exact ((List.mergeSort_perm _ _).trans (h.symm.filter _)).trans (List.mergeSort_perm _ _).symm

/-- The icons whose names are among those of the supported ones. With pairwise different names they are
the supported ones. -/
theorem filter_names {catalogue : Catalogue} (family : String)
    (h : (catalogue.icons.map (·.name)).Nodup) :
    catalogue.icons.filter (fun i => ((catalogue.supported family).map (·.name)).contains i.name) =
      catalogue.supported family := by
  refine List.filter_congr fun i hi => ?_
  rw [Bool.eq_iff_iff, List.contains_iff_mem, List.mem_map]
  constructor
  · rintro ⟨j, hj, he⟩
    obtain ⟨hj, hsupports⟩ := List.mem_filter.1 hj
    rwa [← List.inj_on_of_nodup_map h hj hi he]
  · intro hsupports
    exact ⟨i, List.mem_filter.2 ⟨hi, hsupports⟩, rfl⟩

end ModuleText
end IconModules
