import IconModules.Proofs.Catalogue
import IconModules.Proofs.Text.ByteOrder

/-! # The categories divide the icons

`Category.ofIcons` is a sorted and stable division of a list of icons by the first category of each.

* `Divided` says what that means. It compares the names as octets; filing compares them as texts, which is
  the same order (`Text.encode_lt_iff`).
* `divided_ofIcons` puts together what filing one icon after the other keeps (`filed_ofIcons`) and that it
  loses and adds none (`ofIcons_perm`). -/

namespace IconModules

namespace Category

variable {icons : List Icon} {c : Category}

/-- Some categories divide a list of icons by the first category of each, which is the empty name where
there is none. -/
structure Divided (icons : List Icon) (cs : List Category) : Prop where
  /-- The octets of the names increase, so no name comes twice. -/
  increasing : (cs.map fun c => Text.encode c.name).Pairwise (· < ·)
  /-- The names are the first categories of the icons, and no others. -/
  names : ∀ n, n ∈ cs.map (·.name) ↔ ∃ i ∈ icons, i.categories.head?.getD "" = n
  nonempty : ∀ c ∈ cs, c.icons ≠ []
  /-- A category has its icons in their order. -/
  members : ∀ c ∈ cs, c.icons = icons.filter fun i => i.categories.head?.getD "" = c.name
  /-- No icon is lost, and none comes twice. -/
  conserved : (cs.flatMap (·.icons)).Perm icons

/-- A category is only made for an icon. -/
theorem icons_ne_nil (h : c ∈ ofIcons icons) : c.icons ≠ [] := by
  obtain ⟨i, hi, hname⟩ := name_of_mem_ofIcons h
  rw [(filed_ofIcons icons).icons_eq c h]
  exact List.ne_nil_of_mem (List.mem_filter.2 ⟨hi, decide_eq_true hname.symm⟩)

theorem divided_ofIcons (icons : List Icon) : Divided icons (ofIcons icons) where
  increasing := List.pairwise_map.2 ((filed_ofIcons icons).sorted.imp Text.encode_lt_iff.2)
  names := (filed_ofIcons icons).names
  nonempty _ := icons_ne_nil
  members := (filed_ofIcons icons).icons_eq
  conserved := ofIcons_perm icons

end Category
end IconModules
