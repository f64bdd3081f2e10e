import IconModules.Text.Utf8
/-!
# Trees of files

* A **`Location`** is the list of names on the way from the root; an **`Entry`** is what stands
  there.
* A **`Tree`** is a finite map from locations to entries. Its entries are kept in order, so equal
  maps are equal trees, and everything but the root stands in a folder of the tree.
* **`get?`** is the entry at a location. **`prune`** takes a location away with all below it,
  **`branch`** is what stands there, as a tree of its own, and **`graft`** puts a tree in its place.
  Each has one lemma that says what it does to `get?`.
-/

namespace IconModules

/-- The names on the way from the root. -/
abbrev Location := List String

/-- What stands at a location. -/
inductive Entry where
  | file (content : Octets)
  | folder
  | link (target : String)
  deriving DecidableEq, Repr

/-- A finite map from locations to entries. -/
structure Tree where
  entries : List (Location × Entry)
  ordered : entries.Pairwise fun a b => a.1 < b.1
  nested : ∀ l n e, (l ++ [n], e) ∈ entries → (l, Entry.folder) ∈ entries

namespace Tree

/-! ### Order of locations -/

theorem lt_append_of_lt {a b : Location} (c : Location) (h : a < b) : a < b ++ c := by
  induction a generalizing b with
  | nil =>
    cases b with
    | nil => exact absurd h (List.lt_irrefl _)
    | cons x b => exact List.nil_lt_cons _ _
  | cons x a ih =>
    cases b with
    | nil => exact absurd h (List.not_lt_nil _)
    | cons y b =>
      rw [List.cons_append, List.cons_lt_cons_iff]
      rw [List.cons_lt_cons_iff] at h
      exact h.imp_right fun h => ⟨h.1, ih h.2⟩

theorem append_lt_of_lt {a b : Location} (c : Location) (h : a < b) (hp : ¬a <+: b) :
    a ++ c < b := by
  induction a generalizing b with
  | nil => exact absurd List.nil_prefix hp
  | cons x a ih =>
    cases b with
    | nil => exact absurd h (List.not_lt_nil _)
    | cons y b =>
      rw [List.cons_append, List.cons_lt_cons_iff]
      rw [List.cons_lt_cons_iff] at h
      rcases h with h | ⟨rfl, h⟩
      · exact .inl h
      · exact .inr ⟨rfl, ih h fun hp' => hp (List.cons_prefix_cons.2 ⟨rfl, hp'⟩)⟩

theorem append_lt_append (l : Location) {a b : Location} (h : a < b) : l ++ a < l ++ b := by
  induction l with
  | nil => exact h
  | cons x l ih => exact List.cons_lt_cons_iff.2 (.inr ⟨rfl, ih⟩)

theorem lt_of_append_lt_append {l a b : Location} (h : l ++ a < l ++ b) : a < b := by
  induction l with
  | nil => exact h
  | cons x l ih =>
    rcases List.cons_lt_cons_iff.1 h with h | ⟨-, h⟩
    · exact absurd h (String.lt_irrefl x)
    · exact ih h

theorem not_prefix_of_lt {a b : Location} (h : a < b) : ¬b <+: a := by
  rintro ⟨c, rfl⟩
  cases c with
  | nil => exact List.lt_irrefl _ (List.append_nil b ▸ h)
  | cons x c => exact List.lt_irrefl _ (lt_append_of_lt (x :: c) h)

/-! ### Looking up -/

def get? (t : Tree) (l : Location) : Option Entry :=
  t.entries.lookup l

theorem lookup_eq_some_iff {es : List (Location × Entry)}
    (ho : es.Pairwise fun a b => a.1 < b.1) {l : Location} {e : Entry} :
    es.lookup l = some e ↔ (l, e) ∈ es := by
  induction es with
  | nil => simp
  | cons x es ih =>
    rw [List.pairwise_cons] at ho
    obtain ⟨k, v⟩ := x
    by_cases h : l = k
    · subst h
      simp only [List.lookup_cons, beq_self_eq_true, Option.some.injEq, List.mem_cons,
        Prod.mk.injEq, true_and]
      exact ⟨fun h => .inl h.symm, fun h => h.elim Eq.symm fun h =>
        absurd (ho.1 _ h) (List.lt_irrefl _)⟩
    · have hb : (l == k) = false := beq_eq_false_iff_ne.2 h
      simp [List.lookup_cons, hb, h, ih ho.2]

theorem get?_eq_some_iff {t : Tree} {l : Location} {e : Entry} :
    t.get? l = some e ↔ (l, e) ∈ t.entries :=
  lookup_eq_some_iff t.ordered

def isFolder (t : Tree) (l : Location) : Bool :=
  t.get? l = some .folder

/-- Everything but the root stands in a folder. -/
theorem get?_of_append {t : Tree} {l : Location} {n : String} {e : Entry}
    (h : t.get? (l ++ [n]) = some e) : t.get? l = some .folder :=
  get?_eq_some_iff.2 (t.nested _ _ _ (get?_eq_some_iff.1 h))

theorem eq_of_mem_iff {es fs : List (Location × Entry)} (hs : es.Pairwise fun a b => a.1 < b.1)
    (ht : fs.Pairwise fun a b => a.1 < b.1) (h : ∀ x, x ∈ es ↔ x ∈ fs) : es = fs := by
  induction es generalizing fs with
  | nil =>
    cases fs with
    | nil => rfl
    | cons y fs => exact absurd ((h y).2 List.mem_cons_self) List.not_mem_nil
  | cons x es ih =>
    cases fs with
    | nil => exact absurd ((h x).1 List.mem_cons_self) List.not_mem_nil
    | cons y fs =>
      rw [List.pairwise_cons] at hs ht
      have hxy : x = y := by
        rcases List.mem_cons.1 ((h x).1 List.mem_cons_self) with h1 | h1
        · exact h1
        · rcases List.mem_cons.1 ((h y).2 List.mem_cons_self) with h2 | h2
          · exact h2.symm
          · exact absurd (hs.1 _ h2) (List.lt_asymm (ht.1 _ h1))
      subst hxy
      congr 1
      refine ih hs.2 ht.2 fun z => ⟨fun hz => ?_, fun hz => ?_⟩
      · rcases List.mem_cons.1 ((h z).1 (List.mem_cons_of_mem _ hz)) with h | h
        · exact absurd (h ▸ hs.1 z hz) (List.lt_irrefl _)
        · exact h
      · rcases List.mem_cons.1 ((h z).2 (List.mem_cons_of_mem _ hz)) with h | h
        · exact absurd (h ▸ ht.1 z hz) (List.lt_irrefl _)
        · exact h

/-- Trees are determined by what stands where. -/
theorem ext_get? {s t : Tree} (h : ∀ l, s.get? l = t.get? l) : s = t := by
  have hmem : s.entries = t.entries := eq_of_mem_iff s.ordered t.ordered fun x => by
    rw [← get?_eq_some_iff (t := s), ← get?_eq_some_iff (t := t), h]
  cases s
  cases t
  congr

/-! ### Small trees -/

/-- The tree with nothing in it, not even a root. -/
def nothing : Tree := ⟨[], .nil, by simp⟩

def single (e : Entry) : Tree :=
  ⟨[([], e)], List.pairwise_singleton _ _, by simp⟩

@[simp] theorem get?_nothing (l : Location) : nothing.get? l = none := rfl

@[simp] theorem get?_single (e : Entry) (l : Location) :
    (single e).get? l = if l = [] then some e else none := by
  cases l <;> rfl

/-! ### Pruning -/

/-- The tree without a location and all below it. -/
def prune (l : Location) (t : Tree) : Tree where
  entries := t.entries.filter fun x => !l.isPrefixOf x.1
  ordered := t.ordered.filter _
  nested k n e h := by
    simp only [List.mem_filter, Bool.not_eq_true', ← Bool.not_eq_true, List.isPrefixOf_iff_prefix]
      at h ⊢
    exact ⟨t.nested k n e h.1, fun hp => h.2 (hp.trans (List.prefix_append _ _))⟩

theorem get?_prune (l k : Location) (t : Tree) :
    (t.prune l).get? k = if l <+: k then none else t.get? k := by
  ext e
  rw [get?_eq_some_iff]
  split <;> simp_all [prune, ← get?_eq_some_iff, ← Bool.not_eq_true, List.isPrefixOf_iff_prefix]

/-! ### Branches -/

/-- What stands at a location and below it, seen from there. -/
def branch (l : Location) (t : Tree) : Tree where
  entries := t.entries.filterMap fun x =>
    if l.isPrefixOf x.1 then some (x.1.drop l.length, x.2) else none
  ordered := by
    refine t.ordered.filterMap _ fun x y hxy a ha b hb => ?_
    simp only [List.isPrefixOf_iff_prefix, Option.ite_none_right_eq_some] at ha hb
    obtain ⟨⟨c, hc⟩, ha⟩ := ha
    obtain ⟨⟨d, hd⟩, hb⟩ := hb
    injection ha with ha
    injection hb with hb
    subst ha hb
    rw [← hc, ← hd] at hxy ⊢
    simpa using lt_of_append_lt_append hxy
  nested k n e h := by
    simp only [List.mem_filterMap, List.isPrefixOf_iff_prefix, Option.ite_none_right_eq_some,
      Option.some.injEq, Prod.mk.injEq] at h ⊢
    obtain ⟨⟨x, v⟩, hx, ⟨c, rfl⟩, hd, rfl⟩ := h
    simp only [List.drop_left] at hd
    subst hd
    refine ⟨(l ++ k, .folder), t.nested (l ++ k) n v ?_, ⟨k, rfl⟩, by simp, rfl⟩
    simpa using hx

theorem get?_branch (l k : Location) (t : Tree) : (t.branch l).get? k = t.get? (l ++ k) := by
  ext e
  rw [get?_eq_some_iff, get?_eq_some_iff]
  simp only [branch, List.mem_filterMap, List.isPrefixOf_iff_prefix,
    Option.ite_none_right_eq_some, Option.some.injEq, Prod.mk.injEq]
  constructor
  · rintro ⟨⟨x, v⟩, hx, ⟨c, rfl⟩, hd, rfl⟩
    simp only [List.drop_left] at hd
    subst hd
    exact hx
  · exact fun h => ⟨(l ++ k, e), h, ⟨k, rfl⟩, by simp, rfl⟩

theorem branch_branch (l k : Location) (t : Tree) : (t.branch l).branch k = t.branch (l ++ k) :=
  ext_get? fun m => by simp only [get?_branch, List.append_assoc]

@[simp] theorem get?_branch_nil (l : Location) (t : Tree) : (t.branch l).get? [] = t.get? l := by
  rw [get?_branch, List.append_nil]

/-! ### Grafting -/

/-- The entries of a tree with others in the place of those at a location and below it. -/
def graftEntries (l : Location) (s t : List (Location × Entry)) : List (Location × Entry) :=
  t.filter (fun x => x.1 < l) ++ s.map (fun x => (l ++ x.1, x.2)) ++
    t.filter (fun x => l < x.1 && !l.isPrefixOf x.1)

theorem mem_graftEntries {l : Location} {s t : List (Location × Entry)} {k : Location} {e : Entry} :
    (k, e) ∈ graftEntries l s t ↔
      (∃ r, k = l ++ r ∧ (r, e) ∈ s) ∨ ¬l <+: k ∧ (k, e) ∈ t := by
  simp only [graftEntries, List.mem_append, List.mem_filter, decide_eq_true_eq, List.mem_map,
    Bool.and_eq_true, Bool.not_eq_true', ← Bool.not_eq_true, List.isPrefixOf_iff_prefix,
    Prod.mk.injEq]
  constructor
  · rintro ((⟨h, hlt⟩ | ⟨⟨r, v⟩, hm, rfl, rfl⟩) | ⟨h, hlt, hp⟩)
    · exact .inr ⟨not_prefix_of_lt hlt, h⟩
    · exact .inl ⟨r, rfl, hm⟩
    · exact .inr ⟨hp, h⟩
  · rintro (⟨r, rfl, hm⟩ | ⟨hp, hm⟩)
    · exact .inl (.inr ⟨(r, e), hm, rfl, rfl⟩)
    · rcases Std.lt_trichotomy k l with h | h | h
      · exact .inl (.inl ⟨hm, h⟩)
      · exact absurd (h ▸ List.prefix_refl k) hp
      · exact .inr ⟨hm, h, hp⟩

/-- The tree `t` with the tree `s` in the place of what stands at a location. Where there is no
folder to hold it, nothing is grafted. -/
def graft (t : Tree) (l : Location) (s : Tree) : Tree :=
  if h : l = [] ∨ t.get? l.dropLast = some .folder then
    { entries := graftEntries l s.entries t.entries
      ordered := by
        unfold graftEntries
        rw [List.pairwise_append, List.pairwise_append]
        refine ⟨⟨t.ordered.filter _, ?_, ?_⟩, t.ordered.filter _, ?_⟩
        · exact s.ordered.map _ fun x y hxy => append_lt_append l hxy
        · intro x hx y hy
          obtain ⟨z, -, rfl⟩ := List.mem_map.1 hy
          exact lt_append_of_lt _ (by simpa using (List.mem_filter.1 hx).2)
        · intro x hx y hy
          obtain ⟨-, hy⟩ := List.mem_filter.1 hy
          simp only [Bool.and_eq_true, decide_eq_true_eq, Bool.not_eq_true', ← Bool.not_eq_true,
            List.isPrefixOf_iff_prefix] at hy
          rcases List.mem_append.1 hx with hx | hx
          · exact List.lt_trans (by simpa using (List.mem_filter.1 hx).2) hy.1
          · obtain ⟨z, -, rfl⟩ := List.mem_map.1 hx
            exact append_lt_of_lt _ hy.1 hy.2
      nested := by
        intro k n e hk
        rw [mem_graftEntries] at hk ⊢
        rcases hk with ⟨r, hr, hm⟩ | ⟨hp, hm⟩
        · rcases List.eq_nil_or_concat r with rfl | ⟨r', x, hc⟩
          · refine .inr ?_
            rw [List.append_nil] at hr
            subst hr
            refine ⟨fun hp => ?_, ?_⟩
            · have := hp.length_le
              simp only [List.length_append, List.length_singleton] at this
              omega
            · simpa [get?_eq_some_iff] using h
          · rw [List.concat_eq_append] at hc
            subst hc
            refine .inl ⟨r', ?_, s.nested r' x e hm⟩
            rw [← List.append_assoc] at hr
            exact (List.append_inj' hr rfl).1
        · exact .inr ⟨fun h' => hp (h'.trans (List.prefix_append _ _)), t.nested _ _ _ hm⟩ }
  else t

theorem get?_graft {l : Location} {t : Tree} (s : Tree) (k : Location)
    (h : l = [] ∨ t.get? l.dropLast = some .folder) :
    (t.graft l s).get? k = if l <+: k then s.get? (k.drop l.length) else t.get? k := by
  ext e
  rw [get?_eq_some_iff, graft, dif_pos h]
  simp only [mem_graftEntries]
  split
  · rename_i hp
    obtain ⟨r, rfl⟩ := hp
    simp [get?_eq_some_iff]
  · rename_i hp
    rw [get?_eq_some_iff]
    constructor
    · rintro (⟨r, rfl, -⟩ | ⟨-, hm⟩)
      · exact absurd (List.prefix_append _ _) hp
      · exact hm
    · exact fun hm => .inr ⟨hp, hm⟩

theorem graft_of_not {l : Location} {t : Tree} (s : Tree)
    (h : ¬(l = [] ∨ t.get? l.dropLast = some .folder)) : t.graft l s = t := by
  rw [graft, dif_neg h]

end Tree
end IconModules
