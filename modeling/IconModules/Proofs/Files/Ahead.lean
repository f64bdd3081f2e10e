import IconModules.Proofs.Files.Usable

/-! # Disks that are ahead of others

`Disk.Ahead Z m x y` says that the disk `y` looks like `m` at places with the property `Z` and like `x`
elsewhere. Where `m` is what will become of `x`, an operation that changes `x` towards `m` keeps the relation: at
the places with the property `Z` it finds on `y` what it leaves. -/

namespace IconModules.Disk

variable {Z : Location → Prop} {m x x' y y' : Disk} {p root : Path} {a b k l : Location} {e : Entry}

/-- The disk `y` looks like `m` at places with the property `Z`, and like `x` elsewhere. -/
structure Ahead (Z : Location → Prop) (m x y : Disk) : Prop where
  home : y.home = x.home
  ahead : ∀ k, Z k → y.tree.get? k = m.tree.get? k
  same : ∀ k, ¬ Z k → y.tree.get? k = x.tree.get? k

namespace Ahead

theorem plain (h : Ahead Z m x y) (hm : m.tree.Plain) (hx : x.tree.Plain) : y.tree.Plain := by
  intro k target
  by_cases hk : Z k
  · rw [h.ahead k hk]
    exact hm k target
  · rw [h.same k hk]
    exact hx k target

/-- A way that will lead through folders at the places with the property `Z` can be gone on both disks. -/
theorem passable (h : Ahead Z m x y) (hm : ∀ k, x.OnWay p k → Z k → m.tree.get? k = some .folder)
    (hx : x.Passable p) : y.Passable p := by
  have hstart := start_of_home h.home p
  refine ⟨?_, hx.short, fun k hk => ?_⟩
  · rw [hstart]
    by_cases hZ : Z (x.start p)
    · rw [h.ahead _ hZ]
      exact hm _ ⟨[], List.nil_prefix, rfl⟩ hZ
    · rw [h.same _ hZ]
      exact hx.start
  · rw [onWay_of_home h.home] at hk
    by_cases hZ : Z k
    · rw [h.ahead k hZ]
      exact .inr (hm k hk hZ)
    · rw [h.same k hZ]
      exact hx.way k hk

theorem walked (h : Ahead Z m x y) (hm : m.Walked p) (hhome : m.home = x.home) (hx : x.Walked p) :
    y.Walked p := by
  intro k hk
  rw [onWay_of_home h.home] at hk
  by_cases hZ : Z k
  · rw [h.ahead k hZ]
    exact hm k ((onWay_of_home hhome).2 hk)
  · rw [h.same k hZ]
    exact hx k hk

theorem paved (h : Ahead Z m x y) (hm : ∀ k, x.OnWay p k → Z k → m.tree.get? k = some .folder)
    (hx : Paved x p x') (hy : Paved y p y') : Ahead Z m x' y' := by
  refine ⟨hy.home.trans (h.home.trans hx.home.symm), fun k hZ => ?_, fun k hZ => ?_⟩
  · by_cases hk : x.OnWay p k
    · rw [hy.walked k ((onWay_of_home h.home).2 hk), hm k hk hZ]
    · rw [hy.get? k (by rwa [onWay_of_home h.home]), h.ahead k hZ]
  · by_cases hk : x.OnWay p k
    · rw [hy.walked k ((onWay_of_home h.home).2 hk), hx.walked k hk]
    · rw [hy.get? k (by rwa [onWay_of_home h.home]), hx.get? k hk, h.same k hZ]

theorem put (h : Ahead Z m x y) (hl : ¬ Z l) (hx : Put x l e x') (hy : Put y l e y') :
    Ahead Z m x' y' := by
  refine ⟨hy.home.trans (h.home.trans hx.home.symm), fun k hZ => ?_, fun k hZ => ?_⟩
  · rw [hy.get?, if_neg (by rintro rfl; exact hl hZ), h.ahead k hZ]
  · rw [hx.get?, hy.get?, h.same k hZ]

/-- A move that brings to the places with the property `Z` what will be there. -/
theorem moved (h : Ahead Z m x y) (ha : ∀ q, ¬ Z (a ++ q))
    (hb : ∀ q, Z (b ++ q) → m.tree.get? (b ++ q) = x.tree.get? (a ++ q)) (hx : Moved x a b x')
    (hy : Moved y a b y') : Ahead Z m x' y' := by
  refine ⟨hy.home.trans (h.home.trans hx.home.symm), fun k hZ => ?_, fun k hZ => ?_⟩
  · rw [hy.get?]
    split
    · rename_i hk
      obtain ⟨q, rfl⟩ := hk
      rw [List.drop_left, h.same _ (ha q), hb q hZ]
    · split
      · rename_i hk
        obtain ⟨q, rfl⟩ := hk
        exact absurd hZ (ha q)
      · exact h.ahead k hZ
  · rw [hx.get?, hy.get?, h.same _ (ha _), h.same k hZ]

end Ahead
end IconModules.Disk
