import IconModules.Proofs.Files.Merged

/-! # Files carried along ways

A **way** leads from one place to another. `Carried ways d d'` says that from `d` to `d'` files went only
along `ways`, whole or in part: a file at the first place of a way, or below it, is still there or at the
same place at the second. It is what a sequence of moves leaves wherever it is broken off: one move along a
way is enough to keep it (`Carried.merged`), whatever was moved before. -/

namespace IconModules.Disk

variable {d₀ d d' : Disk} {ways : List (Location × Location)} {x : Location × Location}
  {p k : Location}

/-- Ways that do not cross: nothing at or below one end of a way is at or below another end. -/
def Separate (ways : List (Location × Location)) : Prop :=
  ∀ x ∈ ways, ∀ y ∈ ways, Apart x.1 y.2 ∧ (x ≠ y → Apart x.1 y.1 ∧ Apart x.2 y.2)

theorem separate_singleton {a b : Location} (h : Apart a b) : Separate [(a, b)] := by
  intro x hx y hy
  rw [List.mem_singleton] at hx hy
  subst hx hy
  exact ⟨h, fun hne => absurd rfl hne⟩

theorem Separate.swap (h : Separate ways) : Separate (ways.map Prod.swap) := by
  intro x' hx' y' hy'
  obtain ⟨x, hx, rfl⟩ := List.mem_map.1 hx'
  obtain ⟨y, hy, rfl⟩ := List.mem_map.1 hy'
  refine ⟨(h y hy x hx).1.symm, fun hne => ?_⟩
  exact ((h x hx y hy).2 fun e => hne (congrArg Prod.swap e)).symm

/-- Files went only along some ways. -/
structure Carried (ways : List (Location × Location)) (d d' : Disk) : Prop where
  /-- Seen through both ends, with the first in front, a way looks the same. -/
  either : ∀ x ∈ ways, ∀ q, (d'.fileAt (x.1 ++ q)).or (d'.fileAt (x.2 ++ q)) =
    (d.fileAt (x.1 ++ q)).or (d.fileAt (x.2 ++ q))
  /-- Nothing new comes to the first end. -/
  left : ∀ x ∈ ways, ∀ q, d'.fileAt (x.1 ++ q) = none ∨ d'.fileAt (x.1 ++ q) = d.fileAt (x.1 ++ q)
  rest : ∀ k, (∀ x ∈ ways, ¬ x.1 <+: k ∧ ¬ x.2 <+: k) → d'.fileAt k = d.fileAt k

theorem Carried.refl (ways : List (Location × Location)) (d : Disk) : Carried ways d d :=
  ⟨fun _ _ _ => rfl, fun _ _ _ => .inr rfl, fun _ _ => rfl⟩

theorem Carried.of_fileAt_eq (h : Carried ways d₀ d) (he : ∀ k, d'.fileAt k = d.fileAt k) :
    Carried ways d₀ d' := by
  refine ⟨fun x hx q => ?_, fun x hx q => ?_, fun k hk => ?_⟩
  · rw [he, he, h.either x hx]
  · rw [he]
    exact h.left x hx q
  · rw [he, h.rest k hk]

/-- A file that has left its place is at the other end of the way. -/
theorem Carried.arrived (h : Carried ways d₀ d) (hx : x ∈ ways) {q : Location} {c : Octets}
    (hc : d₀.fileAt (x.1 ++ q) = some c) :
    d.fileAt (x.1 ++ q) = some c ∨ d.fileAt (x.2 ++ q) = some c := by
  have heither := h.either x hx q
  rw [hc, Option.some_or] at heither
  rcases h.left x hx q with hnone | hsame
  · rw [hnone, Option.none_or] at heither
    exact .inr heither
  · exact .inl (hsame.trans hc)

/-- A file at the far end stays there if nothing can take its place. -/
theorem Carried.stayed (h : Carried ways d₀ d) (hx : x ∈ ways) {q : Location} {c : Octets}
    (hnone : d₀.fileAt (x.1 ++ q) = none) (hc : d₀.fileAt (x.2 ++ q) = some c) :
    d.fileAt (x.2 ++ q) = some c := by
  have hfirst : d.fileAt (x.1 ++ q) = none := by
    rcases h.left x hx q with hnone' | hsame
    · exact hnone'
    · rw [hsame, hnone]
  have heither := h.either x hx q
  rw [hfirst, hnone, hc] at heither
  simpa using heither

/-- A move along a way, from any depth below its first end to the same below its second. -/
theorem Carried.merged (h : Carried ways d₀ d) (hw : Separate ways) (hx : x ∈ ways)
    (hm : Merged (x.1 ++ p) (x.2 ++ p) d d') : Carried ways d₀ d' := by
  -- seen from an end of another way, and from elsewhere, the move changes nothing
  have hother : ∀ y ∈ ways, x ≠ y → ∀ q, d'.fileAt (y.1 ++ q) = d.fileAt (y.1 ++ q) ∧
      d'.fileAt (y.2 ++ q) = d.fileAt (y.2 ++ q) := by
    intro y hy hne q
    obtain ⟨hfar, hnear⟩ := hw x hx y hy
    obtain ⟨hfirst, hsecond⟩ := hnear hne
    have hback := (hw y hy x hx).1.symm
    constructor
    · refine hm.rest _ ?_ ?_
      · simpa using (hfirst.append p []).elsewhere q
      · simpa using (hback.append p []).elsewhere q
    · refine hm.rest _ ?_ ?_
      · simpa using (hfar.append p []).elsewhere q
      · simpa using (hsecond.append p []).elsewhere q
  -- on the way itself it changes what is below `p`
  have hself : Apart x.1 x.2 := (hw x hx x hx).1
  have hbeside : ∀ q, ¬ p <+: q → d'.fileAt (x.1 ++ q) = d.fileAt (x.1 ++ q) ∧
      d'.fileAt (x.2 ++ q) = d.fileAt (x.2 ++ q) := by
    intro q hq
    constructor
    · refine hm.rest _ ?_ ?_
      · rwa [List.prefix_append_right_inj]
      · simpa using (hself.symm.append p []).elsewhere q
    · refine hm.rest _ ?_ ?_
      · simpa using (hself.append p []).elsewhere q
      · rwa [List.prefix_append_right_inj]
  have hbelow : ∀ r, d'.fileAt (x.1 ++ (p ++ r)) = none ∧ d'.fileAt (x.2 ++ (p ++ r)) =
      (d.fileAt (x.1 ++ (p ++ r))).or (d.fileAt (x.2 ++ (p ++ r))) := by
    intro r
    have hout := hm.out r
    have hinto := hm.into r
    rw [List.append_assoc] at hout
    rw [List.append_assoc, List.append_assoc] at hinto
    exact ⟨hout, hinto⟩
  refine ⟨fun y hy q => ?_, fun y hy q => ?_, fun k hk => ?_⟩
  · rw [← h.either y hy]
    by_cases hne : x = y
    · subst hne
      by_cases hq : p <+: q
      · obtain ⟨r, rfl⟩ := hq
        rw [(hbelow r).1, (hbelow r).2, Option.none_or]
      · rw [(hbeside q hq).1, (hbeside q hq).2]
    · rw [(hother y hy hne q).1, (hother y hy hne q).2]
  · by_cases hne : x = y
    · subst hne
      by_cases hq : p <+: q
      · obtain ⟨r, rfl⟩ := hq
        exact .inl (hbelow r).1
      · rw [(hbeside q hq).1]
        exact h.left x hx q
    · rw [(hother y hy hne q).1]
      exact h.left y hy q
  · rw [← h.rest k hk]
    refine hm.rest k ?_ ?_
    · exact fun hp => (hk x hx).1 ((List.prefix_append _ _).trans hp)
    · exact fun hp => (hk x hx).2 ((List.prefix_append _ _).trans hp)

end IconModules.Disk
