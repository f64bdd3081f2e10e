import IconModules.Proofs.Files.Plain

/-! # Files moved from one folder to another

* `Disk.Merged a b d d'` says that the files at and below `a` in `d` are at and below `b` in `d'`, where
  they take the place of those that were there, and that all others are the same.
* `Disk.MergedAll` says so of the files under some names in a folder. Moves of one name after the other
  add up to it (`MergedAll.cons`), and moves of all the names in a folder to the move of the folder's
  files (`MergedAll.merged`). -/

namespace IconModules.Disk

variable {d d₁ d' : Disk} {a b k : Location} {n : String} {names : List String}

/-- Places that have nothing below them in common. -/
def Apart (a b : Location) : Prop :=
  ∀ q q', a ++ q ≠ b ++ q'

theorem Apart.symm (h : Apart a b) : Apart b a :=
  fun q q' e => h q' q e.symm

theorem Apart.append (h : Apart a b) (l m : Location) : Apart (a ++ l) (b ++ m) := by
  intro q q' e
  exact h (l ++ q) (m ++ q') (by simpa using e)

theorem Apart.elsewhere (h : Apart a b) (q : Location) : ¬ a <+: b ++ q := by
  rintro ⟨r, hr⟩
  exact h r q hr

theorem not_prefix_of_ne {l q : Location} {m : String} (h : n ≠ m) :
    ¬ l ++ [n] <+: l ++ m :: q := by
  rw [List.prefix_append_right_inj]
  intro hp
  exact h (List.cons_prefix_cons.1 hp).1

theorem apart_of_ne {l : Location} {m : String} (h : n ≠ m) : Apart (l ++ [n]) (l ++ [m]) := by
  intro q q' e
  have e' : n = m ∧ q = q' := by simpa using e
  exact h e'.1

/-! ### One place -/

/-- The files at and below `a` are at and below `b` afterwards. -/
structure Merged (a b : Location) (d d' : Disk) : Prop where
  into : ∀ q, d'.fileAt (b ++ q) = (d.fileAt (a ++ q)).or (d.fileAt (b ++ q))
  out : ∀ q, d'.fileAt (a ++ q) = none
  rest : ∀ k, ¬ a <+: k → ¬ b <+: k → d'.fileAt k = d.fileAt k

theorem Merged.of_fileAt_eq (h : Merged a b d₁ d') (he : ∀ k, d₁.fileAt k = d.fileAt k) :
    Merged a b d d' := by
  refine ⟨fun q => ?_, h.out, fun k ha hb => ?_⟩
  · rw [h.into, he, he]
  · rw [h.rest k ha hb, he]

/-- A move merges: only files take the place of files. -/
theorem Moved.merged (h : Moved d a b d') (ht : d.tree.Plain) (hab : Apart a b) :
    Merged a b d d' := by
  have hne : a ≠ b := by
    rintro rfl
    exact hab [] [] rfl
  refine ⟨fun q => ?_, fun q => ?_, fun k ha hb => ?_⟩
  · rw [h.fileAt, if_pos (List.prefix_append _ _), List.drop_left]
    obtain ⟨e, he⟩ := Option.ne_none_iff_exists'.1 h.source
    cases e with
    | link target => exact absurd he (ht _ _)
    | folder => rw [h.free he hne, Option.or_none]
    | file c =>
      cases q with
      | nil =>
        have hfile : d.fileAt (a ++ []) = some c := by
          rw [List.append_nil, fileAt_eq_some, he]
        rw [hfile]
        rfl
      | cons n q =>
        have hb := fileAt_below (h.target (by simp [he])) n q
        rw [hb, Option.or_none]
  · rw [h.fileAt, if_neg (hab.symm.elsewhere q), if_pos (List.prefix_append _ _)]
  · rw [h.fileAt, if_neg hb, if_neg ha]

/-! ### Some names in a folder -/

/-- The files under some names in the folder `a` are under the same names in `b` afterwards. -/
structure MergedAll (a b : Location) (names : List String) (d d' : Disk) : Prop where
  into : ∀ n ∈ names, ∀ q,
    d'.fileAt (b ++ n :: q) = (d.fileAt (a ++ n :: q)).or (d.fileAt (b ++ n :: q))
  out : ∀ n ∈ names, ∀ q, d'.fileAt (a ++ n :: q) = none
  rest : ∀ k, (∀ n ∈ names, ¬ a ++ [n] <+: k ∧ ¬ b ++ [n] <+: k) → d'.fileAt k = d.fileAt k

theorem MergedAll.nil (a b : Location) (d : Disk) : MergedAll a b [] d d :=
  ⟨by simp, by simp, fun _ _ => rfl⟩

/-- One more name can be moved first, if its places are not among those of the others. -/
theorem MergedAll.cons (h : Merged (a ++ [n]) (b ++ [n]) d d₁) (h' : MergedAll a b names d₁ d')
    (hn : n ∉ names) (hab : ∀ m ∈ n :: names, ∀ m' ∈ n :: names, Apart (a ++ [m]) (b ++ [m'])) :
    MergedAll a b (n :: names) d d' := by
  have hself : n ∈ n :: names := List.mem_cons_self
  -- the first move leaves the places of the other names alone, and the others leave its places alone
  have hfirst : ∀ m ∈ names, ∀ q, d₁.fileAt (a ++ m :: q) = d.fileAt (a ++ m :: q) ∧
      d₁.fileAt (b ++ m :: q) = d.fileAt (b ++ m :: q) := by
    intro m hm q
    have hne : n ≠ m := fun e => hn (e ▸ hm)
    have hm' := List.mem_cons_of_mem n hm
    refine ⟨h.rest _ (not_prefix_of_ne hne) ?_, h.rest _ ?_ (not_prefix_of_ne hne)⟩
    · simpa using (hab m hm' n hself).symm.elsewhere q
    · simpa using (hab n hself m hm').elsewhere q
  have hlater : ∀ q, d'.fileAt (a ++ n :: q) = d₁.fileAt (a ++ n :: q) ∧
      d'.fileAt (b ++ n :: q) = d₁.fileAt (b ++ n :: q) := by
    intro q
    refine ⟨h'.rest _ fun m hm => ?_, h'.rest _ fun m hm => ?_⟩
    · have hne : m ≠ n := fun e => hn (e ▸ hm)
      refine ⟨not_prefix_of_ne hne, ?_⟩
      simpa using (hab n hself m (List.mem_cons_of_mem n hm)).symm.elsewhere q
    · have hne : m ≠ n := fun e => hn (e ▸ hm)
      refine ⟨?_, not_prefix_of_ne hne⟩
      simpa using (hab m (List.mem_cons_of_mem n hm) n hself).elsewhere q
  refine ⟨fun m hm q => ?_, fun m hm q => ?_, fun k hk => ?_⟩
  · rcases List.mem_cons.1 hm with rfl | hm
    · rw [(hlater q).2]
      simpa using h.into q
    · rw [h'.into m hm, (hfirst m hm q).1, (hfirst m hm q).2]
  · rcases List.mem_cons.1 hm with rfl | hm
    · rw [(hlater q).1]
      simpa using h.out q
    · exact h'.out m hm q
  · rw [h'.rest k fun m hm => hk m (List.mem_cons_of_mem n hm)]
    exact h.rest k (hk n hself).1 (hk n hself).2

/-- Between folders that have nothing in common, any name can be moved first. -/
theorem Merged.cons_all (h : Merged (a ++ [n]) (b ++ [n]) d d₁) (h' : MergedAll a b names d₁ d')
    (hn : n ∉ names) (hab : Apart a b) : MergedAll a b (n :: names) d d' :=
  .cons h h' hn fun m _ m' _ => hab.append [m] [m']

/-- Where all names in a folder are moved, the folder's files are. -/
theorem MergedAll.merged (h : MergedAll a b names d d')
    (hall : ∀ n q, d.fileAt (a ++ n :: q) ≠ none → n ∈ names) (ha : d.fileAt a = none)
    (hab : Apart a b) : Merged a b d d' := by
  have htop : ∀ l : Location, ∀ m : String, ¬ l ++ [m] <+: l := by
    intro l m hp
    have := hp.length_le
    simp only [List.length_append, List.length_singleton] at this
    omega
  have hother : ∀ m, ∀ q, m ∉ names → d'.fileAt (a ++ m :: q) = d.fileAt (a ++ m :: q) ∧
      d'.fileAt (b ++ m :: q) = d.fileAt (b ++ m :: q) := by
    intro m q hm
    refine ⟨h.rest _ fun n hn => ?_, h.rest _ fun n hn => ?_⟩
    · have hne : n ≠ m := fun e => hm (e ▸ hn)
      refine ⟨not_prefix_of_ne hne, ?_⟩
      simpa using (hab.append [] [n]).symm.elsewhere (m :: q)
    · have hne : n ≠ m := fun e => hm (e ▸ hn)
      refine ⟨?_, not_prefix_of_ne hne⟩
      simpa using (hab.append [n] []).elsewhere (m :: q)
  refine ⟨fun q => ?_, fun q => ?_, fun k hka hkb => h.rest k fun n _ => ⟨?_, ?_⟩⟩
  · cases q with
    | nil =>
      rw [List.append_nil, List.append_nil, ha, Option.none_or]
      refine h.rest b fun n _ => ⟨?_, htop b n⟩
      simpa using (hab.append [n] []).elsewhere []
    | cons m q =>
      by_cases hm : m ∈ names
      · exact h.into m hm q
      · have hnone : d.fileAt (a ++ m :: q) = none := by
          cases hf : d.fileAt (a ++ m :: q) with
          | none => rfl
          | some c => exact absurd (hall m q (by simp [hf])) hm
        rw [(hother m q hm).2, hnone, Option.none_or]
  · cases q with
    | nil =>
      rw [List.append_nil, ← ha]
      refine h.rest a fun n _ => ⟨htop a n, ?_⟩
      simpa using (hab.append [] [n]).symm.elsewhere []
    | cons m q =>
      by_cases hm : m ∈ names
      · exact h.out m hm q
      · rw [(hother m q hm).1]
        cases hf : d.fileAt (a ++ m :: q) with
        | none => rfl
        | some c => exact absurd (hall m q (by simp [hf])) hm
  · exact fun hp => hka ((List.prefix_append _ _).trans hp)
  · exact fun hp => hkb ((List.prefix_append _ _).trans hp)

end IconModules.Disk
