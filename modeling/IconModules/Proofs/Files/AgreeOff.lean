import IconModules.Proofs.Files.Usable

/-! # Disks that agree off one place

`Disk.AgreeOff l d e` says that the disks are the same apart from what stands at `l`: a file, another one, or
nothing. Without links, a path that does not come by `l` leads to the same on both disks. The same is found by
it (`AgreeOff.find`), and operations end the same way and leave disks that are the same apart from `l`
(`AgreeOff.makeFolders`, `AgreeOff.write`). -/

namespace IconModules

/-- The folder in which a path ends is on its way. -/
theorem Path.approach_steps_prefix (p : Path) : p.approach.steps <+: p.steps := by
  obtain ⟨k, hk⟩ := exists_replicate_append p.parts
  unfold approach steps
  cases hd : p.parts.reverse.dropWhile (· == "") with
  | nil => exact List.nil_prefix
  | cons last rest =>
    rw [hk, hd, List.reverse_cons, List.append_assoc, List.map_append]
    exact List.prefix_append _ _

namespace Tree

variable {t t' : Tree} {here : Location} {follow : Bool} {links : Nat} {steps : List Path.Step}

/-- Steps depend on what stands at the places that they come by. -/
theorem stride_congr (h : ∀ ms, ms <+: steps → t'.get? (Path.walk here ms) = t.get? (Path.walk here ms)) :
    t'.stride follow here steps = t.stride follow here steps := by
  induction steps generalizing here with
  | nil => rfl
  | cons s rest ih =>
    have hhere : t'.get? here = t.get? here := h [] List.nil_prefix
    have hrest : t'.stride follow (s.next here) rest = t.stride follow (s.next here) rest :=
      ih fun ms hms => h (s :: ms) (List.cons_prefix_cons.2 ⟨rfl, hms⟩)
    rw [stride_cons, stride_cons, hhere]
    rcases t.get? here with _ | c | _ | target
    · rfl
    · rfl
    · cases s with
      | stay => exact hrest
      | up => exact hrest
      | into n =>
        have hthere : t'.get? (here ++ [n]) = t.get? (here ++ [n]) :=
          h [.into n] (List.cons_prefix_cons.2 ⟨rfl, List.nil_prefix⟩)
        dsimp only
        rw [hthere, show t'.stride follow (here ++ [n]) rest = _ from hrest]
        rfl
    · rfl

theorem seek_congr (ht : t.Plain)
    (h : ∀ ms, ms <+: steps → t'.get? (Path.walk here ms) = t.get? (Path.walk here ms)) :
    t'.seek follow links here steps = t.seek follow links here steps := by
  unfold seek
  rw [stride_congr h]
  cases hs : t.stride follow here steps with
  | error e => rfl
  | ok stop =>
    obtain ⟨-, rfl⟩ := (stride_iff ht).1 hs
    rfl

end Tree

namespace Disk

variable {l k : Location} {d e : Disk} {p : Path} {follow : Bool}

/-- The disks are the same apart from what stands at `l`. -/
structure AgreeOff (l : Location) (d e : Disk) : Prop where
  home : e.home = d.home
  get? : ∀ k, k ≠ l → e.tree.get? k = d.tree.get? k

/-- Both operations failed for the same reason, or they left disks that are the same apart from `l`. -/
inductive SameEnd (l : Location) : Except FileError Disk → Except FileError Disk → Prop
  | error (error : FileError) : SameEnd l (.error error) (.error error)
  | ok {d e : Disk} (h : AgreeOff l d e) : SameEnd l (.ok d) (.ok e)

namespace AgreeOff

/-- Whatever is put at `l` makes no difference elsewhere. -/
theorem of_put {x : Entry} (h : Put d l x e) : AgreeOff l d e :=
  ⟨h.home, fun k hk => by rw [h.get?, if_neg hk]⟩

/-- The same is put on both disks. -/
theorem put {d' e' : Disk} {x : Entry} (h : AgreeOff l d e) (hd : Put d k x d') (he : Put e k x e') :
    AgreeOff l d' e' := by
  refine ⟨he.home.trans (h.home.trans hd.home.symm), fun m hm => ?_⟩
  rw [he.get?, hd.get?, h.get? m hm]

section

variable (h : AgreeOff l d e) (hl : ¬ d.OnWay p l)
include h hl

theorem onWay (hk : d.OnWay p k) : e.tree.get? k = d.tree.get? k :=
  h.get? k fun he => hl (he ▸ hk)

variable (ht : d.tree.Plain)
include ht

/-! ### Looking -/

theorem seek {steps : List Path.Step} (hsteps : steps <+: p.steps) :
    e.seek follow p steps = d.seek follow p steps := by
  unfold Disk.seek
  rw [h.home]
  exact Tree.seek_congr ht fun ms hms => h.onWay hl (onWay_of_steps (hms.trans hsteps))

theorem folderOf : e.folderOf p = d.folderOf p := by
  have hprefix := p.approach_steps_prefix
  unfold Disk.folderOf
  rw [h.seek hl ht hprefix]
  cases hs : d.seek true p p.approach.steps with
  | error error => rfl
  | ok place =>
    obtain ⟨-, rfl⟩ := (Tree.seek_iff ht).1 hs
    have hplace := h.onWay hl (onWay_of_steps hprefix)
    unfold start at hplace
    dsimp only [bind, Except.bind]
    rw [hplace]

/-- The same is found. -/
theorem find : e.find follow p = d.find follow p := by
  have hlocate : e.locate follow p = d.locate follow p := by
    unfold locate
    rw [h.seek hl ht (List.prefix_refl _)]
  unfold Disk.find
  rw [hlocate]
  cases hd : d.locate follow p with
  | error error => rfl
  | ok place =>
    obtain ⟨-, -, rfl⟩ := (locate_iff ht).1 hd
    dsimp only [bind, Except.bind]
    rw [h.onWay hl (onWay_place d p)]

theorem holds : e.holds p = d.holds p := by
  unfold Disk.holds
  rw [h.find hl ht]

theorem holdsFolder : e.holdsFolder p = d.holdsFolder p := by
  unfold Disk.holdsFolder
  rw [h.find hl ht]

theorem read : e.read p = d.read p := by
  unfold Disk.read
  rw [h.find hl ht]

/-! ### Making folders -/

theorem makeFolder : SameEnd l (d.makeFolder p) (e.makeFolder p) := by
  have hsame := h.folderOf hl ht
  unfold Disk.makeFolder
  rw [hsame]
  cases hf : d.folderOf p with
  | error error => exact .error error
  | ok folder =>
    rw [hf] at hsame
    dsimp only [bind, Except.bind]
    cases hn : p.approach.ending with
    | here | up | root => exact .error _
    | name n =>
      have hthere := h.onWay hl (onWay_place d p)
      rw [(folderOf_eq ht hf hn).2.2.2] at hthere
      dsimp only
      rcases acceptName n with error | _
      · exact .error error
      · dsimp only
        rw [hthere]
        cases hd : d.tree.get? (folder ++ [n]) with
        | some x => exact .error _
        | none =>
          refine .ok (h.put (put_graft (folderOf_ok hf).2.2 ?_ _) (put_graft (folderOf_ok hsame).2.2 ?_ _))
          · simp [hd]
          · simp [hthere, hd]

end

theorem makeFolders (h : AgreeOff l d e) (hl : ¬ d.OnWay p l) (ht : d.tree.Plain) :
    (e.makeFolders p).1 = (d.makeFolders p).1 ∧ AgreeOff l (d.makeFolders p).2 (e.makeFolders p).2 := by
  -- folders that are made do not turn a way to the place
  let R : Disk → Disk → Prop := fun x y => AgreeOff l x y ∧ Extends d x
  have hpair : (e.makeFolders p).1 = (d.makeFolders p).1 ∧ R (d.makeFolders p).2 (e.makeFolders p).2 := by
    refine makeFoldersFrom_pair (A := fun q => ¬ d.OnWay q l) ?_ ?_ ?_ hl ⟨h, .refl d⟩
    · exact fun q above hq habove hway => hq (onWay_of_parent? habove hway)
    · intro q x y hq ⟨hxy, hx⟩
      have hmade := hxy.makeFolder (fun hway => hq ((onWay_of_home hx.home).1 hway)) (hx.plain ht)
      generalize hd : x.makeFolder q = r, y.makeFolder q = r' at hmade
      cases hmade with
      | error error => exact .inl ⟨error, rfl, rfl⟩
      | ok h' => exact .inr ⟨_, _, rfl, rfl, h', hx.trans (makeFolder_grown hd).extends⟩
    · intro q x y hq ⟨hxy, hx⟩
      exact hxy.holdsFolder (fun hway => hq ((onWay_of_home hx.home).1 hway)) (hx.plain ht)
  exact ⟨hpair.1, hpair.2.1⟩

/-! ### Writing -/

section

variable (h : AgreeOff l d e) (hl : ¬ d.OnWay p l) (ht : d.tree.Plain)
include h hl ht

theorem placeToWriteFrom (links : Nat) :
    placeToWriteFrom links e p = placeToWriteFrom links d p := by
  rw [Disk.placeToWriteFrom.eq_def, Disk.placeToWriteFrom.eq_def]
  dsimp only
  rw [h.folderOf hl ht]
  cases hf : d.folderOf p with
  | error error => rfl
  | ok folder =>
    dsimp only [bind, Except.bind]
    split
    · rename_i n hn _
      have hthere := h.onWay hl (onWay_place d p)
      rw [(folderOf_eq ht hf hn).2.2.2] at hthere
      rw [hthere]
      rcases acceptName n with error | _
      · rfl
      · cases hd : d.tree.get? (folder ++ [n]) with
        | none => rfl
        | some x =>
          cases x with
          | file c => rfl
          | folder => rfl
          | link target => exact absurd hd (ht _ _)
    · rfl

theorem placeToWrite : e.placeToWrite p = d.placeToWrite p :=
  h.placeToWriteFrom hl ht Tree.linkLimit

theorem write (c : Octets) : SameEnd l (d.write p c) (e.write p c) := by
  have hsame := h.placeToWrite hl ht
  unfold Disk.write
  rw [hsame]
  cases hw : d.placeToWrite p with
  | error error => exact .error error
  | ok place =>
    rw [hw] at hsame
    exact .ok (h.put (put_placeToWrite hw _) (put_placeToWrite hsame _))

end

end AgreeOff
end Disk
end IconModules
