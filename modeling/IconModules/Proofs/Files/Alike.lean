import IconModules.Proofs.Files.Usable

/-! # Disks that differ in the content of one file

`Disk.Alike l d e` says that the disks are the same, but for the content of the file at `l`. What an operation
does depends on what stands where, and not on the content of files: on both disks it ends the same way, and
they are alike afterwards (`Alike.makeFolders`, `Alike.clear`), if it does not take the file elsewhere
(`Alike.move`). -/

namespace IconModules

namespace Tree

variable {t t' : Tree} {k here : Location} {follow : Bool} {links : Nat} {steps : List Path.Step}

/-- What stands at a location, up to the content of a file. -/
inductive SameKind : Option Entry → Option Entry → Prop
  | none : SameKind none none
  | file (c c' : Octets) : SameKind (some (.file c)) (some (.file c'))
  | folder : SameKind (some .folder) (some .folder)
  | link (target : String) : SameKind (some (.link target)) (some (.link target))

theorem SameKind.refl (e : Option Entry) : SameKind e e := by
  rcases e with _ | c | _ | target
  · exact .none
  · exact .file c c
  · exact .folder
  · exact .link target

/-- The same kind of thing stands everywhere. -/
def SameShape (t t' : Tree) : Prop :=
  ∀ k, SameKind (t.get? k) (t'.get? k)

namespace SameShape

variable (h : SameShape t t')
include h

theorem none_iff : t'.get? k = none ↔ t.get? k = none := by
  have hk := h k
  generalize t.get? k = x, t'.get? k = y at hk
  cases hk <;> simp

theorem folder_iff : t'.get? k = some .folder ↔ t.get? k = some .folder := by
  have hk := h k
  generalize t.get? k = x, t'.get? k = y at hk
  cases hk <;> simp

/-- Steps lead to the same place. -/
theorem stride : t'.stride follow here steps = t.stride follow here steps := by
  induction steps generalizing here with
  | nil => rfl
  | cons step rest ih =>
    rw [stride_cons, stride_cons]
    have hhere := h here
    generalize t.get? here = x, t'.get? here = y at hhere
    cases hhere with
    | none | file | link => rfl
    | folder =>
      cases step with
      | stay | up => exact ih
      | into n =>
        have hnext := h (here ++ [n])
        dsimp only
        generalize t.get? (here ++ [n]) = x, t'.get? (here ++ [n]) = y at hnext
        cases hnext with
        | link => rfl
        | none | file | folder => rw [ih]

theorem seek : t'.seek follow links here steps = t.seek follow links here steps := by
  induction links generalizing here steps with
  | zero =>
    unfold Tree.seek
    rw [h.stride]
  | succ links ih =>
    unfold Tree.seek
    rw [h.stride]
    split <;> first | rfl | exact ih

/-- Folders that hold something hold something in both trees. -/
theorem isEmpty_children : (t'.children k).isEmpty = (t.children k).isEmpty := by
  have hmem : ∀ t : Tree, (t.children k).isEmpty = true ↔ ∀ n, t.get? (k ++ [n]) = none := by
    intro t
    rw [List.isEmpty_iff, List.eq_nil_iff_forall_not_mem]
    constructor
    · intro hnone n
      cases he : t.get? (k ++ [n]) with
      | none => rfl
      | some e => exact absurd (mem_children.2 he) (hnone (n, e))
    · rintro hnone ⟨n, e⟩ hm
      rw [mem_children, hnone n] at hm
      cases hm
  rw [Bool.eq_iff_iff, hmem, hmem]
  exact forall_congr' fun n => h.none_iff

theorem obstacle? {e e' : Entry} (he : e' = .folder ↔ e = .folder) :
    Disk.obstacle? t' k e' = Disk.obstacle? t k e := by
  unfold Disk.obstacle?
  have hk := h k
  generalize hx : t.get? k = x, hy : t'.get? k = y at hk
  by_cases hfolder : e = .folder
  · rw [he.2 hfolder, hfolder, h.isEmpty_children]
    cases hk <;> rfl
  · have hfolder' : e' ≠ .folder := fun h => hfolder (he.1 h)
    cases hk <;> simp [hfolder, hfolder']

end SameShape
end Tree

namespace Disk

open IconModules.Tree (SameShape SameKind)

variable {l k : Location} {d d' d'' e e' : Disk} {p old new : Path} {follow : Bool} {fuel links : Nat}

/-- The disks differ at most in the content of the file at `l`. -/
structure Alike (l : Location) (d e : Disk) : Prop where
  home : e.home = d.home
  get? : ∀ k, e.tree.get? k = d.tree.get? k ∨
    k = l ∧ (∃ c, d.tree.get? k = some (.file c)) ∧ ∃ c, e.tree.get? k = some (.file c)

namespace Alike

theorem refl (l : Location) (d : Disk) : Alike l d d :=
  ⟨rfl, fun _ => .inl rfl⟩

theorem symm (h : Alike l d e) : Alike l e d :=
  ⟨h.home.symm, fun k => (h.get? k).imp Eq.symm fun ⟨hk, hd, he⟩ => ⟨hk, he, hd⟩⟩

theorem trans (h : Alike l d d') (h' : Alike l d' d'') : Alike l d d'' := by
  refine ⟨h'.home.trans h.home, fun k => ?_⟩
  rcases h.get? k with hk | ⟨hk, hd, hd'⟩
  · rw [← hk]
    exact h'.get? k
  · rcases h'.get? k with hk' | ⟨-, -, hd''⟩
    · exact .inr ⟨hk, hd, hk' ▸ hd'⟩
    · exact .inr ⟨hk, hd, hd''⟩

theorem same (h : Alike l d e) (hk : k ≠ l) : e.tree.get? k = d.tree.get? k :=
  (h.get? k).resolve_right fun h => hk h.1

theorem shape (h : Alike l d e) : SameShape d.tree e.tree := by
  intro k
  rcases h.get? k with hk | ⟨-, ⟨c, hd⟩, c', he⟩
  · rw [hk]
    exact .refl _
  · rw [hd, he]
    exact .file c c'

theorem plain (h : Alike l d e) (ht : d.tree.Plain) : e.tree.Plain := by
  intro k target hk
  rcases h.get? k with he | ⟨-, -, c, he⟩
  · exact ht k target (he ▸ hk)
  · rw [he] at hk
    cases hk

theorem named (h : Alike l d e) (hn : d.tree.Named) : e.tree.Named := by
  intro k n x hx
  have hthere : d.tree.get? (k ++ [n]) ≠ none := fun hnone => by
    rw [h.shape.none_iff.2 hnone] at hx
    cases hx
  obtain ⟨y, hy⟩ := Option.ne_none_iff_exists'.1 hthere
  exact hn k n y hy

/-- Pruning takes away the same. -/
theorem prune (h : Alike l d e) (a : Location) :
    Alike l (d.withTree (d.tree.prune a)) (e.withTree (e.tree.prune a)) := by
  refine ⟨h.home, fun k => ?_⟩
  change (e.tree.prune a).get? k = (d.tree.prune a).get? k ∨ _
  simp only [withTree, Tree.get?_prune]
  split
  · exact .inl rfl
  · exact h.get? k

/-- Grafting puts the same there. -/
theorem graft (h : Alike l d e) (a : Location) (t : Tree) :
    Alike l (d.withTree (d.tree.graft a t)) (e.withTree (e.tree.graft a t)) := by
  refine ⟨h.home, fun k => ?_⟩
  change (e.tree.graft a t).get? k = (d.tree.graft a t).get? k ∨ _
  by_cases ha : a = [] ∨ d.tree.get? a.dropLast = some .folder
  · simp only [withTree, Tree.get?_graft t k ha,
      Tree.get?_graft t k (ha.imp_right h.shape.folder_iff.2)]
    split
    · exact .inl rfl
    · exact h.get? k
  · simp only [withTree, Tree.graft_of_not t ha,
      Tree.graft_of_not t (fun ha' => ha (ha'.imp_right h.shape.folder_iff.1))]
    exact h.get? k

/-! ### Looking -/

theorem seek (h : Alike l d e) (steps : List Path.Step) :
    e.seek follow p steps = d.seek follow p steps := by
  unfold Disk.seek
  rw [h.home, h.shape.seek]

theorem folderOf (h : Alike l d e) (p : Path) : e.folderOf p = d.folderOf p := by
  unfold Disk.folderOf
  rw [h.seek]
  congr 1
  funext _
  congr 1
  funext place
  have hkind := h.shape place
  generalize d.tree.get? place = x, e.tree.get? place = y at hkind
  cases hkind <;> rfl

/-- What is found is the same, up to the content of a file. -/
theorem find (h : Alike l d e) (follow : Bool) (p : Path) :
    (∃ error, d.find follow p = .error error ∧ e.find follow p = .error error) ∨
      ∃ place x y, d.find follow p = .ok (place, x) ∧ e.find follow p = .ok (place, y) ∧
        SameKind (some x) (some y) := by
  have hlocate : e.locate follow p = d.locate follow p := by
    unfold locate
    rw [h.seek]
  unfold Disk.find
  rw [hlocate]
  rcases d.locate follow p with error | place
  · exact .inl ⟨error, rfl, rfl⟩
  · have hkind := h.shape place
    dsimp only [bind, Except.bind]
    generalize d.tree.get? place = x, e.tree.get? place = y at hkind
    cases hkind with
    | none => exact .inl ⟨_, rfl, rfl⟩
    | file c c' => exact .inr ⟨_, _, _, rfl, rfl, .file c c'⟩
    | folder => exact .inr ⟨_, _, _, rfl, rfl, .folder⟩
    | link target => exact .inr ⟨_, _, _, rfl, rfl, .link target⟩

/-- Away from the file at `l` the same is found. -/
theorem find_same (h : Alike l d e) (ht : d.tree.Plain) (hl : d.place p ≠ l) :
    e.find follow p = d.find follow p := by
  rcases h.find follow p with ⟨error, hd, he⟩ | ⟨place, x, y, hd, he, -⟩
  · rw [hd, he]
  · obtain ⟨-, -, rfl, hx⟩ := (find_iff ht).1 hd
    obtain ⟨-, -, -, hy⟩ := (find_iff (h.plain ht)).1 he
    rw [h.same hl, hx] at hy
    rw [hd, he, Option.some.inj hy]

theorem holds (h : Alike l d e) (p : Path) : e.holds p = d.holds p := by
  unfold Disk.holds
  rcases h.find true p with ⟨error, hd, he⟩ | ⟨place, x, y, hd, he, -⟩
  · rw [hd, he]
  · rw [hd, he]
    rfl

theorem holdsFolder (h : Alike l d e) (p : Path) : e.holdsFolder p = d.holdsFolder p := by
  unfold Disk.holdsFolder
  rcases h.find true p with ⟨error, hd, he⟩ | ⟨place, x, y, hd, he, hkind⟩
  · rw [hd, he]
  · rw [hd, he]
    cases hkind <;> rfl

/-- Away from the file at `l` the same is read. -/
theorem read (h : Alike l d e) (ht : d.tree.Plain) (hl : d.place p ≠ l) : e.read p = d.read p := by
  unfold Disk.read
  rw [h.find_same ht hl]

/-- A folder without the file lists the same. -/
theorem list (h : Alike l d e) (ht : d.tree.Plain) (hl : ¬ d.place p <+: l) : e.list p = d.list p := by
  unfold Disk.list
  rcases h.find true p with ⟨error, hd, he⟩ | ⟨place, x, y, hd, he, hkind⟩
  · rw [hd, he]
    rfl
  · rw [hd, he]
    obtain ⟨-, -, rfl, -⟩ := (find_iff ht).1 hd
    cases hkind with
    | file | link => rfl
    | folder =>
      refine congrArg Except.ok (Tree.children_congr fun q => h.same ?_)
      rintro rfl
      exact hl (List.prefix_append _ _)

/-! ### Making folders -/

/-- Both operations failed for the same reason, or they left disks that are alike. -/
inductive Result (l : Location) : Except FileError Disk → Except FileError Disk → Prop
  | error (error : FileError) : Result l (.error error) (.error error)
  | ok {d e : Disk} (h : Alike l d e) : Result l (.ok d) (.ok e)

theorem makeFolder (h : Alike l d e) (p : Path) : Result l (d.makeFolder p) (e.makeFolder p) := by
  unfold Disk.makeFolder
  rw [h.folderOf]
  rcases d.folderOf p with error | folder
  · exact .error error
  · dsimp only [bind, Except.bind]
    cases p.approach.ending with
    | here | up | root => exact .error _
    | name n =>
      dsimp only
      rcases acceptName n with error | _
      · exact .error error
      · have hkind := h.shape (folder ++ [n])
        have hgraft := h.graft (folder ++ [n]) (.single .folder)
        dsimp only
        generalize d.tree.get? (folder ++ [n]) = x, e.tree.get? (folder ++ [n]) = y at hkind
        cases hkind with
        | none => exact .ok hgraft
        | file | folder | link => exact .error _

theorem makeFoldersFrom (h : Alike l d e) (p : Path) :
    (makeFoldersFrom fuel p e).1 = (makeFoldersFrom fuel p d).1 ∧
      Alike l (makeFoldersFrom fuel p d).2 (makeFoldersFrom fuel p e).2 := by
  refine makeFoldersFrom_pair (A := fun _ => True) (fun _ _ _ _ => trivial) (fun p d e _ h => ?_)
    (fun p d e _ h => h.holdsFolder p) trivial h
  have hmade := h.makeFolder p
  generalize d.makeFolder p = r, e.makeFolder p = r' at hmade
  cases hmade with
  | error error => exact .inl ⟨error, rfl, rfl⟩
  | ok h => exact .inr ⟨_, _, rfl, rfl, h⟩

theorem makeFolders (h : Alike l d e) (p : Path) :
    (e.makeFolders p).1 = (d.makeFolders p).1 ∧ Alike l (d.makeFolders p).2 (e.makeFolders p).2 :=
  h.makeFoldersFrom p

/-! ### Removing -/

theorem removeFolder (h : Alike l d e) (p : Path) : Result l (d.removeFolder p) (e.removeFolder p) := by
  unfold Disk.removeFolder
  rw [h.folderOf]
  rcases d.folderOf p with error | folder
  · exact .error error
  · dsimp only [bind, Except.bind]
    cases p.approach.ending with
    | here | up | root => exact .error _
    | name n =>
      dsimp only
      rcases acceptName n with error | _
      · exact .error error
      · have hkind := h.shape (folder ++ [n])
        have hprune := h.prune (folder ++ [n])
        have hempty := h.shape.isEmpty_children (k := folder ++ [n])
        dsimp only
        generalize d.tree.get? (folder ++ [n]) = x, e.tree.get? (folder ++ [n]) = y at hkind
        cases hkind with
        | none | file | link => exact .error _
        | folder =>
          dsimp only
          rw [hempty]
          split
          · exact .ok hprune
          · exact .error _

theorem clear (h : Alike l d e) (p : Path) :
    (e.clear p).1 = (d.clear p).1 ∧ Alike l (d.clear p).2 (e.clear p).2 := by
  unfold Disk.clear
  rcases h.find false p with ⟨error, hd, he⟩ | ⟨place, x, y, hd, he, hkind⟩
  · rw [hd, he]
    exact ⟨rfl, h⟩
  · rw [hd, he]
    cases hkind with
    | file => exact ⟨rfl, h⟩
    | link => exact ⟨rfl, h.prune place⟩
    | folder =>
      have hemptied := h.graft place (.single .folder)
      have hremoved := hemptied.removeFolder p
      dsimp only
      generalize (d.withTree _).removeFolder p = r, (e.withTree _).removeFolder p = r' at hremoved
      cases hremoved with
      | ok hd => exact ⟨rfl, hd⟩
      | error error => exact ⟨rfl, hemptied⟩

/-! ### Moving -/

/-- A move that leaves the file where it is takes the same to the same place. -/
theorem move (h : Alike l d e) (ht : d.tree.Plain) (hl : ¬ d.place old <+: l)
    (hm : d.move old new = .ok d') : ∃ e', e.move old new = .ok e' ∧ Alike l d' e' := by
  obtain ⟨folder, hf, hm⟩ := ok_of_bind hm
  obtain ⟨folder', hf', hm⟩ := ok_of_bind hm
  unfold Disk.move
  rw [h.folderOf, h.folderOf, hf, hf']
  split at hm
  · rename_i m n hold hnew
    obtain ⟨_, hname, hm⟩ := ok_of_bind hm
    obtain ⟨-, -, -, hplace⟩ := folderOf_eq ht hf hold
    dsimp only at hm
    split at hm
    · cases hm
    rename_i x hx
    obtain ⟨_, hname', hm⟩ := ok_of_bind hm
    have hkind := h.shape (folder ++ [m])
    rw [hx] at hkind
    obtain ⟨y, hy, hfolder⟩ : ∃ y, e.tree.get? (folder ++ [m]) = some y ∧ (y = .folder ↔ x = .folder) := by
      generalize he : e.tree.get? (folder ++ [m]) = y at hkind
      cases hkind <;> exact ⟨_, rfl, by simp⟩
    simp only [bind, Except.bind, hname, hname', hy, ne_eq, hfolder, h.shape.obstacle? hfolder]
    split at hm
    · cases hm
    rename_i hslashed
    rw [if_neg hslashed]
    split at hm
    · cases hm
    rename_i hinto
    rw [if_neg hinto]
    split at hm
    · cases hm
    rename_i honto
    rw [if_neg honto]
    split at hm
    · rename_i hsame
      rw [if_pos hsame]
      obtain rfl := Except.ok.inj hm
      exact ⟨e, rfl, h⟩
    rename_i hother
    rw [if_neg hother]
    split at hm
    · cases hm
    obtain rfl := Except.ok.inj hm
    -- what is moved does not hold the file
    have hbranch : e.tree.branch (folder ++ [m]) = d.tree.branch (folder ++ [m]) := by
      refine Tree.ext_get? fun q => ?_
      rw [Tree.get?_branch, Tree.get?_branch, ← hplace]
      refine h.same ?_
      rintro rfl
      exact hl (List.prefix_append _ _)
    refine ⟨_, rfl, ?_⟩
    rw [hbranch]
    exact (h.prune _).graft _ _
  · cases hm

/-! ### Writing -/

/-- A file is written at the same place, also behind links. -/
theorem placeToWriteFrom (h : Alike l d e) :
    placeToWriteFrom links e p = placeToWriteFrom links d p := by
  induction links using Nat.strongRecOn generalizing d e p with
  | ind links ih =>
    rw [Disk.placeToWriteFrom.eq_def, Disk.placeToWriteFrom.eq_def]
    dsimp only
    rw [h.folderOf]
    rcases d.folderOf p with error | folder
    · rfl
    dsimp only [bind, Except.bind]
    split
    · rename_i n _ _
      have hkind := h.shape (folder ++ [n])
      rcases acceptName n with error | _
      · rfl
      generalize d.tree.get? (folder ++ [n]) = x, e.tree.get? (folder ++ [n]) = y at hkind
      cases hkind with
      | none | file | folder => rfl
      | link target =>
        have hmoved : Alike l { d with home := folder } { e with home := folder } := ⟨rfl, h.get?⟩
        cases links with
        | zero => rfl
        | succ links => exact ih links (Nat.lt_succ_self links) hmoved
    · rfl

theorem placeToWrite (h : Alike l d e) (p : Path) : e.placeToWrite p = d.placeToWrite p :=
  h.placeToWriteFrom

/-- The same content is written at the same place. -/
theorem write (h : Alike l d e) (p : Path) (c : Octets) : Result l (d.write p c) (e.write p c) := by
  unfold Disk.write
  rw [h.placeToWrite]
  rcases d.placeToWrite p with error | place
  · exact .error error
  · exact .ok (h.graft place _)

/-- What is put into a file makes no difference elsewhere. -/
theorem of_put {c c' : Octets} (hc : d.fileAt l = some c) (h : Put d l (.file c') e) : Alike l d e := by
  refine ⟨h.home, fun k => ?_⟩
  rw [h.get?]
  split
  · rename_i hk
    exact .inr ⟨hk, ⟨c, hk ▸ fileAt_eq_some.1 hc⟩, c', rfl⟩
  · exact .inl rfl

/-- What is written into a file makes no difference elsewhere. -/
theorem of_write (ht : d.tree.Plain) {c : Octets} (h : d.write p c = .ok d') (c' : Octets) :
    ∃ e, d.write p c' = .ok e ∧ Alike (d.place p) d' e := by
  obtain ⟨place, hplace, hput⟩ := write_ok h
  obtain ⟨-, rfl, -⟩ := placeToWrite_eq ht hplace
  have hput' := put_placeToWrite hplace (.file c')
  refine ⟨_, by rw [Disk.write, hplace]; rfl, hput'.home.trans hput.home.symm, fun k => ?_⟩
  rw [hput.get?, hput'.get?]
  by_cases hk : k = d.place p
  · exact .inr ⟨hk, ⟨c, if_pos hk⟩, c', if_pos hk⟩
  · rw [if_neg hk, if_neg hk]
    exact .inl rfl

end Alike
end Disk
end IconModules
