import IconModules.Proofs.Files.Passable

/-! # When operations succeed

For paths that go on from a root through names, whether an operation succeeds depends on whether the path can be
used (`Disk.Usable`) and on what stands at the places it names. So an operation that succeeded on one disk
succeeds on another that looks the same there.

By any path, a file is only written where the folders for it are there, and is read back
(`walked_of_placeToWrite`, `read_of_placeToWrite`). -/

namespace IconModules

namespace Tree

variable {t t' : Tree} {l l' : Location}

/-- What is in a folder is listed in the branch there. -/
theorem children_branch (t : Tree) (l : Location) : (t.branch l).children [] = t.children l := by
  unfold children branch
  rw [List.filterMap_filterMap]
  congr 1
  funext x
  by_cases hl : l.isPrefixOf x.1 = true
  · simp [hl]
  · simp [hl]

/-- Folders that hold the same list the same. -/
theorem children_congr (h : ∀ q, t'.get? (l' ++ q) = t.get? (l ++ q)) :
    t'.children l' = t.children l := by
  have hbranch : t'.branch l' = t.branch l := ext_get? fun q => by rw [get?_branch, get?_branch, h]
  rw [← children_branch t', ← children_branch t, hbranch]

end Tree

namespace Path

variable {p : Path} {n : String}

/-- A path that ends in a name leads to its folder first. -/
theorem dropLast_moves_of_ending_name (h : p.approach.ending = .name n) :
    p.moves.dropLast = p.approach.steps.filter (· ≠ .stay) := by
  obtain ⟨-, k, hsteps⟩ := steps_of_ending_name h
  have hstays : (List.replicate k Step.stay).filter (· ≠ .stay) = [] := by
    simp
  change (p.steps.filter (· ≠ .stay)).dropLast = _
  rw [hsteps, List.filter_append, List.filter_cons_of_pos (by simp), hstays, List.dropLast_concat]

/-- The name in which a path ends is its last part, if no slash follows. -/
theorem getLast?_parts_of_ending_name (h : p.approach.ending = .name n)
    (hslashed : p.approach.slashed = false) : p.parts.getLast? = some n := by
  obtain ⟨k, hk⟩ := exists_replicate_append p.parts
  have hunslashed : p.text.toList.getLast? ≠ some '/' := by
    unfold approach at hslashed
    split at hslashed
    · cases hslashed
    · simpa using hslashed
  obtain ⟨last, rest, hd, he⟩ : ∃ last rest, p.parts.reverse.dropWhile (· == "") = last :: rest ∧
      Ending.ofPart last = .name n := by
    unfold approach at h
    split at h
    · cases h
    · exact ⟨_, _, ‹_›, h⟩
  obtain rfl : last = n := by
    unfold Ending.ofPart at he
    split at he
    · cases he
    · split at he
      · cases he
      · exact Ending.name.inj he
  rw [hd] at hk
  cases k with
  | zero => simp [hk]
  | succ k =>
    -- an empty part at the end stands behind a slash
    refine absurd ?_ hunslashed
    have hfront : (last :: rest).reverse ++ List.replicate k "" ≠ [] := by simp
    rw [List.replicate_succ', ← List.append_assoc] at hk
    rw [← intercalate_parts, hk, String.intercalate_append_of_ne_nil hfront (by simp)]
    simp

end Path

namespace Disk

variable {d d' : Disk} {p root old new : Path} {l k : Location} {e : Entry} {c : Octets}
  {m n : String} {ms ns names : List String} {follow : Bool}

/-- Disks are determined by what stands where and where relative paths begin. -/
theorem ext_get? (hhome : d.home = d'.home) (h : ∀ k, d.tree.get? k = d'.tree.get? k) : d = d' := by
  have htree := Tree.ext_get? h
  cases d
  cases d'
  simp_all

/-- A path under a root that leads to its place if something is there. -/
structure Usable (d : Disk) (root : Path) (names : List String) (p : Path) : Prop where
  accepted : acceptPath p = .ok ()
  way : d.OpenRoot root
  short : ∀ n ∈ names, n.utf8ByteSize ≤ Tree.nameLimit

theorem Usable.on (h : d.Usable root names p) (ho : d'.OpenRoot root) : d'.Usable root names p :=
  ⟨h.accepted, ho, h.short⟩

theorem Usable.folder (h : d.Usable root (ns ++ [n]) p) : d.Usable root ns p :=
  ⟨h.accepted, h.way, fun x hx => h.short x (List.mem_append_left _ hx)⟩

theorem Usable.last (h : d.Usable root (ns ++ [n]) p) : n.utf8ByteSize ≤ Tree.nameLimit :=
  h.short n (by simp)

theorem Usable.under (h : d.Usable root ns p) (hn : n.utf8ByteSize ≤ Tree.nameLimit) :
    d.Usable root (ns ++ [n]) p := by
  refine ⟨h.accepted, h.way, fun x hx => ?_⟩
  rcases List.mem_append.1 hx with hx | hx
  · exact h.short x hx
  · rwa [List.mem_singleton.1 hx]

/-! ### Looking -/

theorem find_usable_iff (ht : d.tree.Plain) (hp : Path.Under root names p) :
    d.find follow p = .ok (l, e) ↔
      d.Usable root names p ∧ l = d.place p ∧ d.tree.get? l = some e := by
  rw [find_iff ht]
  constructor
  · rintro ⟨ha, ho, rfl, he⟩
    obtain ⟨hroot, hnames⟩ := (open_under hp).1 ho
    exact ⟨⟨ha, hroot, short_of_open hnames⟩, rfl, he⟩
  · rintro ⟨hu, rfl, he⟩
    have hne : d.tree.get? (d.place root ++ names) ≠ none := by
      rw [← place_along hp.toAlong, he]
      simp
    exact ⟨hu.accepted, (open_under hp).2 ⟨hu.way, (Tree.open_into hne).2 hu.short⟩, rfl, he⟩

theorem read_usable_iff (ht : d.tree.Plain) (hp : Path.Under root names p) :
    d.read p = .ok c ↔ d.Usable root names p ∧ d.tree.get? (d.place p) = some (.file c) := by
  constructor
  · intro h
    obtain ⟨l, hfind⟩ := read_ok h
    obtain ⟨hu, rfl, he⟩ := (find_usable_iff ht hp).1 hfind
    exact ⟨hu, he⟩
  · rintro ⟨hu, he⟩
    unfold read
    rw [(find_usable_iff ht hp).2 ⟨hu, rfl, he⟩]
    rfl

theorem list_usable_iff (ht : d.tree.Plain) (hp : Path.Under root names p)
    {es : List (String × Entry)} : d.list p = .ok es ↔
      d.Usable root names p ∧ d.tree.get? (d.place p) = some .folder ∧
        es = d.tree.children (d.place p) := by
  constructor
  · intro h
    obtain ⟨l, hfind, rfl⟩ := list_ok h
    obtain ⟨hu, rfl, he⟩ := (find_usable_iff ht hp).1 hfind
    exact ⟨hu, he, rfl⟩
  · rintro ⟨hu, he, rfl⟩
    unfold list
    rw [(find_usable_iff ht hp).2 ⟨hu, rfl, he⟩]
    rfl

theorem holds_usable_iff (ht : d.tree.Plain) (hp : Path.Under root names p) :
    d.holds p = true ↔ d.Usable root names p ∧ d.tree.get? (d.place p) ≠ none := by
  rw [holds_iff ht hp]
  exact ⟨fun ⟨ha, ho, hs, he⟩ => ⟨⟨ha, ho, hs⟩, he⟩, fun ⟨hu, he⟩ => ⟨hu.accepted, hu.way, hu.short, he⟩⟩

/-! ### Writing -/

theorem folderOf_usable_iff (ht : d.tree.Plain) (hp : Path.Under root (ns ++ [n]) p) :
    d.folderOf p = .ok l ↔ d.Usable root ns p ∧ l = d.place root ++ ns ∧
      d.tree.get? l = some .folder := by
  obtain ⟨hn, -, hsteps⟩ := hp.approach
  have hstart := start_along (d := d) hp.toAlong
  have hmoves : p.approach.steps.filter (· ≠ .stay) = root.moves ++ ns.map .into := by
    have hm := hp.moves
    change p.steps.filter (· ≠ .stay) = _ at hm
    rw [hsteps, List.filter_append, List.map_append, ← List.append_assoc] at hm
    exact List.append_cancel_right hm
  have hwalk : Path.walk (d.start p) (root.moves ++ ns.map .into) = d.place root ++ ns := by
    rw [hstart, Path.walk_append, Path.walk_into]
    rfl
  constructor
  · intro h
    obtain ⟨ha, ho, hf, hplace⟩ := folderOf_eq ht h hn
    rw [place_along hp.toAlong, ← List.append_assoc] at hplace
    have ho' := ho.filter
    rw [hmoves, Tree.open_append, hstart] at ho'
    exact ⟨⟨ha, ho'.1, short_of_open ho'.2⟩, (List.append_inj' hplace rfl).1.symm, hf⟩
  · rintro ⟨hu, rfl, hf⟩
    have hnames : d.tree.Open (d.place root) (ns.map .into) :=
      (Tree.open_into (by rw [hf]; simp)).2 hu.short
    have hopen : d.tree.Open (d.start p) (root.moves ++ ns.map .into) := by
      rw [Tree.open_append, hstart]
      exact ⟨hu.way, hnames⟩
    rw [← hwalk] at hf ⊢
    -- idle steps lead from folder to folder
    have hfolders : ∀ ms, ms <+: p.approach.steps →
        d.tree.get? (Path.walk (d.start p) ms) = some .folder := by
      intro ms hms
      rw [← Path.walk_filter]
      exact hopen.folders hf (hmoves ▸ hms.filter _)
    have hshort : ∀ s ∈ p.approach.steps, Tree.Short s := by
      intro s hs
      by_cases hstay : s = .stay
      · rw [hstay]
        trivial
      · refine hopen.short s ?_
        rw [← hmoves]
        exact List.mem_filter.2 ⟨hs, by simpa using hstay⟩
    have hfound := folderOf_of_open ht hu.accepted (Tree.open_of_folders hshort hfolders)
      (hfolders _ (List.prefix_refl _))
    rw [← Path.walk_filter, hmoves] at hfound
    exact hfound

theorem acceptName_iff : acceptName n = .ok () ↔ n.utf8ByteSize ≤ Tree.nameLimit := by
  refine ⟨acceptName_ok, fun h => ?_⟩
  unfold acceptName
  rw [if_neg (Nat.not_lt.2 h)]

/-- Where the folder for a file is, the file can be written, if no folder is in its place. -/
theorem placeToWrite_of_usable (ht : d.tree.Plain) (hp : Path.Under root (ns ++ [n]) p)
    (hu : d.Usable root (ns ++ [n]) p) (hf : d.tree.get? (d.place root ++ ns) = some .folder)
    (he : d.tree.get? (d.place p) ≠ some .folder) : d.placeToWrite p = .ok (d.place p) := by
  have hplace : d.place p = d.place root ++ ns ++ [n] := by
    rw [place_along hp.toAlong, List.append_assoc]
  obtain ⟨hn, hslashed, -⟩ := hp.approach
  have hfolder : d.folderOf p = .ok (d.place root ++ ns) :=
    (folderOf_usable_iff ht hp).2 ⟨hu.folder, rfl, hf⟩
  rw [hplace] at he ⊢
  unfold placeToWrite placeToWriteFrom
  rw [hfolder]
  simp only [bind, Except.bind, hn, hslashed, acceptName_iff.2 hu.last]
  split
  · rename_i heq
    exact absurd heq he
  · rename_i target heq
    exact absurd heq (ht _ _)
  · rfl

theorem write_of_usable (ht : d.tree.Plain) (hp : Path.Under root (ns ++ [n]) p)
    (hu : d.Usable root (ns ++ [n]) p) (hf : d.tree.get? (d.place root ++ ns) = some .folder)
    (he : d.tree.get? (d.place p) ≠ some .folder) (c : Octets) : ∃ d', d.write p c = .ok d' := by
  unfold write
  rw [placeToWrite_of_usable ht hp hu hf he]
  exact ⟨_, rfl⟩

/-- Where a file can be written, it can be written whatever is added elsewhere. -/
theorem Extends.placeToWrite_of_same (h : Extends d d') (ht : d.tree.Plain) (hw : d.placeToWrite p = .ok l)
    (hsame : d'.tree.get? l = d.tree.get? l) : d'.placeToWrite p = .ok l := by
  obtain ⟨-, -, folder, n, hf, hn, hslashed, hshort, rfl, hnone | ⟨c, hfile⟩⟩ := placeToWrite_eq ht hw
  · rw [hnone] at hsame
    unfold Disk.placeToWrite
    rw [Disk.placeToWriteFrom.eq_def]
    simp only [bind, Except.bind, h.folderOf hf, hn, hslashed, acceptName_iff.2 hshort, hsame]
    rfl
  · rw [hfile] at hsame
    refine h.placeToWrite hw ?_
    rw [fileAt_eq_some.2 hsame]
    simp

/-- Where a file can be written, the folders for it are there. -/
theorem walked_of_placeToWrite {above : Path} (ht : d.tree.Plain) (habove : p.parent? = some above)
    (h : d.placeToWrite p = .ok l) : d.Walked above := by
  obtain ⟨-, -, folder, n, hf, hn, -⟩ := placeToWrite_eq ht h
  obtain ⟨-, hopen, hfolder, -⟩ := folderOf_eq ht hf hn
  obtain ⟨-, hs, -⟩ := folderOf_ok hf
  obtain ⟨-, rfl⟩ := (Tree.seek_iff ht).1 hs
  intro k hk
  obtain ⟨ms, hms, rfl⟩ := (onWay_parent?_iff habove).1 hk
  rw [Path.dropLast_moves_of_ending_name hn] at hms
  obtain ⟨taken, htaken, rfl⟩ := List.prefix_filter_iff.1 hms
  rw [Path.walk_filter]
  exact hopen.folders hfolder htaken

/-- Where a file can be written, no folder is made for it. -/
theorem makeFolders_of_placeToWrite {above : Path} (ht : d.tree.Plain) (habove : p.parent? = some above)
    (h : d.placeToWrite p = .ok l) : d.makeFolders above = (none, d) := by
  have hwalked := walked_of_placeToWrite ht habove h
  obtain ⟨haccept, -, folder, n, hf, hn, -⟩ := placeToWrite_eq ht h
  obtain ⟨-, hopen, -, -⟩ := folderOf_eq ht hf hn
  have hshort : ∀ s ∈ above.moves, Tree.Short s := by
    intro s hs
    rw [(Path.moves_parent? habove).2, Path.dropLast_moves_of_ending_name hn] at hs
    exact hopen.short s (List.mem_filter.1 hs).1
  obtain ⟨hnone, hpaved⟩ := makeFolders_of_passable ht (Path.tidy_parent? habove)
    (accept_parent? habove haccept) (hwalked.passable hshort)
  have hsame : d = (d.makeFolders above).2 :=
    ext_get? hpaved.home.symm fun k => (hpaved.get?_of_walked hwalked k).symm
  exact Prod.ext hnone hsame.symm

/-- A file that is where its path writes can be read. -/
theorem read_of_placeToWrite (ht : d.tree.Plain) (hw : d.placeToWrite p = .ok l)
    (hfile : d.fileAt l = some c) : d.read p = .ok c := by
  obtain ⟨haccept, rfl, folder, n, hf, hn, hslashed, hshort, hplace, -⟩ := placeToWrite_eq ht hw
  obtain ⟨-, hopen, hfolder, -⟩ := folderOf_eq ht hf hn
  obtain ⟨-, hs, -⟩ := folderOf_ok hf
  obtain ⟨-, rfl⟩ := (Tree.seek_iff ht).1 hs
  have hway : d.tree.Open (d.start p) p.steps := by
    have hlast := Path.getLast?_parts_of_ending_name hn hslashed
    rw [(Path.approach_of_getLast?_parts (Path.steps_of_ending_name hn).1 hlast).2.2, Tree.open_append]
    exact ⟨hopen, hfolder, hshort, trivial⟩
  unfold read
  rw [(find_iff ht).2 ⟨haccept, hway, rfl, fileAt_eq_some.1 hfile⟩]
  rfl

/-! ### Moving -/

theorem Moved.get?_into {a b : Location} (h : Moved d a b d') (q : Location) :
    d'.tree.get? (b ++ q) = d.tree.get? (a ++ q) := by
  rw [h.get?, if_pos (List.prefix_append _ _), List.drop_left]

/-- What takes the place of a folder is a folder, and the other one was empty. -/
theorem empty_of_obstacle? {t : Tree} (h : obstacle? t l e = none) (hl : t.get? l = some .folder) :
    e = .folder ∧ ∀ n r, t.get? (l ++ n :: r) = none := by
  have hfolder : e = .folder := by
    apply Classical.byContradiction
    intro he
    exact obstacle?_none h he hl
  refine ⟨hfolder, fun n r => ?_⟩
  subst hfolder
  have hempty : t.children l = [] := by simpa [obstacle?, hl] using h
  have hn : t.get? (l ++ [n]) = none := by
    apply Classical.byContradiction
    intro hne
    obtain ⟨e, he⟩ := Option.ne_none_iff_exists'.1 hne
    have hmem := Tree.mem_children.2 he
    rw [hempty] at hmem
    cases hmem
  rw [List.append_cons]
  cases r with
  | nil => simpa using hn
  | cons x r => exact Tree.get?_append_cons_of_ne (by simp [hn])

/-- Nothing and an empty folder are not in the way of a folder. -/
theorem obstacle?_of_empty {t : Tree} (h : t.get? l = none ∨
    e = .folder ∧ t.get? l = some .folder ∧ ∀ n, t.get? (l ++ [n]) = none) : obstacle? t l e = none := by
  unfold obstacle?
  rcases h with hnone | ⟨rfl, hfolder, hempty⟩
  · rw [hnone]
  · have hchildren : t.children l = [] := by
      rw [List.eq_nil_iff_forall_not_mem]
      rintro ⟨n, e⟩ hmem
      rw [Tree.mem_children, hempty] at hmem
      cases hmem
    rw [hfolder]
    simp [hchildren]

/-- Only a folder is in the way of what is no folder. -/
theorem obstacle?_of_ne_folder {t : Tree} (he : e ≠ .folder) (hl : t.get? l ≠ some .folder) :
    obstacle? t l e = none := by
  unfold obstacle?
  split
  · rfl
  · rename_i there hthere
    rw [if_neg he, if_neg]
    rintro rfl
    exact hl hthere

section

variable (ht : d.tree.Plain) (hold : Path.Under root (ns ++ [n]) old)
  (hnew : Path.Under root (ms ++ [m]) new) (hdown : ¬ d.place old <+: d.place new)
  (hup : ¬ d.place new <+: d.place old)
include ht hold hnew

theorem usable_of_move (hne : d.place old ≠ d.place new) (h : d.move old new = .ok d') :
    d.Usable root (ns ++ [n]) old ∧ d.Usable root (ms ++ [m]) new ∧
      d.tree.get? (d.place root ++ ms) = some .folder ∧
      ∃ e, d.tree.get? (d.place old) = some e ∧ obstacle? d.tree (d.place new) e = none := by
  have hplace : d.place old = d.place root ++ ns ++ [n] := by
    rw [place_along hold.toAlong, List.append_assoc]
  have hplace' : d.place new = d.place root ++ ms ++ [m] := by
    rw [place_along hnew.toAlong, List.append_assoc]
  obtain ⟨hn, -, -⟩ := hold.approach
  obtain ⟨hm, -, -⟩ := hnew.approach
  obtain ⟨folder, hf, h⟩ := ok_of_bind h
  obtain ⟨folder', hf', h⟩ := ok_of_bind h
  rw [hn, hm] at h
  dsimp only at h
  obtain ⟨_, hname, h⟩ := ok_of_bind h
  obtain ⟨hu, rfl, -⟩ := (folderOf_usable_iff ht hold).1 hf
  obtain ⟨hu', rfl, hfolder⟩ := (folderOf_usable_iff ht hnew).1 hf'
  rw [← hplace, ← hplace'] at h
  split at h
  · cases h
  rename_i e he
  obtain ⟨_, hname', h⟩ := ok_of_bind h
  split at h
  · cases h
  split at h
  · cases h
  split at h
  · cases h
  split at h
  · cases h
  rename_i hobstacle
  exact ⟨hu.under (acceptName_ok hname), hu'.under (acceptName_ok hname'), hfolder, e, he, hobstacle⟩

include hdown hup

theorem move_of_usable (hu : d.Usable root (ns ++ [n]) old) (hu' : d.Usable root (ms ++ [m]) new)
    (hfolder : d.tree.get? (d.place root ++ ms) = some .folder) (he : d.tree.get? (d.place old) = some e)
    (hobstacle : obstacle? d.tree (d.place new) e = none) : ∃ d', d.move old new = .ok d' := by
  have hplace : d.place old = d.place root ++ ns ++ [n] := by
    rw [place_along hold.toAlong, List.append_assoc]
  have hplace' : d.place new = d.place root ++ ms ++ [m] := by
    rw [place_along hnew.toAlong, List.append_assoc]
  obtain ⟨hn, hslashed, -⟩ := hold.approach
  obtain ⟨hm, hslashed', -⟩ := hnew.approach
  have hthere : d.tree.get? (d.place root ++ ns) = some .folder := by
    rw [hplace] at he
    exact Tree.get?_of_append he
  have hf := (folderOf_usable_iff ht hold).2 ⟨hu.folder, rfl, hthere⟩
  have hf' := (folderOf_usable_iff ht hnew).2 ⟨hu'.folder, rfl, hfolder⟩
  have hnot : ¬ (d.place root ++ ns ++ [n]).isPrefixOf (d.place root ++ ms) = true := by
    rw [List.isPrefixOf_iff_prefix, ← hplace]
    exact fun hp => hdown (hp.trans (hplace' ▸ List.prefix_append _ _))
  have hnot' : ¬ (d.place root ++ ms ++ [m]).isPrefixOf (d.place root ++ ns) = true := by
    rw [List.isPrefixOf_iff_prefix, ← hplace']
    exact fun hp => hup (hp.trans (hplace ▸ List.prefix_append _ _))
  have hne : d.place root ++ ns ++ [n] ≠ d.place root ++ ms ++ [m] := by
    rw [← hplace, ← hplace']
    exact fun heq => hdown (heq ▸ List.prefix_refl _)
  rw [hplace] at he
  rw [hplace'] at hobstacle
  unfold move
  rw [hf, hf']
  simp only [bind, Except.bind, hn, hm, acceptName_iff.2 hu.last, he, acceptName_iff.2 hu'.last, hslashed,
    hslashed', Bool.false_eq_true, or_self, and_false, hnot, hnot', hne, hobstacle, if_false]
  exact ⟨_, rfl⟩

/-- A move between places neither of which lies below the other succeeds if both paths can be used, the
folder for the new place is there and nothing is in the way. -/
theorem move_usable_iff : (∃ d', d.move old new = .ok d') ↔
    d.Usable root (ns ++ [n]) old ∧ d.Usable root (ms ++ [m]) new ∧
      d.tree.get? (d.place root ++ ms) = some .folder ∧
      ∃ e, d.tree.get? (d.place old) = some e ∧ obstacle? d.tree (d.place new) e = none :=
  ⟨fun ⟨_, h⟩ => usable_of_move ht hold hnew (fun he => hdown (he ▸ List.prefix_refl _)) h,
    fun ⟨hu, hu', hfolder, _, he, hobstacle⟩ =>
      move_of_usable ht hold hnew hdown hup hu hu' hfolder he hobstacle⟩

end

end Disk
end IconModules
