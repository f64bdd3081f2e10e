import IconModules.Proofs.Files.Growth

/-! # Paths under a root that could be used

An operation that ended well on a path under a root shows that the way to the root is open
(`openRoot_of_folderOf`, `makeFolders_ok`). Where it is, a folder is removed as a whole unless the way
leads through what it holds (`clear_removes`). -/

namespace IconModules

namespace Path

variable {p root : Path} {names : List String}

theorem moves_of_parent?_none (h : p.parent? = none) : p.moves = [] := by
  rw [moves_eq_drop_lead]
  unfold parent? at h
  split at h
  · cases h
  · rename_i hb
    rw [← movesOf_busy, hb]
    rfl

/-- A path under a root has a parent. -/
theorem Under.exists_parent (hp : Under root names p) : ∃ above, p.parent? = some above := by
  rw [← Option.ne_none_iff_exists']
  intro hnone
  have hm := hp.moves
  obtain ⟨n, hn, -⟩ := hp.last
  rw [moves_of_parent?_none hnone, eq_comm, List.append_eq_nil_iff, List.map_eq_nil_iff] at hm
  rw [hm.2] at hn
  cases hn

end Path

namespace Disk

variable {d d' : Disk} {p root : Path} {l : Location} {n : String} {names : List String}

theorem start_along (h : Path.Along root names p) : d.start p = d.start root := by
  unfold start
  rw [h.isAbsolute]

/-- Whoever finds the folder of a path under a root can take the way to the root. -/
theorem openRoot_of_folderOf (ht : d.tree.Plain) (hp : Path.Under root names p)
    (h : d.folderOf p = .ok l) : acceptPath p = .ok () ∧ d.OpenRoot root := by
  obtain ⟨ha, hs, -⟩ := folderOf_ok h
  obtain ⟨ho, -⟩ := (Tree.seek_iff ht).1 hs
  obtain ⟨ns, n, rfl⟩ := exists_concat_of_under hp
  obtain ⟨-, -, hsteps⟩ := hp.approach
  have hmoves : p.approach.steps.filter (· ≠ .stay) = root.moves ++ ns.map .into := by
    have e := hp.moves
    change p.steps.filter (· ≠ .stay) = _ at e
    rw [hsteps, List.filter_append, List.map_append, ← List.append_assoc] at e
    exact List.append_cancel_right e
  have ho' := Tree.Open.filter ho
  rw [hmoves, Tree.open_append] at ho'
  refine ⟨ha, ?_⟩
  unfold OpenRoot
  rw [← start_along hp.toAlong]
  exact ho'.1

theorem short_of_open {here : Location} (h : d.tree.Open here (names.map .into)) :
    ∀ n ∈ names, n.utf8ByteSize ≤ Tree.nameLimit := by
  induction names generalizing here with
  | nil => simp
  | cons n names ih => exact List.forall_mem_cons.2 ⟨h.2.1, ih h.2.2⟩

/-- Where a file can be written, the path can be used, its names are short enough, and the way to the
root is open. -/
theorem usable_of_placeToWrite (ht : d.tree.Plain) (hp : Path.Under root names p)
    (h : d.placeToWrite p = .ok l) :
    l = d.place p ∧ acceptPath p = .ok () ∧ d.OpenRoot root ∧
      ∀ n ∈ names, n.utf8ByteSize ≤ Tree.nameLimit := by
  obtain ⟨ha, hl, folder, n, hfolder, hn, -, hshort, -, -⟩ := placeToWrite_eq ht h
  obtain ⟨-, ho⟩ := openRoot_of_folderOf ht hp hfolder
  obtain ⟨-, hs, hf⟩ := folderOf_ok hfolder
  obtain ⟨happroach, rfl⟩ := (Tree.seek_iff ht).1 hs
  obtain ⟨ns, m, rfl⟩ := exists_concat_of_under hp
  obtain ⟨hm, -, hsteps⟩ := hp.approach
  obtain rfl : m = n := Path.Ending.name.inj (hm.symm.trans hn)
  refine ⟨hl, ha, ho, ?_⟩
  have hopen : d.tree.Open (d.start p) p.steps := by
    rw [hsteps, Tree.open_append]
    exact ⟨happroach, hf, hshort, trivial⟩
  exact short_of_open ((open_under hp).1 hopen).2

/-- What can be read is the file at the place of the path, and the way to the root is open. -/
theorem found_of_read {c : Octets} (ht : d.tree.Plain) (hp : Path.Under root names p)
    (h : d.read p = .ok c) : d.OpenRoot root ∧ d.fileAt (d.place p) = some c := by
  obtain ⟨l, hfind⟩ := read_ok h
  obtain ⟨-, ho, rfl, hfile⟩ := (find_iff ht).1 hfind
  exact ⟨((open_under hp).1 ho).1, fileAt_eq_some.2 hfile⟩

/-- Making a path of folders fails, or it ends with the last of them. -/
theorem makeFoldersFrom_cases (fuel : Nat) {above : Path} (h : p.parent? = some above) (d : Disk) :
    (makeFoldersFrom (fuel + 1) p d).1 ≠ none ∨
      ∃ d₁, Extends d d₁ ∧
        makeFoldersFrom (fuel + 1) p d = d₁.settle p (d₁.makeFolder p) := by
  unfold makeFoldersFrom
  rw [h]
  dsimp only
  split
  · rename_i e he
    split
    · split
      · rename_i d₁ h₁
        have hextends := (makeFoldersFrom_extends fuel above d).1
        rw [h₁] at hextends
        exact .inr ⟨d₁, hextends, rfl⟩
      · rename_i hfailed
        refine .inl fun hnone => ?_
        exact hfailed _ (Prod.ext hnone rfl)
    · exact .inr ⟨d, .refl d, by rw [he]⟩
  · rename_i d' he
    exact .inr ⟨d, .refl d, by rw [he]⟩

/-- Folders that could be made are there, and the way to the root is open. -/
theorem makeFoldersFrom_ok (ht : d.tree.Plain) (hp : Path.Under root names p) {fuel : Nat}
    (h : (makeFoldersFrom (fuel + 1) p d).1 = none) :
    acceptPath p = .ok () ∧ (makeFoldersFrom (fuel + 1) p d).2.OpenRoot root ∧
      (makeFoldersFrom (fuel + 1) p d).2.tree.get? (d.place p) = some .folder := by
  obtain ⟨above, habove⟩ := hp.exists_parent
  rcases makeFoldersFrom_cases fuel habove d with hne | ⟨d₁, hextends, he⟩
  · exact absurd h hne
  · rw [he] at h ⊢
    have ht₁ := hextends.plain ht
    rw [← place_of_home hextends.home]
    unfold settle at h ⊢
    cases hm : d₁.makeFolder p with
    | ok d' =>
      obtain ⟨l, n, hl, hn, -, hput⟩ := makeFolder_ok hm
      obtain ⟨ha, ho⟩ := openRoot_of_folderOf ht₁ hp hl
      refine ⟨ha, (makeFolder_grown hm).extends.openRoot ho, ?_⟩
      rw [(folderOf_eq ht₁ hl hn).2.2.2, hput.get?, if_pos rfl]
    | error e =>
      rw [hm] at h
      simp only at h
      split at h
      · rename_i hthere
        have hholds := hthere.2
        unfold holdsFolder at hholds
        split at hholds
        · rename_i l hfind
          obtain ⟨ha, ho, rfl, hfolder⟩ := (find_iff ht₁).1 hfind
          exact ⟨ha, ((open_under hp).1 ho).1, hfolder⟩
        · cases hholds
      · cases h

theorem makeFolders_ok (ht : d.tree.Plain) (hp : Path.Under root names p)
    (h : (d.makeFolders p).1 = none) :
    acceptPath p = .ok () ∧ (d.makeFolders p).2.OpenRoot root ∧
      (d.makeFolders p).2.tree.get? (d.place p) = some .folder :=
  makeFoldersFrom_ok ht hp h

/-- The way of a path that is written as names only ends with its place. -/
theorem not_onWay_below {root : Path} (h : root.moves = names.map .into) (n : String)
    (rest : Location) : ¬ d.OnWay root (d.place root ++ n :: rest) := by
  rintro ⟨ms, hms, he⟩
  have hend : d.place root = d.start root ++ names := by
    unfold place
    rw [h, Path.walk_into]
  rw [h, List.prefix_map_iff] at hms
  obtain ⟨l, hl, rfl⟩ := hms
  rw [hend, Path.walk_into] at he
  have hlength := congrArg List.length he
  have hle := hl.length_le
  simp only [List.length_append, List.length_cons] at hlength
  omega

/-! ### Removing a folder -/

/-- Where the way to a folder is open, it is found. -/
theorem folderOf_of_open (ht : d.tree.Plain) (ha : acceptPath p = .ok ())
    (ho : d.tree.Open (d.start p) p.approach.steps)
    (hf : d.tree.get? (Path.walk (d.start p) p.approach.steps) = some .folder) :
    d.folderOf p = .ok (Path.walk (d.start p) p.approach.steps) := by
  have hs : d.seek true p p.approach.steps = .ok (Path.walk (d.start p) p.approach.steps) :=
    (Tree.seek_iff ht).2 ⟨ho, rfl⟩
  unfold folderOf
  rw [ha, hs]
  simp only [bind, Except.bind, hf]
  rfl

theorem onWay_of_steps {ms : List Path.Step} (h : ms <+: p.steps) :
    d.OnWay p (Path.walk (d.start p) ms) := by
  refine ⟨ms.filter (· ≠ .stay), ?_, (Path.walk_filter _ _).symm⟩
  exact h.filter _

/-- An empty folder can be removed if the way to it is open. -/
theorem removeFolder_of_open (ht : d.tree.Plain) (hp : Path.Under root (names ++ [n]) p)
    (ha : acceptPath p = .ok ()) (hn : n.utf8ByteSize ≤ Tree.nameLimit)
    (ho : d.tree.Open (d.start p) p.approach.steps) (hf : d.tree.get? (d.place p) = some .folder)
    (hempty : d.tree.children (d.place p) = []) : ∃ d', d.removeFolder p = .ok d' := by
  obtain ⟨hname, -, -⟩ := hp.approach
  have hplace : d.place p = Path.walk (d.start p) p.approach.steps ++ [n] := by
    unfold place
    rw [← Path.walk_steps, Path.walk_of_ending_name hname]
  rw [hplace] at hf hempty
  have haccept : acceptName n = .ok () := by
    unfold acceptName
    rw [if_neg (Nat.not_lt.2 hn)]
  unfold removeFolder
  rw [folderOf_of_open ht ha ho (Tree.get?_of_append hf)]
  simp only [bind, Except.bind, hname, haccept, hf, hempty]
  exact ⟨_, rfl⟩

theorem children_emptied (h : d.tree.get? l = some .folder) :
    (d.emptied l).tree.children l = [] := by
  rw [List.eq_nil_iff_forall_not_mem]
  rintro ⟨m, e⟩ hm
  rw [Tree.mem_children, (cleared_emptied h).below _ (List.prefix_append _ _) (by simp)] at hm
  cases hm

/-- A root whose way does not lead through what a folder held can be reached when that is emptied. -/
theorem openRoot_emptied (ho : d.OpenRoot root) (hf : d.tree.get? l = some .folder)
    (hway : ∀ n rest, ¬ d.OnWay root (l ++ n :: rest)) : (d.emptied l).OpenRoot root := by
  change (d.emptied l).tree.Open (d.start root) root.moves
  refine Tree.Open.of_starts ho fun ms step rest hms hfolder => ?_
  by_cases hk : l <+: Path.walk (d.start root) ms
  · obtain ⟨r, hr⟩ := hk
    cases r with
    | nil =>
      rw [List.append_nil] at hr
      rw [← hr]
      exact emptied_itself hf
    | cons x r =>
      refine absurd ?_ (hway x r)
      rw [hr]
      exact ⟨ms, hms ▸ List.prefix_append _ _, rfl⟩
  · rw [(cleared_emptied hf).get? _ hk]
    exact hfolder

/-- A folder that was emptied can be removed if the way to the root is still open. -/
theorem removeFolder_of_emptied (ht : d.tree.Plain) (hp : Path.Under root names p)
    (hfind : d.find false p = .ok (d.place p, .folder)) (ho : (d.emptied (d.place p)).OpenRoot root) :
    ∃ d', (d.emptied (d.place p)).removeFolder p = .ok d' := by
  obtain ⟨ha, hopen, -, hf⟩ := (find_iff ht).1 hfind
  have hplace : (d.emptied (d.place p)).place p = d.place p :=
    place_of_home (cleared_emptied hf).home p
  have hshort := short_of_open ((open_under hp).1 hopen).2
  have hthere : (d.emptied (d.place p)).tree.get?
      ((d.emptied (d.place p)).place root ++ names) ≠ none := by
    rw [← place_along hp.toAlong, hplace, emptied_itself hf]
    simp
  have hsteps := (open_under hp).2 ⟨ho, (Tree.open_into hthere).2 hshort⟩
  obtain ⟨ns, n, rfl⟩ := exists_concat_of_under hp
  rw [hp.approach.2.2, Tree.open_append] at hsteps
  exact removeFolder_of_open ((cleared_emptied hf).plain ht) hp ha (hshort n (by simp)) hsteps.1
    (by rw [hplace]; exact emptied_itself hf) (by rw [hplace]; exact children_emptied hf)

/-- Then clearing it ends well and removes it. -/
theorem clear_of_find (ht : d.tree.Plain) (hp : Path.Under root names p)
    (hway : ∀ n rest, ¬ d.OnWay root (d.place p ++ n :: rest))
    (hfind : d.find false p = .ok (d.place p, .folder)) :
    (d.clear p).1 = none ∧
      ∀ k, (d.clear p).2.tree.get? k = if d.place p <+: k then none else d.tree.get? k := by
  obtain ⟨-, hopen, -, hf⟩ := (find_iff ht).1 hfind
  have hc := cleared_emptied hf
  obtain ⟨d', hd'⟩ := removeFolder_of_emptied ht hp hfind
    (openRoot_emptied ((open_under hp).1 hopen).1 hf hway)
  have hget := (removeFolder_place (hc.plain ht) hd').2
  rw [place_of_home hc.home] at hget
  rw [clear_of_removed hfind hd']
  refine ⟨rfl, fun k => ?_⟩
  rw [hget]
  split
  · rfl
  · rename_i hk
    exact hc.get? k hk

/-- Clearing that ends well removes the folder, unless the way to the root leads through what the folder
holds. -/
theorem clear_removes (ht : d.tree.Plain) (hp : Path.Under root names p)
    (hway : ∀ n rest, ¬ d.OnWay root (d.place p ++ n :: rest)) (h : (d.clear p).1 = none) :
    (d.clear p).2.tree.get? (d.place p) = none := by
  rcases clear_cases ht p with ⟨-, hne⟩ | ⟨hfind, -⟩
  · exact absurd h hne
  · rw [(clear_of_find ht hp hway hfind).2, if_pos (List.prefix_refl _)]

end Disk
end IconModules
