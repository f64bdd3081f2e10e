import IconModules.Proofs.Files.Changes

/-! # Trees without links

Where there are no links, a path leads to the place that its moves lead to, or nowhere.

* `Tree.Plain` are the trees without links; `Tree.Open` says that steps can be taken in a tree.
* `Disk.place d p` is where a path leads. Finding it succeeds just if the way to it is open
  (`Disk.find_iff`); each operation takes effect there.
* A path under a root (`Path.Under`) leads to something just if the root's way is open and something
  stands there (`Disk.holds_iff`). -/

namespace IconModules

/-! ### Steps -/

namespace Tree

variable {t t' : Tree} {follow : Bool} {here l : Location} {s : Path.Step} {n : String}
  {steps rest : List Path.Step} {names : List String}

/-- A tree without links. -/
def Plain (t : Tree) : Prop :=
  ∀ l target, t.get? l ≠ some (.link target)

/-- Everything in the tree but its root has a name. -/
def Named (t : Tree) : Prop :=
  ∀ l n e, t.get? (l ++ [n]) = some e → IsName n

/-- A finite tree can be searched for links. -/
theorem plain_of_entries
    (h : (t.entries.all fun x => match x.2 with | .link _ => false | _ => true) = true) :
    t.Plain := by
  intro l target hl
  have := List.all_eq_true.1 h _ (get?_eq_some_iff.1 hl)
  simp at this

/-- A finite tree can be searched for what has no name. -/
theorem named_of_entries
    (h : (t.entries.all fun x => x.1.getLast?.all fun n => decide (IsName n)) = true) :
    t.Named := by
  intro l n e he
  have hx := List.all_eq_true.1 h _ (get?_eq_some_iff.1 he)
  simpa using hx

/-- Whether a step names something by a name that is short enough. -/
def Short : Path.Step → Prop
  | .into n => n.utf8ByteSize ≤ nameLimit
  | _ => True

/-- Steps that can be taken: each starts in a folder. -/
def Open (t : Tree) : Location → List Path.Step → Prop
  | _, [] => True
  | here, s :: rest => t.get? here = some .folder ∧ Short s ∧ t.Open (s.next here) rest

theorem open_append : t.Open here (steps ++ rest) ↔
    t.Open here steps ∧ t.Open (Path.walk here steps) rest := by
  induction steps generalizing here with
  | nil => simp [Open]
  | cons s steps ih => simp [Open, ih, and_assoc]

/-- A way stays open as long as the folders in which its steps start are there. -/
theorem Open.of_starts (h : t.Open here steps)
    (hf : ∀ ms s rest, steps = ms ++ s :: rest → t.get? (Path.walk here ms) = some .folder →
      t'.get? (Path.walk here ms) = some .folder) : t'.Open here steps := by
  induction steps generalizing here with
  | nil => trivial
  | cons s steps ih =>
    refine ⟨hf [] s steps rfl h.1, h.2.1, ih h.2.2 fun ms s' rest e => ?_⟩
    exact hf (s :: ms) s' rest (by rw [e]; rfl)

/-- More folders do not close a way. -/
theorem Open.mono (h : t.Open here steps)
    (hf : ∀ k, t.get? k = some .folder → t'.get? k = some .folder) : t'.Open here steps :=
  h.of_starts fun _ _ _ _ => hf _

theorem Open.start (h : t.Open here steps) (hne : steps ≠ []) : t.get? here = some .folder := by
  cases steps with
  | nil => exact absurd rfl hne
  | cons s steps => exact h.1

/-- Directions that lead nowhere do not count, unless the way ends with one. -/
theorem open_filter : t.Open here (steps.filter (· ≠ .stay) ++ [s]) ↔ t.Open here (steps ++ [s]) := by
  induction steps generalizing here with
  | nil => rfl
  | cons s' steps ih =>
    cases s' with
    | into n => simp only [List.filter, List.cons_append, ne_eq, reduceCtorEq, not_false_eq_true,
        decide_true, Open, ih]
    | up => simp only [List.filter, List.cons_append, ne_eq, reduceCtorEq, not_false_eq_true,
        decide_true, Open, ih]
    | stay =>
      simp only [List.filter, List.cons_append, ne_eq, not_true_eq_false, decide_false, Open, ih,
        Path.Step.next, Short, true_and]
      exact ⟨fun h => ⟨h.start (by simp), h⟩, fun h => h.2⟩

theorem Open.filter (h : t.Open here steps) : t.Open here (steps.filter (· ≠ .stay)) := by
  induction steps generalizing here with
  | nil => trivial
  | cons s steps ih =>
    cases s with
    | into n => exact ⟨h.1, h.2.1, ih h.2.2⟩
    | up => exact ⟨h.1, h.2.1, ih h.2.2⟩
    | stay => exact ih h.2.2

/-- The way through names is open just if all but the last lead to folders. -/
theorem open_into (he : t.get? (here ++ names) ≠ none) :
    t.Open here (names.map .into) ↔ ∀ n ∈ names, n.utf8ByteSize ≤ nameLimit := by
  induction names generalizing here with
  | nil => simp [Open]
  | cons n names ih =>
    have hhere : t.get? here = some .folder := by
      obtain ⟨e, he⟩ := Option.ne_none_iff_exists'.1 he
      exact get?_of_append_cons he
    have he' : t.get? (here ++ [n] ++ names) ≠ none := by simpa using he
    simp only [List.map_cons, Open, hhere, true_and, Path.Step.next, ih he', Short,
      List.forall_mem_cons]

/-- Without links, steps lead to where they say, if they can be taken. -/
theorem stride_iff (ht : t.Plain) {stop : Stop} :
    t.stride follow here steps = .ok stop ↔
      t.Open here steps ∧ stop = .at (Path.walk here steps) := by
  induction steps generalizing here with
  | nil => simp [Open, eq_comm]
  | cons s rest ih =>
    rw [stride_cons]
    cases he : t.get? here with
    | none => simp [Open, he]
    | some e =>
      cases e with
      | file c => simp [Open, he]
      | link target => exact absurd he (ht _ _)
      | folder =>
        cases s with
        | stay => simp [Open, he, ih, Path.Step.next, Short]
        | up => simp [Open, he, ih, Path.Step.next, Short]
        | into n =>
          simp only [Open, he, true_and, Path.Step.next, Short, Path.walk_cons]
          by_cases hn : nameLimit < n.utf8ByteSize
          · rw [if_pos hn]
            simp [Nat.not_le.2 hn]
          · rw [if_neg hn]
            have hn' : n.utf8ByteSize ≤ nameLimit := Nat.not_lt.1 hn
            split
            · rename_i target htarget
              exact absurd htarget (ht _ _)
            · simp [ih, hn']

theorem seek_iff (ht : t.Plain) {links : Nat} :
    t.seek follow links here steps = .ok l ↔ t.Open here steps ∧ l = Path.walk here steps := by
  unfold seek
  cases hs : t.stride follow here steps with
  | error e =>
    refine ⟨fun h => (by cases h), fun h => ?_⟩
    rw [(stride_iff ht).2 ⟨h.1, rfl⟩] at hs
    cases hs
  | ok stop =>
    obtain ⟨ho, rfl⟩ := (stride_iff ht).1 hs
    simp [ho, eq_comm]

end Tree

/-! ### Places -/

namespace Disk

variable {d d' : Disk} {p q root old new above : Path} {l k : Location} {n : String} {e : Entry}
  {c : Octets} {names : List String} {follow : Bool}

/-- Where a path begins. -/
def start (d : Disk) (p : Path) : Location :=
  if p.isAbsolute then [] else d.home

/-- Where a path leads if there are no links. -/
def place (d : Disk) (p : Path) : Location :=
  Path.walk (d.start p) p.moves

/-- Whether the way to a root can be taken. -/
def OpenRoot (d : Disk) (root : Path) : Prop :=
  d.tree.Open (d.start root) root.moves

theorem start_of_home (h : d'.home = d.home) (p : Path) : d'.start p = d.start p := by
  unfold start
  rw [h]

theorem place_of_home (h : d'.home = d.home) (p : Path) : d'.place p = d.place p := by
  unfold place
  rw [start_of_home h]

/-- The way to a root stays open where all folders stay. -/
theorem OpenRoot.of_folders {root : Path} (ho : d.OpenRoot root) (h : d'.home = d.home)
    (hfolders : ∀ k, d.tree.get? k = some .folder → d'.tree.get? k = some .folder) : d'.OpenRoot root := by
  unfold OpenRoot at ho ⊢
  rw [start_of_home h]
  exact ho.mono hfolders

/-- A path whose last part is a name leads to a place of that name. -/
theorem exists_place_eq_concat (d : Disk) (hn : IsName n) (h : p.parts.getLast? = some n) :
    ∃ folder, d.place p = folder ++ [n] := by
  unfold place
  rw [← Path.walk_steps, Path.walk_of_ending_name (Path.approach_of_getLast?_parts hn h).1]
  exact ⟨_, rfl⟩

/-- A path that goes on from a root through names leads to that place below the root's. -/
theorem place_along (h : Path.Along root names p) : d.place p = d.place root ++ names := by
  unfold place start
  rw [h.moves, h.isAbsolute, Path.walk_append, Path.walk_into]

theorem locate_iff (ht : d.tree.Plain) : d.locate follow p = .ok l ↔
    acceptPath p = .ok () ∧ d.tree.Open (d.start p) p.steps ∧ l = d.place p := by
  unfold place
  rw [← Path.walk_steps, ← Tree.seek_iff ht]
  refine ⟨locate_ok, fun ⟨ha, hs⟩ => ?_⟩
  unfold locate
  rw [ha]
  exact hs

theorem find_iff (ht : d.tree.Plain) : d.find follow p = .ok (l, e) ↔
    acceptPath p = .ok () ∧ d.tree.Open (d.start p) p.steps ∧ l = d.place p ∧
      d.tree.get? l = some e := by
  rw [← and_assoc, ← and_assoc, and_assoc (a := _ = _), ← locate_iff ht]
  refine ⟨find_ok, fun ⟨hl, he⟩ => ?_⟩
  unfold find
  rw [hl]
  simp only [bind, Except.bind, he]
  rfl

theorem folderOf_eq (ht : d.tree.Plain) (h : d.folderOf p = .ok l) (hn : p.approach.ending = .name n) :
    acceptPath p = .ok () ∧ d.tree.Open (d.start p) p.approach.steps ∧
      d.tree.get? l = some .folder ∧ d.place p = l ++ [n] := by
  obtain ⟨ha, hs, hf⟩ := folderOf_ok h
  obtain ⟨ho, rfl⟩ := (Tree.seek_iff ht).1 hs
  refine ⟨ha, ho, hf, ?_⟩
  unfold place
  rw [← Path.walk_steps, Path.walk_of_ending_name hn]
  rfl

theorem placeToWrite_eq (ht : d.tree.Plain) (h : d.placeToWrite p = .ok l) :
    acceptPath p = .ok () ∧ l = d.place p ∧ ∃ folder n, d.folderOf p = .ok folder ∧
      p.approach.ending = .name n ∧ p.approach.slashed = false ∧
      n.utf8ByteSize ≤ Tree.nameLimit ∧ l = folder ++ [n] ∧
      (d.tree.get? l = none ∨ ∃ c, d.tree.get? l = some (.file c)) := by
  obtain ⟨folder, n, hf, hn, hs, hshort, ⟨rfl, he⟩ | ⟨target, _, -, hl, -⟩⟩ :=
    placeToWriteFrom_cases h
  · obtain ⟨ha, -, -, hp⟩ := folderOf_eq ht hf hn
    exact ⟨ha, hp.symm, folder, n, hf, hn, hs, hshort, rfl, he⟩
  · exact absurd hl (ht _ _)

/-! ### Paths under a root -/

/-- Whoever can take the way of a path can take that of its root. -/
theorem OpenRoot.of_along (h : Path.Along root names p) (ho : d.tree.Open (d.start p) p.steps) :
    d.OpenRoot root := by
  have hm : d.tree.Open (d.start p) p.moves := ho.filter
  rw [h.moves, Tree.open_append] at hm
  unfold OpenRoot
  have hstart : d.start p = d.start root := by
    unfold start
    rw [h.isAbsolute]
  exact hstart ▸ hm.1

theorem exists_concat_of_under (h : Path.Under root names p) : ∃ ns n, names = ns ++ [n] := by
  obtain ⟨n, hn, -⟩ := h.last
  obtain ⟨ns, rfl⟩ := List.getLast?_eq_some_iff.1 hn
  exact ⟨ns, n, rfl⟩

/-- The way of a path under a root is the root's, and then it goes through the names. -/
theorem open_under (h : Path.Under root names p) :
    d.tree.Open (d.start p) p.steps ↔
      d.OpenRoot root ∧ d.tree.Open (d.place root) (names.map .into) := by
  have hstart : d.start p = d.start root := by
    unfold start
    rw [h.isAbsolute]
  have hsteps : d.tree.Open (d.start p) p.steps ↔ d.tree.Open (d.start p) p.moves := by
    obtain ⟨ns, n, rfl⟩ := exists_concat_of_under h
    obtain ⟨-, -, e⟩ := h.approach
    have e' : p.moves = p.approach.steps.filter (· ≠ .stay) ++ [.into n] := by
      change p.steps.filter (· ≠ .stay) = _
      rw [e, List.filter_append]
      rfl
    rw [e, e', Tree.open_filter]
  rw [hsteps, h.moves, Tree.open_append, hstart]
  rfl

/-- A path under a root leads to something just if the way to the root is open and something stands
there. -/
theorem holds_iff (ht : d.tree.Plain) (h : Path.Under root names p) : d.holds p = true ↔
    acceptPath p = .ok () ∧ d.OpenRoot root ∧ (∀ n ∈ names, n.utf8ByteSize ≤ Tree.nameLimit) ∧
      d.tree.get? (d.place p) ≠ none := by
  have hfind : d.holds p = true ↔ ∃ l e, d.find true p = .ok (l, e) := by
    unfold holds
    cases d.find true p with
    | error e => simp [Except.isOk, Except.toBool]
    | ok x => exact ⟨fun _ => ⟨x.1, x.2, rfl⟩, fun _ => rfl⟩
  rw [hfind]
  have hplace := place_along (d := d) h.toAlong
  constructor
  · rintro ⟨l, e, hl⟩
    obtain ⟨ha, ho, rfl, he⟩ := (find_iff ht).1 hl
    have hne : d.tree.get? (d.place p) ≠ none := by simp [he]
    obtain ⟨hroot, hnames⟩ := (open_under h).1 ho
    refine ⟨ha, hroot, ?_, hne⟩
    rw [hplace] at hne
    exact (Tree.open_into hne).1 hnames
  · rintro ⟨ha, hroot, hshort, hne⟩
    obtain ⟨e, he⟩ := Option.ne_none_iff_exists'.1 hne
    refine ⟨d.place p, e, (find_iff ht).2 ⟨ha, ?_, rfl, he⟩⟩
    rw [hplace] at hne
    exact (open_under h).2 ⟨hroot, (Tree.open_into hne).2 hshort⟩

/-! ### Operations -/

theorem write_place (ht : d.tree.Plain) (h : d.write p c = .ok d') :
    Put d (d.place p) (.file c) d' := by
  obtain ⟨l, hl, hput⟩ := write_ok h
  rw [← (placeToWrite_eq ht hl).2.1]
  exact hput

theorem append_place (ht : d.tree.Plain) (h : d.append p c = .ok d') :
    Put d (d.place p) (.file ((d.fileAt (d.place p)).getD [] ++ c)) d' := by
  obtain ⟨l, hl, hput⟩ := append_ok h
  rw [← (placeToWrite_eq ht hl).2.1]
  exact hput

theorem Put.plain (ht : d.tree.Plain) (h : Put d l (.file c) d') : d'.tree.Plain := by
  intro k target
  rw [h.get?]
  split
  · simp
  · exact ht k target

theorem Grown.plain {P : Location → Prop} (ht : d.tree.Plain) (h : Grown P d d') :
    d'.tree.Plain := by
  intro k target
  rcases h.get? k with h | ⟨-, h, -⟩
  · rw [h]
    exact ht k target
  · simp [h]

theorem Cleared.plain (ht : d.tree.Plain) (h : Cleared d l d') : d'.tree.Plain := by
  intro k target
  by_cases hk : l <+: k
  · by_cases he : k = l
    · subst he
      rcases h.itself with h | h <;> simp [h]
    · simp [h.below k hk he]
  · rw [h.get? k hk]
    exact ht k target

theorem Moved.plain {a b : Location} (ht : d.tree.Plain) (h : Moved d a b d') :
    d'.tree.Plain := by
  intro k target
  rw [h.get?]
  split
  · exact ht _ target
  · split
    · simp
    · exact ht k target

/-- The places on the way of a path. -/
def OnWay (d : Disk) (p : Path) (k : Location) : Prop :=
  ∃ ms, ms <+: p.moves ∧ k = Path.walk (d.start p) ms

theorem onWay_of_home (h : d'.home = d.home) : d'.OnWay p k ↔ d.OnWay p k := by
  unfold OnWay start
  rw [h]

/-- What stands on an open way is there, if its end is. -/
theorem exists_of_onWay (ho : d.OpenRoot root) (he : d.tree.get? (d.place root) ≠ none)
    (hk : d.OnWay root k) : d.tree.get? k ≠ none := by
  obtain ⟨ms, ⟨rest, hrest⟩, rfl⟩ := hk
  cases rest with
  | nil =>
    rw [List.append_nil] at hrest
    rw [hrest]
    exact he
  | cons s rest =>
    unfold OpenRoot at ho
    rw [← hrest, Tree.open_append] at ho
    simp [ho.2.1]

/-- The way of a path that goes on from a root is the root's way and then that through the names. -/
theorem onWay_along (h : Path.Along root names p) (hk : d.OnWay p k) :
    d.OnWay root k ∨ ∃ more, more <+: names ∧ k = d.place root ++ more := by
  obtain ⟨ms, hms, rfl⟩ := hk
  have hstart : d.start p = d.start root := by
    unfold start
    rw [h.isAbsolute]
  rw [h.moves] at hms
  rw [hstart]
  rcases List.prefix_or_prefix_of_prefix hms (List.prefix_append _ _) with hp | ⟨ms', rfl⟩
  · exact .inl ⟨ms, hp, rfl⟩
  · rw [List.prefix_append_right_inj, List.prefix_map_iff] at hms
    obtain ⟨more, hmore, rfl⟩ := hms
    refine .inr ⟨more, hmore, ?_⟩
    rw [Path.walk_append, Path.walk_into]
    rfl

/-- Making folders makes them on the way of the path only, and gives them names. -/
theorem makeFolders_grown (ht : d.tree.Plain) (p : Path) :
    Grown (fun k => d.OnWay p k ∧ ∃ l n, k = l ++ [n] ∧ IsName n) d (d.makeFolders p).2 := by
  let P : Location → Prop := fun k => d.OnWay p k ∧ ∃ l n, k = l ++ [n] ∧ IsName n
  refine makeFoldersFrom_induct (I := fun d' => Grown P d d')
    (A := fun q => q.isAbsolute = p.isAbsolute ∧ q.moves <+: p.moves) ?_ ?_
    ⟨rfl, List.prefix_refl _⟩ (.refl d)
  · intro q r ⟨habs, hmoves⟩ hr
    obtain ⟨h1, h2⟩ := Path.moves_parent? hr
    refine ⟨h1.trans habs, ?_⟩
    rw [h2]
    exact (List.dropLast_prefix _).trans hmoves
  · intro q d1 d2 ⟨habs, hmoves⟩ hg h
    obtain ⟨l, n, hl, hn, hnone, hput⟩ := makeFolder_ok h
    refine hg.trans ⟨hput.home, fun k => ?_⟩
    rw [hput.get?]
    by_cases hk : k = l ++ [n]
    · subst hk
      refine .inr ⟨hnone, if_pos rfl, ⟨q.moves, hmoves, ?_⟩, l, n, rfl, ?_⟩
      · rw [← (folderOf_eq (hg.plain ht) hl hn).2.2.2]
        unfold place start
        rw [hg.home, habs]
      · exact (Path.steps_of_ending_name hn).1
    · exact .inl (if_neg hk)

theorem list_place (ht : d.tree.Plain) {es : List (String × Entry)} (h : d.list p = .ok es) :
    d.tree.Open (d.start p) p.steps ∧ d.tree.get? (d.place p) = some .folder ∧
      es = d.tree.children (d.place p) := by
  obtain ⟨l, hl, rfl⟩ := list_ok h
  obtain ⟨-, ho, rfl, he⟩ := (find_iff ht).1 hl
  exact ⟨ho, he, rfl⟩

theorem move_place (ht : d.tree.Plain) (h : d.move old new = .ok d') :
    Moved d (d.place old) (d.place new) d' ∧
      ∃ l n, d.place new = l ++ [n] ∧ IsName n ∧ d.tree.get? l = some .folder := by
  obtain ⟨folder, m, folder', n, hf, hm, hf', hn, hmoved⟩ := move_ok h
  have hn' := (folderOf_eq ht hf' hn).2.2.2
  rw [(folderOf_eq ht hf hm).2.2.2, hn']
  exact ⟨hmoved, folder', n, rfl, (Path.steps_of_ending_name hn).1, (folderOf_ok hf').2.2⟩

/-! ### Clearing -/

theorem removeFolder_place (ht : d.tree.Plain) (h : d.removeFolder p = .ok d') :
    d'.home = d.home ∧
      ∀ k, d'.tree.get? k = if d.place p <+: k then none else d.tree.get? k := by
  obtain ⟨folder, hf, h⟩ := ok_of_bind h
  split at h
  · cases h
  · cases h
  · cases h
  · rename_i n hn
    obtain ⟨-, -, h⟩ := ok_of_bind h
    rw [(folderOf_eq ht hf hn).2.2.2]
    split at h
    · cases h
    · split at h
      · obtain rfl := Except.ok.inj h
        exact ⟨rfl, fun k => Tree.get?_prune _ _ _⟩
      · cases h
    · cases h

/-- A folder with nothing in it. -/
def emptied (d : Disk) (l : Location) : Disk :=
  d.withTree (d.tree.graft l (.single .folder))

theorem get?_emptied (h : d.tree.get? l = some .folder) (k : Location) :
    (d.emptied l).tree.get? k = if l <+: k then
      (if k.drop l.length = [] then some .folder else none) else d.tree.get? k := by
  have hg : l = [] ∨ d.tree.get? l.dropLast = some .folder := by
    rcases List.eq_nil_or_concat l with rfl | ⟨l', n, rfl⟩
    · exact .inl rfl
    · rw [List.concat_eq_append] at h ⊢
      rw [List.dropLast_concat]
      exact .inr (Tree.get?_of_append h)
  change (d.tree.graft l (.single .folder)).get? k = _
  rw [Tree.get?_graft _ _ hg, Tree.get?_single]

theorem emptied_itself (h : d.tree.get? l = some .folder) :
    (d.emptied l).tree.get? l = some .folder := by
  rw [get?_emptied h, if_pos (List.prefix_refl _), if_pos (by simp)]

theorem cleared_emptied (h : d.tree.get? l = some .folder) : Cleared d l (d.emptied l) := by
  refine ⟨rfl, fun k hk hne => ?_, .inr (emptied_itself h), fun k hk => ?_⟩
  · obtain ⟨r, rfl⟩ := hk
    rw [get?_emptied h, if_pos (List.prefix_append _ _), List.drop_left, if_neg]
    rintro rfl
    exact hne (by simp)
  · rw [get?_emptied h, if_neg hk]

/-- Clearing a folder ends with its removal, if that can be done once it is empty. -/
theorem clear_of_removed (hfind : d.find false p = .ok (l, .folder))
    (hr : (d.emptied l).removeFolder p = .ok d') : d.clear p = (none, d') := by
  unfold clear
  rw [hfind]
  unfold emptied at hr
  simp only [hr]

/-- If it cannot, the folder is left empty. -/
theorem clear_of_left (hfind : d.find false p = .ok (l, .folder))
    {e : FileError} (hr : (d.emptied l).removeFolder p = .error e) :
    d.clear p = (if e = .noSuchFile then none else some e, d.emptied l) := by
  unfold clear
  rw [hfind]
  unfold emptied at hr ⊢
  simp only [hr]

/-- Clearing either does nothing and fails, or leaves nothing in the folder. -/
theorem clear_cases (ht : d.tree.Plain) (p : Path) :
    (d.clear p).2 = d ∧ (d.clear p).1 ≠ none ∨
      d.find false p = .ok (d.place p, .folder) ∧ Cleared d (d.place p) (d.clear p).2 := by
  cases hfind : d.find false p with
  | error e => simp [clear, hfind]
  | ok x =>
    obtain ⟨l, e⟩ := x
    obtain ⟨-, -, rfl, he⟩ := (find_iff ht).1 hfind
    cases e with
    | file c => simp [clear, hfind]
    | link target => exact absurd he (ht _ _)
    | folder =>
      have hc := cleared_emptied he
      refine .inr ⟨rfl, ?_⟩
      cases hr : (d.emptied (d.place p)).removeFolder p with
      | error e =>
        rw [clear_of_left hfind hr]
        exact hc
      | ok d' =>
        rw [clear_of_removed hfind hr]
        obtain ⟨hhome, hget⟩ := removeFolder_place (hc.plain ht) hr
        rw [place_of_home hc.home] at hget
        refine ⟨hhome, fun k hk hne => ?_, .inl ?_, fun k hk => ?_⟩
        · rw [hget, if_pos hk]
        · rw [hget, if_pos (List.prefix_refl _)]
        · rw [hget, if_neg hk, hc.get? k hk]

/-- A cleared folder holds no file, and other files are the same. -/
theorem Cleared.fileAt (h : Cleared d l d') (k : Location) :
    d'.fileAt k = if l <+: k then none else d.fileAt k := by
  split
  · rename_i hk
    by_cases he : k = l
    · subst he
      unfold Disk.fileAt
      rcases h.itself with h | h <;> rw [h]
    · unfold Disk.fileAt
      rw [h.below k hk he]
  · exact fileAt_congr (h.get? k ‹_›)

/-! ### Names -/

theorem Grown.named {P : Location → Prop} (hn : d.tree.Named)
    (h : Grown (fun k => P k ∧ ∃ l n, k = l ++ [n] ∧ IsName n) d d') : d'.tree.Named := by
  intro l m e he
  rcases h.get? (l ++ [m]) with hk | ⟨-, -, -, l', m', hl, hm⟩
  · exact hn l m e (hk ▸ he)
  · obtain ⟨-, rfl⟩ := List.concat_inj.1 (by simpa using hl)
    exact hm

theorem Cleared.named (hn : d.tree.Named) (h : Cleared d l d') (hl : d.tree.get? l = some .folder) :
    d'.tree.Named := by
  intro l' m e he
  by_cases hk : l <+: l' ++ [m]
  · by_cases heq : l' ++ [m] = l
    · exact hn l' m .folder (heq ▸ hl)
    · rw [h.below _ hk heq] at he
      cases he
  · exact hn l' m e (h.get? _ hk ▸ he)

theorem Moved.named {a b : Location} (hn : d.tree.Named) (h : Moved d a b d')
    (hb : ∃ l n, b = l ++ [n] ∧ IsName n) : d'.tree.Named := by
  obtain ⟨lb, nb, rfl, hnb⟩ := hb
  intro l m e he
  rw [h.get?] at he
  split at he
  · rename_i hp
    obtain ⟨r, hr⟩ := hp
    rcases List.eq_nil_or_concat r with rfl | ⟨r', x, rfl⟩
    · obtain ⟨-, rfl⟩ := List.concat_inj.1 (by simpa using hr)
      exact hnb
    · rw [← hr, List.drop_left] at he
      have hr' : (lb ++ [nb] ++ r') ++ [x] = l ++ [m] := by simpa using hr
      obtain rfl : x = m := by simpa using (List.append_inj' hr' rfl).2
      exact hn (a ++ r') x e (by simpa using he)
  · split at he
    · cases he
    · exact hn l m e he

end Disk
end IconModules
