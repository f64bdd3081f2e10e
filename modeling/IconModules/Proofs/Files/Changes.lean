import IconModules.Files.Disk
import IconModules.Proofs.Files.Ways

/-! # What operations do to a disk

For each operation that ends well, where it took effect and what stands where afterwards. Nothing here
asks for a tree without links.

* `Disk.Put d l e d'` says that `d'` is `d` with the entry `e` at the place `l`.
* `Disk.fileAt` is the content of the file at a place. Making folders does not change it
  (`Disk.Grown.fileAt`), moving and clearing change it at and below the places that they name. -/

namespace IconModules

variable {α β ε : Type}

theorem ok_of_bind {x : Except ε α} {f : α → Except ε β} {b : β} (h : x >>= f = .ok b) :
    ∃ a, x = .ok a ∧ f a = .ok b := by
  cases x with
  | error e => cases h
  | ok a => exact ⟨a, rfl, h⟩

theorem ok_of_mapError {δ : Type} {x : Except ε α} {f : ε → δ} {a : α}
    (h : x.mapError f = .ok a) : x = .ok a := by
  cases x with
  | error e => cases h
  | ok b => exact congrArg Except.ok (Except.ok.inj h)

theorem ok_of_toOption {x : Except ε α} {a : α} (h : x.toOption = some a) : x = .ok a := by
  cases x with
  | error e => cases h
  | ok b => exact congrArg Except.ok (Option.some.inj h)

/-! ### Trees -/

namespace Tree

variable {t : Tree} {l : Location} {n : String} {e : Entry}

/-- What is above something is a folder. -/
theorem get?_of_append_cons {m : Location} (h : t.get? (l ++ n :: m) = some e) : t.get? l = some .folder := by
  induction m generalizing l n with
  | nil => exact get?_of_append h
  | cons n' m ih =>
    have h' : t.get? ((l ++ [n]) ++ n' :: m) = some e := by simpa using h
    exact get?_of_append (ih h')

/-- Nothing stands below what is not a folder. -/
theorem get?_append_cons_of_ne {m : Location} (h : t.get? l ≠ some .folder) : t.get? (l ++ n :: m) = none := by
  cases he : t.get? (l ++ n :: m) with
  | none => rfl
  | some e => exact absurd (get?_of_append_cons he) h

/-- An entry is listed under the last name on the way to it. -/
theorem eq_of_listed {x : Location × Entry} {a : String × Entry}
    (h : (if l.isPrefixOf x.1 then
      match x.1.drop l.length with
      | [n] => some (n, x.2)
      | _ => none
    else none) = some a) : x = (l ++ [a.1], a.2) := by
  obtain ⟨k, e⟩ := x
  split at h
  · rename_i hp
    obtain ⟨r, rfl⟩ := List.isPrefixOf_iff_prefix.1 hp
    rw [List.drop_left] at h
    split at h
    · obtain rfl := Option.some.inj h
      rfl
    · cases h
  · cases h

theorem mem_children : (n, e) ∈ t.children l ↔ t.get? (l ++ [n]) = some e := by
  rw [get?_eq_some_iff, children, List.mem_filterMap]
  constructor
  · rintro ⟨x, hx, h⟩
    exact eq_of_listed h ▸ hx
  · intro h
    exact ⟨(l ++ [n], e), h, by simp⟩

/-- A folder lists no name twice. -/
theorem nodup_children (t : Tree) (l : Location) : ((t.children l).map Prod.fst).Nodup := by
  rw [List.nodup_iff_pairwise_ne, List.pairwise_map, children]
  refine t.ordered.filterMap _ fun x y hxy a ha b hb hab => ?_
  rw [eq_of_listed ha, eq_of_listed hb, hab] at hxy
  exact List.lt_irrefl _ hxy

/-- A move to the same place changes nothing. -/
theorem get?_of_moved_nowhere {a b : Location} (h : a = b) (k : Location) :
    (if b <+: k then t.get? (a ++ k.drop b.length) else if a <+: k then none else t.get? k) =
      t.get? k := by
  subst h
  split
  · rename_i hp
    obtain ⟨r, rfl⟩ := hp
    rw [List.drop_left]
  · rfl

end Tree

namespace Disk

variable {d d' d'' : Disk} {p old new : Path} {l k : Location} {n : String} {e : Entry} {c : Octets}

/-! ### Contents of files -/

/-- The content of the file at a place, if a file stands there. -/
def fileAt (d : Disk) (l : Location) : Option Octets :=
  match d.tree.get? l with
  | some (.file content) => some content
  | _ => none

theorem fileAt_eq_some : d.fileAt l = some c ↔ d.tree.get? l = some (.file c) := by
  unfold fileAt
  split
  · rename_i h
    simp [h]
  · rename_i h
    refine ⟨fun h' => absurd h' (by simp), fun h' => absurd h' (h c)⟩

theorem fileAt_eq_none : d.fileAt l = none ↔ ∀ c, d.tree.get? l ≠ some (.file c) := by
  rw [Option.eq_none_iff_forall_ne_some]
  simp only [ne_eq, fileAt_eq_some]

theorem fileAt_congr (h : d'.tree.get? k = d.tree.get? l) : d'.fileAt k = d.fileAt l := by
  unfold fileAt
  rw [h]

/-- Only a folder has files below it. -/
theorem fileAt_below (h : d.tree.get? l ≠ some .folder) (n : String) (q : Location) :
    d.fileAt (l ++ n :: q) = none := by
  rw [fileAt_eq_none]
  intro c hc
  rw [Tree.get?_append_cons_of_ne h] at hc
  cases hc

/-- Where nothing is, nothing is below. -/
theorem fileAt_nowhere (h : d.tree.get? l = none) (q : Location) : d.fileAt (l ++ q) = none := by
  cases q with
  | nil =>
    rw [List.append_nil, fileAt_eq_none]
    simp [h]
  | cons n q => exact fileAt_below (by simp [h]) n q

theorem contentAt_eq (d : Disk) (l : Location) : d.contentAt l = (d.fileAt l).getD [] := by
  unfold contentAt fileAt
  cases d.tree.get? l with
  | none => rfl
  | some e => cases e <;> rfl

/-! ### Putting one entry -/

/-- The disk `d'` is `d` with an entry at a place. -/
structure Put (d : Disk) (l : Location) (e : Entry) (d' : Disk) : Prop where
  home : d'.home = d.home
  get? : ∀ k, d'.tree.get? k = if k = l then some e else d.tree.get? k

theorem Put.fileAt_file (h : Put d l (.file c) d') (k : Location) :
    d'.fileAt k = if k = l then some c else d.fileAt k := by
  by_cases hk : k = l
  · rw [if_pos hk, fileAt_eq_some, h.get?, if_pos hk]
  · rw [if_neg hk]
    exact fileAt_congr (by rw [h.get?, if_neg hk])

/-- A graft of one entry puts it at its place if nothing stands below that. -/
theorem put_graft (hf : d.tree.get? l = some .folder) (hn : d.tree.get? (l ++ [n]) ≠ some .folder)
    (e : Entry) : Put d (l ++ [n]) e (d.withTree (d.tree.graft (l ++ [n]) (.single e))) where
  home := rfl
  get? k := by
    have hg : l ++ [n] = [] ∨ d.tree.get? (l ++ [n]).dropLast = some .folder := by
      rw [List.dropLast_concat]
      exact .inr hf
    change (d.tree.graft (l ++ [n]) (.single e)).get? k = _
    rw [Tree.get?_graft _ _ hg, Tree.get?_single]
    by_cases hp : l ++ [n] <+: k
    · obtain ⟨r, rfl⟩ := hp
      rw [if_pos (List.prefix_append _ _), List.drop_left]
      cases r with
      | nil => simp
      | cons x r =>
        rw [Tree.get?_append_cons_of_ne hn]
        simp
    · have hk : k ≠ l ++ [n] := by
        rintro rfl
        exact hp (List.prefix_refl _)
      rw [if_neg hp, if_neg hk]

/-! ### Writing -/

theorem folderOf_ok (h : d.folderOf p = .ok l) :
    acceptPath p = .ok () ∧ d.seek true p p.approach.steps = .ok l ∧
      d.tree.get? l = some .folder := by
  unfold folderOf at h
  obtain ⟨⟨⟩, ha, h⟩ := ok_of_bind h
  obtain ⟨l', hl, h⟩ := ok_of_bind h
  split at h
  · rename_i hf
    obtain rfl : l' = l := Except.ok.inj h
    exact ⟨ha, hl, hf⟩
  · cases h
  · cases h

theorem acceptName_ok {u : Unit} (h : acceptName n = .ok u) : n.utf8ByteSize ≤ Tree.nameLimit := by
  unfold acceptName at h
  split at h
  · cases h
  · omega

/-- A place to write is a name in a folder, or that to which a link there leads. -/
theorem placeToWriteFrom_cases {links : Nat} (h : placeToWriteFrom links d p = .ok l) :
    ∃ folder n, d.folderOf p = .ok folder ∧ p.approach.ending = .name n ∧
      p.approach.slashed = false ∧ n.utf8ByteSize ≤ Tree.nameLimit ∧
      (l = folder ++ [n] ∧ (d.tree.get? l = none ∨ ∃ c, d.tree.get? l = some (.file c)) ∨
        ∃ target links', links = links' + 1 ∧ d.tree.get? (folder ++ [n]) = some (.link target) ∧
          placeToWriteFrom links' { d with home := folder } ⟨target⟩ = .ok l) := by
  rw [placeToWriteFrom.eq_def] at h
  obtain ⟨folder, hf, h⟩ := ok_of_bind h
  split at h
  · rename_i n hn hs
    obtain ⟨_, ha, h⟩ := ok_of_bind h
    refine ⟨folder, n, hf, hn, hs, acceptName_ok ha, ?_⟩
    split at h
    · cases h
    · rename_i target ht
      cases links with
      | zero => cases h
      | succ links' => exact .inr ⟨target, links', rfl, ht, h⟩
    · rename_i hfolder hlink
      obtain rfl : folder ++ [n] = l := Except.ok.inj h
      refine .inl ⟨rfl, ?_⟩
      cases he : d.tree.get? (folder ++ [n]) with
      | none => exact .inl rfl
      | some e =>
        cases e with
        | file c => exact .inr ⟨c, rfl⟩
        | folder => exact absurd he hfolder
        | link target => exact absurd he (hlink target)
  · cases h

/-- A file is written in a folder, and never in the place of a folder or a link. -/
theorem placeToWriteFrom_ok {links : Nat} (h : placeToWriteFrom links d p = .ok l) :
    ∃ folder n, l = folder ++ [n] ∧ IsName n ∧ d.tree.get? folder = some .folder ∧
      (d.tree.get? l = none ∨ ∃ c, d.tree.get? l = some (.file c)) := by
  induction links generalizing d p with
  | zero =>
    obtain ⟨folder, n, hf, hn, -, -, ⟨rfl, he⟩ | ⟨_, _, h0, -⟩⟩ := placeToWriteFrom_cases h
    · exact ⟨folder, n, rfl, (Path.steps_of_ending_name hn).1, (folderOf_ok hf).2.2, he⟩
    · cases h0
  | succ links ih =>
    obtain ⟨folder, n, hf, hn, -, -, ⟨rfl, he⟩ | ⟨target, links', h0, -, h'⟩⟩ :=
      placeToWriteFrom_cases h
    · exact ⟨folder, n, rfl, (Path.steps_of_ending_name hn).1, (folderOf_ok hf).2.2, he⟩
    · obtain rfl : links = links' := by omega
      exact ih (d := { d with home := folder }) h'

/-- Whatever is put where a file can be written takes the place of a file or of nothing. -/
theorem put_placeToWrite (h : d.placeToWrite p = .ok l) (e : Entry) :
    Put d l e (d.withTree (d.tree.graft l (.single e))) := by
  obtain ⟨folder, n, rfl, -, hf, he⟩ := placeToWriteFrom_ok h
  refine put_graft hf ?_ e
  obtain he | ⟨c, he⟩ := he <;> simp [he]

theorem write_ok (h : d.write p c = .ok d') :
    ∃ l, d.placeToWrite p = .ok l ∧ Put d l (.file c) d' := by
  obtain ⟨l, hl, h⟩ := ok_of_bind h
  obtain rfl := Except.ok.inj h
  exact ⟨l, hl, put_placeToWrite hl _⟩

theorem append_ok (h : d.append p c = .ok d') :
    ∃ l, d.placeToWrite p = .ok l ∧ Put d l (.file ((d.fileAt l).getD [] ++ c)) d' := by
  obtain ⟨l, hl, h⟩ := ok_of_bind h
  obtain rfl := Except.ok.inj h
  refine ⟨l, hl, ?_⟩
  rw [← contentAt_eq]
  exact put_placeToWrite hl _

/-! ### Making folders -/

theorem makeFolder_ok (h : d.makeFolder p = .ok d') :
    ∃ l n, d.folderOf p = .ok l ∧ p.approach.ending = .name n ∧
      d.tree.get? (l ++ [n]) = none ∧ Put d (l ++ [n]) .folder d' := by
  obtain ⟨l, hl, h⟩ := ok_of_bind h
  split at h
  · rename_i n hn
    obtain ⟨-, -, h⟩ := ok_of_bind h
    split at h
    · cases h
    · rename_i he
      have he' : d.tree.get? (l ++ [n]) = none := by simpa using he
      obtain rfl := Except.ok.inj h
      refine ⟨l, n, hl, hn, he', put_graft (folderOf_ok hl).2.2 ?_ _⟩
      simp [he']
  · cases h

/-- What making a folder preserves, making a folder with those above it preserves. `A` holds of
the path and of its parents. -/
theorem makeFoldersFrom_induct {I : Disk → Prop} {A : Path → Prop}
    (hparent : ∀ p q, A p → p.parent? = some q → A q)
    (hstep : ∀ p d d', A p → I d → d.makeFolder p = .ok d' → I d') {fuel : Nat}
    (hp : A p) (hd : I d) : I (makeFoldersFrom fuel p d).2 := by
  have hsettle : ∀ p d, A p → I d → I (d.settle p (d.makeFolder p)).2 := by
    intro p d hp hd
    unfold settle
    cases h : d.makeFolder p with
    | ok d' => exact hstep p d d' hp hd h
    | error e => exact hd
  induction fuel generalizing p d with
  | zero => exact hd
  | succ fuel ih =>
    unfold makeFoldersFrom
    split
    · exact hd
    · rename_i q hq
      simp only
      split
      · split
        · have hrec := ih (hparent p q hp hq) hd
          split
          · rename_i d1 h1
            rw [h1] at hrec
            exact hsettle p d1 hp hrec
          · exact hrec
        · exact hsettle p d hp hd
      · exact hsettle p d hp hd

/-- If making a folder ends the same way on disks in the relation `R`, so does making a folder with those above
it. `A` holds of the path and of its parents. -/
theorem makeFoldersFrom_pair {R : Disk → Disk → Prop} {A : Path → Prop}
    (hparent : ∀ p q, A p → p.parent? = some q → A q)
    (hstep : ∀ p d e, A p → R d e →
      (∃ error, d.makeFolder p = .error error ∧ e.makeFolder p = .error error) ∨
        ∃ d' e', d.makeFolder p = .ok d' ∧ e.makeFolder p = .ok e' ∧ R d' e')
    (hheld : ∀ p d e, A p → R d e → e.holdsFolder p = d.holdsFolder p) {fuel : Nat} {e : Disk}
    (hp : A p) (h : R d e) : (makeFoldersFrom fuel p e).1 = (makeFoldersFrom fuel p d).1 ∧
      R (makeFoldersFrom fuel p d).2 (makeFoldersFrom fuel p e).2 := by
  have hsettle : ∀ p d e, A p → R d e →
      (e.settle p (e.makeFolder p)).1 = (d.settle p (d.makeFolder p)).1 ∧
        R (d.settle p (d.makeFolder p)).2 (e.settle p (e.makeFolder p)).2 := by
    intro p d e hp h
    unfold settle
    rcases hstep p d e hp h with ⟨error, hd, he⟩ | ⟨d', e', hd, he, h'⟩
    · rw [hd, he]
      exact ⟨by rw [hheld p d e hp h], h⟩
    · rw [hd, he]
      exact ⟨rfl, h'⟩
  induction fuel generalizing p d e with
  | zero => exact ⟨rfl, h⟩
  | succ fuel ih =>
    unfold makeFoldersFrom
    cases hq : p.parent? with
    | none => exact ⟨rfl, h⟩
    | some q =>
      have hdirect := hsettle p d e hp h
      rcases hstep p d e hp h with ⟨error, hd, he⟩ | ⟨d', e', hd, he, -⟩
      · rw [hd, he] at hdirect
        simp only [hd, he]
        split
        · -- the folders above are made first
          obtain ⟨hsame, hafter⟩ := ih (hparent p q hp hq) h
          rcases hx : makeFoldersFrom fuel q d with ⟨x, d₁⟩
          rcases hy : makeFoldersFrom fuel q e with ⟨y, e₁⟩
          rw [hx, hy] at hsame hafter
          obtain rfl : y = x := hsame
          cases y with
          | none => exact hsettle p d₁ e₁ hp hafter
          | some error => exact ⟨rfl, hafter⟩
        · exact hdirect
      · rw [hd, he] at hdirect
        simp only [hd, he]
        exact hdirect

/-- The disk `d'` is `d` with more folders, each at an empty place with the property `new`. -/
structure Grown (new : Location → Prop) (d d' : Disk) : Prop where
  home : d'.home = d.home
  get? : ∀ k, d'.tree.get? k = d.tree.get? k ∨
    d.tree.get? k = none ∧ d'.tree.get? k = some .folder ∧ new k

variable {P Q : Location → Prop}

theorem Grown.refl (d : Disk) : Grown P d d :=
  ⟨rfl, fun _ => .inl rfl⟩

theorem Grown.trans (h : Grown P d d') (h' : Grown P d' d'') : Grown P d d'' where
  home := h'.home.trans h.home
  get? k := by
    rcases h'.get? k with e' | ⟨e', ef, hk⟩
    · rw [e']
      exact h.get? k
    · rcases h.get? k with e | ⟨e, ef', hk'⟩
      · exact .inr ⟨e ▸ e', ef, hk⟩
      · rw [ef'] at e'
        cases e'

theorem Grown.mono (h : Grown P d d') (hPQ : ∀ k, P k → Q k) : Grown Q d d' :=
  ⟨h.home, fun k => (h.get? k).imp_right fun ⟨e, ef, hk⟩ => ⟨e, ef, hPQ k hk⟩⟩

theorem Grown.get?_of_some (h : Grown P d d') (he : d.tree.get? k = some e) :
    d'.tree.get? k = some e := by
  rcases h.get? k with h | ⟨h, -⟩
  · rw [h, he]
  · rw [h] at he
    cases he

theorem Grown.fileAt (h : Grown P d d') (k : Location) : d'.fileAt k = d.fileAt k := by
  rcases h.get? k with h | ⟨h, h', -⟩
  · exact fileAt_congr h
  · unfold Disk.fileAt
    rw [h, h']

/-! ### Moving -/

/-- The disk `d'` is `d` after a move from `a` to `b`. A file does not take the place of a folder, and
a folder does not take the place of one that holds something. -/
structure Moved (d : Disk) (a b : Location) (d' : Disk) : Prop where
  home : d'.home = d.home
  source : d.tree.get? a ≠ none
  target : d.tree.get? a ≠ some .folder → d.tree.get? b ≠ some .folder
  free : d.tree.get? a = some .folder → a ≠ b → ∀ q, d.fileAt (b ++ q) = none
  get? : ∀ k, d'.tree.get? k =
    if b <+: k then d.tree.get? (a ++ k.drop b.length)
    else if a <+: k then none else d.tree.get? k

theorem Moved.fileAt {a b : Location} (h : Moved d a b d') (k : Location) :
    d'.fileAt k =
      if b <+: k then d.fileAt (a ++ k.drop b.length)
      else if a <+: k then none else d.fileAt k := by
  have hk := h.get? k
  split at hk
  · rw [if_pos ‹_›]
    exact fileAt_congr hk
  · rw [if_neg ‹_›]
    split at hk
    · rw [if_pos ‹_›]
      unfold Disk.fileAt
      rw [hk]
    · rw [if_neg ‹_›]
      exact fileAt_congr hk

/-- A move of a file takes no folder away. -/
theorem Moved.folders {a b : Location} (h : Moved d a b d') (hfile : d.tree.get? a = some (.file c))
    (k : Location) (hk : d.tree.get? k = some .folder) : d'.tree.get? k = some .folder := by
  have below : ∀ l, d.tree.get? l ≠ some .folder → ¬ l <+: k := by
    rintro l hl ⟨r, rfl⟩
    cases r with
    | nil => exact hl (by simpa using hk)
    | cons n r =>
      rw [Tree.get?_append_cons_of_ne hl] at hk
      cases hk
  rw [h.get?, if_neg (below b (h.target (by simp [hfile]))), if_neg (below a (by simp [hfile])), hk]

theorem obstacle?_none {t : Tree} (h : obstacle? t l e = none) (he : e ≠ .folder) :
    t.get? l ≠ some .folder := by
  unfold obstacle? at h
  intro hl
  simp [hl, he] at h

theorem fileAt_of_obstacle? (h : obstacle? d.tree l .folder = none) (q : Location) :
    d.fileAt (l ++ q) = none := by
  rw [fileAt_eq_none]
  intro c hc
  cases q with
  | nil =>
    rw [List.append_nil] at hc
    simp [obstacle?, hc] at h
  | cons n q =>
    have hl := Tree.get?_of_append_cons hc
    have hn : d.tree.get? (l ++ [n]) ≠ none := by
      intro hnone
      have hc' : d.tree.get? ((l ++ [n]) ++ q) = some (.file c) := by simpa using hc
      cases q with
      | nil => simp [hnone] at hc'
      | cons x q => rw [Tree.get?_append_cons_of_ne (by simp [hnone])] at hc'; cases hc'
    obtain ⟨e, he⟩ := Option.ne_none_iff_exists'.1 hn
    have hmem := Tree.mem_children.2 he
    have hempty : d.tree.children l = [] := by simpa [obstacle?, hl] using h
    rw [hempty] at hmem
    cases hmem

/-- A move that ends well takes what stands at one name in a folder to a name in a folder. -/
theorem move_ok (h : d.move old new = .ok d') :
    ∃ folder m folder' n, d.folderOf old = .ok folder ∧ old.approach.ending = .name m ∧
      d.folderOf new = .ok folder' ∧ new.approach.ending = .name n ∧
      Moved d (folder ++ [m]) (folder' ++ [n]) d' := by
  obtain ⟨folder, hf, h⟩ := ok_of_bind h
  obtain ⟨folder', hf', h⟩ := ok_of_bind h
  split at h
  · rename_i m n hm hn
    obtain ⟨-, -, h⟩ := ok_of_bind h
    refine ⟨folder, m, folder', n, hf, hm, hf', hn, ?_⟩
    simp only at h
    split at h
    · cases h
    rename_i e he
    obtain ⟨-, -, h⟩ := ok_of_bind h
    split at h
    · cases h
    split at h
    · cases h
    rename_i ha
    rw [List.isPrefixOf_iff_prefix] at ha
    split at h
    · cases h
    have hsource : d.tree.get? (folder ++ [m]) ≠ none := by simp [he]
    split at h
    · rename_i heq
      obtain rfl := Except.ok.inj h
      refine ⟨rfl, hsource, fun hne => heq ▸ hne, fun _ hne => absurd heq hne, fun k => ?_⟩
      exact (Tree.get?_of_moved_nowhere heq k).symm
    · split at h
      · cases h
      rename_i ho
      obtain rfl := Except.ok.inj h
      refine ⟨rfl, hsource, fun hne => obstacle?_none ho fun hfolder => ?_, fun hfolder _ q => ?_,
        fun k => ?_⟩
      · exact hne (hfolder ▸ he)
      · obtain rfl : e = .folder := Option.some.inj (he.symm.trans hfolder)
        exact fileAt_of_obstacle? ho q
      have hg : folder' ++ [n] = [] ∨
          (d.tree.prune (folder ++ [m])).get? (folder' ++ [n]).dropLast = some .folder := by
        rw [List.dropLast_concat, Tree.get?_prune, if_neg ha]
        exact .inr (folderOf_ok hf').2.2
      change ((d.tree.prune (folder ++ [m])).graft (folder' ++ [n]) _).get? k = _
      rw [Tree.get?_graft _ _ hg, Tree.get?_branch, Tree.get?_prune]
  · cases h

/-! ### Listing -/

theorem list_ok {es : List (String × Entry)} (h : d.list p = .ok es) :
    ∃ l, d.find true p = .ok (l, .folder) ∧ es = d.tree.children l := by
  obtain ⟨⟨l, e⟩, hl, h⟩ := ok_of_bind h
  split at h
  · rename_i l' heq
    obtain ⟨rfl, rfl⟩ := Prod.mk.inj heq
    exact ⟨l, hl, (Except.ok.inj h).symm⟩
  · cases h

theorem find_ok {follow : Bool} (h : d.find follow p = .ok (l, e)) :
    d.locate follow p = .ok l ∧ d.tree.get? l = some e := by
  obtain ⟨l', hl, h⟩ := ok_of_bind h
  split at h
  · rename_i e' he
    obtain ⟨rfl, rfl⟩ := Prod.mk.inj (Except.ok.inj h)
    exact ⟨hl, he⟩
  · cases h

theorem locate_ok {follow : Bool} (h : d.locate follow p = .ok l) :
    acceptPath p = .ok () ∧ d.seek follow p p.steps = .ok l := by
  obtain ⟨⟨⟩, ha, h⟩ := ok_of_bind h
  exact ⟨ha, h⟩

theorem read_ok (h : d.read p = .ok c) : ∃ l, d.find true p = .ok (l, .file c) := by
  obtain ⟨⟨l, e⟩, hl, h⟩ := ok_of_bind h
  split at h
  · rename_i l' c' heq
    obtain ⟨rfl, rfl⟩ := Prod.mk.inj heq
    obtain rfl := Except.ok.inj h
    exact ⟨l, hl⟩
  · cases h

/-! ### Clearing -/

/-- What clearing a folder leaves: nothing below it, and everything else. -/
structure Cleared (d : Disk) (l : Location) (d' : Disk) : Prop where
  home : d'.home = d.home
  below : ∀ k, l <+: k → k ≠ l → d'.tree.get? k = none
  itself : d'.tree.get? l = none ∨ d'.tree.get? l = some .folder
  get? : ∀ k, ¬ l <+: k → d'.tree.get? k = d.tree.get? k

end Disk
end IconModules
