import IconModules.Proofs.Files.Plain

/-! # Disks to which files and folders are added

* `Disk.Extends d d'` says that `d'` has the folders and links of `d` and more folders and files. Paths
  lead to the same places then, also through links (`Extends.placeToWrite`).
* `Disk.Stored d p l c d'` says that a file was stored at the place `l` to which the path `p` leads. -/

namespace IconModules.Disk

variable {d d' d'' : Disk} {l k here : Location} {p : Path} {n : String} {c : Octets}
  {follow : Bool} {steps : List Path.Step}

/-- Files and folders were added, and files were written anew. -/
structure Extends (d d' : Disk) : Prop where
  home : d'.home = d.home
  folder : ∀ k, d.tree.get? k = some .folder → d'.tree.get? k = some .folder
  link : ∀ k target, d'.tree.get? k = some (.link target) ↔ d.tree.get? k = some (.link target)
  file : ∀ k, d.fileAt k ≠ none → d'.fileAt k ≠ none

theorem Extends.refl (d : Disk) : Extends d d :=
  ⟨rfl, fun _ h => h, fun _ _ => Iff.rfl, fun _ h => h⟩

theorem Extends.trans (h : Extends d d') (h' : Extends d' d'') : Extends d d'' :=
  ⟨h'.home.trans h.home, fun k hk => h'.folder k (h.folder k hk),
    fun k target => (h'.link k target).trans (h.link k target), fun k hk => h'.file k (h.file k hk)⟩

theorem Extends.there (h : Extends d d') (ht : d.tree.Plain) (hk : d.tree.get? k ≠ none) :
    d'.tree.get? k ≠ none := by
  obtain ⟨e, he⟩ := Option.ne_none_iff_exists'.1 hk
  cases e with
  | file c =>
    obtain ⟨c', hc'⟩ := Option.ne_none_iff_exists'.1 (h.file k (by simp [fileAt_eq_some.2 he]))
    simp [fileAt_eq_some.1 hc']
  | folder => simp [h.folder k he]
  | link target => exact absurd he (ht _ _)

theorem Grown.extends {P : Location → Prop} (h : Grown P d d') : Extends d d' := by
  refine ⟨h.home, fun k hk => h.get?_of_some hk, fun k target => ?_, fun k hk => ?_⟩
  · rcases h.get? k with e | ⟨e, e', -⟩
    · rw [e]
    · simp [e, e']
  · rw [h.fileAt]
    exact hk

theorem Put.extends (h : Put d l (.file c) d')
    (hl : d.tree.get? l = none ∨ ∃ c, d.tree.get? l = some (.file c)) : Extends d d' := by
  refine ⟨h.home, fun k hk => ?_, fun k target => ?_, fun k hk => ?_⟩
  · rw [h.get?, if_neg]
    · exact hk
    · rintro rfl
      rcases hl with hl | ⟨c, hl⟩ <;> simp [hl] at hk
  · rw [h.get?]
    split
    · rename_i he
      subst he
      rcases hl with hl | ⟨c, hl⟩ <;> simp [hl]
    · rfl
  · rw [h.fileAt_file]
    split
    · simp
    · exact hk

/-! ### Ways stay -/

theorem Extends.stride (h : Extends d d') {stop : Tree.Stop}
    (hs : d.tree.stride follow here steps = .ok stop) :
    d'.tree.stride follow here steps = .ok stop := by
  induction steps generalizing here with
  | nil => exact hs
  | cons step rest ih =>
    rw [Tree.stride_cons] at hs ⊢
    split at hs
    · cases hs
    · rename_i hhere
      rw [h.folder _ hhere]
      cases step with
      | stay => exact ih hs
      | up => exact ih hs
      | into n =>
        simp only at hs ⊢
        split at hs
        · cases hs
        · rename_i hshort
          rw [if_neg hshort]
          split at hs
          · rename_i target htarget
            rw [(h.link _ target).2 htarget]
            exact hs
          · rename_i hno
            split
            · rename_i target htarget
              exact absurd ((h.link _ target).1 htarget) (hno target)
            · exact ih hs
    · cases hs

theorem Extends.seekTree (h : Extends d d') {links : Nat}
    (hs : d.tree.seek follow links here steps = .ok l) :
    d'.tree.seek follow links here steps = .ok l := by
  induction links generalizing here steps with
  | zero =>
    unfold Tree.seek at hs ⊢
    cases hstop : d.tree.stride follow here steps with
    | error e =>
      rw [hstop] at hs
      cases hs
    | ok stop =>
      rw [hstop] at hs
      rw [h.stride hstop]
      exact hs
  | succ links ih =>
    unfold Tree.seek at hs ⊢
    cases hstop : d.tree.stride follow here steps with
    | error e =>
      rw [hstop] at hs
      cases hs
    | ok stop =>
      rw [hstop] at hs
      rw [h.stride hstop]
      cases stop with
      | «at» place => exact hs
      | link folder target rest => exact ih hs

theorem Extends.folderOf (h : Extends d d') (hf : d.folderOf p = .ok l) :
    d'.folderOf p = .ok l := by
  obtain ⟨ha, hs, hl⟩ := folderOf_ok hf
  have hs' : d'.seek true p p.approach.steps = .ok l := by
    unfold seek at hs ⊢
    rw [h.home]
    exact h.seekTree hs
  unfold Disk.folderOf
  rw [ha, hs']
  simp only [bind, Except.bind, h.folder l hl]
  rfl

/-- What is written to a path whose last place is a name in a folder: the file there, or what a link
there leads to. -/
theorem placeToWriteFrom_eq {links : Nat} {folder : Location} (hf : d.folderOf p = .ok folder)
    (hn : p.approach.ending = .name n) (hs : p.approach.slashed = false)
    (hshort : n.utf8ByteSize ≤ Tree.nameLimit) :
    (∀ c, d.tree.get? (folder ++ [n]) = some (.file c) →
      Disk.placeToWriteFrom links d p = .ok (folder ++ [n])) ∧
    ∀ target, d.tree.get? (folder ++ [n]) = some (.link target) →
      Disk.placeToWriteFrom (links + 1) d p =
        Disk.placeToWriteFrom links { d with home := folder } ⟨target⟩ := by
  have haccept : acceptName n = .ok () := by
    unfold acceptName
    rw [if_neg (Nat.not_lt.2 hshort)]
  constructor
  · intro c hc
    rw [Disk.placeToWriteFrom.eq_def]
    simp only [bind, Except.bind, hf, hn, hs, haccept, hc]
    rfl
  · intro target ht
    rw [Disk.placeToWriteFrom.eq_def]
    simp only [bind, Except.bind, hf, hn, hs, haccept, ht]

/-- A file that was written to a path is still what the path leads to. -/
theorem Extends.placeToWriteFrom (h : Extends d d') {links : Nat}
    (hw : Disk.placeToWriteFrom links d p = .ok l) (hfile : d'.fileAt l ≠ none) :
    Disk.placeToWriteFrom links d' p = .ok l := by
  obtain ⟨c, hc⟩ := Option.ne_none_iff_exists'.1 hfile
  rw [fileAt_eq_some] at hc
  induction links generalizing d d' p with
  | zero =>
    obtain ⟨folder, n, hf, hn, hs, hshort, ⟨rfl, -⟩ | ⟨_, _, h0, -⟩⟩ := placeToWriteFrom_cases hw
    · exact (placeToWriteFrom_eq (h.folderOf hf) hn hs hshort).1 c hc
    · cases h0
  | succ links ih =>
    obtain ⟨folder, n, hf, hn, hs, hshort, ⟨rfl, -⟩ | ⟨target, links', h0, ht, hw⟩⟩ :=
      placeToWriteFrom_cases hw
    · exact (placeToWriteFrom_eq (h.folderOf hf) hn hs hshort).1 c hc
    · obtain rfl : links = links' := by omega
      rw [(placeToWriteFrom_eq (h.folderOf hf) hn hs hshort).2 target ((h.link _ target).2 ht)]
      have h' : Extends { d with home := folder } { d' with home := folder } :=
        ⟨rfl, h.folder, h.link, h.file⟩
      exact ih h' hw hfile hc

theorem Extends.placeToWrite (h : Extends d d') (hw : d.placeToWrite p = .ok l)
    (hfile : d'.fileAt l ≠ none) : d'.placeToWrite p = .ok l :=
  h.placeToWriteFrom hw hfile

theorem Extends.plain (ht : d.tree.Plain) (h : Extends d d') : d'.tree.Plain :=
  fun k target hk => ht k target ((h.link k target).1 hk)

theorem Extends.openRoot {root : Path} (h : Extends d d') (ho : d.OpenRoot root) :
    d'.OpenRoot root :=
  ho.of_folders h.home h.folder

/-- A folder is made at an empty place and has a name. -/
theorem makeFolder_grown (h : d.makeFolder p = .ok d') :
    Grown (fun k => True ∧ ∃ l n, k = l ++ [n] ∧ IsName n) d d' := by
  obtain ⟨l, n, -, hn, hnone, hput⟩ := makeFolder_ok h
  refine ⟨hput.home, fun k => ?_⟩
  rw [hput.get?]
  by_cases hk : k = l ++ [n]
  · subst hk
    exact .inr ⟨hnone, if_pos rfl, trivial, l, n, rfl, (Path.steps_of_ending_name hn).1⟩
  · exact .inl (if_neg hk)

/-- Making folders adds folders with names, and no file. -/
theorem makeFoldersFrom_extends (fuel : Nat) (p : Path) (d : Disk) :
    Extends d (makeFoldersFrom fuel p d).2 ∧
      (d.tree.Named → (makeFoldersFrom fuel p d).2.tree.Named) ∧
      ∀ k, (makeFoldersFrom fuel p d).2.fileAt k = d.fileAt k := by
  have hg : Grown (fun k => True ∧ ∃ l n, k = l ++ [n] ∧ IsName n) d
      (makeFoldersFrom fuel p d).2 := by
    exact makeFoldersFrom_induct (A := fun _ => True) (fun _ _ _ _ => trivial)
      (fun q d₁ d₂ _ hd h => hd.trans (makeFolder_grown h)) trivial (.refl d)
  exact ⟨hg.extends, hg.named, hg.fileAt⟩

theorem makeFolders_extends (d : Disk) (p : Path) : Extends d (d.makeFolders p).2 ∧
    (d.tree.Named → (d.makeFolders p).2.tree.Named) ∧
    ∀ k, (d.makeFolders p).2.fileAt k = d.fileAt k :=
  makeFoldersFrom_extends _ p d

/-! ### Storing a file -/

/-- The disk `d'` is `d` with a file at the place to which a path leads; folders may have been made for
it. -/
structure Stored (d : Disk) (p : Path) (l : Location) (c : Octets) (d' : Disk) : Prop where
  grown : Extends d d'
  named : d.tree.Named → d'.tree.Named
  leads : d'.placeToWrite p = .ok l
  fileAt : ∀ k, d'.fileAt k = if k = l then some c else d.fileAt k

theorem Put.stored (hput : Put d l (.file c) d') (hw : d.placeToWrite p = .ok l) :
    Stored d p l c d' := by
  obtain ⟨folder, n, hl, hn, -, he⟩ := placeToWriteFrom_ok hw
  have hextends := hput.extends he
  refine ⟨hextends, fun hnamed k m e hk => ?_, hextends.placeToWrite hw ?_, hput.fileAt_file⟩
  · rw [hput.get?] at hk
    split at hk
    · rename_i hkl
      rw [hl] at hkl
      obtain ⟨-, rfl⟩ := List.concat_inj.1 (by simpa using hkl)
      exact hn
    · exact hnamed k m e hk
  · rw [hput.fileAt_file, if_pos rfl]
    simp

/-- What stands elsewhere before the file was stored does not depend on the folders made for it. -/
theorem Stored.after (h : Stored d' p l c d'') (hd : Extends d d')
    (hnamed : d.tree.Named → d'.tree.Named) (hf : ∀ k, d'.fileAt k = d.fileAt k) :
    Stored d p l c d'' := by
  refine ⟨hd.trans h.grown, h.named ∘ hnamed, h.leads, fun k => ?_⟩
  rw [h.fileAt, hf]

/-- The path leads to the file from then on, whatever is added. -/
theorem Stored.leads_of_extends (h : Stored d p l c d') (h' : Extends d' d'') :
    d''.placeToWrite p = .ok l ∧ d''.fileAt l ≠ none := by
  have hl : d''.fileAt l ≠ none := by
    refine h'.file l ?_
    rw [h.fileAt, if_pos rfl]
    simp
  exact ⟨h'.placeToWrite h.leads hl, hl⟩

end IconModules.Disk
