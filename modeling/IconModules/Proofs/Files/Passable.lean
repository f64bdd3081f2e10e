import IconModules.Proofs.Files.Accepted
import IconModules.Proofs.Files.Rooted

/-! # Making folders where nothing is in the way

The way of a path is **passable** if it begins in a folder, its names are short enough, and nothing but folders
stands on it (`Disk.Passable`). Then all folders on it can be made (`Disk.makeFolders_of_passable`), and
where folders were made the way was passable (`Disk.makeFolders_passable`).

The parents of a path are `Path.Tidy`, and their texts are beginnings of its text (`Path.text_parent?`), so
they are accepted if the path is. -/

namespace IconModules

/-! ### Parents -/

namespace Path

variable {p above root : Path} {names : List String}

/-- A path whose last part leads somewhere, or none of whose parts does. -/
def Tidy (p : Path) : Prop :=
  p.moves = [] ∨ ∃ last, p.parts.getLast? = some last ∧ isIdle last = false

theorem Under.tidy (h : Under root names p) : p.Tidy := by
  obtain ⟨n, hn, hlast⟩ := h.last
  exact .inr ⟨n, hlast, (h.isName n (List.mem_of_getLast? hn)).2.1⟩

theorem intercalate_parts (p : Path) : "/".intercalate p.parts = p.text := by
  rw [← String.toList_inj, String.toList_intercalate, parts, List.map_map]
  have hid : String.toList ∘ String.ofList = id := by
    funext cs
    simp
  rw [hid, List.map_id]
  exact List.intercalate_splitOn '/'

/-- The parent of a path is written with the first of its parts, up to one that leads somewhere. -/
theorem parts_of_parent? (h : p.parent? = some above) :
    above = ⟨""⟩ ∧ p.parts.head? = some "." ∨
      ∃ kept more last, above = ofParts kept ∧ p.parts = kept ++ more ∧ last ∈ more ∧
        isIdle last = false ∧ (movesOf kept = [] ∨ ∃ n, kept.getLast? = some n ∧ isIdle n = false) := by
  have hp := lead_append p
  unfold parent? at h
  split at h
  · rename_i last rest hb
    obtain rfl : ofParts (p.lead ++ (busy rest.reverse).reverse) = above := by simpa using h
    obtain ⟨idle, -, hD⟩ := busy_append (p.parts.drop p.lead.length)
    obtain ⟨idle', -, hR⟩ := busy_append rest.reverse
    rw [hb, List.reverse_cons, hR] at hD
    refine .inr ⟨_, idle' ++ last :: idle, last, rfl, ?_, by simp, notIdle_of_busy hb, ?_⟩
    · rw [hp, hD]
      simp
    · cases hkept : busy rest.reverse with
      | nil => exact .inl (by rw [List.reverse_nil, List.append_nil, movesOf_lead])
      | cons n ns => exact .inr ⟨n, by simp, notIdle_of_busy hkept⟩
  · split at h
    · rename_i hl
      obtain rfl : (⟨""⟩ : Path) = above := by simpa using h
      refine .inl ⟨rfl, ?_⟩
      rw [hp, hl]
      rfl
    · cases h

theorem tidy_parent? (h : p.parent? = some above) : above.Tidy := by
  rcases parts_of_parent? h with ⟨rfl, -⟩ | ⟨kept, more, last, rfl, hp, -, -, hkept⟩
  · exact .inl moves_empty
  · have hslash : ∀ q ∈ kept, '/' ∉ q.toList := fun q hq =>
      noSlash_of_mem_parts (p := p) (hp ▸ List.mem_append_left _ hq)
    rcases hkept with hmoves | ⟨n, hn, hbusy⟩
    · exact .inl (by rw [moves_ofParts hslash, hmoves])
    · refine .inr ⟨n, ?_, hbusy⟩
      have hroot : kept ≠ [""] := by
        rintro rfl
        obtain rfl : "" = n := by simpa using hn
        exact absurd hbusy (by decide)
      have hne : kept ≠ [] := by
        rintro rfl
        cases hn
      rw [ofParts, if_neg hroot, parts_intercalate hslash hne, hn]

/-- The text of a parent is a shorter beginning of the path's. -/
theorem text_parent? (h : p.parent? = some above) :
    above.text.toList <+: p.text.toList ∧ above.text.length < p.text.length := by
  have htext : ∃ x, x ≠ "" ∧ p.text = above.text ++ x := by
    rcases parts_of_parent? h with ⟨rfl, hdot⟩ | ⟨kept, more, last, rfl, hp, hlast, hbusy, -⟩
    · refine ⟨p.text, ?_, (String.empty_append).symm⟩
      intro hempty
      rw [parts, hempty] at hdot
      exact absurd hdot (by decide)
    · have hmore : more ≠ [] := List.ne_nil_of_mem hlast
      -- what follows holds a part that leads somewhere
      have hne : "/".intercalate more ≠ "" := by
        intro hempty
        have hparts := parts_intercalate
          (fun q hq => noSlash_of_mem_parts (p := p) (hp ▸ List.mem_append_right kept hq)) hmore
        rw [hempty] at hparts
        have hsingle : more = [""] := hparts.symm.trans (by decide)
        rw [hsingle, List.mem_singleton] at hlast
        rw [hlast] at hbusy
        exact absurd hbusy (by decide)
      by_cases hkept : kept = []
      · subst hkept
        refine ⟨"/".intercalate more, hne, ?_⟩
        rw [← intercalate_parts, hp]
        exact (String.empty_append).symm
      · rw [← intercalate_parts p, hp, String.intercalate_append_of_ne_nil hkept hmore, ofParts]
        split
        · rename_i hroot
          subst hroot
          exact ⟨"/".intercalate more, hne, by simp⟩
        · exact ⟨"/" ++ "/".intercalate more, by simp, by rw [String.append_assoc]⟩
  obtain ⟨x, hx, htext⟩ := htext
  constructor
  · rw [htext, String.toList_append]
    exact List.prefix_append _ _
  · have hlength : 0 < x.length := by
      rw [Nat.pos_iff_ne_zero, Ne, String.length_eq_zero_iff]
      exact hx
    rw [htext, String.length_append]
    omega

/-- The way to the folder of a path begins the way of the path. -/
theorem steps_approach (p : Path) : p.approach.steps <+: p.steps := by
  obtain ⟨k, hk⟩ := exists_replicate_append p.parts
  unfold approach steps
  cases hd : p.parts.reverse.dropWhile (· == "") with
  | nil => exact List.nil_prefix
  | cons last rest =>
    rw [hd] at hk
    rw [hk, List.reverse_cons, List.append_assoc, List.map_append]
    exact List.prefix_append _ _

/-- A tidy path that leads somewhere goes through its folder and then does one step more. -/
theorem Tidy.cases (h : p.Tidy) :
    p.moves = [] ∧ (p.approach.ending = .here ∨ p.approach.ending = .root) ∨
      (p.approach.ending = .up ∧ p.steps = p.approach.steps ++ [.up]) ∨
      ∃ n, IsName n ∧ p.approach.ending = .name n ∧ p.steps = p.approach.steps ++ [.into n] := by
  rcases h with hmoves | ⟨last, hlast, hbusy⟩
  · refine .inl ⟨hmoves, ?_⟩
    obtain ⟨k, hk⟩ := exists_replicate_append p.parts
    have hhead := List.head?_dropWhile_not (fun x : String => x == "") p.parts.reverse
    unfold approach
    cases hd : p.parts.reverse.dropWhile (· == "") with
    | nil => exact .inr rfl
    | cons last rest =>
      rw [hd] at hk hhead
      have hidle : isIdle last = true := by
        apply Classical.byContradiction
        intro hbusy
        rw [moves, hk, List.reverse_cons, movesOf_append, movesOf_append,
          movesOf_singleton (by simpa using hbusy)] at hmoves
        simp at hmoves
      have hne : last ≠ "" := by simpa using hhead
      have hdot : last = "." := by simpa [isIdle, hne] using hidle
      exact .inl (by rw [hdot]; rfl)
  · have hne : last ≠ "" := by
      rintro rfl
      exact absurd hbusy (by decide)
    by_cases hup : last = ".."
    · subst hup
      obtain ⟨ps, hps⟩ := List.getLast?_eq_some_iff.1 hlast
      refine .inr (.inl ?_)
      unfold approach steps
      rw [hps]
      simp only [List.reverse_append, List.reverse_singleton, List.singleton_append,
        List.dropWhile_cons_of_neg, beq_iff_eq, hne, not_false_eq_true, List.reverse_reverse,
        List.map_append, List.map_cons, List.map_nil]
      exact ⟨by decide, by rw [show Step.ofPart ".." = .up by decide]⟩
    · have hname : IsName last := ⟨noSlash_of_mem_parts (List.mem_of_getLast? hlast), hbusy, hup⟩
      obtain ⟨hn, -, hsteps⟩ := approach_of_getLast?_parts hname hlast
      exact .inr (.inr ⟨last, hname, hn, hsteps⟩)

/-- The way to the folder of a tidy path has all its moves but the last. -/
theorem Tidy.dropLast_moves (h : p.Tidy) :
    p.approach.steps.filter (· ≠ .stay) = p.moves.dropLast := by
  rcases h.cases with ⟨hmoves, -⟩ | ⟨-, hsteps⟩ | ⟨n, -, -, hsteps⟩
  · have hbegins : p.approach.steps.filter (· ≠ .stay) <+: p.moves := p.steps_approach.filter _
    rw [hmoves, List.prefix_nil] at hbegins
    rw [hmoves]
    exact hbegins
  · change _ = (p.steps.filter (· ≠ .stay)).dropLast
    rw [hsteps, List.filter_append]
    exact List.dropLast_concat.symm
  · change _ = (p.steps.filter (· ≠ .stay)).dropLast
    rw [hsteps, List.filter_append]
    exact List.dropLast_concat.symm

/-- The parent of a path under a root is under it as well, unless it is the root. -/
theorem Under.under_parent? {n : String} (hp : Under root (names ++ [n]) p) (hne : names ≠ [])
    (h : p.parent? = some above) : Under root names above := by
  have halong := hp.parent? h
  rw [List.dropLast_concat] at halong
  obtain ⟨ns, m, rfl⟩ : ∃ ns m, names = ns ++ [m] :=
    ⟨_, _, (List.dropLast_concat_getLast hne).symm⟩
  refine ⟨halong, m, by simp, ?_⟩
  have hmoves := halong.moves
  rw [List.map_append, ← List.append_assoc] at hmoves
  rcases tidy_parent? h with hnil | ⟨last, hlast, hbusy⟩
  · rw [hnil] at hmoves
    simp at hmoves
  · obtain ⟨ps, hps⟩ := List.getLast?_eq_some_iff.1 hlast
    rw [moves, hps, movesOf_append, movesOf_singleton hbusy] at hmoves
    have hstep : Step.ofPart last = .into m := by simpa using (List.append_inj' hmoves rfl).2
    rw [hlast]
    unfold Step.ofPart at hstep
    rw [if_neg (by simp [hbusy])] at hstep
    split at hstep
    · cases hstep
    · rw [Step.into.inj hstep]

end Path

/-! ### Ways that can be gone -/

namespace Tree

variable {t : Tree} {follow : Bool} {here : Location} {steps ms : List Path.Step}

/-- Where nothing but folders stands, steps can be taken or lead to a place that is not there. -/
theorem stride_of_passable (ht : t.Plain) (hshort : ∀ s ∈ steps, Short s)
    (hway : ∀ ms, ms <+: steps → t.get? (Path.walk here ms) = none ∨
      t.get? (Path.walk here ms) = some .folder) :
    t.Open here steps ∨ t.stride follow here steps = .error .noSuchFile := by
  induction steps generalizing here with
  | nil => exact .inl trivial
  | cons s rest ih =>
    have hrest := @ih (s.next here) (fun x hx => hshort x (List.mem_cons_of_mem _ hx))
      fun ms hms => hway (s :: ms) (List.cons_prefix_cons.2 ⟨rfl, hms⟩)
    have hs := hshort s List.mem_cons_self
    rw [stride_cons]
    rcases hway [] List.nil_prefix with hnone | hfolder
    · exact .inr (by rw [show t.get? here = none from hnone])
    · rw [show t.get? here = some .folder from hfolder]
      rcases hrest with hopen | herror
      · exact .inl ⟨hfolder, hs, hopen⟩
      · refine .inr ?_
        cases s with
        | stay => exact herror
        | up => exact herror
        | into n =>
          have hn : ¬ nameLimit < n.utf8ByteSize := Nat.not_lt.2 hs
          simp only [hn, if_false]
          split
          · rename_i target htarget
            exact absurd htarget (ht _ _)
          · exact herror

/-- An open way to a folder leads through folders. -/
theorem Open.folders (h : t.Open here steps) (hend : t.get? (Path.walk here steps) = some .folder)
    (hms : ms <+: steps) : t.get? (Path.walk here ms) = some .folder := by
  obtain ⟨rest, rfl⟩ := hms
  cases rest with
  | nil => rwa [List.append_nil] at hend
  | cons s rest => exact (open_append.1 h).2.1

/-- A way through folders is open. -/
theorem open_of_folders (hshort : ∀ s ∈ steps, Short s)
    (hway : ∀ ms, ms <+: steps → t.get? (Path.walk here ms) = some .folder) : t.Open here steps := by
  induction steps generalizing here with
  | nil => trivial
  | cons s rest ih =>
    exact ⟨hway [] List.nil_prefix, hshort s List.mem_cons_self,
      ih (fun x hx => hshort x (List.mem_cons_of_mem _ hx)) fun ms hms =>
        hway (s :: ms) (List.cons_prefix_cons.2 ⟨rfl, hms⟩)⟩

theorem Open.short (h : t.Open here steps) : ∀ s ∈ steps, Short s := by
  induction steps generalizing here with
  | nil => simp
  | cons s rest ih => exact List.forall_mem_cons.2 ⟨h.2.1, ih h.2.2⟩

end Tree

namespace Disk

variable {d d' : Disk} {p above root : Path} {k : Location} {n : String} {names : List String}

/-- Without links, nothing or a folder stands where no file is. -/
theorem get?_of_no_file (ht : d.tree.Plain) (h : d.fileAt k = none) :
    d.tree.get? k = none ∨ d.tree.get? k = some .folder := by
  rw [fileAt_eq_none] at h
  cases hget : d.tree.get? k with
  | none => exact .inl rfl
  | some e =>
    cases e with
    | file c => exact absurd hget (h c)
    | folder => exact .inr rfl
    | link target => exact absurd hget (ht _ _)

/-- There is a folder at every place on the way of a path. -/
def Walked (d : Disk) (p : Path) : Prop :=
  ∀ k, d.OnWay p k → d.tree.get? k = some .folder

/-- Nothing is in the way when the folders on the way of a path are made. -/
structure Passable (d : Disk) (p : Path) : Prop where
  start : d.tree.get? (d.start p) = some .folder
  short : ∀ s ∈ p.moves, Tree.Short s
  way : ∀ k, d.OnWay p k → d.tree.get? k = none ∨ d.tree.get? k = some .folder

theorem Walked.start (h : d.Walked p) : d.tree.get? (d.start p) = some .folder :=
  h _ ⟨[], List.nil_prefix, rfl⟩

theorem Walked.passable (h : d.Walked p) (hshort : ∀ s ∈ p.moves, Tree.Short s) : d.Passable p :=
  ⟨h.start, hshort, fun k hk => .inr (h k hk)⟩

theorem onWay_iff : d.OnWay p k ↔ ∃ ms, ms <+: p.steps ∧ k = Path.walk (d.start p) ms := by
  constructor
  · rintro ⟨ms, hms, rfl⟩
    obtain ⟨l, hl, rfl⟩ := List.prefix_filter_iff.1 hms
    exact ⟨l, hl, Path.walk_filter _ _⟩
  · rintro ⟨ms, hms, rfl⟩
    exact onWay_of_steps hms

theorem onWay_place (d : Disk) (p : Path) : d.OnWay p (d.place p) :=
  ⟨p.moves, List.prefix_refl _, rfl⟩

/-- The way of a parent is that of the path without its end. -/
theorem onWay_parent?_iff (h : p.parent? = some above) :
    d.OnWay above k ↔ ∃ ms, ms <+: p.moves.dropLast ∧ k = Path.walk (d.start p) ms := by
  obtain ⟨habs, hmoves⟩ := Path.moves_parent? h
  unfold OnWay start
  rw [habs, hmoves]

theorem onWay_of_parent? (h : p.parent? = some above) (hk : d.OnWay above k) : d.OnWay p k := by
  obtain ⟨ms, hms, rfl⟩ := (onWay_parent?_iff h).1 hk
  exact ⟨ms, hms.trans (List.dropLast_prefix _), rfl⟩

theorem Passable.parent (h : d.Passable p) (habove : p.parent? = some above) : d.Passable above := by
  obtain ⟨habs, hmoves⟩ := Path.moves_parent? habove
  have hstart : d.start above = d.start p := by
    unfold Disk.start
    rw [habs]
  refine ⟨by rw [hstart, h.start], fun s hs => h.short s ?_,
    fun k hk => h.way k (onWay_of_parent? habove hk)⟩
  rw [hmoves] at hs
  exact (List.dropLast_sublist _).mem hs

theorem short_of_moves (h : ∀ s ∈ p.moves, Tree.Short s) : ∀ s ∈ p.steps, Tree.Short s := by
  intro s hs
  by_cases hstay : s = .stay
  · rw [hstay]
    trivial
  · exact h s (List.mem_filter.2 ⟨hs, by simpa using hstay⟩)

/-- A path can be followed, up to a place that is not there. -/
theorem folderOf_of_way (ht : d.tree.Plain) (ha : acceptPath p = .ok ())
    (hshort : ∀ s ∈ p.moves, Tree.Short s)
    (hway : ∀ k, d.OnWay p k → d.tree.get? k = none ∨ d.tree.get? k = some .folder) :
    (d.tree.Open (d.start p) p.approach.steps ∧
        d.tree.get? (Path.walk (d.start p) p.approach.steps) = some .folder) ∨
      d.folderOf p = .error .noSuchFile := by
  have hsteps := p.steps_approach
  have hway' : ∀ ms, ms <+: p.approach.steps →
      d.tree.get? (Path.walk (d.start p) ms) = none ∨
        d.tree.get? (Path.walk (d.start p) ms) = some .folder := fun ms hms =>
    hway _ (onWay_iff.2 ⟨ms, hms.trans hsteps, rfl⟩)
  have hstride := @Tree.stride_of_passable _ true _ _ ht
    (fun s hs => short_of_moves hshort s (hsteps.subset hs)) hway'
  rcases hstride with hopen | herror
  · rcases hway' _ (List.prefix_refl _) with hnone | hfolder
    · refine .inr ?_
      have hseek : d.seek true p p.approach.steps =
          .ok (Path.walk (d.start p) p.approach.steps) := (Tree.seek_iff ht).2 ⟨hopen, rfl⟩
      unfold folderOf
      rw [ha, hseek]
      simp only [bind, Except.bind, hnone]
      rfl
    · exact .inl ⟨hopen, hfolder⟩
  · refine .inr ?_
    have hseek : d.seek true p p.approach.steps = .error .noSuchFile := by
      unfold Disk.start at herror
      unfold Disk.seek Tree.seek
      rw [herror]
    unfold folderOf
    rw [ha, hseek]
    rfl

/-! ### Making them -/

/-- The disk `d'` is `d` with folders all along the way of a path. -/
structure Paved (d : Disk) (p : Path) (d' : Disk) : Prop where
  home : d'.home = d.home
  walked : ∀ k, d.OnWay p k → d'.tree.get? k = some .folder
  get? : ∀ k, ¬ d.OnWay p k → d'.tree.get? k = d.tree.get? k

theorem paved_of_walked (h : d.Walked p) : Paved d p d :=
  ⟨rfl, h, fun _ _ => rfl⟩

/-- Where all folders are there, none is made. -/
theorem Paved.get?_of_walked (h : Paved d p d') (hw : d.Walked p) (k : Location) :
    d'.tree.get? k = d.tree.get? k := by
  by_cases hk : d.OnWay p k
  · rw [h.walked k hk, hw k hk]
  · exact h.get? k hk

/-- A file is not on a passable way, nor is anything below it. -/
theorem Paved.get?_of_file {c : Octets} (hpaved : Paved d p d') (h : d.Passable p)
    (hfile : d.tree.get? k = some (.file c)) (q : Location) :
    d'.tree.get? (k ++ q) = d.tree.get? (k ++ q) := by
  have hsame : d'.tree.get? k = d.tree.get? k := by
    refine hpaved.get? _ fun hway => ?_
    rcases h.way _ hway with hnone | hfolder
    · rw [hfile] at hnone
      cases hnone
    · rw [hfile] at hfolder
      cases hfolder
  cases q with
  | nil => simpa using hsame
  | cons n q =>
    rw [Tree.get?_append_cons_of_ne (by simp [hsame, hfile]),
      Tree.get?_append_cons_of_ne (by simp [hfile])]

theorem Paved.plain (ht : d.tree.Plain) (h : Paved d p d') : d'.tree.Plain := by
  intro k target
  by_cases hk : d.OnWay p k
  · simp [h.walked k hk]
  · rw [h.get? k hk]
    exact ht k target

theorem Paved.walked_all (h : Paved d p d') : d'.Walked p := fun k hk =>
  h.walked k ((onWay_of_home h.home).1 hk)

/-- A folder that is already there is left alone. -/
theorem settle_there (ht : d.tree.Plain) (ha : acceptPath p = .ok ()) (hshort : ∀ s ∈ p.steps, Tree.Short s)
    (hwalked : d.Walked p) : d.settle p (.error .alreadyThere) = (none, d) := by
  have hopen : d.tree.Open (d.start p) p.steps :=
    Tree.open_of_folders hshort fun ms hms => hwalked _ (onWay_iff.2 ⟨ms, hms, rfl⟩)
  have hfound : d.find true p = .ok (d.place p, .folder) :=
    (find_iff ht).2 ⟨ha, hopen, rfl, hwalked _ (onWay_place d p)⟩
  have hholds : d.holdsFolder p = true := by
    unfold holdsFolder
    rw [hfound]
  unfold settle
  simp [hholds]

/-- What stands on the way of a path, its end apart, stands on the way to the folder for it. -/
theorem folder_of_approach {last : Path.Step} (hsteps : p.steps = p.approach.steps ++ [last])
    (ho : d.tree.Open (d.start p) p.approach.steps)
    (hfolder : d.tree.get? (Path.walk (d.start p) p.approach.steps) = some .folder) (hk : d.OnWay p k)
    (hne : k ≠ d.place p) : d.tree.get? k = some .folder := by
  have hplace : d.place p = Path.walk (d.start p) p.steps := (Path.walk_steps _ _).symm
  obtain ⟨ms, hms, rfl⟩ := onWay_iff.1 hk
  rw [hsteps] at hms
  rcases List.prefix_concat_iff.1 hms with rfl | hms
  · rw [← hsteps, ← hplace] at hne
    exact absurd rfl hne
  · exact ho.folders hfolder hms

/-- Above a folder there are only folders. -/
theorem walked_up (hsteps : p.steps = p.approach.steps ++ [.up])
    (ho : d.tree.Open (d.start p) p.approach.steps)
    (hfolder : d.tree.get? (Path.walk (d.start p) p.approach.steps) = some .folder) : d.Walked p := by
  intro k hk
  by_cases hne : k = d.place p
  · have hplace : d.place p = (Path.walk (d.start p) p.approach.steps).dropLast := by
      rw [place, ← Path.walk_steps, hsteps, Path.walk_append]
      rfl
    rw [hne, hplace]
    rcases List.eq_nil_or_concat (Path.walk (d.start p) p.approach.steps) with hnil | ⟨l, n, hl⟩
    · rw [hnil] at hfolder ⊢
      exact hfolder
    · rw [hl, List.concat_eq_append] at hfolder ⊢
      rw [List.dropLast_concat]
      exact Tree.get?_of_append hfolder
  · exact folder_of_approach hsteps ho hfolder hk hne

/-- Where the folder for a name is there, the name is found to be one already, or its folder is made. -/
theorem makeFolder_name (ht : d.tree.Plain) (ha : acceptPath p = .ok ()) (h : d.Passable p)
    (ho : d.tree.Open (d.start p) p.approach.steps)
    (hfolder : d.tree.get? (Path.walk (d.start p) p.approach.steps) = some .folder)
    (hend : p.approach.ending = .name n) (hsteps : p.steps = p.approach.steps ++ [.into n]) :
    d.makeFolder p = .error .alreadyThere ∧ d.Walked p ∨
      ∃ d', d.makeFolder p = .ok d' ∧ Paved d p d' := by
  have hfind := folderOf_of_open ht ha ho hfolder
  have hn : acceptName n = .ok () := by
    have hs := short_of_moves h.short (.into n) (by rw [hsteps]; simp)
    unfold acceptName
    rw [if_neg (Nat.not_lt.2 hs)]
  have hplace : d.place p = Path.walk (d.start p) p.approach.steps ++ [n] := by
    rw [place, ← Path.walk_steps, hsteps, Path.walk_append]
    rfl
  rcases h.way _ (onWay_place d p) with hnone | hthere
  · have hmake : ∃ d', d.makeFolder p = .ok d' := by
      rw [hplace] at hnone
      unfold makeFolder
      rw [hfind]
      simp only [bind, Except.bind, hend, hn, hnone]
      exact ⟨_, rfl⟩
    obtain ⟨d', hmake⟩ := hmake
    obtain ⟨l, m, hl, hm, -, hput⟩ := makeFolder_ok hmake
    rw [← (folderOf_eq ht hl hm).2.2.2] at hput
    refine .inr ⟨d', hmake, hput.home, fun k hk => ?_, fun k hk => ?_⟩
    · rw [hput.get?]
      split
      · rfl
      · rename_i hne
        exact folder_of_approach hsteps ho hfolder hk hne
    · rw [hput.get?, if_neg]
      rintro rfl
      exact hk (onWay_place d p)
  · refine .inl ⟨?_, fun k hk => ?_⟩
    · rw [hplace] at hthere
      unfold makeFolder
      rw [hfind]
      simp only [bind, Except.bind, hend, hn, hthere]
      rfl
    · by_cases hne : k = d.place p
      · rw [hne]
        exact hthere
      · exact folder_of_approach hsteps ho hfolder hk hne

/-- Where the folder for a path is there, the folder itself is found, or it is made. -/
theorem makeFolder_of_approach (ht : d.tree.Plain) (htidy : p.Tidy) (ha : acceptPath p = .ok ())
    (h : d.Passable p) (ho : d.tree.Open (d.start p) p.approach.steps)
    (hfolder : d.tree.get? (Path.walk (d.start p) p.approach.steps) = some .folder) :
    d.makeFolder p = .error .alreadyThere ∧ d.Walked p ∨
      ∃ d', d.makeFolder p = .ok d' ∧ Paved d p d' := by
  have hfind := folderOf_of_open ht ha ho hfolder
  rcases htidy.cases with ⟨hmoves, hend⟩ | ⟨hend, hsteps⟩ | ⟨n, -, hend, hsteps⟩
  · refine .inl ⟨?_, fun k hk => ?_⟩
    · unfold makeFolder
      rw [hfind]
      rcases hend with hend | hend <;> simp only [bind, Except.bind, hend] <;> rfl
    · obtain ⟨ms, hms, rfl⟩ := hk
      rw [hmoves, List.prefix_nil] at hms
      rw [hms]
      exact h.start
  · refine .inl ⟨?_, walked_up hsteps ho hfolder⟩
    unfold makeFolder
    rw [hfind]
    simp only [bind, Except.bind, hend]
    rfl
  · exact makeFolder_name ht ha h ho hfolder hend hsteps

/-- In either case the folder is there when making it is settled. -/
theorem settle_makeFolder (ht : d.tree.Plain) (htidy : p.Tidy) (ha : acceptPath p = .ok ())
    (h : d.Passable p) (ho : d.tree.Open (d.start p) p.approach.steps)
    (hfolder : d.tree.get? (Path.walk (d.start p) p.approach.steps) = some .folder) :
    d.makeFolder p ≠ .error .noSuchFile ∧ (d.settle p (d.makeFolder p)).1 = none ∧
      Paved d p (d.settle p (d.makeFolder p)).2 := by
  rcases makeFolder_of_approach ht htidy ha h ho hfolder with ⟨hmake, hwalked⟩ | ⟨d', hmake, hpaved⟩
  · rw [hmake, settle_there ht ha (short_of_moves h.short) hwalked]
    exact ⟨nofun, rfl, paved_of_walked hwalked⟩
  · rw [hmake]
    exact ⟨nofun, rfl, hpaved⟩

/-- With a path the system can be given its parent, or there is nothing to make for it. -/
theorem accept_parent? (h : p.parent? = some above) (ha : acceptPath p = .ok ()) :
    acceptPath above = .ok () ∨ above.parent? = none := by
  by_cases hempty : above.text = ""
  · obtain rfl : above = ⟨""⟩ := by
      cases above
      exact congrArg Path.mk hempty
    exact .inr (by decide)
  · exact .inl (accept_of_beginning ha (Path.text_parent? h).1 hempty)

/-- A way stays passable when the folders above its end are made. -/
theorem Paved.passable {d₁ : Disk} (hpaved : Paved d above d₁) (habove : p.parent? = some above)
    (h : d.Passable p) : d₁.Passable p := by
  have hstart := start_of_home hpaved.home p
  refine ⟨?_, h.short, fun k hk => ?_⟩
  · rw [hstart]
    exact hpaved.walked _ ((onWay_parent?_iff habove).2 ⟨[], List.nil_prefix, rfl⟩)
  · rw [onWay_of_home hpaved.home] at hk
    by_cases hka : d.OnWay above k
    · exact .inr (hpaved.walked k hka)
    · rw [hpaved.get? k hka]
      exact h.way k hk

/-- Once the folders above the end of a path are made, folders lead to the one for it. -/
theorem Paved.approach {d₁ : Disk} (hpaved : Paved d above d₁) (habove : p.parent? = some above)
    (htidy : p.Tidy) {ms : List Path.Step} (hms : ms <+: p.approach.steps) :
    d₁.tree.get? (Path.walk (d₁.start p) ms) = some .folder := by
  have hstart := start_of_home hpaved.home p
  refine hpaved.walked _ ((onWay_parent?_iff habove).2 ⟨ms.filter (· ≠ .stay), ?_, ?_⟩)
  · rw [← htidy.dropLast_moves]
    exact hms.filter _
  · rw [hstart, Path.walk_filter]

/-- The folders above the end of a path and then its own are all folders on its way. -/
theorem Paved.trans_parent {d₁ d₂ : Disk} (hpaved : Paved d above d₁) (hpaved' : Paved d₁ p d₂)
    (habove : p.parent? = some above) : Paved d p d₂ := by
  refine ⟨hpaved'.home.trans hpaved.home, fun k hk => ?_, fun k hk => ?_⟩
  · exact hpaved'.walked k ((onWay_of_home hpaved.home).2 hk)
  · rw [hpaved'.get? k (by rwa [onWay_of_home hpaved.home]),
      hpaved.get? k fun hka => hk (onWay_of_parent? habove hka)]

/-- Along a passable way all folders can be made, by induction on the parents of the path. -/
theorem makeFoldersFrom_of_passable {fuel : Nat} (hfuel : p.text.length < fuel) (ht : d.tree.Plain)
    (htidy : p.Tidy) (ha : acceptPath p = .ok () ∨ p.parent? = none) (h : d.Passable p) :
    (makeFoldersFrom fuel p d).1 = none ∧ Paved d p (makeFoldersFrom fuel p d).2 := by
  induction fuel generalizing p with
  | zero => omega
  | succ fuel ih =>
    unfold makeFoldersFrom
    cases habove : p.parent? with
    | none =>
      refine ⟨rfl, paved_of_walked fun k hk => ?_⟩
      obtain ⟨ms, hms, rfl⟩ := hk
      rw [Path.moves_of_parent?_none habove, List.prefix_nil] at hms
      rw [hms]
      exact h.start
    | some above =>
      have ha : acceptPath p = .ok () := by
        rcases ha with ha | hnone
        · exact ha
        · rw [habove] at hnone
          cases hnone
      dsimp only
      rcases folderOf_of_way ht ha h.short h.way with ⟨hopen, hfolder⟩ | herror
      · obtain ⟨hne, hsettle⟩ := settle_makeFolder ht htidy ha h hopen hfolder
        split
        · rename_i e he
          rw [if_neg (by rintro rfl; exact hne he)]
          exact hsettle
        · exact hsettle
      · -- the folders above are made first
        have hmake : d.makeFolder p = .error .noSuchFile := by
          unfold makeFolder
          rw [herror]
          rfl
        rw [hmake]
        simp only [if_true]
        have hlength := (Path.text_parent? habove).2
        obtain ⟨hnone, hpaved⟩ := ih (by omega) (Path.tidy_parent? habove) (accept_parent? habove ha)
          (h.parent habove)
        have hextends := (makeFoldersFrom_extends fuel above d).1
        rcases hr : makeFoldersFrom fuel above d with ⟨r, d₁⟩
        rw [hr] at hnone hpaved hextends
        dsimp only at hnone hpaved hextends
        subst hnone
        have hway : ∀ ms, ms <+: p.approach.steps →
            d₁.tree.get? (Path.walk (d₁.start p) ms) = some .folder :=
          fun _ hms => hpaved.approach habove htidy hms
        obtain ⟨-, hsettle, hpaved'⟩ := settle_makeFolder (hextends.plain ht) htidy ha
          (hpaved.passable habove h)
          (Tree.open_of_folders
            (fun s hs => short_of_moves h.short s (p.steps_approach.subset hs)) hway)
          (hway _ (List.prefix_refl _))
        exact ⟨hsettle, hpaved.trans_parent hpaved' habove⟩

theorem makeFolders_of_passable (ht : d.tree.Plain) (htidy : p.Tidy)
    (ha : acceptPath p = .ok () ∨ p.parent? = none) (h : d.Passable p) :
    (d.makeFolders p).1 = none ∧ Paved d p (d.makeFolders p).2 :=
  makeFoldersFrom_of_passable (Nat.lt_succ_self _) ht htidy ha h

/-! ### Folders that could be made -/

/-- The places on the way to a root and then through names. -/
def OnRoad (d : Disk) (root : Path) (names : List String) (k : Location) : Prop :=
  d.OnWay root k ∨ ∃ more, more <+: names ∧ k = d.place root ++ more

theorem onWay_along_iff (h : Path.Along root names p) : d.OnWay p k ↔ d.OnRoad root names k := by
  refine ⟨onWay_along h, ?_⟩
  rintro (⟨ms, hms, rfl⟩ | ⟨more, hmore, rfl⟩)
  · exact ⟨ms, h.moves ▸ hms.trans (List.prefix_append _ _), by rw [start_along h]⟩
  · refine ⟨root.moves ++ more.map .into, ?_, ?_⟩
    · rw [h.moves, List.prefix_append_right_inj]
      exact hmore.map _
    · rw [start_along h, Path.walk_append, Path.walk_into]
      rfl

/-- A road is that through its first names, or it is below them. -/
theorem OnRoad.cases {more : List String} (h : d.OnRoad root (names ++ more) k) :
    d.OnRoad root names k ∨ d.place root ++ names <+: k := by
  rcases h with h | ⟨rest, hrest, rfl⟩
  · exact .inl (.inl h)
  · rcases List.prefix_or_prefix_of_prefix hrest (List.prefix_append _ _) with hshort | hlong
    · exact .inl (.inr ⟨rest, hshort, rfl⟩)
    · exact .inr ((List.prefix_append_right_inj _).2 hlong)

theorem OnRoad.mono {more : List String} (h : d.OnRoad root names k) (hmore : names <+: more) :
    d.OnRoad root more k :=
  h.imp_right fun ⟨rest, hrest, he⟩ => ⟨rest, hrest.trans hmore, he⟩

theorem walked_iff (hp : Path.Along root names p) : d.Walked p ↔
    d.Walked root ∧ d.tree.get? (d.place p) = some .folder := by
  have hplace := place_along (d := d) hp
  constructor
  · intro h
    exact ⟨fun k hk => h k ((onWay_along_iff hp).2 (.inl hk)), h _ (onWay_place d p)⟩
  · rintro ⟨hroot, hfolder⟩ k hk
    rcases (onWay_along_iff hp).1 hk with hk | ⟨more, ⟨rest, rfl⟩, rfl⟩
    · exact hroot k hk
    · rw [hplace, ← List.append_assoc] at hfolder
      cases rest with
      | nil => rwa [List.append_nil] at hfolder
      | cons n rest => exact Tree.get?_of_append_cons hfolder

/-- The way to a root that holds something is a way through folders. -/
theorem walked_of_openRoot (ho : d.OpenRoot root) (hend : d.tree.get? (d.place root) = some .folder) :
    d.Walked root := by
  rintro k ⟨ms, hms, rfl⟩
  exact ho.folders hend hms

theorem Walked.openRoot (h : d.Walked root) (hshort : ∀ s ∈ root.moves, Tree.Short s) :
    d.OpenRoot root :=
  Tree.open_of_folders hshort fun ms hms => h _ ⟨ms, hms, rfl⟩

theorem Walked.of_extends (h : d.Walked p) (hd : Extends d d') : d'.Walked p := by
  intro k hk
  rw [onWay_of_home hd.home] at hk
  exact hd.folder k (h k hk)

/-- Folders that could be made are there, and nothing else has changed. -/
theorem makeFolders_paved (ht : d.tree.Plain) (hp : Path.Under root names p)
    (h : (d.makeFolders p).1 = none) :
    acceptPath p = .ok () ∧ (d.makeFolders p).2.OpenRoot root ∧ Paved d p (d.makeFolders p).2 := by
  obtain ⟨ha, ho, hfolder⟩ := makeFolders_ok ht hp h
  have hgrown := d.makeFolders_grown ht p
  have hroot : (d.makeFolders p).2.tree.get? ((d.makeFolders p).2.place root) = some .folder := by
    rw [place_of_home hgrown.home]
    obtain ⟨n, hn, -⟩ := hp.last
    obtain ⟨m, rest, rfl⟩ := List.exists_cons_of_ne_nil (List.ne_nil_of_mem (List.mem_of_getLast? hn))
    rw [place_along hp.toAlong] at hfolder
    exact Tree.get?_of_append_cons hfolder
  have hwalked : (d.makeFolders p).2.Walked p := by
    rw [walked_iff hp.toAlong, place_of_home hgrown.home p]
    exact ⟨walked_of_openRoot ho hroot, hfolder⟩
  refine ⟨ha, ho, hgrown.home, fun k hk => hwalked k ((onWay_of_home hgrown.home).2 hk),
    fun k hk => ?_⟩
  rcases hgrown.get? k with he | ⟨-, -, hway, -⟩
  · exact he
  · exact absurd hway hk

/-- The way along which folders could be made was passable if it began in a folder. -/
theorem makeFolders_passable (ht : d.tree.Plain) (hp : Path.Under root names p)
    (hshort : ∀ n ∈ names, n.utf8ByteSize ≤ Tree.nameLimit)
    (hstart : d.tree.get? (d.start p) = some .folder) (h : (d.makeFolders p).1 = none) :
    acceptPath p = .ok () ∧ d.Passable p ∧ Paved d p (d.makeFolders p).2 := by
  obtain ⟨ha, ho, hpaved⟩ := makeFolders_paved ht hp h
  refine ⟨ha, ⟨hstart, fun s hs => ?_, fun k hk => ?_⟩, hpaved⟩
  · rw [hp.moves] at hs
    rcases List.mem_append.1 hs with hs | hs
    · exact ho.short s hs
    · obtain ⟨n, hn, rfl⟩ := List.mem_map.1 hs
      exact hshort n hn
  · have hk' := hpaved.walked k hk
    rcases (d.makeFolders_grown ht p).get? k with he | ⟨he, -⟩
    · exact .inr (he ▸ hk')
    · exact .inl he

/-! ### Clearing -/

/-- Clearing a folder that was found ends well, wherever its way leads. -/
theorem clear_of_found (ht : d.tree.Plain) (hp : Path.Under root names p)
    (hfind : d.find false p = .ok (d.place p, .folder)) :
    (d.clear p).1 = none ∧ Cleared d (d.place p) (d.clear p).2 := by
  obtain ⟨ha, ho, -, hfolder⟩ := (find_iff ht).1 hfind
  have hc := cleared_emptied hfolder
  obtain ⟨ns, n, rfl⟩ := exists_concat_of_under hp
  have hshort : n.utf8ByteSize ≤ Tree.nameLimit := short_of_open ((open_under hp).1 ho).2 n (by simp)
  -- on the emptied disk the way may end early, and that is no failure
  have hway : ∀ k, (d.emptied (d.place p)).OnWay p k →
      (d.emptied (d.place p)).tree.get? k = none ∨
        (d.emptied (d.place p)).tree.get? k = some .folder := by
    intro k hk
    rw [onWay_of_home hc.home] at hk
    rw [get?_emptied hfolder]
    split
    · split
      · exact .inr rfl
      · exact .inl rfl
    · obtain ⟨ms, hms, rfl⟩ := onWay_iff.1 hk
      refine .inr (ho.folders ?_ hms)
      rw [Path.walk_steps]
      exact hfolder
  have hremove : (∃ d', (d.emptied (d.place p)).removeFolder p = .ok d') ∨
      (d.emptied (d.place p)).removeFolder p = .error .noSuchFile := by
    rcases folderOf_of_way (hc.plain ht) ha ho.filter.short hway with ⟨hopen, -⟩ | herror
    · refine .inl (removeFolder_of_open (hc.plain ht) hp ha hshort hopen ?_ ?_)
      · rw [place_of_home hc.home]
        exact emptied_itself hfolder
      · rw [place_of_home hc.home]
        exact children_emptied hfolder
    · refine .inr ?_
      unfold removeFolder
      rw [herror]
      rfl
  have hnone : (d.clear p).1 = none := by
    rcases hremove with ⟨d', hd'⟩ | herror
    · rw [clear_of_removed hfind hd']
    · rw [clear_of_left hfind herror]
      rfl
  rcases clear_cases ht p with ⟨-, hne⟩ | ⟨-, hcleared⟩
  · exact absurd hnone hne
  · exact ⟨hnone, hcleared⟩

/-- Where the way to the root is still open after a folder was cleared, the folder is gone. -/
theorem clear_gone (ht : d.tree.Plain) (hp : Path.Under root names p)
    (hfind : d.find false p = .ok (d.place p, .folder)) (ho : (d.clear p).2.OpenRoot root) :
    (d.clear p).2.tree.get? (d.place p) = none := by
  obtain ⟨-, -, -, hfolder⟩ := (find_iff ht).1 hfind
  have hc := cleared_emptied hfolder
  cases hr : (d.emptied (d.place p)).removeFolder p with
  | error e =>
    -- then it was only emptied, and could have been removed
    rw [clear_of_left hfind hr] at ho
    obtain ⟨d', hd'⟩ := removeFolder_of_emptied ht hp hfind ho
    rw [hr] at hd'
    cases hd'
  | ok d' =>
    rw [clear_of_removed hfind hr]
    change d'.tree.get? _ = none
    rw [(removeFolder_place (hc.plain ht) hr).2, place_of_home hc.home,
      if_pos (List.prefix_refl _)]

end Disk
end IconModules
