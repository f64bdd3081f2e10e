import IconModules.Proofs.Generation.Again
import IconModules.Proofs.Generation.Replays

/-! # Parking, exactly

What parking the modules written by hand does to everything that stands among the sources, files and folders.

* `park_exact`: parking that was followed by more changed nothing outside the sources, and the way to the root
  leads through folders still.
* `park_again`: modules that are home again are parked again, onto nothing or onto empty folders that are left
  where they were before (`Awaited`). -/

namespace IconModules

open Disk (Apart Moved Paved Passable Usable Walked)
open IconModules.Action (Quiet)

/-! ### Everything under some names -/

/-- What was under some names in the folder `a` is under the same names in `b` afterwards, and nothing else has
changed. -/
structure Disk.Switched (a b : Location) (names : List String) (d d' : Disk) : Prop where
  home : d'.home = d.home
  into : ∀ m ∈ names, ∀ q, d'.tree.get? (b ++ m :: q) = d.tree.get? (a ++ m :: q)
  out : ∀ m ∈ names, ∀ q, d'.tree.get? (a ++ m :: q) = none
  rest : ∀ k, (∀ m ∈ names, ¬ a ++ [m] <+: k ∧ ¬ b ++ [m] <+: k) → d'.tree.get? k = d.tree.get? k

namespace Disk.Switched

variable {d d₁ d' : Disk} {a b : Location} {m : String} {names : List String}

theorem nil (a b : Location) (d : Disk) : Switched a b [] d d :=
  ⟨rfl, by simp, by simp, fun _ _ => rfl⟩

theorem plain (ht : d.tree.Plain) (h : Switched a b names d d') : d'.tree.Plain := by
  intro k target
  by_cases hb : ∃ m ∈ names, b ++ [m] <+: k
  · obtain ⟨m, hm, q, rfl⟩ := hb
    rw [List.append_assoc, List.singleton_append, h.into m hm]
    exact ht _ _
  · by_cases ha : ∃ m ∈ names, a ++ [m] <+: k
    · obtain ⟨m, hm, q, rfl⟩ := ha
      rw [List.append_assoc, List.singleton_append, h.out m hm]
      simp
    · rw [h.rest k fun m hm => ⟨fun hp => ha ⟨m, hm, hp⟩, fun hp => hb ⟨m, hm, hp⟩⟩]
      exact ht _ _

/-- One more name can go first, if its places are not among those of the others. -/
theorem cons (h : Moved d (a ++ [m]) (b ++ [m]) d₁) (h' : Switched a b names d₁ d') (hm : m ∉ names)
    (hab : ∀ x ∈ m :: names, ∀ y ∈ m :: names, Apart (a ++ [x]) (b ++ [y])) :
    Switched a b (m :: names) d d' := by
  have hself : m ∈ m :: names := List.mem_cons_self
  have hfirst : ∀ k, ¬ a ++ [m] <+: k → ¬ b ++ [m] <+: k → d₁.tree.get? k = d.tree.get? k := by
    intro k ha hb
    rw [h.get?, if_neg hb, if_neg ha]
  have hinto : ∀ q, d₁.tree.get? (b ++ m :: q) = d.tree.get? (a ++ m :: q) := by
    intro q
    simpa using h.get?_into q
  have hout : ∀ q, d₁.tree.get? (a ++ m :: q) = none := by
    intro q
    have hget := h.get? ((a ++ [m]) ++ q)
    rw [if_neg ((hab m hself m hself).symm.elsewhere q), if_pos (List.prefix_append _ _)] at hget
    simpa using hget
  -- the places of the others are left alone first, and those of `m` later
  have hothers : ∀ x ∈ names, ∀ q, d₁.tree.get? (a ++ x :: q) = d.tree.get? (a ++ x :: q) := by
    intro x hx q
    have hne : m ≠ x := fun e => hm (e ▸ hx)
    refine hfirst _ (Disk.not_prefix_of_ne hne) ?_
    simpa using (hab x (List.mem_cons_of_mem m hx) m hself).symm.elsewhere q
  have hlater : ∀ q, d'.tree.get? (a ++ m :: q) = d₁.tree.get? (a ++ m :: q) ∧
      d'.tree.get? (b ++ m :: q) = d₁.tree.get? (b ++ m :: q) := by
    intro q
    refine ⟨h'.rest _ fun x hx => ?_, h'.rest _ fun x hx => ?_⟩
    · have hne : x ≠ m := fun e => hm (e ▸ hx)
      refine ⟨Disk.not_prefix_of_ne hne, ?_⟩
      simpa using (hab m hself x (List.mem_cons_of_mem m hx)).symm.elsewhere q
    · have hne : x ≠ m := fun e => hm (e ▸ hx)
      refine ⟨?_, Disk.not_prefix_of_ne hne⟩
      simpa using (hab x (List.mem_cons_of_mem m hx) m hself).elsewhere q
  refine ⟨h'.home.trans h.home, fun x hx q => ?_, fun x hx q => ?_, fun k hk => ?_⟩
  · rcases List.mem_cons.1 hx with rfl | hx
    · rw [(hlater q).2, hinto]
    · rw [h'.into x hx, hothers x hx]
  · rcases List.mem_cons.1 hx with rfl | hx
    · rw [(hlater q).1, hout]
    · exact h'.out x hx q
  · rw [h'.rest k fun x hx => hk x (List.mem_cons_of_mem m hx),
      hfirst k (hk m hself).1 (hk m hself).2]

end Disk.Switched

namespace Installation

variable {s : Settings} {m : String} {ms names : List String} {site after : Site} {d d' : Disk}
  {k : Location} {x x' : Site} {p above root old new : Path} {n n' : String} {ns ns' : List String}
  {e : Entry}

/-- Moving something to where the folder for it is. -/
theorem moveTo_of_walked (ht : x.disk.tree.Plain) (hold : Path.Under root (ns ++ [n]) old)
    (hnew : Path.Under root (ns' ++ [n']) new) (habove : new.parent? = some above)
    (hunder : Path.Under root ns' above) (ha : Disk.acceptPath above = .ok ())
    (hw : x.disk.Walked above) (hu : x.disk.Usable root (ns ++ [n]) old)
    (hu' : x.disk.Usable root (ns' ++ [n']) new)
    (hapart : Apart (x.disk.place old) (x.disk.place new))
    (he : x.disk.tree.get? (x.disk.place old) = some e)
    (hobstacle : Disk.obstacle? x.disk.tree (x.disk.place new) e = none) :
    ∃ x', (Action.moveTo old new).perform x = (.ok (), x') ∧
      Moved x.disk (x.disk.place old) (x.disk.place new) x'.disk ∧
      x'.journal = x.journal ++ [.noted (.moving old new)] := by
  let noted : Site := { x with journal := x.journal ++ [.noted (.moving old new)] }
  have hshort : ∀ s ∈ above.moves, Tree.Short s := by
    intro s hs
    rw [hunder.moves] at hs
    rcases List.mem_append.1 hs with hs | hs
    · exact hu.way.short s hs
    · obtain ⟨n, hn, rfl⟩ := List.mem_map.1 hs
      exact hu'.short n (List.mem_append_left _ hn)
  obtain ⟨made, hmake, hpaved, hjournal⟩ := Action.makeParent_of_passable (x := noted) ht habove ha
    (hw.passable hshort)
  have hsame : made.disk = x.disk := Disk.ext_get? hpaved.home (hpaved.get?_of_walked hw)
  have hfolder := ((Disk.walked_iff hunder.toAlong).1 hw).2
  rw [Disk.place_along hunder.toAlong] at hfolder
  obtain ⟨d', hmove⟩ := (Disk.move_usable_iff ht hold hnew (by simpa using hapart.elsewhere [])
    (by simpa using hapart.symm.elsewhere [])).2 ⟨hu, hu', hfolder, e, he, hobstacle⟩
  refine ⟨{ made with disk := d' }, ?_, (Disk.move_place ht hmove).1, hjournal⟩
  change (Action.note _ >>= fun _ => Action.makeParent new >>= fun _ => _).perform x = _
  rw [Action.note, Action.perform_record_bind]
  refine Action.perform_bind_of_ok hmake ?_
  rw [Action.perform_change, hsame, hmove]

/-! ### Parking once -/

/-- The place where a module is parked and its home can be used, and no way to the root leads through what the
module would replace. -/
structure Portable (s : Settings) (d : Disk) (parked home : Path) : Prop where
  accepted : Disk.acceptPath parked = .ok ()
  accepted_home : Disk.acceptPath home = .ok ()
  above : ∀ above, parked.parent? = some above → Disk.acceptPath above = .ok ()
  vacant : ∀ n r, ¬ d.OnWay s.root (d.place parked ++ n :: r)

theorem Portable.of_home {parked home : Path} (h : Portable s d' parked home) (hd : d'.home = d.home) :
    Portable s d parked home := by
  refine ⟨h.accepted, h.accepted_home, h.above, fun n r => ?_⟩
  rw [← Disk.place_of_home hd, ← Disk.onWay_of_home hd]
  exact h.vacant n r

/-- The way of a path among the sources leads to the root and from there through its names. -/
theorem onWay_source_iff (hp : Path.Along s.root ("src" :: names) p) : d.OnWay p k ↔
    d.OnWay s.root k ∨ ∃ more, more <+: names ∧ k = d.place s.sourceFolder ++ more := by
  have hbelow : ∀ more, d.place s.root ++ "src" :: more = d.place s.sourceFolder ++ more := by
    intro more
    rw [Disk.place_along s.sourceFolder_under.toAlong, List.append_assoc]
    rfl
  rw [Disk.onWay_along_iff hp]
  constructor
  · rintro (hroot | ⟨more, hmore, rfl⟩)
    · exact .inl hroot
    · cases more with
      | nil =>
        rw [List.append_nil]
        exact .inl (Disk.onWay_place _ _)
      | cons n more =>
        obtain ⟨rfl, hmore'⟩ := List.cons_prefix_cons.1 hmore
        exact .inr ⟨more, hmore', hbelow more⟩
  · rintro (hroot | ⟨more, hmore, rfl⟩)
    · exact .inl hroot
    · exact .inr ⟨"src" :: more, List.cons_prefix_cons.2 ⟨rfl, hmore⟩, (hbelow more).symm⟩

/-- Making folders among the sources changes nothing else where the root can be reached. -/
theorem get?_of_paved_source (hw : d.Walked s.root) (hp : Path.Along s.root ("src" :: names) p)
    (h : Paved d p d') (hk : ∀ more, more <+: names → k ≠ d.place s.sourceFolder ++ more) :
    d'.tree.get? k = d.tree.get? k := by
  by_cases hway : d.OnWay p k
  · rcases (onWay_source_iff hp).1 hway with hroot | ⟨more, hmore, he⟩
    · rw [h.walked k hway, hw k hroot]
    · exact absurd he (hk more hmore)
  · exact h.get? k hway

section

variable (hs : s.Standard)
include hs

/-- Parking one module leaves everything outside the sources alone. -/
theorem park_one_exact {u : Unit} (hm : m ∈ s.manualModules) (hg : Good site.disk)
    (hw : site.disk.Walked s.root)
    (h : (Action.moveTo (s.manualHome m) (s.sourceFolder.under m)).perform site = (.ok u, after)) :
    Portable s site.disk (s.sourceFolder.under m) (s.manualHome m) ∧
      after.disk.tree.get? (after.disk.place s.root) = some .folder ∧
      ∀ k, ¬ site.disk.place s.sourceFolder <+: k → after.disk.tree.get? k = site.disk.tree.get? k := by
  have hold : Path.Under s.root (["src", "Material", "Icons"] ++ [m]) (s.manualHome m) :=
    hs.manualHome_under hm
  have hnew : Path.Under s.root (["src"] ++ [m]) (s.sourceFolder.under m) := parked_under hs hm
  have hapart : Apart (site.disk.place (s.manualHome m)) (site.disk.place (s.sourceFolder.under m)) := by
    rw [place_manualHome hs _ hm, place_parked hs _ hm]
    exact apart_manual hs hm
  obtain ⟨above, d, habove, hunder, ha, -, hpaved, hmoved, hu, hu', e, he, hobstacle⟩ :=
    moveTo_exact hg.plain hold hnew (by simp) hw.start hapart h
  have hwalked := ((Disk.walked_iff hunder.toAlong).1 hpaved.walked_all).1
  rw [place_parked hs _ hm] at hmoved hobstacle
  rw [place_manualHome hs _ hm] at hmoved
  refine ⟨⟨hu'.accepted, hu.accepted, fun above' habove' => ?_, fun n r hway => ?_⟩, ?_, fun k hk => ?_⟩
  · rw [habove] at habove'
    exact Option.some.inj habove' ▸ ha
  · rw [place_parked hs _ hm, ← Disk.onWay_of_home hpaved.home] at hway
    have hthere := hwalked _ hway
    rw [(Disk.empty_of_obstacle? hobstacle (Tree.get?_of_append_cons hthere)).2] at hthere
    cases hthere
  · -- what was parked stands in the sources, so they and the root are folders
    have hthere : after.disk.tree.get? (site.disk.place s.sourceFolder ++ [m]) ≠ none := by
      rw [hmoved.get?, if_pos (List.prefix_refl _), List.drop_length, List.append_nil]
      exact hmoved.source
    obtain ⟨e, he⟩ := Option.ne_none_iff_exists'.1 hthere
    rw [Disk.place_along s.sourceFolder_under.toAlong, List.append_assoc] at he
    rw [Disk.place_of_home (hmoved.home.trans hpaved.home)]
    exact Tree.get?_of_append_cons he
  · have hnot : ∀ l, ¬ site.disk.place s.sourceFolder ++ l <+: k :=
      fun l hp => hk ((List.prefix_append _ _).trans hp)
    rw [hmoved.get?, if_neg (hnot _), if_neg (by unfold manualPlace; rw [List.append_assoc]; exact hnot _),
      @get?_of_paved_source s [] _ _ _ _ hw hunder.toAlong hpaved]
    intro more hmore he
    exact hk (he ▸ List.prefix_append _ _)

/-- Where the root can be reached after parking, its way leads through folders, and nothing outside the sources
has changed. -/
theorem park_exact (hsub : ∀ m ∈ ms, m ∈ s.manualModules) (hnd : ms.Nodup) {site after : Site}
    (hg : Good site.disk) (hw : site.disk.Walked s.root) {parked : List (Path × Path)}
    (h : (park s ms).perform site = (.ok parked, after)) (ho : after.disk.OpenRoot s.root) :
    after.disk.Walked s.root ∧ (∀ y ∈ parked, Portable s site.disk y.1 y.2) ∧
      ∀ k, ¬ site.disk.place s.sourceFolder <+: k →
        after.disk.tree.get? k = site.disk.tree.get? k := by
  induction ms generalizing site parked with
  | nil =>
    obtain ⟨rfl, rfl⟩ := Action.perform_pure_ok h
    exact ⟨hw, by simp, fun _ _ => rfl⟩
  | cons m ms ih =>
    have hm := hsub m List.mem_cons_self
    have hsub' : ∀ m ∈ ms, m ∈ s.manualModules := fun x hx => hsub x (List.mem_cons_of_mem _ hx)
    have hnd' := (List.nodup_cons.1 hnd).2
    rcases park_cons_ok h with ⟨-, u, mid, rest, hmove, hrest, rfl⟩ | ⟨-, hrest⟩
    · obtain ⟨-, -, -, hhome, hgmid⟩ := moveTo_ok hg hmove
      obtain ⟨hportable, hroot, hsame⟩ := park_one_exact hs hm hg hw hmove
      -- a root that cannot be reached now is not reached by parking more
      have hopen : mid.disk.OpenRoot s.root := by
        obtain ⟨-, -, -, -, -, -, hclosed, -⟩ := park_ok hs hsub' hnd' hgmid hrest
        apply Classical.byContradiction
        intro hno
        exact hno (hclosed hno ▸ ho)
      obtain ⟨hw', hportable', hsame'⟩ :=
        ih hsub' hnd' hgmid (Disk.walked_of_openRoot hopen hroot) hrest
      refine ⟨hw', List.forall_mem_cons.2 ⟨hportable, fun y hy => (hportable' y hy).of_home hhome⟩,
        fun k hk => ?_⟩
      rw [hsame' k (by rwa [Disk.place_of_home hhome]), hsame k hk]
    · obtain ⟨hw', hportable, hsame⟩ := ih hsub' hnd' (by exact hg) (by exact hw) hrest
      exact ⟨hw', hportable, hsame⟩

/-! ### Parking again -/

/-- A module that is home, and nothing but an empty folder stands where it is parked. -/
structure Awaited (s : Settings) (d : Disk) (m : String) : Prop where
  portable : Portable s d (s.sourceFolder.under m) (s.manualHome m)
  home : d.tree.get? (manualPlace d s ++ [m]) ≠ none
  top : d.tree.get? (d.place s.sourceFolder ++ [m]) = none ∨
    d.tree.get? (manualPlace d s ++ [m]) = some .folder ∧
      d.tree.get? (d.place s.sourceFolder ++ [m]) = some .folder ∧
      ∀ n, d.tree.get? (d.place s.sourceFolder ++ [m, n]) = none

omit hs in
theorem Awaited.of_same (h : Awaited s d m) (hhome : d'.home = d.home)
    (hmanual : d'.tree.get? (manualPlace d s ++ [m]) = d.tree.get? (manualPlace d s ++ [m]))
    (htop : ∀ q, d'.tree.get? (d.place s.sourceFolder ++ m :: q) =
      d.tree.get? (d.place s.sourceFolder ++ m :: q)) : Awaited s d' m := by
  have hplace := manualPlace_of_home hhome s
  refine ⟨h.portable.of_home hhome.symm, ?_, ?_⟩
  · rw [hplace, hmanual]
    exact h.home
  · simp only [hplace, Disk.place_of_home hhome, hmanual, htop]
    exact h.top

/-- It can be parked. -/
theorem park_one_again {again : Site} (hm : m ∈ s.manualModules) (ht : again.disk.tree.Plain)
    (hw : again.disk.Walked s.root) (ho : again.disk.OpenRoot s.root)
    (h : Awaited s again.disk m) :
    again.disk.holds (s.manualHome m) = true ∧ ∃ later : Site,
      (Action.moveTo (s.manualHome m) (s.sourceFolder.under m)).perform again = (.ok (), later) ∧
      Moved again.disk (manualPlace again.disk s ++ [m]) (again.disk.place s.sourceFolder ++ [m])
        later.disk ∧ Quiet again.journal later.journal := by
  have hold : Path.Under s.root (["src", "Material", "Icons"] ++ [m]) (s.manualHome m) :=
    hs.manualHome_under hm
  have hnew : Path.Under s.root (["src"] ++ [m]) (s.sourceFolder.under m) := parked_under hs hm
  have hplace := place_manualHome hs again.disk hm
  have hplace' := place_parked hs again.disk hm
  have hlimit := (hs.manual m hm).2.2
  have hu : again.disk.Usable s.root (["src", "Material", "Icons"] ++ [m]) (s.manualHome m) :=
    ⟨h.portable.accepted_home, ho, by simpa using ⟨by decide, by decide, by decide, hlimit⟩⟩
  have hu' : again.disk.Usable s.root (["src"] ++ [m]) (s.sourceFolder.under m) :=
    ⟨h.portable.accepted, ho, by simpa using ⟨by decide, hlimit⟩⟩
  obtain ⟨e, he⟩ := Option.ne_none_iff_exists'.1 h.home
  have hsource : again.disk.tree.get? (again.disk.place s.sourceFolder) = some .folder := by
    have he' : again.disk.tree.get? (again.disk.place s.sourceFolder ++ "Material" :: ["Icons", m]) =
        some e := by
      simpa [manualPlace] using he
    exact Tree.get?_of_append_cons he'
  obtain ⟨above, habove⟩ := hnew.exists_parent
  have hunder := hnew.under_parent? (by simp) habove
  have habove' : again.disk.place above = again.disk.place s.sourceFolder := by
    rw [Disk.place_along hunder.toAlong, Disk.place_along s.sourceFolder_under.toAlong]
  have hobstacle : Disk.obstacle? again.disk.tree (again.disk.place s.sourceFolder ++ [m]) e = none := by
    refine Disk.obstacle?_of_empty ?_
    rcases h.top with habsent | ⟨hhome, htop, hempty⟩
    · exact .inl habsent
    · exact .inr ⟨Option.some.inj (he.symm.trans hhome), htop, fun n => by simpa using hempty n⟩
  have hmove := moveTo_of_walked ht hold hnew habove hunder (h.portable.above above habove)
    ((Disk.walked_iff hunder.toAlong).2 ⟨hw, by rw [habove']; exact hsource⟩) hu hu'
    (by rw [hplace, hplace']; exact apart_manual hs hm) (by rw [hplace]; exact he)
    (by rw [hplace']; exact hobstacle)
  rw [hplace, hplace'] at hmove
  obtain ⟨later, hperform, hmoved, hjournal⟩ := hmove
  refine ⟨(Disk.holds_usable_iff ht hold).2 ⟨hu, by rw [hplace]; exact h.home⟩, later, hperform, hmoved, ?_⟩
  rw [hjournal]
  exact .event rfl _

/-- Parking one module again leaves the way to the root open and the others where they were. -/
theorem walked_of_parked (hm : m ∈ s.manualModules) (hw : d.Walked s.root) (h : Awaited s d m)
    (hscaffold : ∀ q, ¬ d.OnWay s.root (d.place s.sourceFolder ++ "Material" :: q))
    (hmoved : Moved d (manualPlace d s ++ [m]) (d.place s.sourceFolder ++ [m]) d') :
    d'.Walked s.root := by
  intro k hk
  rw [Disk.onWay_of_home hmoved.home] at hk
  have hthere := hw k hk
  by_cases htop : d.place s.sourceFolder ++ [m] <+: k
  · obtain ⟨r, rfl⟩ := htop
    cases r with
    | nil =>
      rw [List.append_nil] at hthere
      have hhome := (h.top.resolve_left (by simp [hthere])).1
      rw [hmoved.get?_into, List.append_nil, hhome]
    | cons n r =>
      have hvacant := h.portable.vacant n r
      rw [place_parked hs _ hm] at hvacant
      exact absurd hk hvacant
  · rw [hmoved.get?, if_neg htop, if_neg, hthere]
    rintro ⟨r, rfl⟩
    refine hscaffold ("Icons" :: m :: r) ?_
    simpa [manualPlace] using hk

omit hs in
/-- What stands under one name when another module was moved. -/
theorem get?_of_moved_other {y : String} (hy : y ≠ m) (hne : y ≠ "Material") (hne' : m ≠ "Material")
    (hmoved : Moved d (manualPlace d s ++ [m]) (d.place s.sourceFolder ++ [m]) d') (r : Location) :
    d'.tree.get? (manualPlace d s ++ y :: r) = d.tree.get? (manualPlace d s ++ y :: r) ∧
      d'.tree.get? (d.place s.sourceFolder ++ y :: r) = d.tree.get? (d.place s.sourceFolder ++ y :: r) := by
  refine ⟨?_, ?_⟩ <;> rw [hmoved.get?, if_neg, if_neg] <;> simp [manualPlace, hy.symm, hne.symm, hne']

omit hs in
/-- A module that is there is moved before the others are parked. -/
theorem park_of_held {site mid after : Site} {parked : List (Path × Path)}
    (hholds : site.disk.holds (s.manualHome m) = true)
    (hmove : (Action.moveTo (s.manualHome m) (s.sourceFolder.under m)).perform site = (.ok (), mid))
    (hrest : (park s ms).perform mid = (.ok parked, after)) :
    (park s (m :: ms)).perform site = (.ok (parking s m :: parked), after) := by
  unfold park
  change (Action.holds (s.manualHome m) >>= fun v => _).perform site = _
  rw [Action.perform_holds_bind, hholds]
  exact Action.perform_bind_of_ok hmove (Action.perform_bind_of_ok hrest rfl)

omit hs in
/-- A module that is missing is noted before the others are parked. -/
theorem park_of_missing {site after : Site} {parked : List (Path × Path)}
    (hholds : site.disk.holds (s.manualHome m) = false)
    (hrest : (park s ms).perform
      ⟨site.disk, site.journal ++ [.noted (.manualModuleMissing (s.manualHome m))]⟩ = (.ok parked, after)) :
    (park s (m :: ms)).perform site = (.ok parked, after) := by
  unfold park
  change (Action.holds (s.manualHome m) >>= fun v => _).perform site = _
  rw [Action.perform_holds_bind, hholds]
  exact hrest

/-- Modules that are home are parked again, one after the other. -/
theorem park_again (hsub : ∀ m ∈ ms, m ∈ s.manualModules) (hnd : ms.Nodup) (hnames : names.Sublist ms)
    (again : Site) (ht : again.disk.tree.Plain) (hw : again.disk.Walked s.root)
    (hshort : ∀ x ∈ s.root.moves, Tree.Short x)
    (hscaffold : ∀ q, ¬ again.disk.OnWay s.root (again.disk.place s.sourceFolder ++ "Material" :: q))
    (hawaited : ∀ m ∈ names, Awaited s again.disk m)
    (hmissing : ∀ m ∈ ms, m ∉ names →
      again.disk.tree.get? (manualPlace again.disk s ++ [m]) = none) :
    ∃ later : Site, (park s ms).perform again = (.ok (names.map (parking s)), later) ∧
      Disk.Switched (manualPlace again.disk s) (again.disk.place s.sourceFolder) names again.disk
        later.disk ∧ later.disk.Walked s.root ∧ Quiet again.journal later.journal := by
  induction ms generalizing names again with
  | nil =>
    obtain rfl := List.sublist_nil.1 hnames
    exact ⟨again, rfl, .nil _ _ _, hw, .refl _⟩
  | cons m ms ih =>
    have hm := hsub m List.mem_cons_self
    have hsub' : ∀ m ∈ ms, m ∈ s.manualModules := fun x hx => hsub x (List.mem_cons_of_mem _ hx)
    obtain ⟨hnot, hnd'⟩ := List.nodup_cons.1 hnd
    by_cases hin : m ∈ names
    · -- the module is home and is moved
      obtain ⟨names, rfl, hnames'⟩ : ∃ rest, names = m :: rest ∧ rest.Sublist ms := by
        cases hnames with
        | cons _ h => exact absurd (h.subset hin) hnot
        | cons_cons _ h => exact ⟨_, rfl, h⟩
      have hhere := hawaited m List.mem_cons_self
      obtain ⟨hholds, mid, hmove, hmoved, hquiet⟩ :=
        park_one_again hs hm ht hw (hw.openRoot hshort) hhere
      have hplace : ∀ p, mid.disk.place p = again.disk.place p := Disk.place_of_home hmoved.home
      have hmanual := manualPlace_of_home hmoved.home s
      have hother : ∀ y ∈ ms, ∀ r,
          mid.disk.tree.get? (manualPlace again.disk s ++ y :: r) =
            again.disk.tree.get? (manualPlace again.disk s ++ y :: r) ∧
          mid.disk.tree.get? (again.disk.place s.sourceFolder ++ y :: r) =
            again.disk.tree.get? (again.disk.place s.sourceFolder ++ y :: r) := by
        intro y hy r
        have hne : y ≠ m := fun e => hnot (e ▸ hy)
        exact get?_of_moved_other hne (manual_ne_scaffold hs (hsub' y hy)) (manual_ne_scaffold hs hm)
          hmoved r
      have hscaffold' : ∀ q,
          ¬ mid.disk.OnWay s.root (mid.disk.place s.sourceFolder ++ "Material" :: q) := by
        intro q
        rw [hplace, Disk.onWay_of_home hmoved.home]
        exact hscaffold q
      obtain ⟨later, hperform, hswitched, hwalked, hquiet'⟩ := ih hsub' hnd' hnames' mid
        (hmoved.plain ht) (walked_of_parked hs hm hw hhere hscaffold hmoved) hscaffold'
        (fun y hy => (hawaited y (List.mem_cons_of_mem _ hy)).of_same hmoved.home
          (hother y (hnames'.subset hy) []).1 fun q => (hother y (hnames'.subset hy) q).2)
        fun y hy hy' => by
          have hnone := hmissing y (List.mem_cons_of_mem _ hy) fun h =>
            (List.mem_cons.1 h).elim (fun e => hnot (e ▸ hy)) hy'
          rw [hmanual, (hother y hy []).1, hnone]
      rw [hmanual, hplace] at hswitched
      exact ⟨later, park_of_held hholds hmove hperform,
        .cons hmoved hswitched (fun h => hnot (hnames'.subset h)) fun x _ y hy =>
          apart_manual hs (hsub y (hnames.subset hy)),
        hwalked, hquiet.trans hquiet'⟩
    · -- the module is missing
      have hnames' : names.Sublist ms := by
        cases hnames with
        | cons _ h => exact h
        | cons_cons _ h => exact absurd List.mem_cons_self hin
      have hholds : again.disk.holds (s.manualHome m) = false := by
        rw [Bool.eq_false_iff]
        intro h
        refine ((Disk.holds_usable_iff ht (hs.manualHome_under hm)).1 h).2 ?_
        rw [place_manualHome hs _ hm]
        exact hmissing m List.mem_cons_self hin
      obtain ⟨later, hperform, hswitched, hwalked, hquiet⟩ := ih hsub' hnd' hnames'
        ⟨again.disk, again.journal ++ [.noted (.manualModuleMissing (s.manualHome m))]⟩
        ht hw hscaffold hawaited fun y hy hy' => hmissing y (List.mem_cons_of_mem _ hy) hy'
      exact ⟨later, park_of_missing hholds hperform, hswitched, hwalked,
        (Action.Quiet.event rfl _).trans hquiet⟩

end

end Installation
end IconModules
