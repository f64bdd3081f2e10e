import IconModules.Proofs.Generation.Installed
import IconModules.Proofs.Generation.Parking

/-! # Moving the modules, exactly and again

`Moving s b x` relates the disk `b` on which the assembled modules begin to be moved to any disk `x` while they
are. Where the files in the output are the ones that went to their places on `m`, moving them on a disk that
looks like `m` there already brings them to the same places again (`replays_moveAll`). -/

namespace IconModules.Installation

open Disk (Ahead Apart Moved Paved Passable Usable Walked)
open IconModules.Action (Quiet Replays)

variable {s : Settings} {site after : Site} {b m x x' : Disk} {k : Location} {names : List String}
  {name : String} {old new : Path} {c : Octets} {u : Unit} {n : Nat} {Z : Location → Prop}

/-! ### While files are moved -/

/-- The disk `b`, with some files of the output moved to the sources. -/
structure Moving (s : Settings) (b x : Disk) : Prop where
  good : Good x
  home : x.home = b.home
  root : x.Walked s.root
  out : ∀ q, x.tree.get? (b.place s.outFolder ++ q) = b.tree.get? (b.place s.outFolder ++ q) ∨
    b.fileAt (b.place s.outFolder ++ q) ≠ none ∧ x.tree.get? (b.place s.outFolder ++ q) = none
  /-- What is new among the sources is a file of the output or leads to one. -/
  source : ∀ q, x.tree.get? (b.place s.sourceFolder ++ q) ≠ none →
    b.tree.get? (b.place s.sourceFolder ++ q) ≠ none ∨
      ∃ r, b.fileAt (b.place s.outFolder ++ (q ++ r)) ≠ none
  rest : ∀ k, ¬ b.place s.sourceFolder <+: k → ¬ b.place s.outFolder <+: k →
    x.tree.get? k = b.tree.get? k

theorem Moving.refl (hg : Good b) (hw : b.Walked s.root) : Moving s b b :=
  ⟨hg, rfl, hw, fun _ => .inl rfl, fun _ h => .inl h, fun _ _ _ => rfl⟩

theorem place_moved_from (hold : Path.Along s.root (["gen", "tmp", "out"] ++ names) old) (d : Disk)
    (hn : IsName name) :
    d.place (old.under name) = d.place s.outFolder ++ (names ++ [name]) := by
  rw [Disk.place_along (hold.under hn).toAlong, Disk.place_along s.outFolder_under.toAlong]
  simp

theorem place_moved_to (hnew : Path.Along s.root (["src"] ++ names) new) (d : Disk)
    (hn : IsName name) :
    d.place (new.under name) = d.place s.sourceFolder ++ (names ++ [name]) := by
  rw [Disk.place_along (hnew.under hn).toAlong, Disk.place_along s.sourceFolder_under.toAlong]
  simp

/-- How the file `c` of the output is moved on the disk `x`: the folders for it are made, which gives the disk
`d`, and it is moved there. -/
structure Carried (s : Settings) (b : Disk) (names : List String) (name : String) (c : Octets)
    (x d x' : Disk) : Prop where
  root : d.Walked s.root
  /-- Outside the sources no folder is made, and among them only those that lead to the file. -/
  made : ∀ k, (∀ more, more <+: names → k ≠ b.place s.sourceFolder ++ more) →
    d.tree.get? k = x.tree.get? k
  file : d.tree.get? (b.place s.outFolder ++ (names ++ [name])) = some (.file c)
  moved : Moved d (b.place s.outFolder ++ (names ++ [name])) (b.place s.sourceFolder ++ (names ++ [name])) x'

/-- A move of a file of the output to the sources carries it there. -/
theorem carried_moveTo (hold : Path.Along s.root (["gen", "tmp", "out"] ++ names) old)
    (hnew : Path.Along s.root (["src"] ++ names) new) (hn : IsName name)
    (hfile : b.fileAt (b.place s.outFolder ++ (names ++ [name])) = some c) (h : Moving s b site.disk)
    (hrun : (Action.moveTo (old.under name) (new.under name)).perform site = (.ok u, after)) :
    ∃ d, Carried s b names name c site.disk d after.disk := by
  have hplace : ∀ p, site.disk.place p = b.place p := Disk.place_of_home h.home
  have hfrom := place_moved_from hold site.disk hn
  have hto := place_moved_to hnew site.disk hn
  have hab := apart_out b s
  rw [hplace s.outFolder] at hfrom
  rw [hplace s.sourceFolder] at hto
  have hapart : Apart (site.disk.place (old.under name)) (site.disk.place (new.under name)) := by
    rw [hfrom, hto]
    exact hab.append _ _
  obtain ⟨above, d, habove, hunder, -, -, hpaved, hmoved, -, -, e, he, -⟩ :=
    moveTo_exact h.good.plain (hold.under hn) (hnew.under hn) (by simp) h.root.start hapart hrun
  rw [hfrom, hto] at hmoved
  rw [hfrom] at he
  have hmade : ∀ k, (∀ more, more <+: names → k ≠ b.place s.sourceFolder ++ more) →
      d.tree.get? k = site.disk.tree.get? k := by
    intro k hk
    refine get?_of_paved_source h.root hunder.toAlong hpaved ?_
    rw [hplace]
    exact hk
  have hsame : d.tree.get? (b.place s.outFolder ++ (names ++ [name])) =
      site.disk.tree.get? (b.place s.outFolder ++ (names ++ [name])) :=
    hmade _ fun more _ he => hab _ more he
  refine ⟨d, ((Disk.walked_iff hunder.toAlong).1 hpaved.walked_all).1, hmade, ?_, hmoved⟩
  rw [hsame] at he ⊢
  rcases h.out (names ++ [name]) with hthere | ⟨-, hnone⟩
  · rw [hthere]
    exact Disk.fileAt_eq_some.1 hfile
  · rw [hnone] at he
    cases he

section

variable {d : Disk} (hc : Carried s b names name c x d x')
include hc

theorem Carried.get?_out (q : Location) :
    d.tree.get? (b.place s.outFolder ++ q) = x.tree.get? (b.place s.outFolder ++ q) :=
  hc.made _ fun more _ he => apart_out b s q more he

theorem Carried.fileAt : x.fileAt (b.place s.outFolder ++ (names ++ [name])) = some c := by
  rw [Disk.fileAt_eq_some, ← hc.get?_out]
  exact hc.file

/-- The way to the root leads through folders still: no file was moved from it. -/
theorem Carried.walked : x'.Walked s.root := by
  intro k hk
  rw [Disk.onWay_of_home hc.moved.home] at hk
  exact hc.moved.folders hc.file k (hc.root k hk)

variable (h : Moving s b x)
include h

/-- The file is missing in the output, and nothing else. -/
theorem Carried.out (hfile : b.fileAt (b.place s.outFolder ++ (names ++ [name])) = some c) (q : Location) :
    x'.tree.get? (b.place s.outFolder ++ q) = b.tree.get? (b.place s.outFolder ++ q) ∨
      b.fileAt (b.place s.outFolder ++ q) ≠ none ∧ x'.tree.get? (b.place s.outFolder ++ q) = none := by
  rw [hc.moved.get?,
    if_neg (by simpa using ((apart_out b s).append [] (names ++ [name])).symm.elsewhere q)]
  split
  · rename_i hp
    rw [List.prefix_append_right_inj] at hp
    obtain ⟨r, rfl⟩ := hp
    cases r with
    | nil =>
      rw [List.append_nil]
      exact .inr ⟨by rw [hfile]; simp, rfl⟩
    | cons z r =>
      left
      rw [← List.append_assoc, Tree.get?_append_cons_of_ne (by rw [Disk.fileAt_eq_some.1 hfile]; simp)]
  · rw [hc.get?_out]
    exact h.out q

/-- Among the sources there is the file, the folders that lead to it, and what was there. -/
theorem Carried.source (hfile : b.fileAt (b.place s.outFolder ++ (names ++ [name])) = some c)
    (q : Location) (hq : x'.tree.get? (b.place s.sourceFolder ++ q) ≠ none) :
    b.tree.get? (b.place s.sourceFolder ++ q) ≠ none ∨
      ∃ r, b.fileAt (b.place s.outFolder ++ (q ++ r)) ≠ none := by
  by_cases hp : names ++ [name] <+: q
  · obtain ⟨r, rfl⟩ := hp
    rw [← List.append_assoc, hc.moved.get?_into] at hq
    cases r with
    | nil =>
      refine .inr ⟨[], ?_⟩
      rw [List.append_nil, List.append_nil, hfile]
      simp
    | cons z r =>
      rw [Tree.get?_append_cons_of_ne (by rw [hc.file]; simp)] at hq
      exact absurd rfl hq
  · have hfrom := ((apart_out b s).append (names ++ [name]) []).elsewhere q
    rw [List.append_nil] at hfrom
    rw [hc.moved.get?, if_neg (by rw [List.prefix_append_right_inj]; exact hp), if_neg hfrom] at hq
    by_cases hroad : q <+: names
    · obtain ⟨r, hr⟩ := hroad
      refine .inr ⟨r ++ [name], ?_⟩
      rw [← List.append_assoc q, hr, hfile]
      simp
    · rw [hc.made _ fun more hmore he => hroad (by rwa [List.append_cancel_left he])] at hq
      exact h.source q hq

theorem Carried.rest {k : Location} (hsource : ¬ b.place s.sourceFolder <+: k)
    (hout : ¬ b.place s.outFolder <+: k) : x'.tree.get? k = b.tree.get? k := by
  have hsource' : ∀ l, ¬ b.place s.sourceFolder ++ l <+: k :=
    fun l hp => hsource ((List.prefix_append _ _).trans hp)
  have hout' : ∀ l, ¬ b.place s.outFolder ++ l <+: k :=
    fun l hp => hout ((List.prefix_append _ _).trans hp)
  rw [hc.moved.get?, if_neg (hsource' _), if_neg (hout' _),
    hc.made k fun more _ he => hsource (he ▸ List.prefix_append _ _), h.rest k hsource hout]

end

/-- One file is moved. -/
theorem moving_moveTo (hold : Path.Along s.root (["gen", "tmp", "out"] ++ names) old)
    (hnew : Path.Along s.root (["src"] ++ names) new) (hn : IsName name)
    (hfile : b.fileAt (b.place s.outFolder ++ (names ++ [name])) = some c) (h : Moving s b site.disk)
    (hrun : (Action.moveTo (old.under name) (new.under name)).perform site = (.ok u, after)) :
    site.disk.fileAt (b.place s.outFolder ++ (names ++ [name])) = some c ∧
      Moving s b after.disk := by
  obtain ⟨-, -, -, hhome, hgood⟩ := moveTo_ok h.good hrun
  obtain ⟨d, hc⟩ := carried_moveTo hold hnew hn hfile h hrun
  exact ⟨hc.fileAt, hgood, hhome.trans h.home, hc.walked, hc.out h hfile, hc.source h hfile,
    fun k => hc.rest h⟩

/-! ### Moving them again -/

/-- On the disk `m` all files in the output of `b` are in their places. -/
structure Arrived (s : Settings) (b m : Disk) : Prop where
  plain : m.tree.Plain
  home : m.home = b.home
  root : m.Walked s.root
  files : ∀ q c, b.fileAt (b.place s.outFolder ++ q) = some c →
    m.fileAt (b.place s.sourceFolder ++ q) = some c

section

variable (hm : Arrived s b m) (hZ : ∀ k, Z k → b.place s.sourceFolder <+: k)
include hm hZ

/-- A file that was moved is moved again. -/
theorem replays_moveTo (hold : Path.Along s.root (["gen", "tmp", "out"] ++ names) old)
    (hnew : Path.Along s.root (["src"] ++ names) new) (hn : IsName name)
    (hfile : b.fileAt (b.place s.outFolder ++ (names ++ [name])) = some c) :
    Replays false (Moving s b) (fun _ => True) (Ahead Z m)
      (Action.moveTo (old.under name) (new.under name))
      (Action.moveTo (old.under name) (new.under name)) := by
  intro site after u hI hrun
  obtain ⟨hthere, hI'⟩ := moving_moveTo hold hnew hn hfile hI hrun
  refine ⟨hI', fun _ => ⟨trivial, fun again hR => ?_⟩⟩
  have hplace : ∀ p, site.disk.place p = b.place p := Disk.place_of_home hI.home
  have hfrom := place_moved_from hold site.disk hn
  have hto := place_moved_to hnew site.disk hn
  have hab := apart_out b s
  rw [hplace s.outFolder] at hfrom
  rw [hplace s.sourceFolder] at hto
  have hfile' := Disk.fileAt_eq_some.1 hthere
  have harrived := Disk.fileAt_eq_some.1 (hm.files _ _ hfile)
  -- the folders among the sources lead to a file there
  have hfolders : ∀ k, site.disk.OnRoad s.root (["src"] ++ names) k → Z k →
      m.tree.get? k = some .folder := by
    rintro k (hroot | ⟨more, hmore, rfl⟩) hk
    · exact hm.root k ((Disk.onWay_of_home (hm.home.trans hI.home.symm)).2 hroot)
    · have hbelow := hZ _ hk
      rw [hplace, Disk.place_along s.sourceFolder_under.toAlong, List.prefix_append_right_inj] at hbelow
      obtain ⟨more', rfl⟩ := hbelow
      rw [List.prefix_append_right_inj] at hmore
      obtain ⟨rest, rfl⟩ := hmore
      rw [hplace, ← List.append_assoc, ← Disk.place_along s.sourceFolder_under.toAlong]
      have hlong : m.tree.get? ((b.place s.sourceFolder ++ more') ++ (rest ++ [name])) =
          some (.file c) := by
        simpa using harrived
      cases rest with
      | nil => exact Tree.get?_of_append_cons hlong
      | cons x rest => exact Tree.get?_of_append_cons hlong
  have hsame : ∀ q, Z (site.disk.place (new.under name) ++ q) →
      m.tree.get? (site.disk.place (new.under name) ++ q) =
        site.disk.tree.get? (site.disk.place (old.under name) ++ q) := by
    intro q _
    rw [hfrom, hto]
    cases q with
    | nil => rw [List.append_nil, List.append_nil, harrived, hfile']
    | cons x q =>
      rw [Tree.get?_append_cons_of_ne (by rw [harrived]; simp),
        Tree.get?_append_cons_of_ne (by rw [hfile']; simp)]
  have hout : ∀ q, ¬ Z (site.disk.place (old.under name) ++ q) := by
    intro q hq
    rw [hfrom, List.append_assoc] at hq
    exact hab.symm.elsewhere _ (hZ _ hq)
  obtain ⟨later, hperform, hahead, hjournal⟩ := moveTo_again hI.good.plain hm.plain (hold.under hn)
    (hnew.under hn) (by simp) hI.root (by rw [hfrom, hto]; exact hab.append _ _) hfolders
    (by rw [hfrom]; exact hfile') hout hsame hR hrun
  exact ⟨later, hperform, hahead, fun _ => hjournal ▸ .event rfl _⟩

/-- The files among the entries of a folder are moved again, if the folders among them are. -/
theorem replays_moveEntries {below : Path → Path → Action Nat}
    (hbelow : ∀ {names old new}, Path.Under s.root (["gen", "tmp", "out"] ++ names) old →
      Path.Along s.root (["src"] ++ names) new →
      Replays false (Moving s b) (fun _ => True) (Ahead Z m) (below old new) (below old new))
    (hold : Path.Along s.root (["gen", "tmp", "out"] ++ names) old)
    (hnew : Path.Along s.root (["src"] ++ names) new) {entries : List (String × Entry)}
    (hnames : ∀ x ∈ entries, IsName x.1)
    (hfiles : ∀ x ∈ entries, ∀ c, x.2 = .file c →
      b.fileAt (b.place s.outFolder ++ (names ++ [x.1])) = some c) :
    Replays false (Moving s b) (fun _ => True) (Ahead Z m) (moveEntries below old new entries)
      (moveEntries below old new entries) := by
  refine replays_entries (fun name c hx => ?_) fun name hx => ?_
  · exact replays_moveTo hm hZ hold hnew (hnames _ hx) (hfiles _ hx c rfl)
  · have hname := hnames _ hx
    exact @hbelow (names ++ [name]) _ _ (by rw [← List.append_assoc]; exact hold.under hname)
      (by rw [← List.append_assoc]; exact (hnew.under hname).toAlong)

/-- A folder of the output is listed as before. -/
theorem replays_listing (hold : Path.Under s.root (["gen", "tmp", "out"] ++ names) old) :
    Replays false (Moving s b) (fun _ => True) (Ahead Z m) (listing old) (listing old) := by
  refine Replays.inspect fun x y es hI hR hes => ?_
  obtain ⟨hu, hfolder, rfl⟩ := (Disk.list_usable_iff hI.good.plain hold).1 (ok_of_mapError hes)
  have hplace : x.place old = b.place s.outFolder ++ names := by
    rw [Disk.place_of_home hI.home, Disk.place_along hold.toAlong,
      Disk.place_along s.outFolder_under.toAlong, List.append_assoc]
  have hsame : ∀ q, y.tree.get? (y.place old ++ q) = x.tree.get? (x.place old ++ q) := by
    intro q
    rw [Disk.place_of_home hR.home, hplace, List.append_assoc]
    exact hR.same _ fun hk => (apart_out b s).symm.elsewhere _ (hZ _ hk)
  have hway : y.OpenRoot s.root :=
    (hR.walked hm.root (hm.home.trans hI.home.symm) hI.root).openRoot hu.way.short
  have hlist : y.list old = .ok (x.tree.children (x.place old)) := by
    refine (Disk.list_usable_iff (hR.plain hm.plain hI.good.plain) hold).2 ⟨hu.on hway, ?_, ?_⟩
    · have hnil := hsame []
      rw [List.append_nil, List.append_nil] at hnil
      rw [hnil, hfolder]
    · exact (Tree.children_congr hsame).symm
  rw [hlist]
  rfl

/-- All files below a folder of the output are moved again, by induction on its depth. -/
theorem replays_moveBelow (fuel : Nat)
    (hold : Path.Under s.root (["gen", "tmp", "out"] ++ names) old)
    (hnew : Path.Along s.root (["src"] ++ names) new) :
    Replays false (Moving s b) (fun _ => True) (Ahead Z m) (moveBelow fuel old new)
      (moveBelow fuel old new) := by
  induction fuel generalizing names old new with
  | zero => exact Replays.throw _
  | succ fuel ih =>
    refine (replays_listing hm hZ hold).bind_ok fun site mid es hI hes => ?_
    obtain ⟨-, -, rfl⟩ := Disk.list_place hI.good.plain (listing_ok hes).1
    refine replays_moveEntries hm hZ ih hold.toAlong hnew
      (fun x hx => hI.good.named _ _ _ (Tree.mem_children.1 hx)) fun x hx c hc => ?_
    have hfile := Tree.mem_children.1 hx
    rw [hc, Disk.place_of_home hI.home, Disk.place_along hold.toAlong, ← List.append_assoc,
      ← Disk.place_along s.outFolder_under.toAlong, List.append_assoc] at hfile
    rcases hI.out (names ++ [x.1]) with hsame | ⟨-, hnone⟩
    · rw [← Disk.fileAt_congr hsame, Disk.fileAt_eq_some, hfile]
    · rw [hnone] at hfile
      cases hfile

/-- All files in the output are moved again. -/
theorem replays_moveAll : Replays false (Moving s b) (fun _ => True) (Ahead Z m)
    (moveAll s.outFolder s.sourceFolder) (moveAll s.outFolder s.sourceFolder) := by
  refine Replays.bind (Replays.inspect fun x y v hI hR hv => ?_) fun v => ?_
  · obtain ⟨l, e⟩ := v
    obtain ⟨hu, rfl, he⟩ :=
      (Disk.find_usable_iff hI.good.plain s.outFolder_under).1 (ok_of_mapError hv)
    have hplace : y.place s.outFolder = x.place s.outFolder := Disk.place_of_home hR.home _
    have hway : y.OpenRoot s.root :=
      (hR.walked hm.root (hm.home.trans hI.home.symm) hI.root).openRoot hu.way.short
    have hfind : y.find true s.outFolder = .ok (x.place s.outFolder, e) := by
      refine (Disk.find_usable_iff (hR.plain hm.plain hI.good.plain) s.outFolder_under).2
        ⟨hu.on hway, hplace.symm, ?_⟩
      rw [hR.same _ fun hk => ?_, he]
      have hbelow := hZ _ hk
      rw [Disk.place_of_home hI.home, ← List.append_nil (b.place s.outFolder)] at hbelow
      exact (apart_out b s).symm.elsewhere [] hbelow
    rw [hfind]
    rfl
  · split
    · exact replays_moveBelow hm hZ _ s.outFolder_under s.sourceFolder_under.toAlong
    · exact Replays.pure _

end

end IconModules.Installation
