import IconModules.Proofs.Files.Alike
import IconModules.Proofs.Generation.Installing
import IconModules.Proofs.Generation.Replays

/-! # Installing on disks that are alike

An installation looks at files only by moving them. On disks that differ in the content of the catalogue's file,
which is not moved, it does the same and leaves disks that are alike again (`replays_install_alike`). -/

namespace IconModules

open Disk (Alike)

variable {l : Location} {x x' y : Site} {p : Path} {u : Unit}

/-! ### Single actions -/

namespace Action

/-- Several steps that do the same on disks that are alike. -/
theorem carryOut_alike {f : Disk → Option FileError × Disk}
    (hsame : (f y.disk).1 = (f x.disk).1 ∧ Alike l (f x.disk).2 (f y.disk).2)
    (h : (carryOut p f).perform x = (.ok u, x')) :
    ∃ y', (carryOut p f).perform y = (.ok u, y') ∧ Alike l x'.disk y'.disk ∧
      y'.journal = y.journal := by
  obtain ⟨hnone, rfl⟩ := perform_carryOut_ok h
  refine ⟨{ y with disk := (f y.disk).2 }, ?_, hsame.2, rfl⟩
  rw [perform_carryOut, hsame.1, hnone]

theorem makeParent_alike (ha : Alike l x.disk y.disk) (h : (makeParent p).perform x = (.ok u, x')) :
    ∃ y', (makeParent p).perform y = (.ok u, y') ∧ Alike l x'.disk y'.disk ∧ y'.journal = y.journal := by
  unfold makeParent at h ⊢
  split at h
  · exact carryOut_alike (ha.makeFolders _) h
  · obtain ⟨-, rfl⟩ := perform_pure_ok h
    exact ⟨y, rfl, ha, rfl⟩

end Action

namespace Installation

open IconModules.Action (Replays)

variable {s : Settings} {home : Location} {old new : Path} {m : String} {ms names : List String}

/-- A disk without links, on which everything has a name and relative paths begin at `home`. -/
structure GoodAt (home : Location) (d : Disk) : Prop extends Good d where
  home : d.home = home

/-- What is moved elsewhere than from above the file at `l` is moved again. -/
theorem replays_moveTo_alike (hold : ∀ d : Disk, d.home = home → ¬ d.place old <+: l) :
    Replays false (GoodAt home) (fun _ => True) (Alike l) (Action.moveTo old new)
      (Action.moveTo old new) := by
  intro site after u hI hrun
  obtain ⟨-, -, -, hhome, hgood⟩ := moveTo_ok hI.toGood hrun
  refine ⟨⟨hgood, hhome.trans hI.home⟩, fun _ => ⟨trivial, fun again ha => ?_⟩⟩
  obtain ⟨_, noted, hnote, h⟩ := Action.perform_bind_ok hrun
  obtain rfl := Action.perform_record_ok hnote
  obtain ⟨_, made, hmade, h⟩ := Action.perform_bind_ok h
  have hgrown := makeParent_ok (by exact hI.plain) hmade
  obtain ⟨d, hmove, rfl⟩ := Action.perform_change_ok h
  let noted : Site := ⟨again.disk, again.journal ++ [.noted (.moving old new)]⟩
  have hnoted : Alike l site.disk noted.disk := ha
  obtain ⟨made', hmade', ha', hjournal⟩ := Action.makeParent_alike (by exact hnoted) hmade
  obtain ⟨e, hmove', ha''⟩ := ha'.move (hgrown.plain hI.plain)
    (hold made.disk (hgrown.home.trans hI.home)) hmove
  refine ⟨{ made' with disk := e }, ?_, ha'', fun _ => hjournal ▸ .event rfl _⟩
  refine Action.perform_bind_of_ok (Action.perform_note _ _) (Action.perform_bind_of_ok hmade' ?_)
  rw [Action.perform_change, hmove']

theorem replays_clearIfPresent_alike (p : Path) :
    Replays false (GoodAt home) (fun _ => True) (Alike l) (Action.clearIfPresent p)
      (Action.clearIfPresent p) := by
  intro site after u hI hrun
  have hafter : GoodAt home after.disk := by
    rcases clearIfPresent_cases hI.toGood hrun with hsame | ⟨-, hc, hgood⟩
    · rwa [hsame]
    · exact ⟨hgood, hc.home.trans hI.home⟩
  refine ⟨hafter, fun _ => ⟨trivial, fun again ha => ?_⟩⟩
  unfold Action.clearIfPresent at hrun ⊢
  rw [Action.perform_holds_bind] at hrun ⊢
  rw [ha.holds]
  split at hrun
  · rename_i hholds
    rw [if_pos hholds]
    obtain ⟨later, hperform, hlater, hjournal⟩ := Action.carryOut_alike (ha.clear p) hrun
    exact ⟨later, hperform, hlater, fun _ => hjournal ▸ .refl _⟩
  · rename_i hholds
    rw [if_neg hholds]
    obtain ⟨-, rfl⟩ := Action.perform_pure_ok hrun
    exact ⟨again, rfl, ha, fun _ => .refl _⟩

/-! ### The phases -/

/-- A way that does not lead towards the file of the catalogue leads to nothing above it. -/
theorem not_prefix_catalogue (hp : Path.Along s.root names p)
    (hnames : ¬ names <+: ["gen", "tmp", "sot", "icons.json"]) (d : Disk) :
    ¬ d.place p <+: d.place s.catalogueFile := by
  rwa [Disk.place_along hp, Disk.place_along s.catalogueFile_under.toAlong, List.prefix_append_right_inj]

theorem not_prefix_catalogue_out (hp : Path.Along s.root (["gen", "tmp", "out"] ++ names) p) (d : Disk) :
    ¬ d.place p <+: d.place s.catalogueFile :=
  not_prefix_catalogue hp (by simp) d

section

variable (hl : ∀ d : Disk, d.home = home → d.place s.catalogueFile = l)
include hl

theorem replays_moveBelow_alike (fuel : Nat)
    (hold : Path.Along s.root (["gen", "tmp", "out"] ++ names) old)
    (hnew : Path.Along s.root (["src"] ++ names) new) :
    Replays false (GoodAt home) (fun _ => True) (Alike l) (moveBelow fuel old new)
      (moveBelow fuel old new) := by
  induction fuel generalizing names old new with
  | zero => exact Replays.throw _
  | succ fuel ih =>
    have haway : ∀ {names p}, Path.Along s.root (["gen", "tmp", "out"] ++ names) p →
        ∀ d : Disk, d.home = home → ¬ d.place p <+: l := by
      intro names p hp d hd
      rw [← hl d hd]
      exact not_prefix_catalogue_out hp d
    refine Replays.bind_ok (Replays.inspect fun x y es hI ha hes => ?_) fun site mid es hI hes => ?_
    · rw [← hes, ha.list hI.plain (haway hold x hI.home)]
    · obtain ⟨-, -, rfl⟩ := Disk.list_place hI.plain (listing_ok hes).1
      have hname : ∀ x ∈ site.disk.tree.children (site.disk.place old), IsName x.1 := fun x hx =>
        hI.named _ _ _ (Tree.mem_children.1 hx)
      have hdeeper : ∀ {root above p n}, Path.Along root (above ++ names) p → IsName n →
          Path.Along root (above ++ (names ++ [n])) (p.under n) := by
        intro root above p n hp hn
        rw [← List.append_assoc]
        exact (hp.under hn).toAlong
      refine replays_entries (fun name c hx => ?_) fun name hx => ?_
      · exact replays_moveTo_alike (haway (hdeeper hold (hname _ hx)))
      · exact ih (hdeeper hold (hname _ hx)) (hdeeper hnew (hname _ hx))

theorem replays_moveAll_alike : Replays false (GoodAt home) (fun _ => True) (Alike l)
    (moveAll s.outFolder s.sourceFolder) (moveAll s.outFolder s.sourceFolder) := by
  have hout : Path.Along s.root (["gen", "tmp", "out"] ++ []) s.outFolder := s.outFolder_under.toAlong
  refine Replays.bind (Replays.inspect fun x y v hI ha hv => ?_) fun v => ?_
  · rw [← hv, ha.find_same hI.plain]
    intro he
    exact not_prefix_catalogue_out hout x ⟨[], by rw [List.append_nil, he, hl x hI.home]⟩
  · split
    · exact replays_moveBelow_alike hl _ hout s.sourceFolder_under.toAlong
    · exact Replays.pure _

variable (hs : s.Standard)
include hs

theorem replays_park_alike (hsub : ∀ m ∈ ms, m ∈ s.manualModules) :
    Replays false (GoodAt home) (fun _ => True) (Alike l) (park s ms) (park s ms) := by
  induction ms with
  | nil => exact Replays.pure _
  | cons m ms ih =>
    have hrest := ih fun x hx => hsub x (List.mem_cons_of_mem _ hx)
    refine (Replays.holds fun x y _ ha => ha.holds _).bind fun v => ?_
    split
    · have hmove : Replays false (GoodAt home) (fun _ => True) (Alike l)
          (Action.moveTo (s.manualHome m) (s.sourceFolder.under m))
          (Action.moveTo (s.manualHome m) (s.sourceFolder.under m)) := by
        refine replays_moveTo_alike fun d hd => ?_
        rw [← hl d hd]
        exact not_prefix_catalogue (hs.manualHome_under (hsub m List.mem_cons_self)).toAlong (by simp) d
      exact hmove.bind fun _ => hrest.bind fun _ => Replays.pure _
    · exact (Replays.note _).bind fun _ => hrest

/-- On a disk that is alike, the same is installed. -/
theorem replays_install_alike :
    Replays false (GoodAt home) (fun _ => True) (Alike l) (install s) (install s) := by
  unfold install
  refine (replays_park_alike hl hs fun m hm => hm).bind_ok fun _ _ parked _ hparked => ?_
  refine (replays_clearIfPresent_alike _).bind fun _ => (replays_moveAll_alike hl).bind fun _ =>
    (replays_clearIfPresent_alike _).bind fun _ => Replays.bind ?_ fun _ =>
      (Replays.note _).bind fun _ => Replays.pure _
  refine replays_restore fun x hx => ?_
  obtain ⟨m, hm, rfl⟩ := mem_of_park hparked x hx
  refine replays_moveTo_alike fun d hd => ?_
  rw [← hl d hd]
  exact not_prefix_catalogue (parked_under hs hm).toAlong (by simp) d

end

end Installation

end IconModules
