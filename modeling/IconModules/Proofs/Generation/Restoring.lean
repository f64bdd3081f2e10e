import IconModules.Proofs.Generation.Installed
import IconModules.Proofs.Generation.Parking

/-! # Putting modules back, exactly

What putting the parked modules back does to everything that stands among the sources (`restore_exact`), by
induction on the modules. The way to the root may lead through places where modules were parked: it is made
again for the next one, as an empty folder (`Left`). -/

namespace IconModules.Installation

open Disk (Apart Moved Paved)

variable {s : Settings} {m : String} {gone names : List String} {site after : Site} {d d' x x' : Disk}
  {k : Location} {u : Unit}

/-- Outside the output the way to the root leads through folders, unless it leads through a place where one of
the modules `gone` was parked; and it goes no further from there. -/
structure Leads (s : Settings) (gone : List String) (d : Disk) : Prop where
  way : ∀ k, d.OnWay s.root k → ¬ d.place s.outFolder <+: k →
    (∀ m ∈ gone, k ≠ d.place s.sourceFolder ++ [m]) → d.tree.get? k = some .folder
  vacant : ∀ m ∈ gone, ∀ n r, ¬ d.OnWay s.root (d.place s.sourceFolder ++ m :: n :: r)

/-- Nothing is left where a module was parked, but a folder on the way to the root. -/
def Left (s : Settings) (d : Disk) (m : String) : Prop :=
  ∀ r, d.tree.get? (d.place s.sourceFolder ++ m :: r) = none ∨
    r = [] ∧ d.tree.get? (d.place s.sourceFolder ++ [m]) = some .folder ∧
      d.OnWay s.root (d.place s.sourceFolder ++ [m])

/-- A relative root is not read from a folder that a run replaces: from the output, or from where a module is
parked. -/
structure Settled (s : Settings) (d : Disk) : Prop where
  out : ¬ d.place s.outFolder <+: d.start s.root
  parked : ∀ m ∈ s.manualModules, d.start s.root ≠ d.place s.sourceFolder ++ [m]

theorem Settled.of_home (h : Settled s d) (hd : d'.home = d.home) : Settled s d' := by
  have hstart : d'.start s.root = d.start s.root := by
    unfold Disk.start
    rw [hd]
  refine ⟨?_, fun m hm => ?_⟩
  · rw [hstart, Disk.place_of_home hd]
    exact h.out
  · rw [hstart, Disk.place_of_home hd]
    exact h.parked m hm

theorem Leads.start (h : Leads s gone d) (hsettled : Settled s d)
    (hgone : ∀ m ∈ gone, m ∈ s.manualModules) : d.tree.get? (d.start s.root) = some .folder :=
  h.way _ ⟨[], List.nil_prefix, rfl⟩ hsettled.out fun m hm => hsettled.parked m (hgone m hm)

/-! ### One module -/

/-- The disk `x'` is `x` with the module `m` put back, after `gone` were. -/
structure PutBack (s : Settings) (gone : List String) (m : String) (x x' : Disk) : Prop where
  good : Good x'
  home : x'.home = x.home
  there : x.tree.get? (x.place s.sourceFolder ++ [m]) ≠ none
  scaffold : x'.tree.get? (x.place s.sourceFolder ++ ["Material"]) = some .folder
  put : ∀ r, x'.tree.get? (manualPlace x s ++ m :: r) =
    x.tree.get? (x.place s.sourceFolder ++ m :: r)
  top : ∀ r, x'.tree.get? (x.place s.sourceFolder ++ m :: r) = none
  same : ∀ q, ¬ ["Material"] <+: q → ¬ [m] <+: q → (∀ y ∈ gone, ¬ [y] <+: q) →
    x'.tree.get? (x.place s.sourceFolder ++ q) = x.tree.get? (x.place s.sourceFolder ++ q)
  others : ∀ y, y ≠ m → ∀ r, x'.tree.get? (manualPlace x s ++ y :: r) =
    x.tree.get? (manualPlace x s ++ y :: r)
  left : ∀ y ∈ gone, y ≠ m → Left s x y → Left s x' y
  rest : ∀ k, ¬ x.place s.sourceFolder <+: k → ¬ x.place s.outFolder <+: k →
    x'.tree.get? k = x.tree.get? k
  leads : Leads s (m :: gone) x'

/-- Making folders in the scaffold changes nothing else where the way to the root led through folders. -/
theorem Leads.get?_of_paved (h : Leads s gone d) {p : Path}
    (hp : Path.Along s.root ["src", "Material", "Icons"] p) (hpaved : Paved d p d')
    (hscaffold : ∀ more, more <+: ["Material", "Icons"] → k ≠ d.place s.sourceFolder ++ more)
    (hout : ¬ d.place s.outFolder <+: k) (hgone : ∀ y ∈ gone, k ≠ d.place s.sourceFolder ++ [y]) :
    d'.tree.get? k = d.tree.get? k := by
  by_cases hway : d.OnWay p k
  · rcases (onWay_source_iff hp).1 hway with hroot | ⟨more, hmore, he⟩
    · rw [hpaved.walked k hway, h.way k hroot hout hgone]
    · exact absurd he (hscaffold more hmore)
  · exact hpaved.get? k hway

theorem not_out_source (d : Disk) (s : Settings) (q : Location) :
    ¬ d.place s.outFolder <+: d.place s.sourceFolder ++ q := by
  simpa using ((apart_out d s).append [] []).elsewhere q

/-- How the module `m` is put back on the disk `x`: the folders on the way to where it belongs are made, which gives
the disk `d`, and it is moved there from where it was parked. -/
structure Return (s : Settings) (m : String) (above : Path) (x d x' : Disk) : Prop where
  along : Path.Along s.root ["src", "Material", "Icons"] above
  paved : Paved x above d
  moved : Moved d (x.place s.sourceFolder ++ [m]) (x.place s.sourceFolder ++ ["Material", "Icons", m]) x'

section

variable (hs : s.Standard)
include hs

/-- A move of a parked module to where it belongs is such a return. -/
theorem return_of_moveTo (hm : m ∈ s.manualModules) (hg : Good site.disk)
    (hstart : site.disk.tree.get? (site.disk.start s.root) = some .folder)
    (h : (Action.moveTo (s.sourceFolder.under m) (s.manualHome m)).perform site = (.ok u, after)) :
    ∃ above d, Return s m above site.disk d after.disk := by
  have hold : Path.Under s.root (["src"] ++ [m]) (s.sourceFolder.under m) := parked_under hs hm
  have hnew : Path.Under s.root (["src", "Material", "Icons"] ++ [m]) (s.manualHome m) :=
    hs.manualHome_under hm
  obtain ⟨above, d, -, hunder, -, -, hpaved, hmoved, -⟩ :=
    moveTo_exact hg.plain hold hnew (by simp) hstart
      (by rw [place_parked hs _ hm, place_manualHome hs _ hm]; exact (apart_manual hs hm).symm) h
  rw [place_parked hs _ hm, place_manualHome hs _ hm, manualPlace, List.append_assoc] at hmoved
  exact ⟨above, d, hunder.toAlong, hpaved, hmoved⟩

omit hs

variable {above : Path} {q r : Location} {y : String}

/-- What stands on the way to the root is a folder once the way is made. -/
theorem Return.folder_of_onWay (h : Return s m above x d x') (hk : x.OnWay s.root k) :
    d.tree.get? k = some .folder :=
  h.paved.walked k ((onWay_source_iff h.along).2 (.inl hk))

/-- Away from the two places the move changes nothing. -/
theorem Return.get?_other (h : Return s m above x d x') (hq : ¬ ["Material", "Icons", m] <+: q)
    (hqm : ¬ [m] <+: q) :
    x'.tree.get? (x.place s.sourceFolder ++ q) = d.tree.get? (x.place s.sourceFolder ++ q) := by
  rw [h.moved.get?, if_neg, if_neg]
  · rwa [List.prefix_append_right_inj]
  · rwa [List.prefix_append_right_inj]

/-- The module stands where it belongs, and with it all that was below it. -/
theorem Return.get?_home (h : Return s m above x d x') (r : Location) :
    x'.tree.get? (x.place s.sourceFolder ++ "Material" :: "Icons" :: m :: r) =
      d.tree.get? (x.place s.sourceFolder ++ m :: r) := by
  simpa using h.moved.get?_into r

/-- Nothing is left where it was parked. -/
theorem Return.get?_parked (h : Return s m above x d x') (hne : m ≠ "Material") (r : Location) :
    x'.tree.get? (x.place s.sourceFolder ++ m :: r) = none := by
  rw [h.moved.get?, if_neg, if_pos]
  · exact ⟨r, by simp⟩
  · rw [List.prefix_append_right_inj]
    exact fun hp => hne (List.cons_prefix_cons.1 hp).1.symm

/-- The folders made on the way change nothing among the sources but in the scaffold and where modules were
parked. -/
theorem Return.get?_source (h : Return s m above x d x') (hleads : Leads s gone x)
    (hq : ∀ more, more <+: ["Material", "Icons"] → q ≠ more) (hgone : ∀ y ∈ gone, q ≠ [y]) :
    d.tree.get? (x.place s.sourceFolder ++ q) = x.tree.get? (x.place s.sourceFolder ++ q) :=
  hleads.get?_of_paved h.along h.paved (fun more hmore he => hq more hmore (List.append_cancel_left he))
    (not_out_source x s q) fun y hy he => hgone y hy (List.append_cancel_left he)

include hs

/-- A place where a module was parked goes on holding nothing, or a folder on the way to the root. -/
theorem Return.left (h : Return s m above x d x') (hleads : Leads s gone x)
    (hy : y ∈ gone) (hy' : y ∈ s.manualModules) (hym : y ≠ m) (hleft : Left s x y) : Left s x' y := by
  have hhome : x'.home = x.home := h.moved.home.trans h.paved.home
  have hne : y ≠ "Material" := manual_ne_scaffold hs hy'
  intro r
  rw [Disk.place_of_home hhome, Disk.onWay_of_home hhome]
  have hother : ∀ r, x'.tree.get? (x.place s.sourceFolder ++ y :: r) =
      d.tree.get? (x.place s.sourceFolder ++ y :: r) := fun r =>
    h.get?_other (fun hp => hne (List.cons_prefix_cons.1 hp).1.symm)
      fun hp => hym (List.cons_prefix_cons.1 hp).1.symm
  by_cases hroot : x.OnWay s.root (x.place s.sourceFolder ++ y :: r)
  · cases r with
    | nil => exact .inr ⟨rfl, (hother []).trans (h.folder_of_onWay hroot), hroot⟩
    | cons n r => exact absurd hroot (hleads.vacant y hy n r)
  · have hsame : d.tree.get? (x.place s.sourceFolder ++ y :: r) =
        x.tree.get? (x.place s.sourceFolder ++ y :: r) := by
      refine h.paved.get? _ fun hk => ?_
      rcases (onWay_source_iff h.along).1 hk with hk | ⟨more, hmore, he⟩
      · exact hroot hk
      · obtain rfl := List.append_cancel_left he
        exact hne (List.cons_prefix_cons.1 hmore).1
    rw [hother]
    rcases hleft r with hnone | ⟨rfl, -, hk⟩
    · exact .inl (hsame.trans hnone)
    · exact absurd hk hroot

omit hs

/-- The way to the root leads through folders again. -/
theorem Return.leads (h : Return s m above x d x') (hleads : Leads s gone x)
    (hvacant : ∀ n r, ¬ x.OnWay s.root (x.place s.sourceFolder ++ m :: n :: r))
    (hscaffold : ∀ q, ¬ x.OnWay s.root (x.place s.sourceFolder ++ "Material" :: q)) :
    Leads s (m :: gone) x' := by
  have hhome : x'.home = x.home := h.moved.home.trans h.paved.home
  refine ⟨fun k hk hkout hkgone => ?_, fun y hy n r => ?_⟩
  · rw [Disk.onWay_of_home hhome] at hk
    rw [Disk.place_of_home hhome] at hkgone
    rw [h.moved.get?]
    split
    · rename_i hp
      obtain ⟨q, rfl⟩ := hp
      refine absurd hk ?_
      simpa using hscaffold ("Icons" :: m :: q)
    · split
      · rename_i hp
        obtain ⟨q, rfl⟩ := hp
        cases q with
        | nil => exact absurd (List.append_nil _) (hkgone m List.mem_cons_self)
        | cons n q =>
          rw [List.append_assoc] at hk
          exact absurd hk (hvacant n q)
      · exact h.folder_of_onWay hk
  · rw [Disk.place_of_home hhome, Disk.onWay_of_home hhome]
    rcases List.mem_cons.1 hy with rfl | hy
    · exact hvacant n r
    · exact hleads.vacant y hy n r

include hs

/-- Putting one module back. -/
theorem putBack_of_moveTo (hm : m ∈ s.manualModules) (hnot : m ∉ gone)
    (hgone : ∀ y ∈ gone, y ∈ s.manualModules) (hg : Good site.disk)
    (hstart : site.disk.tree.get? (site.disk.start s.root) = some .folder)
    (hleads : Leads s gone site.disk)
    (hvacant : ∀ n r, ¬ site.disk.OnWay s.root (site.disk.place s.sourceFolder ++ m :: n :: r))
    (hscaffold : ∀ q, ¬ site.disk.OnWay s.root (site.disk.place s.sourceFolder ++ "Material" :: q))
    (h : (Action.moveTo (s.sourceFolder.under m) (s.manualHome m)).perform site = (.ok u, after)) :
    PutBack s gone m site.disk after.disk := by
  have hne : m ≠ "Material" := manual_ne_scaffold hs hm
  obtain ⟨-, -, -, hhome, hgood⟩ := moveTo_ok hg h
  obtain ⟨above, d, hback⟩ := return_of_moveTo hs hm hg hstart h
  -- the parked module is the same before and after the folders are made
  have hparked : ∀ r, d.tree.get? (site.disk.place s.sourceFolder ++ m :: r) =
      site.disk.tree.get? (site.disk.place s.sourceFolder ++ m :: r) := fun r =>
    hback.get?_source hleads (fun more hmore he => hne (List.cons_prefix_cons.1 (he ▸ hmore)).1)
      fun y hy he => hnot ((List.cons.inj he).1 ▸ hy)
  have hthere : site.disk.tree.get? (site.disk.place s.sourceFolder ++ [m]) ≠ none := by
    rw [← hparked []]
    exact hback.moved.source
  refine ⟨hgood, hhome, hthere, ?_, fun r => ?_, hback.get?_parked hne, fun q hq hqm hqgone => ?_,
    fun y hy r => ?_, fun y hy hym hleft => hback.left hs hleads hy (hgone y hy) hym hleft,
    fun k hk hk' => ?_, hback.leads hleads hvacant hscaffold⟩
  · rw [hback.get?_other (by simp) fun hp => hne (List.cons_prefix_cons.1 hp).1]
    exact hback.paved.walked _ ((onWay_source_iff hback.along).2 (.inr ⟨["Material"], ⟨_, rfl⟩, rfl⟩))
  · rw [manualPlace, List.append_assoc]
    exact (hback.get?_home r).trans (hparked r)
  · rw [hback.get?_other (fun hp => hq ((show ["Material"] <+: ["Material", "Icons", m] from ⟨_, rfl⟩).trans hp))
      hqm]
    cases q with
    | nil =>
      -- what was parked stands in the folder of sources
      obtain ⟨e, he⟩ := Option.ne_none_iff_exists'.1 hthere
      obtain ⟨e', he'⟩ := Option.ne_none_iff_exists'.1 hback.moved.source
      rw [List.append_nil, Tree.get?_of_append he, Tree.get?_of_append he']
    | cons n q =>
      refine hback.get?_source hleads (fun more hmore he => ?_) fun y hy he =>
        hqgone y hy (he ▸ List.prefix_refl _)
      have hn : n = "Material" := (List.cons_prefix_cons.1 (he ▸ hmore)).1
      exact hq ⟨q, by rw [hn]; rfl⟩
  · have hother : ¬ ["Material", "Icons", m] <+: ["Material", "Icons"] ++ y :: r := fun hp =>
      hy (List.cons_prefix_cons.1 (List.prefix_append_right_inj ["Material", "Icons"] |>.1 hp)).1.symm
    rw [manualPlace, List.append_assoc, hback.get?_other hother fun hp => hne (List.cons_prefix_cons.1 hp).1]
    refine hback.get?_source hleads (fun more hmore he => ?_) fun z hz he => ?_
    · have hlength := (he ▸ hmore).length_le
      simp at hlength
    · simp at he
  · have hnot : ∀ l, ¬ site.disk.place s.sourceFolder ++ l <+: k :=
      fun l hp => hk ((List.prefix_append _ _).trans hp)
    rw [hback.moved.get?, if_neg (hnot _), if_neg (hnot _)]
    exact hleads.get?_of_paved hback.along hback.paved
      (fun more _ he => hk (he ▸ List.prefix_append _ _)) hk' fun y _ he => hk (he ▸ List.prefix_append _ _)

omit hs

/-! ### All of them -/

/-- The disk `x'` is `x` with the modules `names` put back, after `gone` were. -/
structure Restored (s : Settings) (gone names : List String) (x x' : Disk) : Prop where
  home : x'.home = x.home
  there : ∀ m ∈ names, x.tree.get? (x.place s.sourceFolder ++ [m]) ≠ none
  scaffold : x'.tree.get? (x.place s.sourceFolder ++ ["Material"]) = some .folder ∨
    x'.tree.get? (x.place s.sourceFolder ++ ["Material"]) =
      x.tree.get? (x.place s.sourceFolder ++ ["Material"])
  put : ∀ m ∈ names, ∀ r, x'.tree.get? (manualPlace x s ++ m :: r) =
    x.tree.get? (x.place s.sourceFolder ++ m :: r)
  left : ∀ m, m ∈ names ∨ m ∈ gone ∧ Left s x m → Left s x' m
  same : ∀ q, ¬ ["Material"] <+: q → (∀ y ∈ names, ¬ [y] <+: q) → (∀ y ∈ gone, ¬ [y] <+: q) →
    x'.tree.get? (x.place s.sourceFolder ++ q) = x.tree.get? (x.place s.sourceFolder ++ q)
  others : ∀ y, y ∉ names → ∀ r, x'.tree.get? (manualPlace x s ++ y :: r) =
    x.tree.get? (manualPlace x s ++ y :: r)
  rest : ∀ k, ¬ x.place s.sourceFolder <+: k → ¬ x.place s.outFolder <+: k →
    x'.tree.get? k = x.tree.get? k

theorem Restored.nil (s : Settings) (gone : List String) (x : Disk) : Restored s gone [] x x :=
  ⟨rfl, by simp, .inr rfl, by simp, fun m hm => (hm.resolve_left (by simp)).2, fun _ _ _ _ => rfl, fun _ _ _ => rfl,
    fun _ _ _ => rfl⟩

include hs

theorem Restored.cons {x₁ : Disk} (h : PutBack s gone m x x₁) (h' : Restored s (m :: gone) names x₁ x')
    (hm : m ∉ names) (hgone : m ∉ gone) (hapart : ∀ y ∈ names, y ∉ gone)
    (hsub : ∀ y ∈ names, y ∈ s.manualModules) : Restored s gone (m :: names) x x' := by
  have hplace := Disk.place_of_home h.home s.sourceFolder
  have hmanual := manualPlace_of_home h.home s
  have hthere := h'.there
  have hscaffold := h'.scaffold
  have hput := h'.put
  have hsame := h'.same
  have hothers := h'.others
  rw [hplace] at hthere hscaffold
  rw [hmanual, hplace] at hput
  rw [hplace] at hsame
  rw [hmanual] at hothers
  -- the first move leaves the others parked
  have hparked : ∀ y ∈ names, ∀ r, x₁.tree.get? (x.place s.sourceFolder ++ y :: r) =
      x.tree.get? (x.place s.sourceFolder ++ y :: r) := by
    intro y hy r
    refine h.same _ (fun hp => ?_) (fun hp => ?_) fun z hz hp => ?_
    · exact manual_ne_scaffold hs (hsub y hy) (List.cons_prefix_cons.1 hp).1.symm
    · exact hm ((List.cons_prefix_cons.1 hp).1 ▸ hy)
    · exact hapart y hy ((List.cons_prefix_cons.1 hp).1 ▸ hz)
  refine ⟨h'.home.trans h.home, fun y hy => ?_, ?_, fun y hy r => ?_, fun y hy => ?_,
    fun q hq hnames hq' => ?_, fun y hy r => ?_, fun k hk hk' => ?_⟩
  · rcases List.mem_cons.1 hy with rfl | hy
    · exact h.there
    · rw [← hparked y hy]
      exact hthere y hy
  · rcases hscaffold with hfolder | hkept
    · exact .inl hfolder
    · exact .inl (hkept.trans h.scaffold)
  · rcases List.mem_cons.1 hy with rfl | hy
    · rw [hothers _ hm, h.put]
    · rw [hput y hy, hparked y hy]
  · rcases hy with hy | ⟨hy, hleft⟩
    · rcases List.mem_cons.1 hy with rfl | hy
      · refine h'.left _ (.inr ⟨List.mem_cons_self, fun r => .inl ?_⟩)
        rw [hplace, h.top]
      · exact h'.left y (.inl hy)
    · have hne : y ≠ m := fun e => hgone (e ▸ hy)
      exact h'.left y (.inr ⟨List.mem_cons_of_mem _ hy, h.left y hy hne hleft⟩)
  · rw [hsame q hq (fun y hy => hnames y (List.mem_cons_of_mem _ hy)) ?_,
      h.same q hq (hnames m List.mem_cons_self) hq']
    exact List.forall_mem_cons.2 ⟨hnames m List.mem_cons_self, hq'⟩
  · rw [List.mem_cons, not_or] at hy
    obtain ⟨hym, hynames⟩ := hy
    rw [hothers y hynames, h.others y hym]
  · rw [h'.rest k (by rwa [hplace]) (by rwa [Disk.place_of_home h.home]), h.rest k hk hk']

/-- All parked modules are put back, one after the other. -/
theorem restore_exact (hsub : ∀ m ∈ names, m ∈ s.manualModules)
    (hgone : ∀ m ∈ gone, m ∈ s.manualModules) (hnd : names.Nodup) (hapart : ∀ y ∈ names, y ∉ gone)
    {site after : Site} (hg : Good site.disk) (hsettled : Settled s site.disk)
    (hleads : Leads s gone site.disk)
    (hvacant : ∀ m ∈ names, ∀ n r,
      ¬ site.disk.OnWay s.root (site.disk.place s.sourceFolder ++ m :: n :: r))
    (hscaffold : ∀ q, ¬ site.disk.OnWay s.root (site.disk.place s.sourceFolder ++ "Material" :: q))
    (h : (restore (names.map (parking s))).perform site = (.ok u, after)) :
    Restored s gone names site.disk after.disk := by
  induction names generalizing site gone with
  | nil =>
    obtain ⟨-, rfl⟩ := Action.perform_pure_ok h
    exact .nil s gone _
  | cons m names ih =>
    have hm := hsub m List.mem_cons_self
    have hsub' : ∀ m ∈ names, m ∈ s.manualModules := fun x hx => hsub x (List.mem_cons_of_mem _ hx)
    obtain ⟨hnot, hnd'⟩ := List.nodup_cons.1 hnd
    have hnotGone := hapart m List.mem_cons_self
    obtain ⟨_, mid, hmove, h⟩ := Action.perform_bind_ok h
    have hback := putBack_of_moveTo hs hm hnotGone hgone hg (hleads.start hsettled hgone) hleads
      (hvacant m List.mem_cons_self) hscaffold hmove
    have hplace := Disk.place_of_home hback.home s.sourceFolder
    refine .cons hs hback (ih hsub' ?_ hnd' ?_ hback.good (hsettled.of_home hback.home) hback.leads
      (fun y hy n r => ?_) (fun q => ?_) h) hnot hnotGone
      (fun y hy => hapart y (List.mem_cons_of_mem _ hy)) hsub'
    · exact List.forall_mem_cons.2 ⟨hm, hgone⟩
    · intro y hy hmem
      rcases List.mem_cons.1 hmem with rfl | hmem
      · exact hnot hy
      · exact hapart y (List.mem_cons_of_mem _ hy) hmem
    · rw [hplace, Disk.onWay_of_home hback.home]
      exact hvacant y (List.mem_cons_of_mem _ hy) n r
    · rw [hplace, Disk.onWay_of_home hback.home]
      exact hscaffold q

end

end IconModules.Installation
