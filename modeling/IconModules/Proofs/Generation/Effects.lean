import IconModules.Generation.Action.Lemmas

/-! # What actions keep and what they leave

* An action that ends well went through all its parts: `perform_bind_ok` and its companions take such
  a run apart.
* `Action.Keeps I a` says that the action leaves a site with the property `I` if it finds one,
  however it ends. -/

namespace IconModules.Action

variable {α β : Type} {a : Action α} {b : α → Action β} {site after : Site} {x : α} {y : β}

/-! ### Runs that end well -/

theorem perform_bind_ok (h : (a >>= b).perform site = (.ok y, after)) :
    ∃ x mid, a.perform site = (.ok x, mid) ∧ (b x).perform mid = (.ok y, after) := by
  rw [perform_bind] at h
  rcases ha : a.perform site with ⟨r, mid⟩
  rw [ha] at h
  cases r with
  | error f => cases h
  | ok x => exact ⟨x, mid, rfl, h⟩

/-- A sequence ends where its first part failed, or behind both parts. -/
theorem perform_bind_cases {r : Except Failure β} (h : (a >>= b).perform site = (r, after)) :
    (∃ f, a.perform site = (.error f, after) ∧ r = .error f) ∨
      ∃ x mid, a.perform site = (.ok x, mid) ∧ (b x).perform mid = (r, after) := by
  rw [perform_bind] at h
  rcases ha : a.perform site with ⟨f | x, mid⟩
  · rw [ha] at h
    obtain ⟨rfl, rfl⟩ := Prod.mk.inj h
    exact .inl ⟨f, rfl, rfl⟩
  · rw [ha] at h
    exact .inr ⟨x, mid, rfl, h⟩

/-- An entry in the journal never fails. -/
theorem perform_record_bind (e : Event) (b : Unit → Action β) (site : Site) :
    (record e >>= b).perform site =
      (b ()).perform { site with journal := site.journal ++ [e] } := by
  rw [perform_bind]
  rfl

theorem perform_holds_bind (p : Path) (b : Bool → Action β) (site : Site) :
    (holds p >>= b).perform site = (b (site.disk.holds p)).perform site := by
  rw [perform_bind]
  rfl

theorem perform_bind_of_ok {mid : Site} {r : Except Failure β × Site}
    (ha : a.perform site = (.ok x, mid)) (hb : (b x).perform mid = r) :
    (a >>= b).perform site = r := by
  rw [perform_bind, ha]
  exact hb

theorem perform_pure_ok {z : α} (h : perform (pure x) site = (.ok z, after)) :
    x = z ∧ site = after := by
  cases h
  exact ⟨rfl, rfl⟩

theorem perform_attempt_ok {r : Except Failure α} (h : (attempt r).perform site = (.ok x, after)) :
    r = .ok x ∧ site = after := by
  rw [perform_attempt] at h
  cases h
  exact ⟨rfl, rfl⟩

theorem perform_record_ok {e : Event} {u : Unit} (h : (record e).perform site = (.ok u, after)) :
    after = { site with journal := site.journal ++ [e] } := by
  cases h
  rfl

theorem perform_inspect_ok {p : Path} {look : Disk → Except FileError α}
    (h : (inspect p look).perform site = (.ok x, after)) : look site.disk = .ok x ∧ site = after := by
  rw [perform_inspect] at h
  cases hl : look site.disk with
  | error e =>
    rw [hl] at h
    cases h
  | ok y =>
    rw [hl] at h
    cases h
    exact ⟨rfl, rfl⟩

theorem perform_change_ok {p : Path} {f : Disk → Except FileError Disk} {u : Unit}
    (h : (change p f).perform site = (.ok u, after)) :
    ∃ d, f site.disk = .ok d ∧ after = { site with disk := d } := by
  rw [perform_change] at h
  cases hf : f site.disk with
  | error e =>
    rw [hf] at h
    cases h
  | ok d =>
    rw [hf] at h
    cases h
    exact ⟨d, rfl, rfl⟩

theorem perform_change_failed {p : Path} {f : Disk → Except FileError Disk} {failure : Failure}
    (h : (change p f).perform site = (.error failure, after)) : after = site := by
  rw [perform_change] at h
  cases hf : f site.disk with
  | error e =>
    rw [hf] at h
    cases h
    rfl
  | ok d =>
    rw [hf] at h
    cases h

theorem perform_attempt_cases {r r' : Except Failure α}
    (h : (attempt r).perform site = (r', after)) : r = r' ∧ site = after := by
  rw [perform_attempt] at h
  exact Prod.mk.inj h

theorem perform_format (partners : Partners) (folder : Path) (site : Site) :
    (format partners folder).perform site =
      ((partners.format site.journal folder site.disk).1,
        ⟨(partners.format site.journal folder site.disk).2, site.journal ++ [.formatted folder]⟩) := by
  change (attempt _).perform _ = _
  rw [perform_attempt]

theorem perform_carryOut_ok {p : Path} {f : Disk → Option FileError × Disk} {u : Unit}
    (h : (carryOut p f).perform site = (.ok u, after)) :
    (f site.disk).1 = none ∧ after = { site with disk := (f site.disk).2 } := by
  rw [perform_carryOut] at h
  cases hf : (f site.disk).1 with
  | some e =>
    rw [hf] at h
    cases h
  | none =>
    rw [hf] at h
    cases h
    exact ⟨rfl, rfl⟩

theorem perform_holds_ok {p : Path} {v : Bool} (h : (holds p).perform site = (.ok v, after)) :
    site.disk.holds p = v ∧ site = after := by
  cases h
  exact ⟨rfl, rfl⟩

/-! ### Properties that are kept -/

/-- However the action ends, it leaves a site with the property if it finds one. -/
def Keeps (I : Site → Prop) (a : Action α) : Prop :=
  ∀ site, I site → I (a.perform site).2

namespace Keeps

variable {I : Site → Prop} {p : Path}

theorem of_perform {r : Except Failure α} (h : Keeps I a) (hr : a.perform site = (r, after))
    (hI : I site) : I after := by
  have hafter := h site hI
  rwa [hr] at hafter

theorem pure (x : α) : Keeps I (Pure.pure x : Action α) :=
  fun _ h => h

theorem attempt (r : Except Failure α) : Keeps I (attempt r) := by
  intro site h
  rw [perform_attempt]
  exact h

theorem throw (f : Failure) : Keeps I (throw f : Action α) :=
  fun _ h => h

theorem holds (p : Path) : Keeps I (holds p) :=
  fun _ h => h

theorem inspect (p : Path) (look : Disk → Except FileError α) : Keeps I (inspect p look) := by
  intro site h
  rw [perform_inspect]
  exact h

/-- What follows may depend on what was found. -/
theorem bind_ok (ha : Keeps I a) (hb : ∀ site x after, I site → a.perform site = (.ok x, after) →
    Keeps I (b x)) : Keeps I (a >>= b) := by
  intro site h
  have hmid := ha site h
  rw [perform_bind]
  rcases hr : a.perform site with ⟨r, mid⟩
  rw [hr] at hmid
  cases r with
  | error f => exact hmid
  | ok x => exact hb site x mid h hr mid hmid

theorem bind (ha : Keeps I a) (hb : ∀ x, Keeps I (b x)) : Keeps I (a >>= b) :=
  ha.bind_ok fun _ x _ _ _ => hb x

theorem record {e : Event}
    (h : ∀ site, I site → I { site with journal := site.journal ++ [e] }) : Keeps I (record e) :=
  h

theorem change {f : Disk → Except FileError Disk}
    (h : ∀ site d, I site → f site.disk = .ok d → I { site with disk := d }) :
    Keeps I (change p f) := by
  intro site hs
  rw [perform_change]
  cases hf : f site.disk with
  | error e => exact hs
  | ok d => exact h site d hs hf

theorem carryOut {f : Disk → Option FileError × Disk}
    (h : ∀ site, I site → I { site with disk := (f site.disk).2 }) : Keeps I (carryOut p f) := by
  intro site hs
  rw [perform_carryOut]
  exact h site hs

theorem makeParent (h : ∀ above, p.parent? = some above → Keeps I (makeFolders above)) :
    Keeps I (makeParent p) := by
  unfold Action.makeParent
  split
  · exact h _ ‹_›
  · exact pure ()

theorem clearIfPresent
    (h : ∀ site, I site → I { site with disk := (site.disk.clear p).2 }) :
    Keeps I (clearIfPresent p) := by
  unfold Action.clearIfPresent
  refine (holds p).bind fun v => ?_
  split
  · exact carryOut h
  · exact pure ()

theorem moveTo {old new : Path} (hnote : ∀ n, Keeps I (note n))
    (hparent : Keeps I (Action.makeParent new))
    (hmove : ∀ site d, I site → site.disk.move old new = .ok d → I { site with disk := d }) :
    Keeps I (moveTo old new) :=
  (hnote _).bind fun _ => hparent.bind fun _ => Keeps.change hmove

theorem forM {l : List α} {f : α → Action Unit} (h : ∀ x ∈ l, Keeps I (f x)) :
    Keeps I (l.forM f) := by
  induction l with
  | nil => exact pure ()
  | cons x l ih =>
    change Keeps I (f x >>= fun _ => l.forM f)
    exact (h x List.mem_cons_self).bind fun _ => ih fun y hy => h y (List.mem_cons_of_mem _ hy)

end Keeps
end IconModules.Action
