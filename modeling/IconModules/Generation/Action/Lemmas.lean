import IconModules.Generation.Action
/-!
# What actions do to a site

One lemma for each way to make an action: what it ends with and what it leaves. A sequence opens by
**`perform_bind`**, its parts by the others.
-/

namespace IconModules.Action

variable {α β : Type}

/-! ### Values and sequences -/

@[simp] theorem perform_pure (x : α) (site : Site) :
    perform (pure x) site = (.ok x, site) := rfl

@[simp] theorem perform_throw (f : Failure) (site : Site) :
    perform (throw f : Action α) site = (.error f, site) := rfl

/-- A failure ends a sequence of actions; what was done before it remains. -/
theorem perform_bind (a : Action α) (b : α → Action β) (site : Site) :
    perform (a >>= b) site =
      match a.perform site with
      | (.ok x, site) => (b x).perform site
      | (.error f, site) => (.error f, site) := by
  simp only [perform, ExceptT.run_bind, StateT.run_bind]
  rcases h : (ExceptT.run a).run site with ⟨_ | _, _⟩ <;> simp <;> rfl

@[simp] theorem perform_attempt (r : Except Failure α) (site : Site) :
    perform (attempt r) site = (r, site) := by
  cases r <;> rfl

/-- An action that is known to end well ends with a value. -/
theorem exists_of_isOk {a : Action α} {site : Site} (h : (a.perform site).1.isOk = true) :
    ∃ x after, a.perform site = (.ok x, after) := by
  rcases ha : a.perform site with ⟨f | x, after⟩
  · rw [ha] at h
    cases h
  · exact ⟨x, after, rfl⟩

/-- An action that is known to fail ends with a failure. -/
theorem exists_of_not_isOk {a : Action α} {site : Site} (h : (a.perform site).1.isOk = false) :
    ∃ f after, a.perform site = (.error f, after) := by
  rcases ha : a.perform site with ⟨f | x, after⟩
  · exact ⟨f, after, rfl⟩
  · rw [ha] at h
    cases h

/-! ### The journal -/

@[simp] theorem perform_record (e : Event) (site : Site) :
    perform (record e) site = (.ok (), { site with journal := site.journal ++ [e] }) := rfl

@[simp] theorem perform_note (n : Note) (site : Site) :
    perform (note n) site = (.ok (), { site with journal := site.journal ++ [.noted n] }) := rfl

/-! ### Files -/

@[simp] theorem perform_inspect (p : Path) (look : Disk → Except FileError α) (site : Site) :
    perform (inspect p look) site = ((look site.disk).mapError (.files p), site) := by
  change perform (attempt _) site = _
  rw [perform_attempt]

theorem perform_change (p : Path) (f : Disk → Except FileError Disk) (site : Site) :
    perform (change p f) site =
      match f site.disk with
      | .ok d => (.ok (), { site with disk := d })
      | .error e => (.error (.files p e), site) := by
  rw [change, perform_bind, perform_inspect]
  cases f site.disk <;> rfl

theorem perform_carryOut (p : Path) (f : Disk → Option FileError × Disk) (site : Site) :
    perform (carryOut p f) site =
      (match (f site.disk).1 with
        | some e => .error (.files p e)
        | none => .ok (), { site with disk := (f site.disk).2 }) := by
  change perform (match (f site.disk).1 with
    | some e => throw (.files p e)
    | none => pure ()) { site with disk := (f site.disk).2 } = _
  cases (f site.disk).1 <;> rfl

@[simp] theorem perform_holds (p : Path) (site : Site) :
    perform (holds p) site = (.ok (site.disk.holds p), site) := rfl

end IconModules.Action
