import IconModules.Generation.Run
import IconModules.Proofs.Generation.Keeping

/-! # Actions that are done again

`Action.Replays asks I B R a a'` relates two actions: wherever `a` ended well on a site, `a'` ends with the same
value on every site whose files are related by `R`, and leaves files that are related again; without asking the
network and without waiting, unless `asks` says so.

* `I` holds of all disks on the way of `a`, `B` of those from which `a` and what followed it got to a known
  end. What a later part of the first run kept can so be used for an earlier one.
* There is one rule for each way to make an action; `replays_writeModules` puts them together for the
  assembly. -/

namespace IconModules

variable {α β : Type}

/-- Whether an event asks the network or waits. -/
def Event.isOutward : Event → Bool
  | .fetched _ => true
  | .slept _ => true
  | _ => false

namespace Action

/-- The journal goes on from `base` without asking the network and without waiting. -/
def Quiet (base journal : List Event) : Prop :=
  ∃ new, journal = base ++ new ∧ ∀ e ∈ new, e.isOutward = false

theorem Quiet.refl (base : List Event) : Quiet base base :=
  ⟨[], by simp, by simp⟩

theorem Quiet.trans {j j' j'' : List Event} (h : Quiet j j') (h' : Quiet j' j'') : Quiet j j'' := by
  obtain ⟨new, rfl, hnew⟩ := h
  obtain ⟨new', rfl, hnew'⟩ := h'
  refine ⟨new ++ new', by simp, fun e he => ?_⟩
  rcases List.mem_append.1 he with he | he
  · exact hnew e he
  · exact hnew' e he

theorem Quiet.event {e : Event} (h : e.isOutward = false) (base : List Event) :
    Quiet base (base ++ [e]) :=
  ⟨[e], rfl, by simpa using h⟩

/-- Where `a` ended well, `a'` does the same, and without asking the network and without waiting unless `asks`
says so. -/
def Replays (asks : Bool) (I B : Disk → Prop) (R : Disk → Disk → Prop) (a a' : Action α) : Prop :=
  ∀ (site after : Site) (x : α), I site.disk → a.perform site = (.ok x, after) →
    I after.disk ∧ (B after.disk → B site.disk ∧ ∀ again : Site, R site.disk again.disk →
      ∃ later : Site, a'.perform again = (.ok x, later) ∧ R after.disk later.disk ∧
        (asks = false → Quiet again.journal later.journal))

section

variable {asks : Bool} {I B : Disk → Prop} {R : Disk → Disk → Prop}

namespace Replays

theorem pure (x : α) : Replays asks I B R (Pure.pure x : Action α) (Pure.pure x) := by
  intro site after y hI h
  obtain ⟨rfl, rfl⟩ := perform_pure_ok h
  exact ⟨hI, fun hB => ⟨hB, fun again hR => ⟨again, rfl, hR, fun _ => .refl _⟩⟩⟩

theorem attempt (r : Except Failure α) : Replays asks I B R (attempt r) (Action.attempt r) := by
  intro site after y hI h
  obtain ⟨rfl, rfl⟩ := perform_attempt_ok h
  exact ⟨hI, fun hB => ⟨hB, fun again hR => ⟨again, perform_attempt _ _, hR, fun _ => .refl _⟩⟩⟩

theorem record {e : Event} (he : e.isOutward = false) : Replays asks I B R (record e) (Action.record e) := by
  intro site after y hI h
  obtain rfl := perform_record_ok h
  exact ⟨hI, fun hB => ⟨hB, fun again hR => ⟨_, rfl, hR, fun _ => .event he _⟩⟩⟩

theorem note (n : Note) : Replays asks I B R (note n) (Action.note n) :=
  record rfl

theorem throw (f : Failure) : Replays asks I B R (throw f : Action α) (throw f) := by
  intro site after y hI h
  cases h

/-- Whether something is there is the same where related disks look the same. -/
theorem holds {p : Path} (h : ∀ x y, I x → R x y → y.holds p = x.holds p) :
    Replays asks I B R (holds p) (Action.holds p) := by
  intro site after v hI hrun
  obtain ⟨rfl, rfl⟩ := perform_holds_ok hrun
  refine ⟨hI, fun hB => ⟨hB, fun again hR => ⟨again, ?_, hR, fun _ => .refl _⟩⟩⟩
  rw [perform_holds, h _ _ hI hR]

/-- Looking gives the same where related disks look the same. -/
theorem inspect {p : Path} {look : Disk → Except FileError α}
    (hlook : ∀ x y v, I x → R x y → look x = .ok v → look y = .ok v) :
    Replays asks I B R (inspect p look) (Action.inspect p look) := by
  intro site after v hI h
  obtain ⟨hv, rfl⟩ := perform_inspect_ok h
  refine ⟨hI, fun hB => ⟨hB, fun again hR => ⟨again, ?_, hR, fun _ => .refl _⟩⟩⟩
  rw [perform_inspect, hlook _ _ _ hI hR hv]
  rfl

/-- What follows may depend on what was found. -/
theorem bind_ok {a a' : Action α} {b b' : α → Action β} (ha : Replays asks I B R a a')
    (hb : ∀ site mid x, I site.disk → a.perform site = (.ok x, mid) → Replays asks I B R (b x) (b' x)) :
    Replays asks I B R (a >>= b) (a' >>= b') := by
  intro site after y hI h
  obtain ⟨x, mid, hfirst, hsecond⟩ := perform_bind_ok h
  obtain ⟨hI', hmid⟩ := ha site mid x hI hfirst
  obtain ⟨hI'', hend⟩ := hb site mid x hI hfirst mid after y hI' hsecond
  refine ⟨hI'', fun hB => ?_⟩
  obtain ⟨hB', hagain'⟩ := hend hB
  obtain ⟨hB'', hagain⟩ := hmid hB'
  refine ⟨hB'', fun again hR => ?_⟩
  obtain ⟨later, hperform, hR', hquiet⟩ := hagain again hR
  obtain ⟨later', hperform', hR'', hquiet'⟩ := hagain' later hR'
  exact ⟨later', perform_bind_of_ok hperform hperform', hR'', fun hasks => (hquiet hasks).trans (hquiet' hasks)⟩

theorem bind {a a' : Action α} {b b' : α → Action β} (ha : Replays asks I B R a a')
    (hb : ∀ x, Replays asks I B R (b x) (b' x)) : Replays asks I B R (a >>= b) (a' >>= b') :=
  ha.bind_ok fun _ _ x _ _ => hb x

theorem forM {l : List α} {f f' : α → Action Unit} (h : ∀ x ∈ l, Replays asks I B R (f x) (f' x)) :
    Replays asks I B R (l.forM f) (l.forM f') := by
  induction l with
  | nil => exact pure ()
  | cons x l ih =>
    change Replays asks I B R (f x >>= fun _ => l.forM f) (f' x >>= fun _ => l.forM f')
    exact (h x List.mem_cons_self).bind fun _ => ih fun y hy => h y (List.mem_cons_of_mem _ hy)

/-- A translator that always gives the same for the same markup does so again. -/
theorem translate {partners partners' : Partners} {translation : String → Except Failure String}
    (h : ∀ j markup, partners.translate j markup = translation markup)
    (h' : ∀ j markup, partners'.translate j markup = translation markup) (markup : String) :
    Replays asks I B R (translate partners markup) (Action.translate partners' markup) := by
  intro site after code hI hrun
  obtain ⟨htranslated, rfl⟩ := perform_attempt_ok hrun
  rw [h] at htranslated
  refine ⟨hI, fun hB => ⟨hB, fun again hR => ⟨⟨again.disk, again.journal ++ [.translated markup]⟩, ?_, hR,
    fun _ => .event rfl _⟩⟩⟩
  change (Action.attempt _).perform _ = _
  rw [perform_attempt, h', htranslated]

/-- The network answers again what it always answers. -/
theorem download {partners partners' : Partners} {url : String} {answer : Except Failure Octets}
    (h : ∀ j, partners.fetch j url = answer) (h' : ∀ j, partners'.fetch j url = answer) :
    Replays true I B R (download partners url) (Action.download partners' url) := by
  intro site after content hI hrun
  obtain ⟨hanswer, rfl⟩ := perform_attempt_ok hrun
  rw [h] at hanswer
  refine ⟨hI, fun hB => ⟨hB, fun again hR => ⟨⟨again.disk, again.journal ++ [.fetched url]⟩, ?_, hR,
    Bool.noConfusion⟩⟩⟩
  change (Action.attempt _).perform _ = _
  rw [perform_attempt, h', hanswer]

theorem sleep (delay : Nat) : Replays true I B R (sleep delay) (Action.sleep delay) := by
  intro site after u hI hrun
  obtain rfl := perform_record_ok hrun
  exact ⟨hI, fun hB => ⟨hB, fun again hR => ⟨_, rfl, hR, Bool.noConfusion⟩⟩⟩

end Replays

end

/-! ### On the same disk

What does not depend on the journal ends the same on the same disk. -/

namespace Replays

variable {asks : Bool} {p old new : Path}

theorem change_same (p : Path) (f : Disk → Except FileError Disk) :
    Replays asks (fun _ => True) (fun _ => True) Eq (change p f) (change p f) := by
  intro site after u _ h
  obtain ⟨d, hd, rfl⟩ := perform_change_ok h
  refine ⟨trivial, fun _ => ⟨trivial, fun again hR => ⟨{ again with disk := d }, ?_, rfl, fun _ => .refl _⟩⟩⟩
  rw [perform_change, ← hR, hd]

theorem carryOut_same (p : Path) (f : Disk → Option FileError × Disk) :
    Replays asks (fun _ => True) (fun _ => True) Eq (carryOut p f) (carryOut p f) := by
  intro site after u _ h
  obtain ⟨hnone, rfl⟩ := perform_carryOut_ok h
  refine ⟨trivial, fun _ => ⟨trivial, fun again hR =>
    ⟨{ again with disk := (f site.disk).2 }, ?_, rfl, fun _ => .refl _⟩⟩⟩
  rw [perform_carryOut, ← hR, hnone]

theorem makeParent_same : Replays asks (fun _ => True) (fun _ => True) Eq (makeParent p) (makeParent p) := by
  unfold makeParent
  split
  · exact carryOut_same _ _
  · exact pure ()

theorem moveTo_same :
    Replays asks (fun _ => True) (fun _ => True) Eq (moveTo old new) (moveTo old new) :=
  (note _).bind fun _ => makeParent_same.bind fun _ => change_same _ _

theorem clearIfPresent_same :
    Replays asks (fun _ => True) (fun _ => True) Eq (clearIfPresent p) (clearIfPresent p) := by
  unfold clearIfPresent
  refine (Replays.holds fun x y _ hxy => by rw [hxy]).bind fun v => ?_
  split
  · exact carryOut_same _ _
  · exact pure ()

end Replays

end Action

open IconModules.Action (Replays)

variable {asks : Bool} {I B : Disk → Prop} {R : Disk → Disk → Prop} {s : Settings} {partners partners' : Partners}
  {translation : String → Except Failure String} {f : Finish} {family : String}
  {catalogue : Catalogue} {categories : List Category}

/-! ### The cache -/

section

variable {i : Icon} (hpatience : partners'.patience = partners.patience)
  {answer : Except Failure Octets}
  (hfetch : ∀ j, partners.fetch j (s.drawingUrl family i.name i.version) = answer)
  (hfetch' : ∀ j, partners'.fetch j (s.drawingUrl family i.name i.version) = answer)
  (hholds : ∀ x y, I x → R x y → y.holds (s.cachePath family i) = x.holds (s.cachePath family i))
  (hstore : ∀ content, Replays true I B R (Cache.store (s.cachePath family i) content)
    (Cache.store (s.cachePath family i) content))
include hfetch hfetch' hholds hstore

theorem Cache.replays_ensure (force : Bool) : Replays true I B R
    (ensure s partners family i force) (ensure s partners' family i force) := by
  unfold ensure
  refine (Replays.holds hholds).bind fun v => ?_
  dsimp only
  split
  · exact (Replays.note _).bind fun _ => (Replays.download hfetch hfetch').bind fun content =>
      (hstore content).bind fun _ => Replays.pure _
  · exact Replays.pure _

variable (hread : ∀ x y content, I x → R x y → x.read (s.cachePath family i) = .ok content →
    y.read (s.cachePath family i) = .ok content)
include hread

/-- An entry is looked at again, and downloaded again as often as before. -/
theorem Cache.replays_repair (left : Nat) : Replays true I B R
    (repair s partners family i left (s.cachePath family i))
    (repair s partners' family i left (s.cachePath family i)) := by
  have hcontents : Replays true I B R (contents s (s.cachePath family i))
      (contents s (s.cachePath family i)) :=
    (Replays.inspect fun x y v hI hR hv => hread x y v hI hR hv).bind fun _ => Replays.pure _
  induction left with
  | zero =>
    unfold repair
    refine hcontents.bind fun svg => ?_
    split
    · exact Replays.pure _
    · exact Replays.throw _
  | succ left ih =>
    unfold repair
    refine hcontents.bind fun svg => ?_
    split
    · exact Replays.pure _
    · refine (Replays.note _).bind fun _ => (Replays.sleep _).bind fun _ =>
        (replays_ensure hfetch hfetch' hholds hstore true).bind_ok fun site mid path _ hensure => ?_
      obtain rfl := ensure_path hensure
      exact ih

include hpatience

/-- A drawing that could be fetched is fetched again, if the network answers what it answered. -/
theorem Cache.replays_drawing : Replays true I B R
    (drawing s partners family i) (drawing s partners' family i) := by
  unfold drawing
  rw [hpatience]
  refine (replays_ensure hfetch hfetch' hholds hstore false).bind_ok fun site mid path _ hensure => ?_
  obtain rfl := ensure_path hensure
  exact replays_repair hfetch hfetch' hholds hstore hread _

end

/-! ### The assembly -/

/-- A module is written again as it was if its pieces are added again and the drawings are there. -/
theorem Assembly.replays_writeModule
    (htranslate : ∀ j markup, partners.translate j markup = translation markup)
    (htranslate' : ∀ j markup, partners'.translate j markup = translation markup)
    (hpiece : ∀ piece, Replays asks I B R (append (s.moduleFile family) piece)
      (append (s.moduleFile family) piece))
    (hdrawing : ∀ i ∈ catalogue.supported family, Replays asks I B R
      (Cache.drawing s partners family i) (Cache.drawing s partners' family i)) :
    Replays asks I B R (writeModule s partners f family catalogue categories)
      (writeModule s partners' f family catalogue categories) := by
  unfold writeModule
  refine (Replays.note _).bind fun _ => (Replays.attempt _).bind fun _ => (hpiece _).bind fun _ =>
    Replays.bind ?_ fun _ => (hpiece _).bind fun _ => Replays.bind ?_ fun _ => Replays.pure _
  · refine Replays.forM fun category _ => ?_
    unfold writeSection
    exact (hpiece _).bind fun _ => (Replays.attempt _).bind fun _ => hpiece _
  · refine Replays.forM fun i hi => ?_
    unfold writeIcon
    exact (Replays.attempt _).bind fun _ => (Replays.note _).bind fun _ =>
      (hdrawing i hi).bind fun _ =>
        (Replays.translate htranslate htranslate' _).bind fun _ => hpiece _

theorem Generation.replays_writeModules {families : List String}
    (hmodule : ∀ family ∈ families, Replays asks I B R
      (Assembly.writeModule s partners f family catalogue categories)
      (Assembly.writeModule s partners' f family catalogue categories)) :
    Replays asks I B R (writeModules s partners f catalogue categories families)
      (writeModules s partners' f catalogue categories families) := by
  induction families with
  | nil => exact Replays.pure _
  | cons family rest ih =>
    unfold writeModules
    exact (hmodule family List.mem_cons_self).bind fun _ => (Replays.note _).bind fun _ =>
      (ih fun x hx => hmodule x (List.mem_cons_of_mem _ hx)).bind fun _ => Replays.pure _

/-! ### Installations -/

namespace Installation

/-- The entries of a folder are moved again if its files are and what is below its folders. -/
theorem replays_entries {below : Path → Path → Action Nat} {old new : Path}
    {entries : List (String × Entry)}
    (hfile : ∀ name c, (name, .file c) ∈ entries → Replays asks I B R
      (Action.moveTo (old.under name) (new.under name)) (Action.moveTo (old.under name) (new.under name)))
    (hfolder : ∀ name, (name, .folder) ∈ entries → Replays asks I B R
      (below (old.under name) (new.under name)) (below (old.under name) (new.under name))) :
    Replays asks I B R (moveEntries below old new entries) (moveEntries below old new entries) := by
  induction entries with
  | nil => exact Replays.pure _
  | cons x rest ih =>
    obtain ⟨name, e⟩ := x
    have hrest := ih (fun name c hx => hfile name c (List.mem_cons_of_mem _ hx))
      fun name hx => hfolder name (List.mem_cons_of_mem _ hx)
    cases e with
    | file c =>
      exact (hfile name c List.mem_cons_self).bind fun _ => hrest.bind fun _ => Replays.pure _
    | folder =>
      exact (hfolder name List.mem_cons_self).bind fun _ => hrest.bind fun _ => Replays.pure _
    | link target => exact hrest

/-- Modules are put back again if they are moved again. -/
theorem replays_restore {parked : List (Path × Path)}
    (hmove : ∀ x ∈ parked, Replays asks I B R (Action.moveTo x.1 x.2) (Action.moveTo x.1 x.2)) :
    Replays asks I B R (restore parked) (restore parked) := by
  induction parked with
  | nil => exact Replays.pure _
  | cons x rest ih =>
    exact (hmove x List.mem_cons_self).bind fun _ => ih fun y hy => hmove y (List.mem_cons_of_mem _ hy)

end Installation

end IconModules
