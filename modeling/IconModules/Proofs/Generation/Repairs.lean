import IconModules.Proofs.Generation.Rewriting

/-! # Repairing broken drawings

`Cache.drawing` looks at an entry and downloads it again as long as what it holds is no drawing.

* `body` is the sequence of contents: the entry as it was found or downloaded at first, and then the answers
  to the downloads that are forced. `journalAfter` is what has happened when there were `k` of these.
* One round takes the entry from one content to the next (`repair_again`); so the drawing is looked for in the
  contents one after the other (`drawing_reaches`), and the first one that is a drawing, the limit or a failed
  download ends that (`drawing_repairs`). -/

namespace IconModules.Cache

open Generation (repair_of_isDrawing repair_zero repair_broken)

variable {s : Settings} {partners : Partners} {family : String} {i : Icon} {site : Site} {p : Path}
  {c : Octets} {f : Failure} {k left : Nat}

/-! ### Rounds -/

section

variable (s partners family i) (site)

/-- What happens when an entry that is missing is downloaded. -/
def firstDownload : List Event :=
  [.noted (.downloadingIcon (s.drawingUrl family i.name i.version) false),
    .fetched (s.drawingUrl family i.name i.version)]

/-- What happens when an entry is downloaded again: after a pause, one download that is forced. -/
def round : List Event :=
  [.noted (.waiting s.repairs.pause i.name family), .slept s.repairs.pause,
    .noted (.downloadingIcon (s.drawingUrl family i.name i.version) true),
    .fetched (s.drawingUrl family i.name i.version)]

/-- The journal when there were `k` rounds. -/
def journalAfter (k : Nat) : List Event :=
  site.journal ++ (if site.disk.holds (s.cachePath family i) then [] else firstDownload s family i) ++
    (List.replicate k (round s family i)).flatten

/-- How often an entry is downloaded again at most. -/
def attempts : Nat :=
  s.repairs.limit.getD partners.patience

/-- The contents that an entry has one after the other: what is found, or downloaded if nothing is there, and
then the answer of each round. An answer may depend on all that happened before it was asked for. -/
def body : Nat → Except Failure Octets
  | 0 =>
    if site.disk.holds (s.cachePath family i) then
      (site.disk.read (s.cachePath family i)).mapError (.files (s.cachePath family i))
    else
      partners.fetch (site.journal ++ (firstDownload s family i).dropLast)
        (s.drawingUrl family i.name i.version)
  | k + 1 =>
    partners.fetch (journalAfter s family i site k ++ (round s family i).dropLast)
      (s.drawingUrl family i.name i.version)

/-- The content number `k` is no drawing. -/
def Broken (k : Nat) : Prop :=
  ∃ c, body s partners family i site k = .ok c ∧ Markup.isDrawing (Generation.shown s c) = false

/-- Looking for a drawing ends with `r` after `k` rounds, and then the entry holds `c`. -/
def Ends (r : Except Failure String) (k : Nat) (c : Octets) : Prop :=
  ∃ after, (drawing s partners family i).perform site = (r, after) ∧
    after.journal = journalAfter s family i site k ∧ after.disk.read (s.cachePath family i) = .ok c

/-- The site `x` after `k` rounds, when the entry holds `c`. -/
structure Stands (k : Nat) (c : Octets) (x : Site) : Prop where
  journal : x.journal = journalAfter s family i site k
  read : x.disk.read (s.cachePath family i) = .ok c
  reliable : Reliable (s.cachePath family i) x.disk

end

theorem journalAfter_succ (k : Nat) : journalAfter s family i site (k + 1) =
    journalAfter s family i site k ++ round s family i := by
  simp [journalAfter, List.replicate_succ']

theorem perform_download (url : String) (site : Site) : (Action.download partners url).perform site =
    (partners.fetch site.journal url, { site with journal := site.journal ++ [.fetched url] }) := by
  change (Action.attempt _).perform _ = _
  rw [Action.perform_attempt]

/-- An entry that is there is not downloaded unless that is forced. -/
theorem ensure_present (hholds : site.disk.holds (s.cachePath family i) = true) :
    (ensure s partners family i false).perform site = (.ok (s.cachePath family i), site) := by
  unfold ensure
  simp only [Action.perform_holds_bind, hholds, Bool.not_true, Bool.or_self, Bool.false_eq_true, if_false]
  rfl

section

variable {force : Bool} (hneeded : (force || !site.disk.holds (s.cachePath family i)) = true)
include hneeded

/-- A download that fails leaves the files as they are. -/
theorem ensure_failed
    (h : partners.fetch (site.journal ++
      [.noted (.downloadingIcon (s.drawingUrl family i.name i.version) force)])
      (s.drawingUrl family i.name i.version) = .error f) :
    (ensure s partners family i force).perform site = (.error f, { site with
      journal := site.journal ++
        [.noted (.downloadingIcon (s.drawingUrl family i.name i.version) force),
          .fetched (s.drawingUrl family i.name i.version)] }) := by
  unfold ensure
  simp only [Action.perform_holds_bind, hneeded, if_true, Action.note, Action.perform_record_bind]
  rw [Action.perform_bind, perform_download, h]
  simp

/-- What was downloaded is in the entry. -/
theorem ensure_stored (hreliable : Reliable (s.cachePath family i) site.disk)
    (h : partners.fetch (site.journal ++
      [.noted (.downloadingIcon (s.drawingUrl family i.name i.version) force)])
      (s.drawingUrl family i.name i.version) = .ok c) :
    ∃ after, (ensure s partners family i force).perform site = (.ok (s.cachePath family i), after) ∧
      after.journal = site.journal ++
        [.noted (.downloadingIcon (s.drawingUrl family i.name i.version) force),
          .fetched (s.drawingUrl family i.name i.version)] ∧
      after.disk.read (s.cachePath family i) = .ok c ∧
      Reliable (s.cachePath family i) after.disk := by
  let asked : Site := { site with
    journal := site.journal ++
      [.noted (.downloadingIcon (s.drawingUrl family i.name i.version) force),
        .fetched (s.drawingUrl family i.name i.version)] }
  have hasked : Reliable (s.cachePath family i) asked.disk := hreliable
  obtain ⟨after, hstore, hjournal, hread, hafter⟩ := hasked.store c
  refine ⟨after, ?_, hjournal, hread, hafter⟩
  unfold ensure
  simp only [Action.perform_holds_bind, hneeded, if_true, Action.note, Action.perform_record_bind]
  refine Action.perform_bind_of_ok (x := c) ?_ (Action.perform_bind_of_ok hstore rfl)
  rw [perform_download, h]
  simp [asked]

end

/-- A round that succeeds leads from a content that is no drawing to the next content. -/
theorem repair_again {x : Site} (hx : Stands s family i site k c x)
    (hbroken : Markup.isDrawing (Generation.shown s c) = false) {c' : Octets}
    (hbody : body s partners family i site (k + 1) = .ok c') :
    ∃ x', Stands s family i site (k + 1) c' x' ∧
      (repair s partners family i (left + 1) (s.cachePath family i)).perform x =
        (repair s partners family i left (s.cachePath family i)).perform x' := by
  let waited : Site := { x with
    journal := x.journal ++
      [.noted (.waiting s.repairs.pause i.name family), .slept s.repairs.pause] }
  rw [body, ← hx.journal] at hbody
  obtain ⟨x', hensure, hjournal, hread, hreliable⟩ := ensure_stored
    (show (true || !waited.disk.holds (s.cachePath family i)) = true from rfl) hx.reliable
    (by simpa [waited, round] using hbody)
  refine ⟨x', ⟨?_, hread, hreliable⟩, ?_⟩
  · rw [hjournal, journalAfter_succ, ← hx.journal]
    simp [waited, round]
  · rw [repair_broken hx.read hbroken]
    exact Action.perform_bind_of_ok hensure rfl

/-- A round that fails ends the repair, and the entry stays as it was. -/
theorem repair_failed {x : Site} (hx : Stands s family i site k c x)
    (hbroken : Markup.isDrawing (Generation.shown s c) = false)
    (hbody : body s partners family i site (k + 1) = .error f) :
    (repair s partners family i (left + 1) (s.cachePath family i)).perform x =
      (.error f, { x with journal := journalAfter s family i site (k + 1) }) := by
  rw [body, ← hx.journal] at hbody
  rw [repair_broken hx.read hbroken, Action.perform_bind,
    ensure_failed (Bool.true_or _) (by simpa [round] using hbody), journalAfter_succ, ← hx.journal]
  simp [round]

/-- At first the entry holds what was found or downloaded. -/
theorem drawing_begins (hreliable : Reliable (s.cachePath family i) site.disk)
    (hbody : body s partners family i site 0 = .ok c) :
    ∃ x, Stands s family i site 0 c x ∧ (drawing s partners family i).perform site =
      (repair s partners family i (attempts s partners) (s.cachePath family i)).perform x := by
  rw [body] at hbody
  unfold drawing
  split at hbody
  · rename_i hholds
    obtain ⟨c', hread⟩ := hreliable.reads hholds
    obtain rfl : c' = c := Except.ok.inj (hread.symm.trans (ok_of_mapError hbody))
    exact ⟨site, ⟨by simp [journalAfter, hholds], hread, hreliable⟩,
      Action.perform_bind_of_ok (ensure_present hholds) rfl⟩
  · rename_i hholds
    have hholds : site.disk.holds (s.cachePath family i) = false := by simpa using hholds
    obtain ⟨x, hensure, hjournal, hread, hx⟩ := ensure_stored
      (show (false || !site.disk.holds (s.cachePath family i)) = true by simp [hholds]) hreliable
      (by simpa [firstDownload] using hbody)
    refine ⟨x, ⟨?_, hread, hx⟩, Action.perform_bind_of_ok hensure rfl⟩
    rw [hjournal]
    simp [journalAfter, hholds, firstDownload]

/-- As long as all contents before it are broken and the limit allows it, each content is reached. -/
theorem drawing_reaches (hreliable : Reliable (s.cachePath family i) site.disk)
    (hk : k ≤ attempts s partners)
    (hbefore : ∀ j < k, Broken s partners family i site j)
    (hbody : body s partners family i site k = .ok c) :
    ∃ x, Stands s family i site k c x ∧ (drawing s partners family i).perform site =
      (repair s partners family i (attempts s partners - k) (s.cachePath family i)).perform x := by
  induction k generalizing c with
  | zero => exact drawing_begins hreliable hbody
  | succ k ih =>
    obtain ⟨b, hb, hbroken⟩ := hbefore k (by omega)
    obtain ⟨x, hx, hperform⟩ := ih (by omega) (fun j hj => hbefore j (by omega)) hb
    rw [show attempts s partners - k = attempts s partners - (k + 1) + 1 by omega] at hperform
    obtain ⟨x', hx', hround⟩ := repair_again hx hbroken hbody
    exact ⟨x', hx', hperform.trans hround⟩

/-! ### How repairs end -/

section

variable (s partners family i) (site)

/-- Looking for a drawing, whatever the entry held and whatever the downloads bring: the first download fails, or
one of the contents that the limit allows is the first that is a drawing, or all of them are broken, or a
download that is forced fails before. -/
structure Repaired : Prop where
  missing : ∀ f, body s partners family i site 0 = .error f →
    (drawing s partners family i).perform site =
      (.error f, { site with journal := journalAfter s family i site 0 })
  repaired : ∀ k ≤ attempts s partners, (∀ j < k, Broken s partners family i site j) →
    ∀ c, body s partners family i site k = .ok c → Markup.isDrawing (Generation.shown s c) = true →
      Ends s partners family i site (.ok (Generation.shown s c)) k c
  exhausted : ∀ n, s.repairs.limit = some n → (∀ j ≤ n, Broken s partners family i site j) →
    ∀ c, body s partners family i site n = .ok c →
      Ends s partners family i site (.error (.stillBroken i.name n)) n c
  abandoned : s.repairs.limit = none → (∀ j ≤ partners.patience, Broken s partners family i site j) →
    ∀ c, body s partners family i site partners.patience = .ok c →
      Ends s partners family i site (.error (.abandoned i.name)) partners.patience c
  failed : ∀ k < attempts s partners, (∀ j ≤ k, Broken s partners family i site j) →
    ∀ f, body s partners family i site (k + 1) = .error f →
      ∀ c, body s partners family i site k = .ok c →
        Ends s partners family i site (.error f) (k + 1) c
  /-- One of these cases applies. -/
  covered : (∃ k ≤ attempts s partners, (∀ j < k, Broken s partners family i site j) ∧
      ((∃ f, body s partners family i site k = .error f) ∨
        ∃ c, body s partners family i site k = .ok c ∧
          Markup.isDrawing (Generation.shown s c) = true)) ∨
    ∀ j ≤ attempts s partners, Broken s partners family i site j

/-- The content behind broken ones did not come, or it is a drawing, or it is broken as well. -/
theorem body_cases (k : Nat) (hbefore : ∀ j < k, Broken s partners family i site j) :
    ((∃ f, body s partners family i site k = .error f) ∨
      ∃ c, body s partners family i site k = .ok c ∧ Markup.isDrawing (Generation.shown s c) = true) ∨
      ∀ j ≤ k, Broken s partners family i site j := by
  cases hbody : body s partners family i site k with
  | error f => exact .inl (.inl ⟨f, rfl⟩)
  | ok c =>
    cases hdrawing : Markup.isDrawing (Generation.shown s c) with
    | true => exact .inl (.inr ⟨c, rfl, hdrawing⟩)
    | false =>
      refine .inr fun j hj => ?_
      rcases Nat.lt_or_eq_of_le hj with hlt | rfl
      · exact hbefore j hlt
      · exact ⟨c, hbody, hdrawing⟩

/-- Among the contents up to number `n`, there is a first one that did not come or is a drawing, unless all are
broken. -/
theorem exists_first (n : Nat) :
    (∃ k ≤ n, (∀ j < k, Broken s partners family i site j) ∧
      ((∃ f, body s partners family i site k = .error f) ∨
        ∃ c, body s partners family i site k = .ok c ∧
          Markup.isDrawing (Generation.shown s c) = true)) ∨
      ∀ j ≤ n, Broken s partners family i site j := by
  induction n with
  | zero =>
    have hbefore : ∀ j < 0, Broken s partners family i site j := by omega
    rcases body_cases s partners family i site 0 hbefore with hfirst | hbroken
    · exact .inl ⟨0, Nat.le_refl 0, hbefore, hfirst⟩
    · exact .inr hbroken
  | succ n ih =>
    rcases ih with ⟨k, hk, hfirst⟩ | hbefore
    · exact .inl ⟨k, by omega, hfirst⟩
    have hbefore : ∀ j < n + 1, Broken s partners family i site j := fun j hj => hbefore j (by omega)
    rcases body_cases s partners family i site (n + 1) hbefore with hfirst | hbroken
    · exact .inl ⟨n + 1, Nat.le_refl _, hbefore, hfirst⟩
    · exact .inr hbroken

end

/-- All contents that the limit allows are broken, so the repair is given up. -/
theorem drawing_givenUp (hreliable : Reliable (s.cachePath family i) site.disk)
    (hbroken : ∀ j ≤ attempts s partners, Broken s partners family i site j)
    (hbody : body s partners family i site (attempts s partners) = .ok c) :
    Ends s partners family i site (.error (giveUp s i)) (attempts s partners) c := by
  obtain ⟨x, hx, hperform⟩ := drawing_reaches hreliable (Nat.le_refl _)
    (fun j hj => hbroken j (Nat.le_of_lt hj)) hbody
  obtain ⟨b, hb, hlast⟩ := hbroken _ (Nat.le_refl _)
  obtain rfl := Except.ok.inj (hb.symm.trans hbody)
  refine ⟨x, hperform.trans ?_, hx.journal, hx.read⟩
  rw [Nat.sub_self]
  exact repair_zero hx.read hlast

/-- Looking for a drawing in an entry that can be stored and read: the contents are looked at one after the
other, with one pause and one download in front of each but the first. -/
theorem drawing_repairs (hreliable : Reliable (s.cachePath family i) site.disk) :
    Repaired s partners family i site where
  missing f hbody := by
    rw [body] at hbody
    split at hbody
    · rename_i hholds
      obtain ⟨c, hread⟩ := hreliable.reads hholds
      rw [hread] at hbody
      cases hbody
    · rename_i hholds
      unfold drawing
      rw [Action.perform_bind, ensure_failed
        (show (false || !site.disk.holds (s.cachePath family i)) = true by simpa using hholds)
        (by simpa [firstDownload] using hbody)]
      simp [journalAfter, hholds, firstDownload]
  repaired k hk hbefore c hbody hdrawing := by
    obtain ⟨x, hx, hperform⟩ := drawing_reaches hreliable hk hbefore hbody
    exact ⟨x, hperform.trans (repair_of_isDrawing hx.read hdrawing _), hx.journal, hx.read⟩
  exhausted n hlimit hbroken c hbody := by
    have hn : attempts s partners = n := by simp [attempts, hlimit]
    have hup : giveUp s i = .stillBroken i.name n := by simp [giveUp, hlimit]
    rw [← hup, ← hn]
    exact drawing_givenUp hreliable (hn ▸ hbroken) (hn ▸ hbody)
  abandoned hlimit hbroken c hbody := by
    have hn : attempts s partners = partners.patience := by simp [attempts, hlimit]
    have hup : giveUp s i = .abandoned i.name := by simp [giveUp, hlimit]
    rw [← hup, ← hn]
    exact drawing_givenUp hreliable (hn ▸ hbroken) (hn ▸ hbody)
  failed k hk hbroken f hbody c hlast := by
    obtain ⟨x, hx, hperform⟩ := drawing_reaches hreliable (Nat.le_of_lt hk)
      (fun j hj => hbroken j (Nat.le_of_lt hj)) hlast
    obtain ⟨b, hb, hnot⟩ := hbroken k (Nat.le_refl k)
    obtain rfl := Except.ok.inj (hb.symm.trans hlast)
    rw [show attempts s partners - k = attempts s partners - (k + 1) + 1 by omega] at hperform
    exact ⟨_, hperform.trans (repair_failed hx hnot hbody), rfl, hx.read⟩
  covered := exists_first s partners family i site (attempts s partners)

/-- Settings with two attempts, a second apart. -/
def twice : Settings :=
  { Settings.preset .legacy ⟨"/"⟩ with repairs := ⟨some 2, 1000⟩ }

/-- A project with an entry that holds no drawing. -/
def brokenSite : Site where
  disk :=
    { tree := [(["gen"], .folder), (["gen", "tmp"], .folder), (["gen", "tmp", "sot"], .folder),
        (["gen", "tmp", "sot", "icons"], .folder), (["gen", "tmp", "sot", "icons", "A"], .folder),
        (["gen", "tmp", "sot", "icons", "A", "v1-search.svg"], .file (Text.encode "<html>"))].foldl
          (fun t x => t.graft x.1 (.single x.2)) (.single .folder)
      home := [] }
  journal := []

/-- Partners that serve a drawing when they are asked for the second time. -/
def servingSecond : Partners where
  fetch journal _ := .ok (Text.encode (if journal.length < 4 then "<html>" else "<svg></svg>"))
  translate _ _ := .ok ""
  format _ _ d := (.ok (), d)
  patience := 0

/-- A broken entry is repaired by the second download. -/
theorem drawing_repairs_second :
    Reliable (twice.cachePath "A" ⟨"search", 1, [], []⟩) brokenSite.disk ∧
      Ends twice servingSecond "A" ⟨"search", 1, [], []⟩ brokenSite (.ok "<svg></svg>") 2
        (Text.encode "<svg></svg>") := by
  have hp : Path.Under twice.root (["gen", "tmp", "sot", "icons", "A"] ++ ["v1-search.svg"])
      (twice.cachePath "A" ⟨"search", 1, [], []⟩) :=
    Settings.cachePath_under (show FamilyName "A" from ⟨by decide, by decide, by decide⟩)
      (show '/' ∉ (⟨"search", 1, [], []⟩ : Icon).name.toList by decide)
  have habove : (twice.cachePath "A" ⟨"search", 1, [], []⟩).parent? =
      some ⟨"/gen/tmp/sot/icons/A"⟩ := by decide
  have hunder := hp.under_parent? (by simp) habove
  have hroot : brokenSite.disk.Walked twice.root :=
    Disk.walked_of_openRoot trivial (by decide)
  have hprepared : Prepared twice.root ["gen", "tmp", "sot", "icons", "A"] "v1-search.svg"
      ⟨"/gen/tmp/sot/icons/A"⟩ (twice.cachePath "A" ⟨"search", 1, [], []⟩) brokenSite.disk :=
    ⟨Tree.plain_of_entries (by decide),
      (Disk.walked_iff hunder.toAlong).2 ⟨hroot, by decide⟩,
      ⟨ok_of_toOption (by decide), trivial, by decide⟩, by decide⟩
  have hreliable := hprepared.reliable hp habove hunder (ok_of_toOption (by decide))
  have hbroken : ∀ j < 2, Broken twice servingSecond "A" ⟨"search", 1, [], []⟩ brokenSite j := by
    intro j hj
    refine ⟨Text.encode "<html>", ?_, by decide⟩
    obtain rfl | rfl : j = 0 ∨ j = 1 := by omega
    · exact ok_of_toOption (by decide)
    · exact ok_of_toOption (by decide)
  have hrepaired : Repaired twice servingSecond "A" ⟨"search", 1, [], []⟩ brokenSite :=
    drawing_repairs hreliable
  have hends := hrepaired.repaired 2 (by decide) hbroken (Text.encode "<svg></svg>")
    (ok_of_toOption (by decide)) (by decide)
  have hshown : Generation.shown twice (Text.encode "<svg></svg>") = "<svg></svg>" := by decide
  rw [hshown] at hends
  exact ⟨hreliable, hends⟩

end IconModules.Cache
