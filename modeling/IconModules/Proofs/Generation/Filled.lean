import IconModules.Proofs.Files.Rooted
import IconModules.Proofs.Generation.Places
import IconModules.Proofs.Generation.Storing

/-! # Where modules and drawings are stored

What writing modules does to a tree without links.

* `Sound` are the disks on the way of a run: no links, and the way to the root is open.
* `Filled s ls d d'` says that since `d`, files were changed at most at the places `ls` and below the
  folder of drawings, where a drawing stays as it is.
* The pieces of a module are stored at its place (`append_filled`), and a drawing that is fetched is the
  one that its entry holds (`drawing_filled`). -/

namespace IconModules.Generation

open Disk (Extends Stored)

variable {s : Settings} {partners : Partners} {family : String} {i : Icon} {site after : Site}
  {u : Unit} {d d' d'' : Disk} {ls ls' : List Location} {k : Location} {c : Octets} {p : Path}

/-- A disk on which a run can work. -/
structure Sound (s : Settings) (home : Location) (d : Disk) : Prop where
  plain : d.tree.Plain
  named : d.tree.Named
  home : d.home = home
  way : d.OpenRoot s.root

/-- The drawing that content is read as. -/
def shown (s : Settings) (content : Octets) : String :=
  Markup.strip s.denylist (Text.decodeLossy content)

/-- Files were added and changed at the places `ls` and below the folder of drawings; drawings stay. -/
structure Filled (s : Settings) (ls : List Location) (d d' : Disk) : Prop where
  grown : Extends d d'
  named : d.tree.Named → d'.tree.Named
  files : ∀ k, k ∉ ls → ¬ d.place s.iconsFolder <+: k → d'.fileAt k = d.fileAt k
  drawn : ∀ k c, d.place s.iconsFolder <+: k → d.fileAt k = some c →
    Markup.isDrawing (shown s c) = true → d'.fileAt k = some c

theorem Filled.refl (d : Disk) : Filled s ls d d :=
  ⟨.refl d, id, fun _ _ _ => rfl, fun _ _ _ h _ => h⟩

theorem Filled.trans (h : Filled s ls d d') (h' : Filled s ls d' d'') : Filled s ls d d'' := by
  have hplace : d'.place s.iconsFolder = d.place s.iconsFolder := Disk.place_of_home h.grown.home _
  refine ⟨h.grown.trans h'.grown, h'.named ∘ h.named, fun k hk hicons => ?_,
    fun k c hicons hc hdrawing => ?_⟩
  · rw [h'.files k hk (by rwa [hplace]), h.files k hk hicons]
  · exact h'.drawn k c (by rwa [hplace]) (h.drawn k c hicons hc hdrawing) hdrawing

/-- New folders leave all files as they are. -/
theorem Filled.of_folders (h : Extends d d' ∧ (d.tree.Named → d'.tree.Named) ∧
    ∀ k, d'.fileAt k = d.fileAt k) : Filled s ls d d' :=
  ⟨h.1, h.2.1, fun k _ _ => h.2.2 k, fun k _ _ hc _ => (h.2.2 k).trans hc⟩

theorem Filled.mono (h : Filled s ls d d') (hls : ls ⊆ ls') : Filled s ls' d d' :=
  ⟨h.grown, h.named, fun k hk => h.files k fun hm => hk (hls hm), h.drawn⟩

theorem Filled.sound {home : Location} (h : Filled s ls d d') (hd : Sound s home d) :
    Sound s home d' :=
  ⟨h.grown.plain hd.plain, h.named hd.named, h.grown.home.trans hd.home, h.grown.openRoot hd.way⟩

/-! ### The files of modules -/

variable {home : Location}

/-- A path under the root leads to its place wherever a file was stored by it. -/
theorem place_of_stored {l : Location} (hd : Sound s home d) (h : Stored d p l c d') :
    d.place p = l := by
  rw [(Disk.placeToWrite_eq (h.grown.plain hd.plain) h.leads).2.1,
    Disk.place_of_home h.grown.home]

/-- The file of a module does not lie below the folder of drawings. -/
theorem module_apart (hs : s.Standard) (hf : FamilyName family) (d : Disk) :
    ¬ d.place s.iconsFolder <+: d.place (s.moduleFile family) := by
  rw [Disk.place_along s.iconsFolder_under.toAlong, Disk.place_along (hs.moduleFile_under hf).toAlong,
    List.prefix_append_right_inj]
  intro h
  simp at h

/-- A piece of a module is added to its file, and nothing else changes. -/
theorem append_filled {piece : String} (hs : s.Standard) (hf : FamilyName family)
    (hd : Sound s home site.disk)
    (h : (Assembly.append (s.moduleFile family) piece).perform site = (.ok u, after)) :
    Filled s [site.disk.place (s.moduleFile family)] site.disk after.disk ∧
      after.disk.fileAt (site.disk.place (s.moduleFile family)) =
        some ((site.disk.fileAt (site.disk.place (s.moduleFile family))).getD [] ++
          Text.encode piece) := by
  obtain ⟨l, hstored⟩ := Assembly.append_ok h
  obtain rfl := place_of_stored hd hstored
  refine ⟨⟨hstored.grown, hstored.named, fun k hk _ => ?_, fun k c hicons hc _ => ?_⟩, ?_⟩
  · rw [hstored.fileAt, if_neg (by simpa using hk)]
  · rw [hstored.fileAt, if_neg, hc]
    intro he
    rw [he] at hicons
    exact module_apart hs hf site.disk hicons
  · rw [hstored.fileAt, if_pos rfl]

/-! ### Looking at an entry -/

theorem perform_contents (h : site.disk.read p = .ok c) :
    (Cache.contents s p).perform site = (.ok (shown s c), site) := by
  unfold Cache.contents
  rw [Action.perform_bind, Action.perform_inspect, h]
  rfl

/-- A repair is done when the entry holds a drawing. -/
theorem repair_of_isDrawing (h : site.disk.read p = .ok c)
    (hdrawing : Markup.isDrawing (shown s c) = true) (left : Nat) :
    (Cache.repair s partners family i left p).perform site = (.ok (shown s c), site) := by
  cases left <;>
  · unfold Cache.repair
    refine Action.perform_bind_of_ok (perform_contents h) ?_
    rw [if_pos hdrawing]
    rfl

/-- A repair without attempts is given up when the entry is broken. -/
theorem repair_zero (h : site.disk.read p = .ok c)
    (hbroken : Markup.isDrawing (shown s c) = false) :
    (Cache.repair s partners family i 0 p).perform site = (.error (Cache.giveUp s i), site) := by
  unfold Cache.repair
  refine Action.perform_bind_of_ok (perform_contents h) ?_
  rw [if_neg (by simp [hbroken])]
  rfl

/-- A broken entry is looked at, and a round begins. -/
theorem repair_broken (h : site.disk.read p = .ok c)
    (hbroken : Markup.isDrawing (shown s c) = false) (left : Nat) :
    (Cache.repair s partners family i (left + 1) p).perform site =
      (Cache.ensure s partners family i true >>= Cache.repair s partners family i left).perform { site with
        journal := site.journal ++
          [.noted (.waiting s.repairs.pause i.name family), .slept s.repairs.pause] } := by
  rw [Cache.repair.eq_def]
  refine Action.perform_bind_of_ok (perform_contents h) ?_
  rw [if_neg (by simp [hbroken])]
  simp only [Action.note, Action.sleep, Action.perform_record_bind, List.append_assoc]
  rfl

/-- All that a repair can do: it fails at once, it is done at once, or a round begins at a broken entry. -/
theorem repair_cases {left : Nat} {r : Except Failure String}
    (h : (Cache.repair s partners family i left p).perform site = (r, after)) :
    (∃ f, r = .error f ∧ after = site) ∨
    (∃ c, site.disk.read p = .ok c ∧ Markup.isDrawing (shown s c) = true ∧ r = .ok (shown s c) ∧
      after = site) ∨
    ∃ c rest, left = rest + 1 ∧ site.disk.read p = .ok c ∧ Markup.isDrawing (shown s c) = false ∧
      (Cache.ensure s partners family i true >>= Cache.repair s partners family i rest).perform { site with
        journal := site.journal ++
          [.noted (.waiting s.repairs.pause i.name family), .slept s.repairs.pause] } = (r, after) := by
  cases hread : site.disk.read p with
  | error e =>
    have hlook : (Cache.contents s p).perform site = (.error (.files p e), site) := by
      unfold Cache.contents
      rw [Action.perform_bind, Action.perform_inspect, hread]
      rfl
    unfold Cache.repair at h
    rw [Action.perform_bind, hlook] at h
    obtain ⟨rfl, rfl⟩ := Prod.mk.inj h
    exact .inl ⟨_, rfl, rfl⟩
  | ok c =>
    cases hdrawing : Markup.isDrawing (shown s c) with
    | true =>
      rw [repair_of_isDrawing hread hdrawing] at h
      obtain ⟨rfl, rfl⟩ := Prod.mk.inj h
      exact .inr (.inl ⟨c, rfl, hdrawing, rfl, rfl⟩)
    | false =>
      cases left with
      | zero =>
        rw [repair_zero hread hdrawing] at h
        obtain ⟨rfl, rfl⟩ := Prod.mk.inj h
        exact .inl ⟨_, rfl, rfl⟩
      | succ left =>
        rw [repair_broken hread hdrawing] at h
        exact .inr (.inr ⟨c, left, rfl, rfl, hdrawing, h⟩)

/-! ### The entries of drawings -/

/-- The place of an entry lies below the folder of drawings. -/
theorem entry_below (hf : FamilyName family) (hi : '/' ∉ i.name.toList) (d : Disk) :
    d.place s.iconsFolder <+: d.place (s.cachePath family i) := by
  rw [Disk.place_along s.iconsFolder_under.toAlong,
    Disk.place_along (Settings.cachePath_under hf hi).toAlong, ← List.append_assoc]
  exact List.prefix_append _ _

section

variable (hf : FamilyName family) (hi : '/' ∉ i.name.toList)
include hf hi

/-- An entry that holds no drawing can be stored anew. -/
theorem store_filled (hd : Sound s home site.disk)
    (hnot : ∀ c, site.disk.fileAt (site.disk.place (s.cachePath family i)) = some c →
      Markup.isDrawing (shown s c) = false)
    (h : (Cache.store (s.cachePath family i) c).perform site = (.ok u, after)) :
    Filled s [] site.disk after.disk := by
  obtain ⟨l, hstored⟩ := Cache.store_ok h
  obtain rfl := place_of_stored hd hstored
  refine ⟨hstored.grown, hstored.named, fun k _ hicons => ?_, fun k c hicons hc hdrawing => ?_⟩
  · rw [hstored.fileAt, if_neg]
    intro he
    rw [he] at hicons
    exact hicons (entry_below hf hi site.disk)
  · rw [hstored.fileAt, if_neg, hc]
    intro he
    rw [he] at hc
    rw [hnot c hc] at hdrawing
    cases hdrawing

/-- Where an entry could be stored and nothing was found before, there was no file. -/
theorem fileAt_of_not_holds (hd : Sound s home site.disk)
    (hholds : site.disk.holds (s.cachePath family i) = false)
    (h : (Cache.store (s.cachePath family i) c).perform site = (.ok u, after)) :
    site.disk.fileAt (site.disk.place (s.cachePath family i)) = none := by
  have hp := Settings.cachePath_under (s := s) hf hi
  obtain ⟨l, hstored⟩ := Cache.store_ok h
  obtain ⟨-, ha, -, hshort⟩ :=
    Disk.usable_of_placeToWrite (hstored.grown.plain hd.plain) hp hstored.leads
  have hnone : site.disk.tree.get? (site.disk.place (s.cachePath family i)) = none := by
    apply Classical.byContradiction
    intro hne
    rw [(Disk.holds_iff hd.plain hp).2 ⟨ha, hd.way, hshort, hne⟩] at hholds
    cases hholds
  unfold Disk.fileAt
  rw [hnone]

omit hf hi in
theorem disk_of_download {url : String} {r : Except Failure Octets}
    (h : (Action.download partners url).perform site = (r, after)) : after.disk = site.disk := by
  have hkeeps := Action.keeps_download (Assembly.keepsRecords_disk (· = site.disk)) partners url
    site rfl
  rwa [h] at hkeeps

/-- However it ends, seeing to an entry stores it only where no drawing is. -/
theorem ensure_filled {force : Bool} {r : Except Failure Path} (hd : Sound s home site.disk)
    (hforce : force = true → ∀ c,
      site.disk.fileAt (site.disk.place (s.cachePath family i)) = some c →
        Markup.isDrawing (shown s c) = false)
    (h : (Cache.ensure s partners family i force).perform site = (r, after)) :
    Filled s [] site.disk after.disk ∧ ∀ path, r = .ok path → path = s.cachePath family i := by
  unfold Cache.ensure at h
  simp only [Action.perform_holds_bind] at h
  split at h
  · rename_i hneeded
    rw [Action.note, Action.perform_record_bind] at h
    rcases Action.perform_bind_cases h with ⟨f, hdownload, rfl⟩ | ⟨content, mid, hdownload, h⟩
    · -- nothing was downloaded
      have hdisk := disk_of_download hdownload
      change after.disk = site.disk at hdisk
      rw [hdisk]
      exact ⟨.refl _, fun path hr => by cases hr⟩
    have hdisk := disk_of_download hdownload
    change mid.disk = site.disk at hdisk
    rcases Action.perform_bind_cases h with ⟨f, hstore, rfl⟩ | ⟨_, stored, hstore, h⟩
    · have hfolders : Filled s [] mid.disk after.disk := .of_folders (Cache.store_failed hstore)
      rw [← hdisk]
      exact ⟨hfolders, fun path hr => by cases hr⟩
    obtain ⟨rfl, rfl⟩ := Prod.mk.inj h
    rw [← hdisk] at hd hforce hneeded ⊢
    have hnot : ∀ c, mid.disk.fileAt (mid.disk.place (s.cachePath family i)) = some c →
        Markup.isDrawing (shown s c) = false := by
      intro c hc
      cases force with
      | true => exact hforce rfl c hc
      | false =>
        have hholds : mid.disk.holds (s.cachePath family i) = false := by simpa using hneeded
        have hnone := fileAt_of_not_holds hf hi hd hholds hstore
        exact absurd (hc.symm.trans hnone) (by simp)
    exact ⟨store_filled hf hi hd hnot hstore, fun path hr => (Except.ok.inj hr).symm⟩
  · obtain ⟨rfl, rfl⟩ := Prod.mk.inj h
    exact ⟨.refl _, fun path hr => (Except.ok.inj hr).symm⟩

/-- What an entry is said to hold is a drawing, and the entry holds it. -/
def Confirmed (s : Settings) (family : String) (i : Icon) (d : Disk) (r : Except Failure String) :
    Prop :=
  ∀ svg, r = .ok svg → ∃ c, d.read (s.cachePath family i) = .ok c ∧
    svg = shown s c ∧ Markup.isDrawing (shown s c) = true

/-- However often an entry is downloaded again, drawings stay, and what is given in the end is the drawing
that it holds. -/
theorem repair_filled {left : Nat} {r : Except Failure String} (hd : Sound s home site.disk)
    (h : (Cache.repair s partners family i left (s.cachePath family i)).perform site =
      (r, after)) :
    Filled s [] site.disk after.disk ∧ Confirmed s family i after.disk r := by
  induction left using Nat.strongRecOn generalizing site with
  | ind left ih =>
    rcases repair_cases h with ⟨f, rfl, rfl⟩ | ⟨c, hread, hdrawing, rfl, rfl⟩ |
      ⟨c, rest, rfl, hread, hbroken, h⟩
    · exact ⟨.refl _, fun svg hr => by cases hr⟩
    · exact ⟨.refl _, fun svg hr => ⟨c, hread, (Except.ok.inj hr).symm, hdrawing⟩⟩
    have hbroken' : ∀ c', site.disk.fileAt (site.disk.place (s.cachePath family i)) = some c' →
        Markup.isDrawing (shown s c') = false := by
      intro c' hc'
      have hfile := (Disk.found_of_read hd.plain (Settings.cachePath_under hf hi) hread).2
      obtain rfl := Option.some.inj (hfile.symm.trans hc')
      exact hbroken
    rcases Action.perform_bind_cases h with ⟨f, hensure, rfl⟩ | ⟨path, ensured, hensure, h⟩
    · obtain ⟨hfilled, -⟩ := ensure_filled hf hi (by exact hd) (fun _ => by exact hbroken') hensure
      exact ⟨hfilled, fun svg hr => by cases hr⟩
    obtain ⟨hfilled, hpath⟩ := ensure_filled hf hi (by exact hd) (fun _ => by exact hbroken') hensure
    rw [hpath path rfl] at h
    obtain ⟨hfilled', hconfirmed⟩ := ih rest (Nat.lt_succ_self rest) (hfilled.sound (by exact hd)) h
    exact ⟨hfilled.trans hfilled', hconfirmed⟩

/-- However it ends, fetching a drawing keeps all drawings, and a drawing that was fetched is the one that
its entry holds. -/
theorem drawing_filled {r : Except Failure String} (hd : Sound s home site.disk)
    (h : (Cache.drawing s partners family i).perform site = (r, after)) :
    Filled s [] site.disk after.disk ∧ Confirmed s family i after.disk r := by
  rcases Action.perform_bind_cases h with ⟨f, hensure, rfl⟩ | ⟨path, ensured, hensure, h⟩
  · obtain ⟨hfilled, -⟩ := ensure_filled hf hi hd (fun hforce => by cases hforce) hensure
    exact ⟨hfilled, fun svg hr => by cases hr⟩
  · obtain ⟨hfilled, hpath⟩ := ensure_filled hf hi hd (fun hforce => by cases hforce) hensure
    rw [hpath path rfl] at h
    obtain ⟨hfilled', hconfirmed⟩ := repair_filled hf hi (hfilled.sound hd) h
    exact ⟨hfilled.trans hfilled', hconfirmed⟩

end

end IconModules.Generation
