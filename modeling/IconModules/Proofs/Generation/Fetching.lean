import IconModules.Proofs.Generation.Confined
import IconModules.Proofs.Generation.Repairs

/-! # Fetching a drawing

`Cache.ensure` asks for a drawing at most once. It changes nothing if the entry is there or if the download
fails. What comes is written into the entry; where that is possible at once, nothing else happens. If the
folders for it are missing and can be made, the entry holds what came, there are folders all along the way to
it, and elsewhere nothing but these folders is new (`Deposited`). -/

namespace IconModules.Cache

open Disk (Confined)
open Generation (keeps_makeParent_confined keeps_store_confined)
open Installation (OnParentWay)

variable {s : Settings} {partners : Partners} {family : String} {i : Icon} {force : Bool}
  {site after : Site} {p : Path} {c : Octets} {u : Unit} {f : Failure} {d : Disk}

/-! ### Storing -/

/-- From `d` to `d'` the content `c` was put into the entry to which `p` leads, and the folders for it were
made. -/
structure Deposited (p : Path) (c : Octets) (d d' : Disk) : Prop where
  entry : d'.fileAt (d.place p) = some c
  read : d'.read p = .ok c
  above : ∀ k, OnParentWay d p k → d'.tree.get? k = some .folder
  confined : Confined (· = d.place p) (OnParentWay d p) d d'

/-- What was stored is in its entry. -/
theorem deposited_of_store (ht : site.disk.tree.Plain) (h : (store p c).perform site = (.ok u, after)) :
    Deposited p c site.disk after.disk := by
  have hkeeps : Action.Keeps
      (fun x => Confined (· = site.disk.place p) (OnParentWay site.disk p) site.disk x.disk) (store p c) :=
    keeps_store_confined (fun _ hk => .inr hk) (by rfl) c
  have hconfined := hkeeps.of_perform h (.refl ht)
  obtain ⟨l, hstored⟩ := store_ok h
  obtain rfl : l = site.disk.place p := by
    rw [← Disk.place_of_home hconfined.home]
    exact (Disk.placeToWrite_eq hconfined.plain hstored.leads).2.1
  have hentry : after.disk.fileAt (site.disk.place p) = some c := by
    rw [hstored.fileAt, if_pos rfl]
  refine ⟨hentry, Disk.read_of_placeToWrite hconfined.plain hstored.leads hentry, ?_, hconfined⟩
  rintro k ⟨above, habove, hway⟩
  exact Disk.walked_of_placeToWrite hconfined.plain habove hstored.leads k
    ((Disk.onWay_of_home hconfined.home).2 hway)

/-- Where a content can be written, it is stored. -/
theorem store_of_write (ht : site.disk.tree.Plain) (h : site.disk.write p c = .ok d) :
    (store p c).perform site = (.ok (), { site with disk := d }) := by
  obtain ⟨l, hleads, -⟩ := Disk.write_ok h
  refine Action.perform_bind_of_ok (Action.makeParent_of_placeToWrite ht hleads) ?_
  rw [Action.perform_change, h]

/-- What could not be stored leaves at most folders for it behind. -/
theorem confined_of_store_failed (ht : site.disk.tree.Plain)
    (h : (store p c).perform site = (.error f, after)) :
    Confined (fun _ => False) (OnParentWay site.disk p) site.disk after.disk := by
  have hfolders : Action.Keeps
      (fun x => Confined (fun _ => False) (OnParentWay site.disk p) site.disk x.disk)
      (Action.makeParent p) :=
    keeps_makeParent_confined fun _ hk => .inr hk
  rcases Action.perform_bind_cases h with ⟨_, hmade, -⟩ | ⟨_, made, hmade, h⟩
  · exact hfolders.of_perform hmade (.refl ht)
  · obtain rfl := Action.perform_change_failed h
    exact hfolders.of_perform hmade (.refl ht)

/-! ### Downloads -/

section

variable (s partners family i) (force) (site)

/-- The site when a drawing has been asked for, once and by its address. -/
def asked : Site :=
  { site with
    journal := site.journal ++
      [.noted (.downloadingIcon (s.drawingUrl family i.name i.version) force),
        .fetched (s.drawingUrl family i.name i.version)] }

/-- What comes when a drawing is asked for. -/
def answer : Except Failure Octets :=
  partners.fetch (site.journal ++
      [.noted (.downloadingIcon (s.drawingUrl family i.name i.version) force)])
    (s.drawingUrl family i.name i.version)

/-- Seeing to an entry, whether it is there or not, forced or not, and whatever the download brings. -/
structure Fetches : Prop where
  present : force = false → site.disk.holds (s.cachePath family i) = true →
    (ensure s partners family i force).perform site = (.ok (s.cachePath family i), site)
  failed : (force || !site.disk.holds (s.cachePath family i)) = true →
    ∀ f, answer s partners family i force site = .error f →
      (ensure s partners family i force).perform site = (.error f, asked s family i force site)
  written : (force || !site.disk.holds (s.cachePath family i)) = true →
    ∀ c, answer s partners family i force site = .ok c →
      ∀ d, site.disk.write (s.cachePath family i) c = .ok d →
        (ensure s partners family i force).perform site =
          (.ok (s.cachePath family i), { asked s family i force site with disk := d })
  stored : (force || !site.disk.holds (s.cachePath family i)) = true →
    ∀ c, answer s partners family i force site = .ok c →
      ∀ u after, (store (s.cachePath family i) c).perform (asked s family i force site) = (.ok u, after) →
        (ensure s partners family i force).perform site = (.ok (s.cachePath family i), after) ∧
          after.journal = (asked s family i force site).journal ∧
          Deposited (s.cachePath family i) c site.disk after.disk
  unstored : (force || !site.disk.holds (s.cachePath family i)) = true →
    ∀ c, answer s partners family i force site = .ok c →
      ∀ f after,
        (store (s.cachePath family i) c).perform (asked s family i force site) = (.error f, after) →
        (ensure s partners family i force).perform site = (.error f, after) ∧
          after.journal = (asked s family i force site).journal ∧
          Confined (fun _ => False) (OnParentWay site.disk (s.cachePath family i)) site.disk after.disk

end

/-- What came is stored. -/
theorem perform_ensure_of_answer (hneeded : (force || !site.disk.holds (s.cachePath family i)) = true)
    (h : answer s partners family i force site = .ok c) :
    (ensure s partners family i force).perform site =
      (store (s.cachePath family i) c >>= fun _ => pure (s.cachePath family i)).perform
        (asked s family i force site) := by
  unfold ensure
  simp only [Action.perform_holds_bind, hneeded, if_true, Action.note, Action.perform_record_bind]
  refine Action.perform_bind_of_ok (x := c) ?_ rfl
  rw [perform_download]
  simp only [answer] at h
  simp [h, asked]

theorem ensure_fetches (ht : site.disk.tree.Plain) : Fetches s partners family i force site where
  present hforce hholds := hforce ▸ ensure_present hholds
  failed hneeded f hanswer := ensure_failed hneeded hanswer
  written hneeded c hanswer d hwrite := by
    have hasked : (asked s family i force site).disk.tree.Plain := ht
    rw [perform_ensure_of_answer hneeded hanswer]
    exact Action.perform_bind_of_ok (store_of_write hasked hwrite) rfl
  stored hneeded c hanswer u after hstore := by
    have hasked : (asked s family i force site).disk.tree.Plain := ht
    have hdeposited := deposited_of_store hasked hstore
    rw [perform_ensure_of_answer hneeded hanswer]
    exact ⟨Action.perform_bind_of_ok hstore rfl, journal_store hstore, hdeposited⟩
  unstored hneeded c hanswer f after hstore := by
    have hasked : (asked s family i force site).disk.tree.Plain := ht
    have hconfined := confined_of_store_failed hasked hstore
    rw [perform_ensure_of_answer hneeded hanswer, Action.perform_bind, hstore]
    exact ⟨rfl, journal_store hstore, hconfined⟩

end IconModules.Cache
