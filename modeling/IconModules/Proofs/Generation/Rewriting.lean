import IconModules.Proofs.Files.Rereading
import IconModules.Proofs.Generation.CachedModules

/-! # Entries that are stored again and again

* `Reliable` says that an entry can be stored and read, however often that is done, in any tree. What is read is
  what was stored last (`Reliable.store`).
* Without links, it is enough that the folder of the entry is there and no folder is in its place
  (`Prepared.reliable`). -/

namespace IconModules.Cache

open Disk (Stored)

variable {site after : Site} {p : Path} {c : Octets} {d d' : Disk}

/-- The disks that come about when contents are stored by a path one after the other. -/
inductive Rewritten (p : Path) (d : Disk) : Disk → Prop
  | refl : Rewritten p d d
  | store {before after : Site} {c : Octets} (h : Rewritten p d before.disk)
      (hstore : (store p c).perform before = (.ok (), after)) : Rewritten p d after.disk

/-- Reading and storing by a path never fails, however often contents are stored. -/
structure Reliable (p : Path) (d : Disk) : Prop where
  reads : d.holds p = true → ∃ c, d.read p = .ok c
  stores : ∀ site c, Rewritten p d site.disk →
    ∃ after, (store p c).perform site = (.ok (), after) ∧ ∃ c', after.disk.read p = .ok c'

theorem Rewritten.trans {d'' : Disk} (h : Rewritten p d d') (h' : Rewritten p d' d'') :
    Rewritten p d d'' := by
  induction h' with
  | refl => exact h
  | store _ hstore ih => exact ih.store hstore

theorem journal_store {r : Except Failure Unit} (h : (store p c).perform site = (r, after)) :
    after.journal = site.journal := by
  have hkeeps : Action.Keeps (fun x => x.journal = site.journal) (store p c) :=
    (Action.Keeps.makeParent fun _ _ => Action.Keeps.carryOut fun _ h => h).bind fun _ =>
      Action.Keeps.change fun _ _ h _ => h
  exact hkeeps.of_perform h rfl

/-- What was stored is read. -/
theorem Reliable.store (h : Reliable p site.disk) (c : Octets) :
    ∃ after, (Cache.store p c).perform site = (.ok (), after) ∧ after.journal = site.journal ∧
      after.disk.read p = .ok c ∧ Reliable p after.disk := by
  obtain ⟨after, hstore, c', hread⟩ := h.stores site c .refl
  have hrewritten : Rewritten p site.disk after.disk := Rewritten.refl.store hstore
  obtain ⟨l, hstored⟩ := store_ok hstore
  obtain rfl := hstored.eq_of_read hread
  exact ⟨after, hstore, journal_store hstore, hread, fun _ => ⟨c', hread⟩,
    fun site c hs => h.stores site c (hrewritten.trans hs)⟩

/-! ### Entries without links -/

section

variable {root above : Path} {ns : List String} {n : String}

/-- A disk without links where the folder of an entry is there, and no folder in place of the entry. -/
structure Prepared (root : Path) (ns : List String) (n : String) (above p : Path) (d : Disk) : Prop where
  plain : d.tree.Plain
  walked : d.Walked above
  usable : d.Usable root (ns ++ [n]) p
  free : d.tree.get? (d.place p) ≠ some .folder

variable (hp : Path.Under root (ns ++ [n]) p) (habove : p.parent? = some above)
  (hunder : Path.Under root ns above) (haccept : Disk.acceptPath above = .ok ())
include hp

theorem Prepared.stored {l : Location} (h : Prepared root ns n above p d) (hs : Stored d p l c d') :
    Prepared root ns n above p d' := by
  have hplain := hs.grown.plain h.plain
  obtain ⟨rfl, -⟩ := Disk.usable_of_placeToWrite hplain hp hs.leads
  refine ⟨hplain, fun k hk => hs.grown.folder k (h.walked k ?_), h.usable.on (hs.grown.openRoot h.usable.way), ?_⟩
  · exact (Disk.onWay_of_home hs.grown.home).1 hk
  · have hfile := hs.fileAt (d'.place p)
    rw [if_pos rfl, Disk.fileAt_eq_some] at hfile
    simp [hfile]

theorem Prepared.read (h : Prepared root ns n above p d) (hholds : d.holds p = true) :
    ∃ c, d.read p = .ok c := by
  obtain ⟨hu, hne⟩ := (Disk.holds_usable_iff h.plain hp).1 hholds
  cases hfile : d.fileAt (d.place p) with
  | none => exact ((Disk.get?_of_no_file h.plain hfile).elim hne h.free).elim
  | some c => exact ⟨c, (Disk.read_usable_iff h.plain hp).2 ⟨hu, Disk.fileAt_eq_some.1 hfile⟩⟩

include habove hunder haccept

theorem Prepared.store (h : Prepared root ns n above p site.disk) (c : Octets) :
    ∃ after, (Cache.store p c).perform site = (.ok (), after) := by
  have hshort : ∀ s ∈ above.moves, Tree.Short s := by
    intro s hs
    rw [hunder.moves, List.mem_append] at hs
    rcases hs with hs | hs
    · exact h.usable.way.short s hs
    · obtain ⟨name, hname, rfl⟩ := List.mem_map.1 hs
      exact h.usable.short name (List.mem_append_left _ hname)
  obtain ⟨after, made, hperform, -⟩ := Action.put_of_passable (Disk.puts_write p c) hp h.plain habove hunder
    haccept (h.walked.passable hshort) h.usable.accepted h.usable.short fun d' hpaved => by
      rw [hpaved.get?_of_walked h.walked]
      exact h.free
  exact ⟨after, hperform⟩

/-- An entry in a folder that is there can be stored and read. -/
theorem Prepared.reliable (h : Prepared root ns n above p d) : Reliable p d := by
  have hrewritten : ∀ d', Rewritten p d d' → Prepared root ns n above p d' := by
    intro d' hd'
    induction hd' with
    | refl => exact h
    | store _ hstore ih =>
      obtain ⟨l, hstored⟩ := store_ok hstore
      exact ih.stored hp hstored
  refine ⟨h.read hp, fun site c hs => ?_⟩
  have hsite := hrewritten _ hs
  obtain ⟨after, hstore⟩ := hsite.store hp habove hunder haccept c
  obtain ⟨l, hstored⟩ := store_ok hstore
  have hafter := hsite.stored hp hstored
  refine ⟨after, hstore, hafter.read hp ((Disk.holds_usable_iff hafter.plain hp).2 ⟨hafter.usable, ?_⟩)⟩
  obtain ⟨rfl, -⟩ := Disk.usable_of_placeToWrite hafter.plain hp hstored.leads
  have hfile := hstored.fileAt (after.disk.place p)
  rw [if_pos rfl, Disk.fileAt_eq_some] at hfile
  simp [hfile]

end

end IconModules.Cache
