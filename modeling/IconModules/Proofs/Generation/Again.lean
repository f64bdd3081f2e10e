import IconModules.Proofs.Files.Ahead
import IconModules.Proofs.Generation.Installing
import IconModules.Proofs.Generation.Storing

/-! # Single actions done again

An action that ended well on one disk ends well on a disk that is ahead of it (`Disk.Ahead`), and the
second is ahead of the first again: `makeParent_again`, `append_again`, `moveTo_again`. -/

namespace IconModules

open Disk (Ahead Passable Paved Usable Walked)

variable {Z : Location → Prop} {m : Disk} {x x' y : Site} {p above root old new : Path} {u : Unit}
  {n n' : String} {ns ns' : List String} {piece : String} {c : Octets}

/-! ### Making the folder for a path -/

/-- The folder for a path was made along a passable way. -/
theorem Action.makeParent_passable (ht : x.disk.tree.Plain) (hp : Path.Under root (ns ++ [n]) p)
    (hns : ns ≠ []) (hshort : ∀ n ∈ ns, n.utf8ByteSize ≤ Tree.nameLimit)
    (hstart : x.disk.tree.get? (x.disk.start root) = some .folder)
    (h : (Action.makeParent p).perform x = (.ok u, x')) :
    ∃ above, p.parent? = some above ∧ Path.Under root ns above ∧ Disk.acceptPath above = .ok () ∧
      x.disk.Passable above ∧ Paved x.disk above x'.disk ∧ x'.journal = x.journal := by
  obtain ⟨above, habove⟩ := hp.exists_parent
  have hunder := hp.under_parent? hns habove
  unfold makeParent at h
  rw [habove] at h
  obtain ⟨hnone, rfl⟩ := perform_carryOut_ok h
  obtain ⟨ha, hpassable, hpaved⟩ := Disk.makeFolders_passable ht hunder hshort
    (by rw [Disk.start_along hunder.toAlong]; exact hstart) hnone
  exact ⟨above, habove, hunder, ha, hpassable, hpaved, rfl⟩

/-- Along a passable way the folder for a path can be made. -/
theorem Action.makeParent_of_passable (ht : x.disk.tree.Plain) (habove : p.parent? = some above)
    (ha : Disk.acceptPath above = .ok ()) (h : x.disk.Passable above) :
    ∃ x', (Action.makeParent p).perform x = (.ok (), x') ∧ Paved x.disk above x'.disk ∧
      x'.journal = x.journal := by
  obtain ⟨hnone, hpaved⟩ := Disk.makeFolders_of_passable ht (Path.tidy_parent? habove) (.inl ha) h
  refine ⟨{ x with disk := (x.disk.makeFolders above).2 }, ?_, hpaved, rfl⟩
  unfold makeParent
  rw [habove]
  change (carryOut above _).perform x = _
  rw [perform_carryOut, hnone]

/-- Where a file can be written, nothing has to be done for its folder. -/
theorem Action.makeParent_of_placeToWrite {l : Location} (ht : x.disk.tree.Plain)
    (h : x.disk.placeToWrite p = .ok l) : (Action.makeParent p).perform x = (.ok (), x) := by
  unfold makeParent
  split
  · rename_i above habove
    rw [makeFolders, perform_carryOut, Disk.makeFolders_of_placeToWrite ht habove h]
  · rfl

/-- On a disk that is ahead, the folder for a path is made again or is there. -/
theorem Action.makeParent_again (ht : x.disk.tree.Plain) (htm : m.tree.Plain)
    (habove : p.parent? = some above) (ha : Disk.acceptPath above = .ok ())
    (hpassable : x.disk.Passable above)
    (hm : ∀ k, x.disk.OnWay above k → Z k → m.tree.get? k = some .folder)
    (h : Ahead Z m x.disk y.disk) {d : Disk} (hpaved : Paved x.disk above d) :
    ∃ y', (Action.makeParent p).perform y = (.ok (), y') ∧ Paved y.disk above y'.disk ∧
      Ahead Z m d y'.disk ∧ y'.journal = y.journal := by
  obtain ⟨y', hperform, hpaved', hjournal⟩ := makeParent_of_passable (h.plain htm ht) habove ha
    (h.passable hm hpassable)
  exact ⟨y', hperform, hpaved', h.paved hm hpaved hpaved', hjournal⟩

/-! ### Putting a file -/

/-- An operation that puts a file where a path leads; what it puts there depends on the file that is there. -/
structure Disk.Puts (p : Path) (content : Option Octets → Octets) (op : Disk → Except FileError Disk) :
    Prop where
  ok : ∀ d d', op d = .ok d' → ∃ l, d.placeToWrite p = .ok l ∧
    Disk.Put d l (.file (content (d.fileAt l))) d'
  of_place : ∀ d l, d.placeToWrite p = .ok l → ∃ d', op d = .ok d'

theorem Disk.puts_write (p : Path) (c : Octets) : Disk.Puts p (fun _ => c) (·.write p c) where
  ok _ _ h := write_ok h
  of_place d l h := ⟨d.withTree (d.tree.graft l (.single (.file c))), by simp only [write, h]; rfl⟩

theorem Disk.puts_append (p : Path) (c : Octets) :
    Disk.Puts p (fun old => old.getD [] ++ c) (·.append p c) where
  ok _ _ h := append_ok h
  of_place d l h := ⟨d.withTree (d.tree.graft l (.single (.file (d.contentAt l ++ c)))),
    by simp only [append, h]; rfl⟩

section

variable {content : Option Octets → Octets} {op : Disk → Except FileError Disk}
  (hputs : Disk.Puts p content op) (hp : Path.Under root (ns ++ [n]) p)
include hputs hp

/-- What making the folder for a file and putting the file there does to a disk. -/
theorem Action.put_exact (ht : x.disk.tree.Plain) (hns : ns ≠ [])
    (hstart : x.disk.tree.get? (x.disk.start root) = some .folder)
    (h : (do Action.makeParent p; Action.change p op).perform x = (.ok u, x')) :
    ∃ above d, p.parent? = some above ∧ Path.Under root ns above ∧ Disk.acceptPath above = .ok () ∧
      x.disk.Passable above ∧ Paved x.disk above d ∧ d.Usable root (ns ++ [n]) p ∧
      d.tree.get? (x.disk.place p) ≠ some .folder ∧
      Disk.Put d (x.disk.place p) (.file (content (d.fileAt (x.disk.place p)))) x'.disk := by
  obtain ⟨_, made, hmade, h⟩ := Action.perform_bind_ok h
  obtain ⟨d, hop, rfl⟩ := Action.perform_change_ok h
  have htmade := (Action.makeParent_extends hmade).1.plain ht
  obtain ⟨l, hl, hput⟩ := hputs.ok _ _ hop
  obtain ⟨rfl, haccept, hway, hshort⟩ := Disk.usable_of_placeToWrite htmade hp hl
  obtain ⟨above, habove, hunder, ha, hpassable, hpaved, -⟩ := Action.makeParent_passable ht hp hns
    (fun n hn => hshort n (List.mem_append_left _ hn)) hstart hmade
  have hthere : made.disk.tree.get? (made.disk.place p) ≠ some .folder := by
    obtain ⟨-, -, -, -, -, -, -, -, -, he⟩ := Disk.placeToWrite_eq htmade hl
    rcases he with he | ⟨c, he⟩ <;> simp [he]
  rw [Disk.place_of_home hpaved.home] at hthere hput
  exact ⟨above, made.disk, habove, hunder, ha, hpassable, hpaved, ⟨haccept, hway, hshort⟩, hthere, hput⟩

/-- Along a passable way the folder for a file can be made, and the file can be put there if no folder is in its
place. -/
theorem Action.put_of_passable (ht : y.disk.tree.Plain) (habove : p.parent? = some above)
    (hunder : Path.Under root ns above) (ha : Disk.acceptPath above = .ok ())
    (h : y.disk.Passable above) (haccept : Disk.acceptPath p = .ok ())
    (hshort : ∀ name ∈ ns ++ [n], name.utf8ByteSize ≤ Tree.nameLimit)
    (hthere : ∀ d, Paved y.disk above d → d.tree.get? (y.disk.place p) ≠ some .folder) :
    ∃ y' d, (do Action.makeParent p; Action.change p op).perform y = (.ok (), y') ∧
      Paved y.disk above d ∧
      Disk.Put d (y.disk.place p) (.file (content (d.fileAt (y.disk.place p)))) y'.disk ∧
      y'.journal = y.journal := by
  obtain ⟨made, hperform, hpaved, hjournal⟩ := Action.makeParent_of_passable ht habove ha h
  have hplace : made.disk.place p = y.disk.place p := Disk.place_of_home hpaved.home p
  have hwalked := (Disk.walked_iff hunder.toAlong).1 hpaved.walked_all
  rw [Disk.place_along (d := made.disk) hunder.toAlong] at hwalked
  have hway : made.disk.OpenRoot root := hwalked.1.openRoot fun s hs =>
    h.short s (hunder.moves ▸ List.mem_append_left _ hs)
  have hwrite := Disk.placeToWrite_of_usable (hpaved.plain ht) hp ⟨haccept, hway, hshort⟩ hwalked.2
    (hplace ▸ hthere _ hpaved)
  obtain ⟨d', hop⟩ := hputs.of_place _ _ hwrite
  obtain ⟨l, hl, hput⟩ := hputs.ok _ _ hop
  obtain rfl := Except.ok.inj (hwrite.symm.trans hl)
  rw [hplace] at hput
  refine ⟨{ made with disk := d' }, made.disk, ?_, hpaved, hput, hjournal⟩
  refine Action.perform_bind_of_ok hperform ?_
  rw [Action.perform_change, hop]

end

/-- A piece that was added to a file is added to it again. -/
theorem Assembly.append_again (ht : x.disk.tree.Plain) (htm : m.tree.Plain)
    (hp : Path.Under root (ns ++ [n]) p) (hns : ns ≠ []) (hw : x.disk.Walked root)
    (hm : ∀ k, x.disk.OnRoad root ns k → Z k → m.tree.get? k = some .folder)
    (hpZ : ¬ Z (x.disk.place p)) (h : Ahead Z m x.disk y.disk)
    (hrun : (Assembly.append p piece).perform x = (.ok u, x')) :
    ∃ y', (Assembly.append p piece).perform y = (.ok u, y') ∧ Ahead Z m x'.disk y'.disk ∧
      y'.journal = y.journal := by
  have hputs := Disk.puts_append p (Text.encode piece)
  obtain ⟨above, d, habove, hunder, ha, hpassable, hpaved, hu, hthere, hput⟩ :=
    Action.put_exact hputs hp ht hns hw.start hrun
  have hplace : y.disk.place p = x.disk.place p := Disk.place_of_home h.home p
  have hway : ∀ k, x.disk.OnWay above k → Z k → m.tree.get? k = some .folder :=
    fun k hk => hm k ((Disk.onWay_along_iff hunder.toAlong).1 hk)
  -- the second disk looks the same at the place of the file
  have hsame : ∀ d', Paved y.disk above d' →
      d'.tree.get? (x.disk.place p) = d.tree.get? (x.disk.place p) :=
    fun d' hpaved' => (h.paved hway hpaved hpaved').same _ hpZ
  obtain ⟨y', d', hperform, hpaved', hput', hjournal⟩ := Action.put_of_passable hputs hp
    (h.plain htm ht) habove hunder ha (h.passable hway hpassable) hu.accepted hu.short
    (fun d' hpaved' => by rw [hplace, hsame d' hpaved']; exact hthere)
  rw [hplace, Disk.fileAt_congr (hsame d' hpaved')] at hput'
  exact ⟨y', hperform, (h.paved hway hpaved hpaved').put hpZ hput hput', hjournal⟩

/-! ### Moving a file -/

/-- What moving something does to a disk: the folder for it is made, and it is moved there. -/
theorem Installation.moveTo_exact (ht : x.disk.tree.Plain)
    (hold : Path.Under root (ns ++ [n]) old) (hnew : Path.Under root (ns' ++ [n']) new)
    (hns' : ns' ≠ []) (hstart : x.disk.tree.get? (x.disk.start root) = some .folder)
    (hapart : Disk.Apart (x.disk.place old) (x.disk.place new))
    (h : (Action.moveTo old new).perform x = (.ok u, x')) :
    ∃ above d, new.parent? = some above ∧ Path.Under root ns' above ∧
      Disk.acceptPath above = .ok () ∧ x.disk.Passable above ∧ Paved x.disk above d ∧
      Disk.Moved d (x.disk.place old) (x.disk.place new) x'.disk ∧
      d.Usable root (ns ++ [n]) old ∧ d.Usable root (ns' ++ [n']) new ∧
      ∃ e, d.tree.get? (x.disk.place old) = some e ∧
        Disk.obstacle? d.tree (x.disk.place new) e = none := by
  obtain ⟨_, noted, hnote, h⟩ := Action.perform_bind_ok h
  obtain rfl := Action.perform_record_ok hnote
  obtain ⟨_, made, hmade, h⟩ := Action.perform_bind_ok h
  obtain ⟨d, hmove, rfl⟩ := Action.perform_change_ok h
  have hhome := (Action.makeParent_extends hmade).1.home
  have htmade := (Action.makeParent_extends hmade).1.plain (by exact ht)
  have hplace : ∀ p, made.disk.place p = x.disk.place p := Disk.place_of_home hhome
  obtain ⟨hu, hu', hfolder, e, he, hobstacle⟩ := (Disk.move_usable_iff htmade hold hnew
    (by rw [hplace, hplace]; simpa using hapart.elsewhere [])
    (by rw [hplace, hplace]; simpa using hapart.symm.elsewhere [])).1 ⟨d, hmove⟩
  obtain ⟨above, habove, hunder, ha, hpassable, hpaved, -⟩ := Action.makeParent_passable
    (by exact ht) hnew hns' (fun n hn => hu'.short n (List.mem_append_left _ hn)) (by exact hstart) hmade
  have hmoved := (Disk.move_place htmade hmove).1
  rw [hplace, hplace] at hmoved
  rw [hplace] at he hobstacle
  exact ⟨above, made.disk, habove, hunder, ha, hpassable, hpaved, hmoved, hu, hu', e, he, hobstacle⟩

/-- A file that was moved is moved again, onto what it will be replaced by at the places that are
ahead. -/
theorem Installation.moveTo_again (ht : x.disk.tree.Plain) (htm : m.tree.Plain)
    (hold : Path.Under root (ns ++ [n]) old) (hnew : Path.Under root (ns' ++ [n']) new)
    (hns' : ns' ≠ []) (hw : x.disk.Walked root)
    (hapart : Disk.Apart (x.disk.place old) (x.disk.place new))
    (hm : ∀ k, x.disk.OnRoad root ns' k → Z k → m.tree.get? k = some .folder)
    (hfile : x.disk.tree.get? (x.disk.place old) = some (.file c))
    (hZ : ∀ q, ¬ Z (x.disk.place old ++ q))
    (hmZ : ∀ q, Z (x.disk.place new ++ q) →
      m.tree.get? (x.disk.place new ++ q) = x.disk.tree.get? (x.disk.place old ++ q))
    (h : Ahead Z m x.disk y.disk) (hrun : (Action.moveTo old new).perform x = (.ok u, x')) :
    ∃ y', (Action.moveTo old new).perform y = (.ok u, y') ∧ Ahead Z m x'.disk y'.disk ∧
      y'.journal = y.journal ++ [.noted (.moving old new)] := by
  obtain ⟨above, d, habove, hunder, ha, hpassable, hpaved, hmoved, hu, hu', e, he, hobstacle⟩ :=
    moveTo_exact ht hold hnew hns' hw.start hapart hrun
  let noted : Site := { y with journal := y.journal ++ [.noted (.moving old new)] }
  obtain ⟨y₁, hperform, hpaved', hahead, hjournal⟩ := Action.makeParent_again (y := noted) ht htm habove
    ha hpassable (fun k hk => hm k ((Disk.onWay_along_iff hunder.toAlong).1 hk)) h hpaved
  have hplace : ∀ p, y₁.disk.place p = x.disk.place p := fun p =>
    (Disk.place_of_home hahead.home p).trans (Disk.place_of_home hpaved.home p)
  have hsource := hpaved.get?_of_file hpassable hfile
  have hd : d.tree.get? (x.disk.place old) = some (.file c) := by
    have hnil := hsource []
    rwa [List.append_nil, hfile] at hnil
  obtain rfl : e = .file c := Option.some.inj (he.symm.trans hd)
  have hwalked := (Disk.walked_iff hunder.toAlong).1 hpaved'.walked_all
  rw [Disk.place_along hunder.toAlong] at hwalked
  have hway : y₁.disk.OpenRoot root := hwalked.1.openRoot fun s hs =>
    hpassable.short s (hunder.moves ▸ List.mem_append_left _ hs)
  have htd : d.tree.Plain := hpaved.plain ht
  have hty := hahead.plain htm htd
  have hsource' : y₁.disk.tree.get? (x.disk.place old) = some (.file c) := by
    rw [hahead.same _ (by simpa using hZ []), hd]
  have htarget : y₁.disk.tree.get? (x.disk.place new) ≠ some .folder := by
    by_cases hnewZ : Z (x.disk.place new)
    · have hend := hmZ [] (by simpa using hnewZ)
      rw [List.append_nil, List.append_nil, hfile] at hend
      rw [hahead.ahead _ hnewZ, hend]
      simp
    · rw [hahead.same _ hnewZ]
      exact Disk.obstacle?_none hobstacle (by simp)
  obtain ⟨d', hmove⟩ := Disk.move_of_usable hty hold hnew
    (by rw [hplace, hplace]; simpa using hapart.elsewhere [])
    (by rw [hplace, hplace]; simpa using hapart.symm.elsewhere [])
    (hu.on hway) (hu'.on hway) hwalked.2 (by rw [hplace, hsource'])
    (Disk.obstacle?_of_ne_folder (by simp) (by rw [hplace]; exact htarget))
  have hmoved' := (Disk.move_place hty hmove).1
  rw [hplace, hplace] at hmoved'
  refine ⟨{ y₁ with disk := d' }, ?_, hahead.moved hZ (fun q hq => ?_) hmoved hmoved', hjournal⟩
  · change (Action.note _ >>= fun _ => Action.makeParent new >>= fun _ => _).perform y = _
    rw [Action.note, Action.perform_record_bind]
    refine Action.perform_bind_of_ok hperform ?_
    rw [Action.perform_change, hmove]
  · rw [hmZ q hq, hsource]

end IconModules
