import IconModules.Proofs.Files.Growth

/-! # Reading what was stored

In any tree, also through links: what is read by a path to which a file was stored is the content of that
file (`Stored.eq_of_read`).

* `Tree.Leads` follows steps and links to their end, however many there are. Who goes a way to its end comes by
  the places on it (`Leads.behind`).
* So a path is followed through the folder in which it writes, to the same place (`Leads.eq_of_placeToWrite`). -/

namespace IconModules

namespace Tree

variable {t : Tree} {here l mid : Location} {steps rest : List Path.Step} {stop : Stop} {n : String}

/-- Where more steps lead behind a stop. -/
def Stop.further (t : Tree) (rest : List Path.Step) : Stop → Except FileError Stop
  | .at place => t.stride true place rest
  | .link folder target more => .ok (.link folder target (more ++ rest))

/-- Steps are taken one part after the other; a link that stops the first part stops both. -/
theorem stride_append (h : t.stride true here steps = .ok stop) (rest : List Path.Step) :
    t.stride true here (steps ++ rest) = stop.further t rest := by
  induction steps generalizing here with
  | nil =>
    obtain rfl := Except.ok.inj h
    rfl
  | cons step steps ih =>
    rw [stride_cons] at h
    rw [List.cons_append, stride_cons]
    split at h
    · cases h
    · cases step with
      | stay => exact ih h
      | up => exact ih h
      | into n =>
        simp only [Bool.not_true, Bool.and_false, Bool.false_eq_true, if_false] at h ⊢
        split at h
        · cases h
        · rename_i hshort
          rw [if_neg hshort]
          split at h
          · obtain rfl := Except.ok.inj h
            rfl
          · exact ih h
    · cases h

/-- Idle steps lead nowhere. -/
theorem stride_stay {k : Nat} (h : t.stride true here (List.replicate k .stay) = .ok stop) :
    stop = .at here := by
  induction k with
  | zero => exact (Except.ok.inj h).symm
  | succ k ih =>
    rw [List.replicate_succ, stride_cons] at h
    split at h
    · cases h
    · exact ih h
    · cases h

/-- Steps lead to a place when all links are followed. -/
inductive Leads (t : Tree) : Location → List Path.Step → Location → Prop
  | stop {here place : Location} {steps : List Path.Step}
      (h : t.stride true here steps = .ok (.at place)) : Leads t here steps place
  | link {here folder place : Location} {target : Path} {steps more : List Path.Step}
      (h : t.stride true here steps = .ok (.link folder target more))
      (hrest : Leads t (if target.isAbsolute then [] else folder) (target.steps ++ more) place) :
      Leads t here steps place

/-- What is found is where the steps lead. -/
theorem leads_of_seek {links : Nat} (h : t.seek true links here steps = .ok l) :
    t.Leads here steps l := by
  induction links generalizing here steps with
  | zero =>
    unfold seek at h
    split at h
    · cases h
    · rename_i place hstop
      obtain rfl := Except.ok.inj h
      exact .stop hstop
    · cases h
  | succ links ih =>
    unfold seek at h
    split at h
    · cases h
    · rename_i place hstop
      obtain rfl := Except.ok.inj h
      exact .stop hstop
    · rename_i folder target more hstop
      exact .link hstop (ih h)

/-- A way to its end goes on from every place on it. -/
theorem Leads.behind (hmid : t.Leads here steps mid) (h : t.Leads here (steps ++ rest) l) :
    t.Leads mid rest l := by
  induction hmid with
  | stop hstop =>
    have hfurther := stride_append hstop rest
    cases h with
    | stop h => exact .stop (hfurther.symm.trans h)
    | link h hrest => exact .link (hfurther.symm.trans h) hrest
  | link hstop _ ih =>
    have hfurther := stride_append hstop rest
    cases h with
    | stop h => cases hfurther.symm.trans h
    | link h hrest =>
      obtain ⟨rfl, rfl, rfl⟩ := Stop.link.inj (Except.ok.inj (hfurther.symm.trans h))
      rw [← List.append_assoc] at hrest
      exact ih hrest

/-- A name in a folder leads to its place, or on through the link that is there. -/
theorem Leads.into {k : Nat} (hf : t.get? here = some .folder)
    (h : t.Leads here (.into n :: List.replicate k .stay) l) :
    l = here ++ [n] ∧ (∀ target, t.get? (here ++ [n]) ≠ some (.link target)) ∨
      ∃ target, t.get? (here ++ [n]) = some (.link target) ∧
        t.Leads (if (⟨target⟩ : Path).isAbsolute then [] else here)
          ((⟨target⟩ : Path).steps ++ List.replicate k .stay) l := by
  have hstride := t.stride_cons true here (.into n) (List.replicate k .stay)
  rw [hf] at hstride
  by_cases hlink : ∃ target, t.get? (here ++ [n]) = some (.link target)
  · obtain ⟨target, htarget⟩ := hlink
    simp only [htarget, Bool.not_true, Bool.and_false, Bool.false_eq_true, if_false] at hstride
    split at hstride
    · cases h with
      | stop h => cases hstride.symm.trans h
      | link h _ => cases hstride.symm.trans h
    · cases h with
      | stop h => cases hstride.symm.trans h
      | link h hrest =>
        obtain ⟨rfl, rfl, rfl⟩ := Stop.link.inj (Except.ok.inj (hstride.symm.trans h))
        exact .inr ⟨target, htarget, hrest⟩
  · have hno : ∀ target, t.get? (here ++ [n]) ≠ some (.link target) := fun target htarget =>
      hlink ⟨target, htarget⟩
    have hplace : ∀ {stop : Stop},
        t.stride true here (.into n :: List.replicate k .stay) = .ok stop → stop = .at (here ++ [n]) := by
      intro stop h
      rw [hstride] at h
      simp only at h
      split at h
      · cases h
      · exact stride_stay h
    cases h with
    | stop h => exact .inl ⟨Stop.at.inj (hplace h), hno⟩
    | link h _ => cases hplace h

end Tree

namespace Disk

variable {d d' : Disk} {p : Path} {l l' : Location} {c c' : Octets}

/-- A path that is followed to its end gets to the place where it writes. -/
theorem eq_of_placeToWriteFrom {links k : Nat} (hw : placeToWriteFrom links d p = .ok l)
    (h : d.tree.Leads (if p.isAbsolute then [] else d.home) (p.steps ++ List.replicate k .stay) l') :
    l' = l := by
  induction links using Nat.strongRecOn generalizing d p k with
  | ind links ih =>
    obtain ⟨folder, n, hf, hn, -, -, hplace⟩ := placeToWriteFrom_cases hw
    obtain ⟨-, hseek, hfolder⟩ := folderOf_ok hf
    obtain ⟨-, j, hsteps⟩ := Path.steps_of_ending_name hn
    rw [hsteps, List.append_assoc, List.cons_append, List.replicate_append_replicate] at h
    rcases ((Tree.leads_of_seek hseek).behind h).into hfolder with ⟨rfl, hno⟩ | ⟨target, htarget, h⟩
    · rcases hplace with ⟨rfl, -⟩ | ⟨target, -, -, htarget, -⟩
      · rfl
      · exact absurd htarget (hno target)
    · rcases hplace with ⟨rfl, hnone | ⟨c, hfile⟩⟩ | ⟨target', links', rfl, htarget', hw⟩
      · rw [hnone] at htarget
        cases htarget
      · rw [hfile] at htarget
        cases htarget
      · obtain rfl := Entry.link.inj (Option.some.inj (htarget.symm.trans htarget'))
        exact ih links' (by omega) hw h

/-- What is read by a path is the file at the place where it writes. -/
theorem fileAt_of_read (hw : d.placeToWrite p = .ok l) (h : d.read p = .ok c) : d.fileAt l = some c := by
  obtain ⟨l', hfind⟩ := read_ok h
  obtain ⟨hlocate, he⟩ := find_ok hfind
  obtain ⟨-, hseek⟩ := locate_ok hlocate
  have hleads := Tree.leads_of_seek hseek
  rw [← List.append_nil p.steps] at hleads
  obtain rfl := eq_of_placeToWriteFrom (k := 0) hw hleads
  exact fileAt_eq_some.2 he

/-- What is read by a path where a file was stored is what was stored. -/
theorem Stored.eq_of_read (h : Stored d p l c d') (hread : d'.read p = .ok c') : c' = c := by
  have hfile := fileAt_of_read h.leads hread
  rw [h.fileAt, if_pos rfl] at hfile
  exact (Option.some.inj hfile).symm

end Disk
end IconModules
