import IconModules.Files.Disk
import IconModules.Proofs.Files.Ways

/-! # Paths that the system accepts

`Disk.acceptPath` looks at nothing but the text of a path, so a path is accepted if a longer one is that
begins with it (`accept_of_beginning`). -/

namespace IconModules

namespace Path

variable {p : Path} {t x n : String}

theorem text_join {q : Path} (h : q.isAbsolute = false) :
    (p.join q).text = p.text ++ p.divider ++ q.text := by
  simp [join, h]

theorem text_under (h : (⟨n⟩ : Path).isAbsolute = false) :
    (p.under n).text = p.text ++ p.divider ++ n :=
  text_join h

/-- Behind a text that does not end in a slash comes a slash. -/
theorem divider_of_last {c : Char} (hp : p.text = t ++ x) (hx : x.toList.getLast? = some c)
    (hc : c ≠ '/') : p.divider = "/" := by
  have hlast : p.text.toList.getLast? = some c := by
    rw [hp, String.toList_append, List.getLast?_append, hx]
    rfl
  unfold divider
  rw [hlast]
  simp [hc]

end Path

namespace Disk

variable {p q : Path} {t x y : String}

theorem acceptPath_iff : acceptPath p = .ok () ↔
    '\x00' ∉ p.text.toList ∧ p.text ≠ "" ∧ p.text.utf8ByteSize ≤ pathLimit := by
  unfold acceptPath
  split
  · rename_i h
    simp_all
  · rename_i h
    split
    · rename_i h'
      simp_all
    · rename_i h'
      split <;> simp_all

theorem accept_of_beginning (h : acceptPath q = .ok ()) (hp : p.text.toList <+: q.text.toList)
    (hne : p.text ≠ "") : acceptPath p = .ok () := by
  rw [acceptPath_iff] at h ⊢
  obtain ⟨r, hr⟩ := hp
  have htext : q.text = p.text ++ String.ofList r := by
    rw [← String.toList_inj, String.toList_append, String.toList_ofList, hr]
  refine ⟨fun hnul => h.1 ?_, hne, ?_⟩
  · rw [← hr]
    exact List.mem_append_left _ hnul
  · have hsize := h.2.2
    rw [htext, String.utf8ByteSize_append] at hsize
    omega

/-- Behind the same beginning, another text is accepted as well if it is no longer. -/
theorem accept_of_text (h : acceptPath q = .ok ()) (hq : q.text = t ++ y) (hp : p.text = t ++ x)
    (hnul : '\x00' ∉ x.toList) (hne : x ≠ "") (hsize : x.utf8ByteSize ≤ y.utf8ByteSize) :
    acceptPath p = .ok () := by
  rw [acceptPath_iff, hq] at h
  rw [acceptPath_iff, hp]
  obtain ⟨hnul', -, hsize'⟩ := h
  rw [String.utf8ByteSize_append] at hsize'
  rw [String.toList_append, List.mem_append] at hnul'
  refine ⟨?_, ?_, ?_⟩
  · rw [String.toList_append, List.mem_append]
    rintro (hm | hm)
    · exact hnul' (.inl hm)
    · exact hnul hm
  · intro he
    exact hne (String.append_eq_empty_iff.1 he).2
  · rw [String.utf8ByteSize_append]
    omega

end Disk
end IconModules
