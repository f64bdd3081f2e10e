import IconModules.Text.Utf8.Lemmas
import Mathlib.Data.List.Lex
import Mathlib.Data.String.Basic

/-! # The order of texts and the order of their octets

Texts are compared character by character. Comparing the octets that they are written with gives the same
order.

* The octets of a smaller character come first, whatever follows them (`encodeChar_lt`): fewer octets begin
  with a smaller one, and among as many octets the leading bits decide.
* Therefore `encode` keeps the order (`encode_strictMono`) and reflects it (`encode_lt_iff`). -/

namespace IconModules.Text

variable {c d : Char} {s t : String} {m n : Nat} {x y : Octets}

/-- The octet in front decides, and where it is the same, what follows it. -/
theorem toUInt8_cons_lt (hle : m ≤ n) (hn : n < 256) (h : m = n → x < y) :
    m.toUInt8 :: x < n.toUInt8 :: y := by
  rw [List.cons_lt_cons_iff, UInt8.lt_iff_toNat_lt, toNat_toUInt8 (Nat.lt_of_le_of_lt hle hn),
    toNat_toUInt8 hn]
  rcases Nat.lt_or_eq_of_le hle with hlt | rfl
  · exact .inl hlt
  · exact .inr ⟨rfl, h rfl⟩

/-- A smaller character is written with smaller octets. -/
theorem encodeChar_lt (h : c < d) (x y : Octets) : encodeChar c ++ x < encodeChar d ++ y := by
  have hcd : c.toNat < d.toNat := h
  have hd : d.toNat < 0x110000 :=
    d.valid.elim (fun hv => Nat.lt_trans hv (by decide)) fun hv => hv.2
  -- fewer octets begin with a smaller one
  have hfewer : ∀ {m n : Nat} {x y : Octets}, m < n → n < 256 → m.toUInt8 :: x < n.toUInt8 :: y :=
    fun hlt hn => toUInt8_cons_lt (Nat.le_of_lt hlt) hn fun he => absurd he (Nat.ne_of_lt hlt)
  unfold encodeChar
  dsimp only
  split
  · split
    · exact hfewer hcd (by omega)
    split
    · exact hfewer (by omega) (by omega)
    split
    · exact hfewer (by omega) (by omega)
    · exact hfewer (by omega) (by omega)
  rw [if_neg (by omega : ¬d.toNat < 0x80)]
  split
  · split
    · exact toUInt8_cons_lt (by omega) (by omega) fun h₁ => hfewer (by omega) (by omega)
    split
    · exact hfewer (by omega) (by omega)
    · exact hfewer (by omega) (by omega)
  rw [if_neg (by omega : ¬d.toNat < 0x800)]
  split
  · split
    · exact toUInt8_cons_lt (by omega) (by omega) fun h₁ =>
        toUInt8_cons_lt (by omega) (by omega) fun h₂ => hfewer (by omega) (by omega)
    · exact hfewer (by omega) (by omega)
  rw [if_neg (by omega : ¬d.toNat < 0x10000)]
  exact toUInt8_cons_lt (by omega) (by omega) fun h₁ =>
    toUInt8_cons_lt (by omega) (by omega) fun h₂ =>
      toUInt8_cons_lt (by omega) (by omega) fun h₃ => hfewer (by omega) (by omega)

theorem encodeChar_ne_nil (c : Char) : encodeChar c ≠ [] := by
  unfold encodeChar
  dsimp only
  split
  · exact List.cons_ne_nil _ _
  split
  · exact List.cons_ne_nil _ _
  split <;> exact List.cons_ne_nil _ _

/-- A smaller text is written with smaller octets. -/
theorem encode_strictMono (h : s < t) : encode s < encode t := by
  rw [String.lt_iff_toList_lt] at h
  unfold encode
  generalize s.toList = cs at h
  generalize t.toList = ds at h
  induction cs generalizing ds with
  | nil =>
    cases ds with
    | nil => exact absurd h (List.not_lt_nil _)
    | cons d ds =>
      obtain ⟨b, bs, hb⟩ := List.exists_cons_of_ne_nil (encodeChar_ne_nil d)
      rw [List.flatMap_nil, List.flatMap_cons, hb]
      exact List.nil_lt_cons _ _
  | cons c cs ih =>
    cases ds with
    | nil => exact absurd h (List.not_lt_nil _)
    | cons d ds =>
      rw [List.flatMap_cons, List.flatMap_cons]
      rcases List.cons_lt_cons_iff.1 h with hlt | ⟨rfl, hlt⟩
      · exact encodeChar_lt hlt _ _
      · exact List.append_left_lt (ih _ hlt)

/-- Texts are in the order of the octets that they are written with. -/
theorem encode_lt_iff : encode s < encode t ↔ s < t := by
  refine ⟨fun h => ?_, encode_strictMono⟩
  rcases lt_trichotomy s t with hlt | rfl | hgt
  · exact hlt
  · exact absurd h (List.lt_irrefl _)
  · exact absurd h (List.lt_asymm (encode_strictMono hgt))

end IconModules.Text
