import IconModules.Text.Utf8
/-!
# Texts as octets: what was written reads back

* **`eventsFrom_encodeChar`**: reading takes a written character off, whatever follows it.
* **`decode_encode`** and **`decodeLossy_encode`**: both ways to read give a written text back, so
  no two texts are written alike.
-/

namespace IconModules.Text

/-! ### Single octets -/

theorem toNat_toUInt8 {n : Nat} (h : n < 256) : n.toUInt8.toNat = n := by
  simp [Nat.toUInt8, UInt8.toNat_ofNat', Nat.mod_eq_of_lt h]

theorem le_toUInt8_iff {b : UInt8} {n : Nat} (h : n < 256) : b ≤ n.toUInt8 ↔ b.toNat ≤ n := by
  rw [UInt8.le_iff_toNat_le, toNat_toUInt8 h]

theorem toUInt8_le_iff {b : UInt8} {n : Nat} (h : n < 256) : n.toUInt8 ≤ b ↔ n ≤ b.toNat := by
  rw [UInt8.le_iff_toNat_le, toNat_toUInt8 h]

/-- Inside a character, an octet in range is taken. -/
theorem feed_inside (left bits seen : Nat) {low high b : UInt8} (h : low ≤ b ∧ b ≤ high) :
    State.feed (.inside left low high bits seen) b =
      match left with
      | 0 => ([.char (Char.ofNat (bits * 0x40 + (b.toNat - 0x80))) (seen + 1)], .start)
      | left + 1 =>
        ([], .inside left 0x80 0xBF (bits * 0x40 + (b.toNat - 0x80)) (seen + 1)) := by
  cases left <;> exact if_pos h

theorem eventsFrom_last {n seen : Nat} {low high : UInt8} (bs : Octets)
    (hl : low.toNat ≤ 0x80 + n % 0x40) (hh : 0x80 + n % 0x40 ≤ high.toNat) :
    eventsFrom (.inside 0 low high (n / 0x40) seen) ((0x80 + n % 0x40).toUInt8 :: bs) =
      .char (Char.ofNat n) (seen + 1) :: eventsFrom .start bs := by
  have hn : 0x80 + n % 0x40 < 256 := by omega
  have h := feed_inside 0 (n / 0x40) seen
    ⟨(le_toUInt8_iff hn).2 hl, (toUInt8_le_iff hn).2 hh⟩
  rw [toNat_toUInt8 hn, Nat.add_sub_cancel_left, Nat.div_add_mod'] at h
  rw [eventsFrom, h]
  exact List.singleton_append

/-- An octet in the middle of a character, written as six of its bits. -/
theorem eventsFrom_middle {left n seen : Nat} {low high : UInt8} (bs : Octets)
    (hl : low.toNat ≤ 0x80 + n % 0x40) (hh : 0x80 + n % 0x40 ≤ high.toNat) :
    eventsFrom (.inside (left + 1) low high (n / 0x40) seen) ((0x80 + n % 0x40).toUInt8 :: bs) =
      eventsFrom (.inside left 0x80 0xBF n (seen + 1)) bs := by
  have hn : 0x80 + n % 0x40 < 256 := by omega
  have h := feed_inside (left + 1) (n / 0x40) seen
    ⟨(le_toUInt8_iff hn).2 hl, (toUInt8_le_iff hn).2 hh⟩
  rw [toNat_toUInt8 hn, Nat.add_sub_cancel_left, Nat.div_add_mod'] at h
  rw [eventsFrom, h]
  exact List.nil_append _

theorem eventsFrom_lead {b : UInt8} {st : State} (bs : Octets) (h : State.lead b = ([], st)) :
    eventsFrom .start (b :: bs) = eventsFrom st bs := by
  rw [eventsFrom, State.feed, h, List.nil_append]

/-- The first octet of two. -/
theorem lead_two {n : Nat} (h : 0x80 ≤ n) (h' : n < 0x800) :
    State.lead (0xC0 + n / 0x40).toUInt8 = ([], .inside 0 0x80 0xBF (n / 0x40) 1) := by
  rw [State.lead, toNat_toUInt8 (by omega), if_neg (by omega), if_neg (by omega),
    if_pos (by omega), Nat.add_sub_cancel_left]

/-- The first octet of three leaves room for the second one. -/
theorem lead_three {n : Nat} (h : 0x800 ≤ n) (h' : n < 0x10000)
    (hs : n < 0xD800 ∨ 0xDFFF < n) :
    ∃ low high : UInt8, State.lead (0xE0 + n / 0x1000).toUInt8 =
        ([], .inside 1 low high (n / 0x1000) 1) ∧
      low.toNat ≤ 0x80 + n / 0x40 % 0x40 ∧ 0x80 + n / 0x40 % 0x40 ≤ high.toNat := by
  rw [State.lead, toNat_toUInt8 (by omega), if_neg (by omega), if_neg (by omega),
    if_neg (by omega)]
  split
  · exact ⟨0xA0, 0xBF, by simp; omega, by simp; omega, by simp; omega⟩
  split
  · exact ⟨0x80, 0x9F, by simp; omega, by simp, by simp; omega⟩
  · rw [if_pos (by omega), Nat.add_sub_cancel_left]
    exact ⟨0x80, 0xBF, rfl, by simp, by simp; omega⟩

/-- The first octet of four leaves room for the second one. -/
theorem lead_four {n : Nat} (h : 0x10000 ≤ n) (h' : n < 0x110000) :
    ∃ low high : UInt8, State.lead (0xF0 + n / 0x40000).toUInt8 =
        ([], .inside 2 low high (n / 0x40000) 1) ∧
      low.toNat ≤ 0x80 + n / 0x1000 % 0x40 ∧ 0x80 + n / 0x1000 % 0x40 ≤ high.toNat := by
  rw [State.lead, toNat_toUInt8 (by omega), if_neg (by omega), if_neg (by omega),
    if_neg (by omega), if_neg (by omega), if_neg (by omega), if_neg (by omega)]
  split
  · exact ⟨0x90, 0xBF, by simp; omega, by simp; omega, by simp; omega⟩
  split
  · rw [Nat.add_sub_cancel_left]
    exact ⟨0x80, 0xBF, rfl, by simp, by simp; omega⟩
  · rw [if_pos (by omega)]
    exact ⟨0x80, 0x8F, by simp; omega, by simp, by simp; omega⟩

/-! ### Characters -/

/-- Reading takes a written character off. -/
theorem eventsFrom_encodeChar (c : Char) (bs : Octets) :
    eventsFrom .start (encodeChar c ++ bs) =
      .char c (encodeChar c).length :: eventsFrom .start bs := by
  have hv : c.toNat < 0xD800 ∨ 0xDFFF < c.toNat ∧ c.toNat < 0x110000 := c.valid
  have hc : Char.ofNat c.toNat = c := Char.ofNat_toNat c
  have ha : c.toNat / 0x40 / 0x40 = c.toNat / 0x1000 := Nat.div_div_eq_div_mul ..
  have hb : c.toNat / 0x1000 / 0x40 = c.toNat / 0x40000 := Nat.div_div_eq_div_mul ..
  unfold encodeChar
  dsimp only
  split
  · rename_i h
    rw [List.singleton_append, eventsFrom, State.feed, State.lead, toNat_toUInt8 (by omega),
      if_pos h, hc]
    rfl
  split
  · rw [List.cons_append, eventsFrom_lead _ (lead_two (by omega) (by omega)),
      List.singleton_append, eventsFrom_last _ (by simp) (by simp; omega), hc]
    rfl
  split
  · obtain ⟨low, high, hl, h1, h2⟩ :=
      lead_three (n := c.toNat) (by omega) (by omega) (by omega)
    rw [List.cons_append, eventsFrom_lead _ hl, ← ha, List.cons_append,
      eventsFrom_middle _ h1 h2, List.singleton_append,
      eventsFrom_last _ (by simp) (by simp; omega), hc]
    rfl
  · obtain ⟨low, high, hl, h1, h2⟩ :=
      lead_four (n := c.toNat) (by omega) (by omega)
    rw [List.cons_append, eventsFrom_lead _ hl, ← hb, List.cons_append,
      eventsFrom_middle _ h1 h2, ← ha, List.cons_append,
      eventsFrom_middle _ (by simp) (by simp; omega), List.singleton_append,
      eventsFrom_last _ (by simp) (by simp; omega), hc]
    rfl

/-! ### Texts -/

@[simp] theorem encode_append (s t : String) : encode (s ++ t) = encode s ++ encode t := by
  simp [encode]

/-- Reading what was written finds the characters, and nothing is refused. -/
theorem events_encode (s : String) :
    events (encode s) = s.toList.map fun c => .char c (encodeChar c).length := by
  unfold events encode
  induction s.toList with
  | nil => rfl
  | cons c cs ih => rw [List.flatMap_cons, eventsFrom_encodeChar, ih, List.map_cons]

theorem collect_map_char (width : Char → Nat) (offset : Nat) (cs : List Char) :
    collect offset (cs.map fun c => .char c (width c)) = .ok cs := by
  induction cs generalizing offset with
  | nil => rfl
  | cons c cs ih => rw [List.map_cons, collect, ih]; rfl

/-- Writing loses nothing. -/
theorem decode_encode (s : String) : decode (encode s) = .ok s := by
  rw [decode, events_encode, collect_map_char]
  exact congrArg Except.ok String.ofList_toList

/-- What was written is read without replacements. -/
theorem decodeLossy_encode (s : String) : decodeLossy (encode s) = s := by
  rw [decodeLossy, events_encode, List.map_map]
  exact (congrArg String.ofList (List.map_id _)).trans String.ofList_toList

end IconModules.Text
