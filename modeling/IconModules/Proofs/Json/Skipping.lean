import IconModules.Proofs.Json.Structures

/-! # Skipping values of any depth

Every value that may be written is skipped as a whole (`skipValue_value`), however deep its brackets are.

The open brackets are kept in a list, and fuel is used up step by step. So what a piece of input comes to is stated as
a number of steps: with that much fuel more, skipping it leads to what is pending behind it. The induction is on the
depth, and for each depth on the elements of a bracket (`skips_items`). A value takes fewer than two steps for each
of its octets. -/

namespace IconModules.Json

variable {r : Reader} {a t v w : Octets} {fuel n d : Nat} {first : Bool}

/-! ### Texts -/

theorem skipTextFrom_plain {b : UInt8} (hr : r.rest = b :: t) (hb : isPlain b = true) :
    skipTextFrom (fuel + 1) r = skipTextFrom (fuel + 1) r.next := by
  have hrest : (r.skip 1).rest = t := Reader.rest_next hr
  unfold skipTextFrom
  simp only [hr, hrest, List.takeWhile_cons, hb, if_true, List.length_cons, Reader.next_eq, Reader.skip_skip,
    Nat.add_comm _ 1]

theorem skipTextFrom_quote (hr : r.rest = octet '"' :: t) : skipTextFrom (fuel + 1) r = .ok r.next := by
  have hplain : isPlain (octet '"') = false := by decide
  unfold skipTextFrom
  simp [hr, hplain, Reader.head?_of_rest hr]

theorem skipTextFrom_escape {e c : Char} (he : (e, c) ∈ escapes)
    (hr : r.rest = octet '\\' :: octet e :: t) :
    skipTextFrom (fuel + 1) r = skipTextFrom fuel (r.skip 2) := by
  obtain ⟨hu, hsmall, hlookup⟩ := escape_cases he
  have hplain : isPlain (octet '\\') = false := by decide
  have hnext : r.next.head? = some e := Reader.head?_of_rest (Reader.rest_next hr) hsmall
  rw [skipTextFrom]
  simp [hr, hplain, Reader.head?_of_rest hr, hnext, hlookup]

theorem skipTextFrom_number (hv : Numbered v n) (hr : r.rest = v ++ t) :
    skipTextFrom (fuel + 1) r = skipTextFrom fuel (r.skip v.length) := by
  obtain ⟨v, rfl⟩ := hv.eq_cons
  have hplain : isPlain (octet '\\') = false := by decide
  have hr : r.rest = octet '\\' :: octet 'u' :: (v ++ t) := hr
  have hnext : r.next.head? = some 'u' := Reader.head?_of_rest (Reader.rest_next hr) (by decide)
  have hdigits : (r.skip 2).rest = v ++ t := by
    rw [← Reader.skip_skip r 1 1]
    exact Reader.rest_next (Reader.rest_next hr)
  rw [skipTextFrom]
  simp [hr, hplain, Reader.head?_of_rest hr, hnext, (readHex_numbered hv hdigits).1, Nat.add_comm,
    Nat.add_left_comm]

/-- The inside of a text is skipped up to the quote that closes it. -/
theorem skipTextFrom_loose (h : Loose w) (hr : r.rest = w ++ octet '"' :: t) (hfuel : w.length < fuel) :
    skipTextFrom fuel r = .ok (r.skip (w.length + 1)) := by
  obtain ⟨fuel, rfl⟩ := Nat.exists_eq_succ_of_ne_zero (Nat.ne_of_gt (Nat.zero_lt_of_lt hfuel))
  induction h generalizing r fuel with
  | nil => exact skipTextFrom_quote hr
  | plain hb hquote hslash _ ih =>
    rw [skipTextFrom_plain hr (isPlain_iff.2 ⟨hb, hquote, hslash⟩),
      ih (Reader.rest_next hr) fuel (by simp at hfuel ⊢; omega)]
    simp [Reader.next_eq, Nat.add_comm, Nat.add_left_comm]
  | escape he _ ih =>
    simp only [List.length_cons] at hfuel
    obtain ⟨fuel, rfl⟩ := Nat.exists_eq_succ_of_ne_zero (show fuel ≠ 0 by omega)
    have hr₁ := Reader.rest_next (Reader.rest_next hr)
    rw [Reader.next_eq, Reader.next_eq, Reader.skip_skip] at hr₁
    rw [skipTextFrom_escape he hr, ih hr₁ fuel (by omega)]
    simp [Nat.add_comm, Nat.add_left_comm]
  | @number v w n hv _ ih =>
    have hlength : 0 < v.length := by
      obtain ⟨v, rfl⟩ := hv.eq_cons
      simp
    simp only [List.append_assoc, List.length_append] at hr hfuel ⊢
    obtain ⟨fuel, rfl⟩ := Nat.exists_eq_succ_of_ne_zero (show fuel ≠ 0 by omega)
    rw [skipTextFrom_number hv hr, ih (Reader.rest_skip hr) fuel (by omega), Reader.skip_skip, Nat.add_assoc]

/-- A text is skipped from its first quote to its last. -/
theorem skipText_loose (h : Loose w) (hr : r.rest = octet '"' :: (w ++ octet '"' :: t)) :
    skipText r.next = .ok (r.skip (w.length + 2)) := by
  have hr' := Reader.rest_next hr
  have hleft : w.length < r.next.left + 1 := by
    rw [r.next.left_eq, hr']
    simp only [List.length_append, List.length_cons]
    omega
  unfold skipText
  rw [skipTextFrom_loose h hr' hleft]
  simp [Reader.next_eq, Nat.add_left_comm]

/-! ### Numbers -/

theorem isDigit_of_digits (h : Digits w) : ∀ b ∈ w, isDigit b = true := by
  have hall : ∀ d < 10, isDigit (octet (Nat.digitChar d)) = true := by decide
  intro b hb
  obtain ⟨d, hd, rfl⟩ := h.2 b hb
  exact hall d hd

/-- Digits begin with the octet of a digit. -/
theorem Digits.head (h : Digits w) : ∃ c v, w = octet c :: v ∧ c.isDigit = true := by
  have hall : ∀ d < 10, (Nat.digitChar d).isDigit = true := by decide
  obtain ⟨hne, hdigits⟩ := h
  obtain ⟨b, v, rfl⟩ := List.exists_cons_of_ne_nil hne
  obtain ⟨d, hd, rfl⟩ := hdigits b List.mem_cons_self
  exact ⟨_, v, rfl, hall d hd⟩

theorem readWhole_whole (h : Whole w) (hr : r.rest = w ++ t)
    (ht : ∀ b, t.head? = some b → isDigit b = false) :
    ∃ ds, readWhole r = .ok (ds, r.skip w.length) := by
  rcases h with rfl | ⟨hdigits, hzero⟩
  · have hrest : r.next.rest = t := Reader.rest_next hr
    have hnext : (r.next.rest.head?.map isDigit).getD false = false := by
      rw [hrest]
      cases hhead : t.head? with
      | none => rfl
      | some b => exact ht b hhead
    refine ⟨[0], ?_⟩
    unfold readWhole
    rw [Reader.head?_of_rest hr (by decide)]
    simp only [hnext, Bool.false_eq_true, if_false]
    rfl
  · obtain ⟨c, v, rfl, hc⟩ := hdigits.head
    have hsmall := toNat_of_isDigit hc
    have hne : c ≠ '0' := by
      rintro rfl
      exact hzero rfl
    refine ⟨(octet c :: v).map fun b => b.toNat - 0x30, ?_⟩
    unfold readWhole
    rw [Reader.head?_of_rest hr (by omega)]
    simp only [hc, if_true, readDigits_digits (isDigit_of_digits hdigits) hr ht]

/-- The digits behind a point are read. -/
theorem readFraction_fraction (h : Fraction w) (hr : r.rest = w ++ t)
    (ht : ∀ b, t.head? = some b → isDigit b = false) (hpoint : t.head? ≠ some (octet '.')) :
    ∃ ds, readFraction r = .ok (ds, r.skip w.length) := by
  rcases h with rfl | ⟨w, hdigits, rfl⟩
  · refine ⟨none, ?_⟩
    have hhead : r.head? ≠ some '.' := Reader.head?_ne hr hpoint
    unfold readFraction
    split
    · exact absurd ‹_› hhead
    · rfl
  · have hr' := Reader.rest_next hr
    have hne : (w.map fun b => b.toNat - 0x30) ≠ [] := by simpa using hdigits.1
    refine ⟨some (w.map fun b => b.toNat - 0x30), ?_⟩
    unfold readFraction
    simp only [Reader.head?_of_rest hr (by decide), readDigits_digits (isDigit_of_digits hdigits) hr' ht]
    simp [Reader.next_eq, Nat.add_comm]

/-- A sign is passed over if there is one. -/
theorem readSign_sign {sign : Octets} (hsign : sign = [] ∨ sign = [octet '+'] ∨ sign = [octet '-'])
    (hw : Digits w) (hr : r.rest = sign ++ (w ++ t)) : (readSign r).2 = r.skip sign.length := by
  unfold readSign
  rcases hsign with rfl | rfl | rfl
  · obtain ⟨c, v, rfl, hc⟩ := hw.head
    have hsmall := toNat_of_isDigit hc
    rw [Reader.head?_of_rest hr (by omega)]
    split
    · rename_i he
      obtain rfl := Option.some.inj he
      exact absurd hc (by decide)
    · rename_i he
      obtain rfl := Option.some.inj he
      exact absurd hc (by decide)
    · rfl
  · rw [Reader.head?_of_rest hr (by decide)]
    rfl
  · rw [Reader.head?_of_rest hr (by decide)]
    rfl

/-- The digits of an exponent are skipped. -/
theorem skipPower_power {sign : Octets} (hsign : sign = [] ∨ sign = [octet '+'] ∨ sign = [octet '-'])
    (hw : Digits w) (hr : r.rest = sign ++ (w ++ t)) (ht : ∀ b, t.head? = some b → isDigit b = false) :
    skipPower r = .ok (r.skip (sign.length + w.length)) := by
  obtain ⟨b, v, rfl⟩ := List.exists_cons_of_ne_nil hw.1
  unfold skipPower
  rw [readSign_sign hsign hw hr]
  simp only [readDigits_digits (isDigit_of_digits hw) (Reader.rest_skip hr) ht, Reader.skip_skip, List.map_cons]

theorem Power.head (h : Power w) (ht : ∀ b, t.head? = some b → isDigit b = false ∧ b ≠ octet '.') :
    ∀ b, (w ++ t).head? = some b → isDigit b = false ∧ b ≠ octet '.' := by
  rcases h with rfl | ⟨e, sign, ds, he, -, -, rfl⟩
  · exact ht
  · intro b hb
    obtain rfl := Option.some.inj hb
    rcases he with rfl | rfl <;> decide

/-- A number is skipped from behind its sign. -/
theorem skipNumber_number {whole fraction power : Octets} (hwhole : Whole whole) (hfraction : Fraction fraction)
    (hpower : Power power) (hr : r.rest = whole ++ (fraction ++ (power ++ t))) (ht : Delimited t) :
    skipNumber r = .ok (r.skip (whole.length + (fraction.length + power.length))) := by
  have ht' : ∀ b, t.head? = some b → isDigit b = false ∧ b ≠ octet '.' := fun b hb =>
    ⟨(ht.cases hb).1, (ht.cases hb).2.1⟩
  have hdot := hpower.head ht'
  have hbehind : ∀ b, (fraction ++ (power ++ t)).head? = some b → isDigit b = false := by
    rcases hfraction with rfl | ⟨ds, -, rfl⟩
    · exact fun b hb => (hdot b hb).1
    · intro b hb
      obtain rfl := Option.some.inj hb
      decide
  have hr₁ := Reader.rest_skip hr
  obtain ⟨ds, hread⟩ := readWhole_whole hwhole hr hbehind
  obtain ⟨o, hread'⟩ := readFraction_fraction hfraction hr₁ (fun b hb => (hdot b hb).1)
    fun hb => (hdot _ hb).2 rfl
  have hr₂ := Reader.rest_skip hr₁
  rw [Reader.skip_skip] at hread' hr₂
  unfold skipNumber
  simp only [hread, hread', bind, Except.bind]
  rcases hpower with rfl | ⟨e, sign, ds, he, hsign, hdigits, rfl⟩
  · rw [(Delimited.head?_eq hr₂ ht).2]
    rfl
  · have hat : atPower (r.skip (whole.length + fraction.length)) = true := by
      unfold atPower
      rcases he with rfl | rfl
      · rw [Reader.head?_of_rest hr₂ (by decide)]
        rfl
      · rw [Reader.head?_of_rest hr₂ (by decide)]
        rfl
    simp only [List.cons_append, List.append_assoc] at hr₂
    rw [hat, if_pos rfl, skipPower_power hsign hdigits (Reader.rest_next hr₂) fun b hb => (ht' b hb).1]
    simp [Reader.next_eq, Nat.add_assoc, Nat.add_comm, Nat.add_left_comm]

/-! ### Scalars -/

/-- A word is skipped from behind its first letter. -/
theorem readWord_word {cs : List Char} (hcs : (cs.all fun c => c.toNat < 256) = true)
    (hr : r.rest = cs.map octet ++ t) :
    readWord cs r = .ok (r.skip cs.length) := by
  induction cs generalizing r with
  | nil => rfl
  | cons c cs ih =>
    rw [List.all_cons, Bool.and_eq_true, decide_eq_true_iff] at hcs
    rw [readWord, Reader.head?_of_rest hr hcs.1]
    simp only [if_true]
    rw [ih hcs.2 (Reader.rest_next hr), Reader.next_eq, Reader.skip_skip, Nat.add_comm, List.length_cons]

theorem Whole.head (h : Whole w) : ∃ c v, w = octet c :: v ∧ c.isDigit = true := by
  rcases h with rfl | ⟨hdigits, -⟩
  · exact ⟨'0', [], rfl, by decide⟩
  · exact hdigits.head

theorem skipScalar_digit {c : Char} (hc : c.isDigit = true) : skipScalar c r = skipNumber r := by
  unfold skipScalar
  split
  case h_6 => rw [if_pos hc]
  all_goals exact absurd hc (by decide)

/-- A scalar is skipped, and no bracket is seen. -/
theorem skipScalar_scalar (h : Scalar w) (hr : r.rest = w ++ t) (ht : Delimited t) :
    ∃ c, r.head? = some c ∧ c ≠ '[' ∧ c ≠ '\x7b' ∧ skipScalar c r = .ok (r.skip w.length) := by
  have hword : ∀ (c : Char) (cs : List Char), c.toNat < 256 → (cs.all fun c => c.toNat < 256) = true →
      w = (c :: cs).map octet → r.head? = some c ∧ readWord cs r.next = .ok (r.skip w.length) := by
    intro c cs hc hcs hw
    rw [hw] at hr
    refine ⟨Reader.head?_of_rest hr hc, ?_⟩
    rw [readWord_word hcs (Reader.rest_next hr), hw]
    simp [Reader.next_eq, Nat.add_comm]
  cases h with
  | null =>
    obtain ⟨hhead, hread⟩ := hword 'n' ['u', 'l', 'l'] (by decide) (by decide) (by decide)
    exact ⟨'n', hhead, by decide, by decide, hread⟩
  | true =>
    obtain ⟨hhead, hread⟩ := hword 't' ['r', 'u', 'e'] (by decide) (by decide) (by decide)
    exact ⟨'t', hhead, by decide, by decide, hread⟩
  | false =>
    obtain ⟨hhead, hread⟩ := hword 'f' ['a', 'l', 's', 'e'] (by decide) (by decide) (by decide)
    exact ⟨'f', hhead, by decide, by decide, hread⟩
  | @text w hw =>
    refine ⟨'"', Reader.head?_of_rest hr (by decide), by decide, by decide, ?_⟩
    rw [show octet '"' :: (w ++ [octet '"']) ++ t = octet '"' :: (w ++ octet '"' :: t) by simp] at hr
    rw [skipScalar, skipText_loose hw hr]
    simp
  | @number sign whole fraction power hsign hwhole hfraction hpower =>
    simp only [List.append_assoc, List.length_append] at hr ⊢
    have hskip := skipNumber_number hwhole hfraction hpower (Reader.rest_skip hr) ht
    rw [Reader.skip_skip] at hskip
    rcases hsign with rfl | rfl
    · obtain ⟨c, v, hv, hc⟩ := hwhole.head
      have hsmall := toNat_of_isDigit hc
      have hhead : r.head? = some c := by
        rw [hv] at hr
        exact Reader.head?_of_rest hr (by omega)
      refine ⟨c, hhead, ?_, ?_, ?_⟩
      · rintro rfl
        exact absurd hc (by decide)
      · rintro rfl
        exact absurd hc (by decide)
      · rw [skipScalar_digit hc]
        exact hskip
    · exact ⟨'-', Reader.head?_of_rest hr (by decide), by decide, by decide, hskip⟩

/-- A scalar begins like any token. -/
theorem Scalar.begins (h : Scalar w) : Begins w := by
  cases h with
  | null => exact ⟨octet 'n', _, rfl, by decide, by decide⟩
  | true => exact ⟨octet 't', _, rfl, by decide, by decide⟩
  | false => exact ⟨octet 'f', _, rfl, by decide, by decide⟩
  | text => exact begins_octet (by decide) (by decide)
  | number hsign hwhole =>
    rcases hsign with rfl | rfl
    · obtain ⟨c, v, rfl, hc⟩ := hwhole.head
      exact begins_digit hc
    · exact begins_octet (by decide) (by decide)

/-! ### What is pending -/

/-- With `n` steps, what is pending in front of one reader is skipped up to another. -/
def Skips (n : Nat) (p : Pending) (outer : List Bracket) (r : Reader) (outer' : List Bracket) (r' : Reader) :
    Prop :=
  ∀ fuel, skipFrom (fuel + n) p outer r = skipFrom fuel .member outer' r'

/-- A value that is skipped wherever it stands, in fewer than two steps for each octet. -/
structure Skippable (w : Octets) : Prop where
  begins : Begins w
  skips : ∀ (r : Reader) (outer : List Bracket) (a t : Octets), Blank a → Delimited t → r.rest = a ++ (w ++ t) →
    ∃ n, n + 1 ≤ 2 * w.length ∧ Skips n .value outer r outer (r.skip (a.length + w.length))

/-- What may stand in a bracket. -/
def Within (V : Octets → Unit → Prop) : Bracket → Octets → Unit → Prop
  | .list => V
  | .object => LooseMember V

variable {V : Octets → Unit → Prop} {b : Bracket} {u : Unit}

theorem closing_cases (b : Bracket) : b.closing = ']' ∨ b.closing = '\x7d' := by
  cases b
  · exact .inl rfl
  · exact .inr rfl

/-- A key and its colon are skipped up to the value; in a list, nothing is. -/
theorem skipKey_within (h : Within V b v u) (ha : Blank a) (hr : r.rest = a ++ (v ++ t)) :
    ∃ k c x y, skipKey b r = .ok (r.skip k) ∧ Blank c ∧ V x y ∧ (r.skip k).rest = c ++ (x ++ t) ∧
      k + (c.length + x.length) = a.length + v.length := by
  cases b with
  | list => exact ⟨0, a, v, u, by rw [Reader.skip_zero]; rfl, ha, h, by rw [Reader.skip_zero, hr], by omega⟩
  | object =>
    obtain ⟨key, v, hkey, ⟨c, d, x, hc, hd, hx, rfl⟩, rfl⟩ := h
    rw [show octet '"' :: (key ++ octet '"' :: (c ++ octet ':' :: (d ++ x))) ++ t =
      octet '"' :: (key ++ octet '"' :: (c ++ octet ':' :: (d ++ (x ++ t)))) by simp] at hr
    have hr₁ := Reader.rest_skip hr
    have htext := skipText_loose hkey hr₁
    have hr₂ : (r.skip (a.length + (key.length + 2))).rest = c ++ octet ':' :: (d ++ (x ++ t)) := by
      rw [show octet '"' :: (key ++ octet '"' :: (c ++ octet ':' :: (d ++ (x ++ t)))) =
        (octet '"' :: (key ++ [octet '"'])) ++ (c ++ octet ':' :: (d ++ (x ++ t))) by simp] at hr₁
      simpa [Nat.add_assoc] using Reader.rest_skip hr₁
    have hcolon := Reader.head?_of_rest (Reader.rest_skip hr₂) (by decide)
    have hr₃ := Reader.rest_next (Reader.rest_skip hr₂)
    rw [Reader.next_eq, Reader.skip_skip, Reader.skip_skip] at hr₃
    rw [Reader.skip_skip] at hcolon
    refine ⟨_, d, x, u, ?_, hd, hx, hr₃, by simp; omega⟩
    unfold skipKey
    rw [Reader.trim_eq hr ha (solid_octet (by decide))]
    simp only [Reader.head?_of_rest hr₁ (by decide), htext, Reader.skip_skip, bind, Except.bind,
      Reader.trim_eq hr₂ hc (solid_octet (by decide)), hcolon]
    simp [pure, Except.pure, Reader.next_eq, Nat.add_assoc]

/-- What stands in a bracket begins with something else than the end of the bracket. -/
theorem Within.head? (hV : ∀ w u, V w u → Skippable w) (h : Within V b v u) (hr : r.rest = v ++ t) :
    ∃ c, r.head? = some c ∧ c ≠ b.closing ∧ Solid (v ++ t) := by
  cases b with
  | list =>
    have hbegins := (hV v u h).begins
    obtain ⟨c, hhead, hc⟩ := hbegins.head? hr
    exact ⟨c, hhead, hc, hbegins.solid⟩
  | object =>
    obtain ⟨key, v, -, -, rfl⟩ := h
    exact ⟨'"', Reader.head?_of_rest hr (by decide), by decide, solid_octet (by decide)⟩

/-! ### Values -/

variable {o : List Bracket} {p : Pending}

/-- One step closes a bracket. -/
theorem skipFrom_close (hp : p ≠ .value) (hr : r.rest = w ++ octet b.closing :: t) (hw : Blank w) :
    skipFrom (fuel + 1) p (b :: o) r = skipFrom fuel .member o (r.skip (w.length + 1)) := by
  have hsolid : Solid (octet b.closing :: t) := by
    rcases closing_cases b with hb | hb <;> rw [hb] <;> exact solid_octet (by decide)
  have hsmall : b.closing.toNat < 256 := by
    rcases closing_cases b with hb | hb <;> rw [hb] <;> decide
  have hhead := Reader.head?_of_rest (Reader.rest_skip hr) hsmall
  cases p with
  | value => exact absurd rfl hp
  | opened | member =>
    rw [skipFrom, Reader.trim_eq hr hw hsolid]
    · simp only [hhead, if_true, Reader.next_eq, Reader.skip_skip]
    · exact hp

/-- One step comes to the value of the first member. -/
theorem skipFrom_opened {k : Nat} {c : Char} (hr : r.rest = a ++ t) (ha : Blank a) (ht : Solid t)
    (hhead : (r.skip a.length).head? = some c) (hc : c ≠ b.closing)
    (hkey : skipKey b (r.skip a.length) = .ok (r.skip k)) :
    skipFrom (fuel + 1) .opened (b :: o) r = skipFrom fuel .value (b :: o) (r.skip k) := by
  rw [skipFrom, Reader.trim_eq hr ha ht]
  · simp only [hhead, hc, if_false, reduceCtorEq, false_and, hkey]
  · exact Pending.noConfusion

/-- One step passes over a comma and comes to the value of a further member. -/
theorem skipFrom_member {k : Nat} (hr : r.rest = a ++ octet ',' :: t) (ha : Blank a)
    (hkey : skipKey b (r.skip (a.length + 1)) = .ok (r.skip k)) :
    skipFrom (fuel + 1) .member (b :: o) r = skipFrom fuel .value (b :: o) (r.skip k) := by
  have hc : ',' ≠ b.closing := by
    rcases closing_cases b with hb | hb <;> rw [hb] <;> decide
  have hhead := Reader.head?_of_rest (Reader.rest_skip hr) (by decide)
  rw [skipFrom, Reader.trim_eq hr ha (solid_octet (by decide))]
  · simp only [hhead, hc, if_false, if_true, ne_eq, not_true_eq_false, and_false, Reader.next_eq, Reader.skip_skip,
      hkey]
  · exact Pending.noConfusion

theorem Skips.trans {m n : Nat} {r r₁ r₂ : Reader} {o o₁ o₂ : List Bracket} (h : Skips m p o r o₁ r₁)
    (h' : Skips n .member o₁ r₁ o₂ r₂) : Skips (n + m) p o r o₂ r₂ := fun fuel => by
  rw [← Nat.add_assoc, h (fuel + n), h' fuel]

/-- What stands in a bracket is skipped if one step comes to it. -/
theorem skips_within {k : Nat} (hV : ∀ w u, V w u → Skippable w) (h : Within V b v u) (ht : Delimited t)
    (ha : Blank a) (hr : (r.skip k).rest = a ++ (v ++ t))
    (hstep : ∀ fuel j, skipKey b (r.skip k) = .ok (r.skip j) →
      skipFrom (fuel + 1) p (b :: o) r = skipFrom fuel .value (b :: o) (r.skip j)) :
    ∃ n, n ≤ 2 * (a.length + v.length) ∧
      Skips n p (b :: o) r (b :: o) (r.skip (k + (a.length + v.length))) := by
  obtain ⟨j, c, x, y, hkey, hc, hx, hr', hlength⟩ := skipKey_within h ha hr
  rw [Reader.skip_skip] at hkey hr'
  obtain ⟨n, hn, hvalue⟩ := (hV x y hx).skips _ (b :: o) c t hc ht hr'
  refine ⟨n + 1, by omega, fun fuel => ?_⟩
  rw [← Nat.add_assoc, hstep (fuel + n) _ hkey, hvalue fuel, Reader.skip_skip, Nat.add_assoc, hlength]

/-- What stands in a bracket is skipped, and the bracket is closed. -/
theorem skips_items {us : List Unit} (hV : ∀ w u, V w u → Skippable w) (h : Items (Within V b) first w us)
    (hr : r.rest = w ++ octet b.closing :: t) :
    ∃ n, n ≤ 2 * (w.length + 1) ∧
      Skips n (cond first .opened .member) (b :: o) r o (r.skip (w.length + 1)) := by
  induction h generalizing r with
  | done hw =>
    refine ⟨1, by omega, fun fuel => skipFrom_close ?_ hr hw⟩
    cases ‹Bool› <;> exact Pending.noConfusion
  | @first a v w x xs ha hv hw ih =>
    simp only [List.append_assoc, List.length_append] at hr ⊢
    have hr₁ := Reader.rest_skip hr
    obtain ⟨c, hhead, hc, hsolid⟩ := hv.head? hV hr₁
    obtain ⟨m, hm, hmember⟩ := skips_within (p := .opened) (o := o) hV hv (hw.delimited (closing_cases b))
      blank_nil hr₁ fun fuel j hkey => skipFrom_opened hr ha hsolid hhead hc hkey
    have hr₂ := Reader.rest_skip hr₁
    rw [Reader.skip_skip] at hr₂
    obtain ⟨n, hn, hrest⟩ := ih hr₂
    simp only [List.length_nil, Nat.zero_add] at hm hmember
    rw [Reader.skip_skip] at hrest
    refine ⟨n + m, by omega, ?_⟩
    simpa only [Nat.add_assoc, cond_true] using hmember.trans hrest
  | @next a c v w x xs ha hc hv hw ih =>
    simp only [List.append_assoc, List.cons_append, List.length_append, List.length_cons] at hr ⊢
    have hr₁ := Reader.rest_next (Reader.rest_skip hr)
    rw [Reader.next_eq, Reader.skip_skip] at hr₁
    obtain ⟨m, hm, hmember⟩ := skips_within (p := .member) (o := o) hV hv (hw.delimited (closing_cases b))
      hc hr₁ fun fuel j hkey => skipFrom_member hr ha hkey
    have hr₂ := Reader.rest_skip (Reader.rest_skip hr₁)
    rw [Reader.skip_skip, Reader.skip_skip] at hr₂
    obtain ⟨n, hn, hrest⟩ := ih hr₂
    rw [Reader.skip_skip] at hrest
    refine ⟨n + m, by omega, ?_⟩
    have hlength : a.length + (c.length + (v.length + w.length) + 1) + 1 =
        a.length + 1 + (c.length + v.length) + (w.length + 1) := by omega
    rw [hlength]
    exact hmember.trans hrest

/-- One step opens a bracket. -/
theorem skips_brackets {us : List Unit} {c : Char} (hV : ∀ w u, V w u → Skippable w)
    (h : Items (Within V b) true w us) (hc : c = '[' ∧ b = .list ∨ c = '\x7b' ∧ b = .object) (ha : Blank a)
    (hr : r.rest = a ++ octet c :: (w ++ octet b.closing :: t)) :
    ∃ n, n + 1 ≤ 2 * (w.length + 2) ∧ Skips n .value o r o (r.skip (a.length + (w.length + 2))) := by
  have hsolid : Solid (octet c :: (w ++ octet b.closing :: t)) := by
    rcases hc with ⟨rfl, -⟩ | ⟨rfl, -⟩ <;> exact solid_octet (by decide)
  have hhead : (r.skip a.length).head? = some c := by
    rcases hc with ⟨rfl, -⟩ | ⟨rfl, -⟩ <;> exact Reader.head?_of_rest (Reader.rest_skip hr) (by decide)
  obtain ⟨n, hn, hitems⟩ := skips_items (o := o) hV h (Reader.rest_next (Reader.rest_skip hr))
  have hopen : ∀ fuel, skipFrom (fuel + 1) .value o r =
      skipFrom fuel .opened (b :: o) (r.skip a.length).next := fun fuel => by
    rw [skipFrom, Reader.trim_eq hr ha hsolid]
    rcases hc with ⟨rfl, rfl⟩ | ⟨rfl, rfl⟩ <;> simp only [hhead]
  rw [cond_true] at hitems
  refine ⟨n + 1, by omega, fun fuel => ?_⟩
  rw [← Nat.add_assoc, hopen, hitems fuel, Reader.next_eq, Reader.skip_skip, Reader.skip_skip]
  congr 2
  omega

theorem Scalar.skippable (h : Scalar w) : Skippable w := by
  have hlength := h.begins.length_pos
  refine ⟨h.begins, fun r o a t ha ht hr => ⟨1, by omega, fun fuel => ?_⟩⟩
  obtain ⟨c, hhead, hlist, hobject, hskip⟩ := skipScalar_scalar h (Reader.rest_skip hr) ht
  rw [skipFrom, Reader.trim_eq hr ha h.begins.solid]
  simp only [hhead, hskip, Reader.skip_skip]

/-- Values of any depth are skipped. -/
theorem Value.skippable (h : Value d w u) : Skippable w := by
  induction d generalizing w u with
  | zero => exact Scalar.skippable h
  | succ d ih =>
    have hV : ∀ w u, Value d w u → Skippable w := fun w u => ih
    rcases h with h | ⟨us, v, hv, rfl⟩ | ⟨us, v, hv, rfl⟩
    · exact h.skippable
    · refine ⟨begins_octet (by decide) (by decide), fun r o a t ha ht hr => ?_⟩
      simp only [List.cons_append, List.append_assoc] at hr
      simpa using skips_brackets (b := .list) hV hv (.inl ⟨rfl, rfl⟩) ha hr
    · refine ⟨begins_octet (by decide) (by decide), fun r o a t ha ht hr => ?_⟩
      simp only [List.cons_append, List.append_assoc] at hr
      simpa using skips_brackets (b := .object) hV hv (.inr ⟨rfl, rfl⟩) ha hr

/-- A value of any depth is skipped as a whole. -/
theorem skipValue_value (h : Value d w u) (ha : Blank a) (ht : Delimited t) (hr : r.rest = a ++ (w ++ t)) :
    skipValue r = .ok (r.skip (a.length + w.length)) := by
  obtain ⟨n, hn, hskips⟩ := h.skippable.skips r [] a t ha ht hr
  have hleft : w.length ≤ r.left := by
    rw [r.left_eq, hr]
    simp only [List.length_append]
    omega
  obtain ⟨k, hk⟩ := Nat.exists_eq_add_of_le (show n + 1 ≤ 2 * r.left + 2 by omega)
  unfold skipValue
  rw [hk, show n + 1 + k = k + 1 + n by omega, hskips]
  rfl

/-- A member that nobody asks for is skipped and changes nothing. -/
theorem gives_other {σ : Type} {s : σ} (h : Valued AnyValue v u) (ht : Delimited t) (hr : r.rest = v ++ t) :
    Gives (do let r ← skipValue (← readColon r); return (.ok s, r)) (some (.ok s : Except Complaint σ))
      (r.skip v.length) := by
  obtain ⟨a, b, x, ha, hb, ⟨d, hx⟩, rfl⟩ := h
  simp only [List.append_assoc, List.cons_append] at hr
  have hr' := Reader.rest_next (Reader.rest_skip hr)
  rw [Reader.next_eq, Reader.skip_skip] at hr'
  have hlength : a.length + 1 + (b.length + x.length) = (a ++ octet ':' :: (b ++ x)).length := by
    simp only [List.length_append, List.length_cons]
    omega
  rw [readColon_valued hr ha]
  simp only [bind, Except.bind, skipValue_value hx hb ht hr', Reader.skip_skip, hlength]
  rfl

end IconModules.Json
