import IconModules.Proofs.Json.Grammar
import IconModules.Text.Utf8.Lemmas

/-! # Reading texts and numbers

A reader that stands in front of what was written according to the grammar reads it and stops behind it, whatever
follows (`readText_quoted`, `readDecimal`). Reading is followed piece by piece: each lemma names the octets that come
next, and the reader behind them is `r.skip` of their number. -/

namespace IconModules.Json

variable {r : Reader} {a t v w : Octets} {b : UInt8} {c : Char} {n d : Nat}

/-! ### Readers -/

theorem octet_ofNat (b : UInt8) : octet (Char.ofNat b.toNat) = b := by
  have hb : b.toNat < 256 := b.toNat_lt
  have hvalid : (Char.ofNat b.toNat).toNat = b.toNat := by
    rw [Char.ofNat, dif_pos (.inl (by omega))]
    rfl
  rw [octet, hvalid]
  exact UInt8.toNat_inj.1 (Text.toNat_toUInt8 hb)

namespace Reader

theorem head?_ne (hr : r.rest = t) (h : t.head? ≠ some (octet c)) : r.head? ≠ some c := by
  intro he
  unfold head? at he
  rw [hr] at he
  cases hb : t.head? with
  | none => simp [hb] at he
  | some b =>
    rw [hb, Option.map_some, Option.some.injEq] at he
    exact h (by rw [hb, ← he, octet_ofNat])

theorem ext_skip {r r' : Reader} (h : r.rest = r'.rest) (ho : r.offset = r'.offset) : r = r' := by
  obtain ⟨rest, left, offset, hleft⟩ := r
  obtain ⟨rest', left', offset', hleft'⟩ := r'
  obtain rfl : rest = rest' := h
  obtain rfl : offset = offset' := ho
  obtain rfl : left = left' := hleft.trans hleft'.symm
  rfl

@[simp] theorem skip_skip (r : Reader) (m n : Nat) : (r.skip m).skip n = r.skip (m + n) := by
  refine ext_skip ?_ ?_
  · simp [skip, List.drop_drop]
  · simp [skip, Nat.add_assoc]

@[simp] theorem skip_zero (r : Reader) : r.skip 0 = r :=
  ext_skip rfl rfl

theorem next_eq (r : Reader) : r.next = r.skip 1 := rfl

theorem rest_skip (h : r.rest = w ++ t) : (r.skip w.length).rest = t := by
  simp [skip, h]

theorem rest_next (h : r.rest = b :: t) : r.next.rest = t := by
  simp [next, skip, h]

theorem head?_of_rest (h : r.rest = octet c :: t) (hc : c.toNat < 256) : r.head? = some c := by
  unfold head?
  rw [h, List.head?_cons, Option.map_some, octet, Text.toNat_toUInt8 hc, Char.ofNat_toNat]

end Reader

theorem isSpace_iff : Reader.isSpace b = true ↔ b ∈ blanks := by
  have hblanks : blanks = [0x20, 0x09, 0x0A, 0x0D] := by decide
  rw [hblanks]
  simp only [Reader.isSpace, Bool.or_eq_true, beq_iff_eq, List.mem_cons, List.not_mem_nil, or_false]
  grind

/-- Something that does not begin with a blank. -/
def Solid (t : Octets) : Prop :=
  ∀ b, t.head? = some b → b ∉ blanks

theorem takeWhile_append {p : UInt8 → Bool} (ha : ∀ b ∈ a, p b = true)
    (ht : ∀ b, t.head? = some b → p b = false) : (a ++ t).takeWhile p = a := by
  rw [List.takeWhile_append_of_pos ha]
  cases t with
  | nil => simp
  | cons b t => simp [ht b rfl]

/-- A reader passes over blanks. -/
theorem Reader.trim_eq (h : r.rest = a ++ t) (ha : Blank a) (ht : Solid t) : r.trim = r.skip a.length := by
  unfold Reader.trim
  rw [h, takeWhile_append (fun b hb => isSpace_iff.2 (ha b hb)) fun b hb => by
    rw [← Bool.not_eq_true, isSpace_iff]
    exact ht b hb]

theorem solid_octet (hc : octet c ∉ blanks) : Solid (octet c :: t) := by
  intro b hb
  obtain rfl := Option.some.inj hb
  exact hc

/-! ### Characters written as numbers -/

theorem hexValue?_of_hexDigit (h : HexDigit b d) : hexValue? b = some d := by
  have hall : ∀ d < 16, hexValue? (octet (Nat.digitChar d)) = some d ∧
      hexValue? (octet (Nat.digitChar d).toUpper) = some d := by decide
  obtain ⟨hd, rfl | rfl⟩ := h
  · exact (hall d hd).1
  · exact (hall d hd).2

/-- The four digits of a number are read. -/
theorem readHex_numbered (h : Numbered (octet '\\' :: octet 'u' :: w) n) (hr : r.rest = w ++ t) :
    readHex r = .ok (n, r.skip w.length) ∧ w.length = 4 := by
  cases h with
  | digits ha hb hc hd =>
    refine ⟨?_, rfl⟩
    simp [readHex, hr, hexValue?_of_hexDigit ha, hexValue?_of_hexDigit hb, hexValue?_of_hexDigit hc,
      hexValue?_of_hexDigit hd]

/-- What announces a number is two octets. -/
theorem Numbered.eq_cons (h : Numbered w n) : ∃ v, w = octet '\\' :: octet 'u' :: v := by
  cases h
  exact ⟨_, rfl⟩

/-- A character that is written as a number is read. -/
theorem readNumbered_number (h : Numbered (octet '\\' :: octet 'u' :: w) c.toNat) (hr : r.rest = w ++ t) :
    readNumbered r = .ok (c, r.skip w.length) := by
  have hv : c.toNat < 0xD800 ∨ 0xDFFF < c.toNat ∧ c.toNat < 0x110000 := c.valid
  have htrailing : isTrailing c.toNat = false := by simp [isTrailing]; omega
  have hleading : isLeading c.toNat = false := by simp [isLeading]; omega
  unfold readNumbered
  rw [(readHex_numbered h hr).1]
  simp [bind, Except.bind, htrailing, hleading, pure, Except.pure]

theorem readLink_of_rest (hr : r.rest = octet c :: t) (hc : c.toNat < 256) : readLink c r = .ok r.next := by
  unfold readLink
  rw [Reader.head?_of_rest hr hc]
  simp

/-- A character that is written in two halves is read. -/
theorem readNumbered_halves {m : Nat} (hm : 0xD800 ≤ m ∧ m < 0xDC00) (hn : 0xDC00 ≤ n ∧ n < 0xE000)
    (hc : c.toNat = 0x10000 + (m - 0xD800) * 0x400 + (n - 0xDC00))
    (hv : Numbered (octet '\\' :: octet 'u' :: v) m) (hw : Numbered (octet '\\' :: octet 'u' :: w) n)
    (hr : r.rest = v ++ (octet '\\' :: octet 'u' :: (w ++ t))) :
    readNumbered r = .ok (c, r.skip (v.length + (w.length + 2))) := by
  have htrailing : isTrailing m = false := by simp [isTrailing]; omega
  have hleading : isLeading m = true := by simp [isLeading]; omega
  have htrailing' : isTrailing n = true := by simp [isTrailing]; omega
  have hr₁ := Reader.rest_skip hr
  have hr₂ := Reader.rest_next hr₁
  have hr₃ := Reader.rest_next hr₂
  unfold readNumbered
  rw [(readHex_numbered hv hr).1]
  simp only [bind, Except.bind, htrailing, hleading, Bool.false_eq_true, if_false, if_true,
    readLink_of_rest hr₁ (by decide), readLink_of_rest hr₂ (by decide), (readHex_numbered hw hr₃).1,
    htrailing', ← hc, Char.ofNat_toNat]
  have hlength : v.length + 1 + 1 + w.length = v.length + (w.length + 2) := by omega
  simp only [pure, Except.pure, Reader.next_eq, Reader.skip_skip, hlength]

/-! ### Texts -/

theorem escape_cases {e : Char} (h : (e, c) ∈ escapes) :
    e ≠ 'u' ∧ e.toNat < 256 ∧ shortEscapes.lookup e = some c := by
  have hall : ∀ p ∈ escapes, p.1 ≠ 'u' ∧ p.1.toNat < 256 ∧ shortEscapes.lookup p.1 = some p.2 := by
    decide
  exact hall _ h

theorem readEscape_number (hr : r.rest = octet 'u' :: t) : readEscape r = readNumbered r.next := by
  unfold readEscape
  rw [Reader.head?_of_rest hr (by decide)]
  rfl

theorem readEscape_escape {e : Char} (h : (e, c) ∈ escapes) (hr : r.rest = octet e :: t) :
    readEscape r = .ok (c, r.next) := by
  obtain ⟨hu, hsmall, hlookup⟩ := escape_cases h
  unfold readEscape
  rw [Reader.head?_of_rest hr hsmall]
  split
  · cases ‹some e = none›
  · rename_i he
    exact absurd (Option.some.inj he) hu
  · rename_i he
    obtain rfl := Option.some.inj he
    rw [hlookup]

theorem isPlain_iff : isPlain b = true ↔ 0x20 ≤ b ∧ b ≠ octet '"' ∧ b ≠ octet '\\' := by
  have hquote : octet '"' = 0x22 := by decide
  have hslash : octet '\\' = 0x5C := by decide
  simp [isPlain, hquote, hslash, and_assoc]

/-- The octets of a character are the one that it is, or none of the first half. -/
theorem encodeChar_cases (hb : b ∈ Text.encodeChar c) :
    Text.encodeChar c = [octet c] ∧ c.toNat < 0x80 ∨ 0x80 ≤ b := by
  have hv : c.toNat < 0xD800 ∨ 0xDFFF < c.toNat ∧ c.toNat < 0x110000 := c.valid
  have hhigh : ∀ n : Nat, n < 256 → 0x80 ≤ n → 0x80 ≤ n.toUInt8 := fun n hn h =>
    (Text.le_toUInt8_iff hn).2 h
  unfold Text.encodeChar at hb ⊢
  dsimp only at hb ⊢
  split at hb
  · rename_i hsmall
    exact .inl ⟨if_pos hsmall, hsmall⟩
  split at hb
  · simp only [List.mem_cons, List.not_mem_nil, or_false] at hb
    rcases hb with rfl | rfl <;> exact .inr (hhigh _ (by omega) (by omega))
  split at hb
  · simp only [List.mem_cons, List.not_mem_nil, or_false] at hb
    rcases hb with rfl | rfl | rfl <;> exact .inr (hhigh _ (by omega) (by omega))
  · simp only [List.mem_cons, List.not_mem_nil, or_false] at hb
    rcases hb with rfl | rfl | rfl | rfl <;> exact .inr (hhigh _ (by omega) (by omega))

theorem octet_inj {d : Char} (hc : c.toNat < 256) (hd : d.toNat < 256) : octet c = octet d ↔ c = d := by
  refine ⟨fun h => ?_, congrArg octet⟩
  have hn := congrArg UInt8.toNat h
  rw [octet, octet, Text.toNat_toUInt8 hc, Text.toNat_toUInt8 hd] at hn
  rw [← Char.ofNat_toNat c, hn, Char.ofNat_toNat]

/-- The octets of a character that may stand for itself. -/
theorem isPlain_of_encodeChar (hc : 0x20 ≤ c.toNat) (hquote : c ≠ '"') (hslash : c ≠ '\\')
    (hb : b ∈ Text.encodeChar c) : isPlain b = true := by
  rw [isPlain_iff]
  rcases encodeChar_cases hb with ⟨he, hsmall⟩ | hhigh
  · rw [he, List.mem_singleton] at hb
    rw [hb, Ne, Ne, octet_inj (by omega) (by decide), octet_inj (by omega) (by decide)]
    exact ⟨(Text.le_toUInt8_iff (by omega)).2 hc, hquote, hslash⟩
  · have hne : ∀ d : UInt8, d < 0x80 → b ≠ d := fun d hd he => by
      rw [he] at hhigh
      exact absurd hd (UInt8.not_lt.2 hhigh)
    exact ⟨UInt8.le_trans (by decide) hhigh, hne _ (by decide), hne _ (by decide)⟩

variable {fuel : Nat} {seen : Octets}

theorem readOctets_plain (hr : r.rest = b :: t) (hb : isPlain b = true) :
    readOctets (fuel + 1) seen r = readOctets (fuel + 1) (b :: seen) r.next := by
  have hrest : (r.skip 1).rest = t := Reader.rest_next hr
  unfold readOctets
  simp only [hr, hrest, List.takeWhile_cons, hb, if_true, List.reverse_cons, List.append_assoc,
    List.singleton_append, List.length_cons, Reader.next_eq, Reader.skip_skip,
    Nat.add_comm _ 1]

/-- Octets that stand for themselves are collected. -/
theorem readOctets_plains (hr : r.rest = v ++ t) (hv : ∀ b ∈ v, isPlain b = true) :
    readOctets (fuel + 1) seen r = readOctets (fuel + 1) (v.reverse ++ seen) (r.skip v.length) := by
  induction v generalizing r seen with
  | nil => simp
  | cons b v ih =>
    rw [readOctets_plain hr (hv b List.mem_cons_self),
      ih (Reader.rest_next hr) fun x hx => hv x (List.mem_cons_of_mem _ hx)]
    simp [Reader.next_eq, Nat.add_comm]

theorem readOctets_quote (hr : r.rest = octet '"' :: t) :
    readOctets (fuel + 1) seen r = .ok (seen, r.next) := by
  have hplain : isPlain (octet '"') = false := by decide
  unfold readOctets
  simp [hr, hplain, Reader.head?_of_rest hr]

theorem readOctets_slash {r' : Reader} (hr : r.rest = octet '\\' :: t)
    (h : readEscape r.next = .ok (c, r')) :
    readOctets (fuel + 1) seen r = readOctets fuel ((Text.encodeChar c).reverse ++ seen) r' := by
  have hplain : isPlain (octet '\\') = false := by decide
  rw [readOctets]
  simp [hr, hplain, Reader.head?_of_rest hr, h]

/-- A character is collected, and fuel is left for as many escapes as octets follow. -/
theorem readOctets_spelling (fuel : Nat) (seen : Octets) (h : Spelling v c) (hr : r.rest = v ++ t) :
    ∃ k, fuel + 1 ≤ k + v.length ∧ readOctets (fuel + 1) seen r =
      readOctets k ((Text.encodeChar c).reverse ++ seen) (r.skip v.length) := by
  cases h with
  | itself hc hquote hslash =>
    exact ⟨fuel + 1, by omega, readOctets_plains hr fun b hb => isPlain_of_encodeChar hc hquote hslash hb⟩
  | escape he =>
    have hescape := readEscape_escape he (Reader.rest_next hr)
    exact ⟨fuel, by simp, by rw [readOctets_slash hr hescape]; simp [Reader.next_eq]⟩
  | number hw =>
    obtain ⟨v, rfl⟩ := hw.eq_cons
    have hnumber := Reader.rest_next hr
    have hescape := readEscape_number hnumber
    rw [readNumbered_number hw (Reader.rest_next hnumber)] at hescape
    refine ⟨fuel, by simp, ?_⟩
    rw [readOctets_slash hr hescape]
    simp [Reader.next_eq, Nat.add_comm, Nat.add_left_comm]
  | halves hm hn hc hv hw =>
    obtain ⟨v, rfl⟩ := hv.eq_cons
    obtain ⟨w, rfl⟩ := hw.eq_cons
    simp only [List.cons_append, List.append_assoc] at hr
    have hnumber := Reader.rest_next hr
    have hescape := readEscape_number hnumber
    rw [readNumbered_halves hm hn hc hv hw (Reader.rest_next hnumber)] at hescape
    refine ⟨fuel, by simp, ?_⟩
    rw [readOctets_slash hr hescape]
    simp [Reader.next_eq, Nat.add_comm, Nat.add_left_comm]

/-- The characters of a text are collected up to the quote that closes it. -/
theorem readOctets_spelled {cs : List Char} (h : Spelled w cs) (hr : r.rest = w ++ octet '"' :: t)
    (hfuel : w.length < fuel) : readOctets fuel seen r =
      .ok ((cs.flatMap Text.encodeChar).reverse ++ seen, r.skip (w.length + 1)) := by
  induction h generalizing fuel seen r with
  | nil =>
    obtain ⟨fuel, rfl⟩ := Nat.exists_eq_succ_of_ne_zero (Nat.ne_of_gt hfuel)
    exact readOctets_quote hr
  | @cons v w c cs hv _ ih =>
    rw [List.append_assoc] at hr
    rw [List.length_append] at hfuel
    obtain ⟨fuel, rfl⟩ := Nat.exists_eq_succ_of_ne_zero (Nat.ne_of_gt (Nat.zero_lt_of_lt hfuel))
    obtain ⟨k, hk, hstep⟩ := readOctets_spelling fuel seen hv hr
    rw [hstep, ih (Reader.rest_skip hr) (by omega)]
    simp [Nat.add_assoc]

/-- A text in quotes is read. -/
theorem readText_quoted {s : String} (h : Quoted w s) (hr : r.rest = w ++ t) :
    readText r.next = .ok (s, r.skip w.length) := by
  obtain ⟨v, hv, rfl⟩ := h
  have hr' : r.next.rest = v ++ octet '"' :: t := by
    rw [Reader.rest_next hr]
    simp
  have hleft : v.length < r.next.left + 1 := by
    rw [r.next.left_eq, hr']
    simp only [List.length_append, List.length_cons]
    omega
  unfold readText
  rw [readOctets_spelled hv hr' hleft]
  have hdecode : Text.decode (s.toList.flatMap Text.encodeChar) = .ok s := Text.decode_encode s
  simp [bind, Except.bind, hdecode, pure, Except.pure, Reader.next_eq, Nat.add_comm,
    Nat.add_left_comm]

/-! ### Numbers -/

/-- The octets that may follow a value. -/
def Delimited (t : Octets) : Prop :=
  ∀ b, t.head? = some b → b ∈ blanks ∨ b = octet ',' ∨ b = octet ']' ∨ b = octet '\x7d'

/-- Nothing that goes on a number follows a value. -/
theorem Delimited.cases (ht : Delimited t) (hb : t.head? = some b) :
    isDigit b = false ∧ b ≠ octet '.' ∧ b ≠ octet 'e' ∧ b ≠ octet 'E' := by
  have hall : (blanks ++ [octet ',', octet ']', octet '\x7d']).all (fun b =>
      !isDigit b && b != octet '.' && b != octet 'e' && b != octet 'E') = true := by decide
  have hcases := List.all_eq_true.1 hall b (by simpa using ht b hb)
  simpa [and_assoc] using hcases

theorem toNat_of_isDigit (h : c.isDigit = true) : 0x30 ≤ c.toNat ∧ c.toNat ≤ 0x39 := by
  simpa [Char.isDigit, UInt32.le_iff_toNat_le] using h

theorem isDigit_octet (h : c.isDigit = true) : isDigit (octet c) = true := by
  have hc := toNat_of_isDigit h
  have hlow : 0x30 ≤ c.toNat.toUInt8 := (Text.le_toUInt8_iff (by omega)).2 hc.1
  have hhigh : c.toNat.toUInt8 ≤ 0x39 := (Text.toUInt8_le_iff (by omega)).2 hc.2
  simp [isDigit, octet, hlow, hhigh]

/-- Digits are read up to the first octet that is none. -/
theorem readDigits_digits (hw : ∀ b ∈ w, isDigit b = true) (hr : r.rest = w ++ t)
    (ht : ∀ b, t.head? = some b → isDigit b = false) :
    readDigits r = (w.map fun b => b.toNat - 0x30, r.skip w.length) := by
  unfold readDigits
  dsimp only
  rw [hr, takeWhile_append hw ht]

/-- The digits of a decimal number are read up to the end of the number. -/
theorem readDigits_octets {cs : List Char} (hcs : ∀ c ∈ cs, c.isDigit = true)
    (hr : r.rest = cs.map octet ++ t) (ht : ∀ b, t.head? = some b → isDigit b = false) :
    readDigits r = (cs.map fun c => c.toNat - 0x30, r.skip cs.length) := by
  have hdigits : ∀ b ∈ cs.map octet, isDigit b = true := by
    intro b hb
    obtain ⟨c, hc, rfl⟩ := List.mem_map.1 hb
    exact isDigit_octet (hcs c hc)
  rw [readDigits_digits hdigits hr ht, List.length_map, List.map_map]
  congr 1
  refine List.map_congr_left fun c hc => ?_
  have hc' := toNat_of_isDigit (hcs c hc)
  rw [Function.comp, octet, Text.toNat_toUInt8 (by omega)]

/-- The decimal digits of a number begin with a zero for zero only. -/
theorem head?_toDigits (n : Nat) : ∃ c, (Nat.toDigits 10 n).head? = some c ∧ c.isDigit = true ∧
    (c = '0' → n = 0) := by
  induction n using Nat.strongRecOn with
  | ind n ih =>
    by_cases hn : n < 10
    · have hall : ∀ n < 10, (Nat.digitChar n).isDigit = true ∧ (Nat.digitChar n = '0' → n = 0) := by
        decide
      rw [Nat.toDigits_of_lt_base hn]
      exact ⟨_, rfl, hall n hn⟩
    · obtain ⟨c, hc, hdigit, hzero⟩ := ih (n / 10) (by omega)
      rw [Nat.toDigits_of_base_le (by decide) (by omega), List.head?_append, hc]
      exact ⟨c, rfl, hdigit, fun h => absurd (hzero h) (by omega)⟩

/-- A whole number as it is written. -/
def decimal (n : Nat) : Octets :=
  Text.encode (toString n)

theorem isDigit_of_mem_toDigits (h : c ∈ Nat.toDigits 10 n) : c.isDigit = true :=
  Nat.isDigit_of_mem_toDigits (by decide) (by decide) h

theorem flatMap_encodeChar {cs : List Char} (h : ∀ c ∈ cs, c.toNat < 0x80) :
    cs.flatMap Text.encodeChar = cs.map octet := by
  induction cs with
  | nil => rfl
  | cons c cs ih =>
    have hc : Text.encodeChar c = [octet c] := if_pos (h c List.mem_cons_self)
    rw [List.flatMap_cons, hc, ih fun x hx => h x (List.mem_cons_of_mem _ hx)]
    rfl

theorem decimal_eq (n : Nat) : decimal n = (Nat.toDigits 10 n).map octet := by
  unfold decimal Text.encode
  rw [Nat.toString_eq_repr, Nat.toList_repr]
  refine flatMap_encodeChar fun c hc => ?_
  have hdigit := toNat_of_isDigit (isDigit_of_mem_toDigits hc)
  omega

/-- All digits of a whole number are read. -/
theorem readWhole_decimal (hr : r.rest = decimal n ++ t) (ht : Delimited t) :
    readWhole r = .ok ((Nat.toDigits 10 n).map fun c => c.toNat - 0x30, r.skip (decimal n).length) := by
  have hdelimited : ∀ b, t.head? = some b → isDigit b = false := fun b hb => (ht.cases hb).1
  obtain ⟨c, hhead, hdigit, hzero⟩ := head?_toDigits n
  obtain ⟨cs, hcs⟩ := List.head?_eq_some_iff.1 hhead
  rw [decimal_eq] at hr ⊢
  have hc : r.head? = some c := by
    rw [hcs] at hr
    exact Reader.head?_of_rest hr (by have := toNat_of_isDigit hdigit; omega)
  unfold readWhole
  rw [hc]
  split
  · cases ‹some c = none›
  · rename_i he
    obtain rfl := hzero (Option.some.inj he)
    have hrest : r.next.rest = t := Reader.rest_next hr
    have hnext : (r.next.rest.head?.map isDigit).getD false = false := by
      rw [hrest]
      cases hhead : t.head? with
      | none => rfl
      | some b => exact hdelimited b hhead
    rw [hnext]
    rfl
  · rename_i he
    obtain rfl := Option.some.inj he
    rw [if_pos hdigit, readDigits_octets (fun c hc => isDigit_of_mem_toDigits hc) hr hdelimited,
      List.length_map]

theorem le_foldl_digits (ds : List Nat) (m : Nat) : m ≤ ds.foldl (fun n d => n * 10 + d) m := by
  induction ds generalizing m with
  | nil => exact Nat.le_refl m
  | cons d ds ih =>
    have hd := ih (m * 10 + d)
    rw [List.foldl_cons]
    omega

/-- All digits are kept if the number stays within the limit, and otherwise some are left over. -/
theorem absorb_cases {limit m : Nat} (hm : m ≤ limit) (ds : List Nat) :
    ds.foldl (fun n d => n * 10 + d) m ≤ limit ∧
        absorb limit m ds = (ds.foldl (fun n d => n * 10 + d) m, []) ∨
      limit < ds.foldl (fun n d => n * 10 + d) m ∧ (absorb limit m ds).2 ≠ [] := by
  induction ds generalizing m with
  | nil => exact .inl ⟨hm, rfl⟩
  | cons d ds ih =>
    rw [List.foldl_cons, absorb]
    by_cases hd : m * 10 + d ≤ limit
    · rw [if_pos hd]
      exact ih hd
    · rw [if_neg hd]
      have hle := le_foldl_digits ds (m * 10 + d)
      exact .inr ⟨by omega, by simp⟩

/-- The digits of a number make up the number. -/
theorem foldl_toDigits (n : Nat) :
    ((Nat.toDigits 10 n).map fun c => c.toNat - 0x30).foldl (fun n d => n * 10 + d) 0 = n := by
  have hdigits : Nat.ofDigitChars 10 (Nat.toDigits 10 n) 0 = n :=
    Nat.ofDigitChars_toDigits (by decide) (by decide)
  rw [List.foldl_map]
  simpa only [Nat.ofDigitChars, Nat.mul_comm 10, show '0'.toNat = 0x30 from rfl] using hdigits

/-- The digits of a number that stay within sixty-four bits, and how many are left over. -/
theorem significand_toDigits (n : Nat) :
    n ≤ greatestWhole ∧ significand ((Nat.toDigits 10 n).map fun c => c.toNat - 0x30) [] = (n, 0) ∨
      greatestWhole < n ∧ (significand ((Nat.toDigits 10 n).map fun c => c.toNat - 0x30) []).2 ≠ 0 := by
  have hcases := absorb_cases (Nat.zero_le greatestWhole)
    ((Nat.toDigits 10 n).map fun c => c.toNat - 0x30)
  rw [foldl_toDigits] at hcases
  rcases hcases with ⟨hle, h⟩ | ⟨hlt, h⟩
  · refine .inl ⟨hle, ?_⟩
    rw [significand, h]
    rfl
  · refine .inr ⟨hlt, ?_⟩
    rw [significand]
    simpa [absorb] using h

/-- What goes on a number does not follow a value. -/
theorem Delimited.head?_eq (hr : r.rest = t) (ht : Delimited t) :
    r.head? ≠ some '.' ∧ atPower r = false := by
  have hne : ∀ c : Char, (∀ b, t.head? = some b → b ≠ octet c) → r.head? ≠ some c := fun c hall =>
    Reader.head?_ne hr fun hb => hall _ hb rfl
  have he := hne 'e' fun b hb => (ht.cases hb).2.2.1
  have hE := hne 'E' fun b hb => (ht.cases hb).2.2.2
  exact ⟨hne '.' fun b hb => (ht.cases hb).2.1, by simp [atPower, he, hE]⟩

/-- A whole number is read as what it is if sixty-four bits can hold it, and otherwise not as a whole number. -/
theorem readNumber_decimal (hr : r.rest = decimal n ++ t) (ht : Delimited t) :
    n ≤ greatestWhole ∧ readNumber false r = .ok (.whole n, r.skip (decimal n).length) ∨
      greatestWhole < n ∧ ∀ m r', readNumber false r ≠ .ok (.whole m, r') := by
  obtain ⟨hpoint, hpower⟩ := Delimited.head?_eq (Reader.rest_skip hr) ht
  have hfraction : readFraction (r.skip (decimal n).length) =
      .ok (none, r.skip (decimal n).length) := by
    unfold readFraction
    split
    · exact absurd ‹_› hpoint
    · rfl
  unfold readNumber
  rw [readWhole_decimal hr ht]
  simp only [bind, Except.bind, hfraction, hpower, Bool.false_eq_true, if_false, Option.getD_none,
    Option.isNone_none, not_false_eq_true, true_or, and_true, true_and]
  rcases significand_toDigits n with ⟨hle, h⟩ | ⟨hlt, h⟩
  · exact .inl ⟨hle, by rw [h]; rfl⟩
  · refine .inr ⟨hlt, fun m r' => ?_⟩
    rw [if_neg h]
    split <;> simp [throw, throwThe, MonadExceptOf.throw, pure, Except.pure]

end IconModules.Json
