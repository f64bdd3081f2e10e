import IconModules.Catalogue.Reader
import IconModules.Proofs.Json.Tokens

/-! # Reading values, lists and objects

* `Gives` says how reading ends: with a value and the reader behind it, or with some fault if there is no value.
* `Reads f w o` says that `f` reads what was written as `w` and makes `o` of it, whatever stands in front and
  behind. Values are put together: a list reads if its elements do (`reads_list`), and an object if its members
  do (`members_items`, `reads_record`). -/

namespace IconModules.Json

variable {α β σ μ : Type} {r r' : Reader} {a b t v w q : Octets} {n fuel : Nat} {first : Bool}

/-- How reading ends: with a value and the reader behind it, or with a fault if there is no value. -/
def Gives (result : Except Fault (α × Reader)) (o : Option α) (r : Reader) : Prop :=
  match o with
  | some x => result = .ok (x, r)
  | none => ∃ f, result = .error f

theorem Gives.bind {result : Except Fault (α × Reader)} {o : Option α}
    {k : α × Reader → Except Fault (β × Reader)} {o' : α → Option β} (h : Gives result o r)
    (hk : ∀ x, Gives (k (x, r)) (o' x) r') : Gives (result >>= k) (o.bind o') r' := by
  cases o with
  | none =>
    obtain ⟨f, rfl⟩ := h
    exact ⟨f, rfl⟩
  | some x =>
    obtain rfl : result = .ok (x, r) := h
    exact hk x

theorem Gives.map {result : Except Fault (α × Reader)} {o : Option α} {k : α × Reader → Except Fault (β × Reader)}
    {g : α → β} (h : Gives result o r) (hk : ∀ x, k (x, r) = .ok (g x, r')) :
    Gives (result >>= k) (o.map g) r' := by
  rw [Option.map_eq_bind]
  exact h.bind hk

theorem Gives.behind {result : Except Fault (α × Reader)} {o : Option α}
    {k : α × Reader → Except Fault (α × Reader)} (h : Gives result o r) (hk : ∀ x, k (x, r) = .ok (x, r')) :
    Gives (result >>= k) o r' := by
  cases o with
  | none =>
    obtain ⟨f, rfl⟩ := h
    exact ⟨f, rfl⟩
  | some x =>
    obtain rfl : result = .ok (x, r) := h
    exact hk x

/-- A token begins neither with a blank nor with the end of a list. -/
def Begins (w : Octets) : Prop :=
  ∃ b v, w = b :: v ∧ b ∉ blanks ∧ b ≠ octet ']'

/-- What was written as `w` is read as `o`. -/
structure Reads (f : Read α) (w : Octets) (o : Option α) : Prop where
  begins : Begins w
  gives : ∀ (r : Reader) (a t : Octets), Blank a → Delimited t → r.rest = a ++ (w ++ t) →
    Gives (f r) o (r.skip (a.length + w.length))

theorem Begins.solid (h : Begins w) : Solid (w ++ t) := by
  obtain ⟨b, v, rfl, hb, -⟩ := h
  intro x hx
  obtain rfl := Option.some.inj hx
  exact hb

theorem Begins.length_pos (h : Begins w) : 0 < w.length := by
  obtain ⟨b, v, rfl, -⟩ := h
  simp

theorem begins_octet {c : Char} (hc : octet c ∉ blanks) (hne : octet c ≠ octet ']') : Begins (octet c :: v) :=
  ⟨octet c, v, rfl, hc, hne⟩

/-- What follows an element or a member is delimited. -/
theorem Items.delimited {V : Octets → α → Prop} {xs : List α} {c : Char} (h : Items V false w xs)
    (hc : c = ']' ∨ c = '\x7d') : Delimited (w ++ octet c :: t) := by
  have hblank : ∀ (a t : Octets), Blank a → Delimited t → Delimited (a ++ t) := by
    intro a t ha ht
    cases a with
    | nil => exact ht
    | cons x a =>
      intro b hb
      obtain rfl := Option.some.inj hb
      exact .inl (ha x List.mem_cons_self)
  cases h with
  | done hw =>
    refine hblank w _ hw fun b hb => ?_
    obtain rfl := Option.some.inj hb
    rcases hc with rfl | rfl
    · exact .inr (.inr (.inl rfl))
    · exact .inr (.inr (.inr rfl))
  | next ha hb hv hw =>
    rw [List.append_assoc]
    refine hblank _ _ ha fun b hb => ?_
    obtain rfl := Option.some.inj hb
    exact .inr (.inl rfl)

/-! ### Values without brackets -/

theorem reads_text {s : String} (h : Quoted w s) : Reads text w (some s) := by
  have hw : ∃ v, w = octet '"' :: v := by
    obtain ⟨v, -, rfl⟩ := h
    exact ⟨_, rfl⟩
  have hbegins : Begins w := by
    obtain ⟨v, rfl⟩ := hw
    exact begins_octet (by decide) (by decide)
  refine ⟨hbegins, fun r a t ha ht hr => ?_⟩
  have htrim := Reader.trim_eq hr ha hbegins.solid
  have hr' := Reader.rest_skip hr
  have hhead : (r.skip a.length).head? = some '"' := by
    obtain ⟨v, rfl⟩ := hw
    exact Reader.head?_of_rest hr' (by decide)
  unfold text
  rw [htrim]
  simp only [hhead]
  rw [readText_quoted h hr', Reader.skip_skip]
  rfl

/-- A number begins with a digit. -/
theorem exists_decimal (n : Nat) : ∃ c v, decimal n = octet c :: v ∧ c.isDigit = true := by
  obtain ⟨c, hhead, hdigit, -⟩ := head?_toDigits n
  obtain ⟨cs, hcs⟩ := List.head?_eq_some_iff.1 hhead
  exact ⟨c, cs.map octet, by rw [decimal_eq, hcs]; rfl, hdigit⟩

theorem begins_digit {c : Char} (hc : c.isDigit = true) : Begins (octet c :: v) := by
  have hall : (octet ']' :: blanks).all (fun b => !isDigit b) = true := by decide
  have hnot : octet c ∉ octet ']' :: blanks := fun hm => by
    have hnone := List.all_eq_true.1 hall _ hm
    rw [isDigit_octet hc] at hnone
    cases hnone
  rw [List.mem_cons, not_or] at hnot
  exact begins_octet hnot.2 hnot.1

/-- A number as thirty-two bits, if they can hold it. -/
def word? (n : Nat) : Option UInt32 :=
  if n < UInt32.size then some n.toUInt32 else none

/-- What thirty-two bits make of a number that sixty-four bits can hold. -/
theorem word32_cases (n : Nat) : n < UInt32.size ∧ word32 (.whole n) = .ok n.toUInt32 ∨
    ¬ n < UInt32.size ∧ word32 (.whole n) = .error (.outOfRange n "u32") := by
  unfold word32
  simp only [Int.natCast_nonneg, Int.ofNat_lt, true_and, Int.toNat_natCast]
  by_cases hn : n < UInt32.size
  · exact .inl ⟨hn, if_pos hn⟩
  · exact .inr ⟨hn, if_neg hn⟩

/-- A value that begins with a digit is read as a number, and then looked at. -/
theorem number32_digit {c : Char} (hhead : r.trim.head? = some c) (hc : c.isDigit = true) :
    (∀ f, readNumber false r.trim = .error f → number32 r = .error f) ∧
    ∀ m r', readNumber false r.trim = .ok (m, r') →
      (∀ x, word32 m = .ok x → number32 r = .ok (x, r')) ∧
        ∀ e, word32 m = .error e → number32 r = .error (r'.here e) := by
  have hminus : c ≠ '-' := by
    rintro rfl
    exact absurd hc (by decide)
  unfold number32
  simp only [hhead, hc, if_true]
  refine ⟨fun f h => by rw [h]; rfl, fun m r' h => ⟨fun x hx => ?_, fun e he => ?_⟩⟩
  · simp only [h, bind, Except.bind, hx]
    rfl
  · simp only [h, bind, Except.bind, he]
    rfl

theorem size_le_greatestWhole : UInt32.size ≤ greatestWhole := by decide

theorem reads_number32 (n : Nat) :
    Reads number32 (decimal n) (word? n) := by
  obtain ⟨c, v, hw, hdigit⟩ := exists_decimal n
  have hbegins : Begins (decimal n) := hw ▸ begins_digit hdigit
  refine ⟨hbegins, fun r a t ha ht hr => ?_⟩
  have htrim := Reader.trim_eq hr ha hbegins.solid
  have hr' := Reader.rest_skip hr
  have hhead : r.trim.head? = some c := by
    rw [htrim]
    rw [hw] at hr'
    exact Reader.head?_of_rest hr' (by have := toNat_of_isDigit hdigit; omega)
  have hnumber := number32_digit hhead hdigit
  rw [htrim] at hnumber
  unfold word?
  rcases readNumber_decimal hr' ht with ⟨-, h⟩ | ⟨hlarge, h⟩
  · rw [Reader.skip_skip] at h
    rcases word32_cases n with ⟨hn, hword⟩ | ⟨hn, hword⟩
    · rw [if_pos hn]
      exact (hnumber.2 _ _ h).1 _ hword
    · rw [if_neg hn]
      exact ⟨_, (hnumber.2 _ _ h).2 _ hword⟩
  · have hn : ¬ n < UInt32.size := Nat.not_lt.2 (Nat.le_trans size_le_greatestWhole (Nat.le_of_lt hlarge))
    rw [if_neg hn]
    cases hread : readNumber false (r.skip a.length) with
    | error f => exact ⟨f, hnumber.1 f hread⟩
    | ok y =>
      obtain ⟨m, r'⟩ := y
      cases m with
      | whole m => exact absurd hread (h m r')
      | floating negative x => exact ⟨_, (hnumber.2 _ _ hread).2 _ rfl⟩

/-! ### Lists -/

theorem nextElement_done (hr : r.rest = w ++ octet ']' :: t) (hw : Blank w) :
    nextElement first r = .ok (false, r.skip w.length) := by
  unfold nextElement
  rw [Reader.trim_eq hr hw (solid_octet (by decide))]
  simp only [Reader.head?_of_rest (Reader.rest_skip hr) (by decide)]

/-- The first octet of a token is not the end of a list. -/
theorem Begins.head? (h : Begins w) (hr : r.rest = w ++ t) : ∃ c, r.head? = some c ∧ c ≠ ']' := by
  obtain ⟨b, v, rfl, -, hne⟩ := h
  refine ⟨Char.ofNat b.toNat, by simp [Reader.head?, hr], fun hc => hne ?_⟩
  rw [← octet_ofNat b, hc]

theorem nextElement_first (hr : r.rest = a ++ (v ++ t)) (ha : Blank a) (hv : Begins v) :
    nextElement true r = .ok (true, r.skip a.length) := by
  obtain ⟨c, hhead, hc⟩ := hv.head? (Reader.rest_skip hr)
  unfold nextElement
  rw [Reader.trim_eq hr ha hv.solid]
  simp only [hhead, if_true]

theorem nextElement_next (hr : r.rest = a ++ octet ',' :: (b ++ (v ++ t))) (ha : Blank a) (hb : Blank b)
    (hv : Begins v) : nextElement false r = .ok (true, r.skip (a.length + (1 + b.length))) := by
  have hr₁ := Reader.rest_next (Reader.rest_skip hr)
  have hr₂ := Reader.rest_skip hr₁
  obtain ⟨c, hhead, hc⟩ := hv.head? hr₂
  unfold nextElement
  rw [Reader.trim_eq hr ha (solid_octet (by decide))]
  simp only [Reader.head?_of_rest (Reader.rest_skip hr) (by decide), Reader.trim_eq hr₁ hb hv.solid, hhead]
  simp [Reader.next_eq, Nat.add_assoc]

section

variable {element : Read β} {V : Octets → α → Prop} {g : α → Option β} {xs : List α}
  (hV : ∀ v x, V v x → Reads element v (g x))
include hV

omit hV in
theorem mapM_cons (x : α) (xs : List α) :
    (x :: xs).mapM g = (g x).bind fun y => (xs.mapM g).map (y :: ·) := by
  rw [List.mapM_cons]
  cases g x with
  | none => rfl
  | some y => cases h : xs.mapM g <;> rfl

/-- One more element is read, and then the rest. -/
theorem elements_next {x : α} {k : Nat} (hv : V v x) (hw : Items V false w xs)
    (hnext : nextElement first r = .ok (true, r.skip k))
    (hr : (r.skip k).rest = v ++ (w ++ octet ']' :: t))
    (hrest : Gives (elements element fuel false (r.skip (k + v.length))) (xs.mapM g)
      (r.skip (k + v.length + w.length))) :
    Gives (elements element (fuel + 1) first r) ((x :: xs).mapM g) (r.skip (k + v.length + w.length)) := by
  have hx := (hV v x hv).gives (r.skip k) [] _ blank_nil (hw.delimited (.inl rfl)) hr
  rw [List.length_nil, Nat.zero_add, Reader.skip_skip] at hx
  rw [mapM_cons, elements, hnext]
  exact hx.bind fun y => hrest.map fun ys => rfl

/-- The elements of a list are read up to its closing bracket. -/
theorem elements_items (h : Items V first w xs) (hr : r.rest = w ++ octet ']' :: t)
    (hfuel : w.length < fuel) : Gives (elements element fuel first r) (xs.mapM g) (r.skip w.length) := by
  obtain ⟨fuel, rfl⟩ := Nat.exists_eq_succ_of_ne_zero (Nat.ne_of_gt (Nat.zero_lt_of_lt hfuel))
  induction h generalizing r fuel with
  | done hw =>
    rw [elements, nextElement_done hr hw]
    rfl
  | @first a v w x xs ha hv hw ih =>
    have hbegins := (hV v x hv).begins
    have hlength := hbegins.length_pos
    simp only [List.append_assoc, List.length_append] at hr hfuel ⊢
    obtain ⟨fuel, rfl⟩ := Nat.exists_eq_succ_of_ne_zero (show fuel ≠ 0 by omega)
    have hr₁ := Reader.rest_skip hr
    have hr₂ := Reader.rest_skip hr₁
    rw [Reader.skip_skip] at hr₂
    have hrest := ih hr₂ fuel (by omega)
    rw [Reader.skip_skip] at hrest
    rw [← Nat.add_assoc]
    exact elements_next hV hv hw (nextElement_first hr ha hbegins) hr₁ hrest
  | @next a b v w x xs ha hb hv hw ih =>
    have hbegins := (hV v x hv).begins
    have hlength := hbegins.length_pos
    simp only [List.append_assoc, List.cons_append, List.length_append, List.length_cons] at hr hfuel ⊢
    obtain ⟨fuel, rfl⟩ := Nat.exists_eq_succ_of_ne_zero (show fuel ≠ 0 by omega)
    have hr₁ := Reader.rest_skip (Reader.rest_next (Reader.rest_skip hr))
    rw [Reader.next_eq, Reader.skip_skip, Reader.skip_skip] at hr₁
    have hr₂ := Reader.rest_skip hr₁
    rw [Reader.skip_skip] at hr₂
    have hrest := ih hr₂ fuel (by omega)
    rw [Reader.skip_skip] at hrest
    rw [show a.length + (b.length + (v.length + w.length) + 1) =
      a.length + (1 + b.length) + v.length + w.length by omega]
    exact elements_next hV hv hw (nextElement_next hr ha hb hbegins) hr₁ hrest

omit hV in
theorem closeList_of_rest (hr : r.rest = octet ']' :: t) : closeList r = (none, r.next) := by
  unfold closeList
  rw [Reader.trim_eq (a := []) hr blank_nil (solid_octet (by decide))]
  simp only [List.length_nil, Reader.skip_zero, Reader.head?_of_rest hr (by decide)]

/-- A list is read if its elements are. -/
theorem reads_list (h : Listed V w xs) : Reads (list element) w (xs.mapM g) := by
  obtain ⟨w, h, rfl⟩ := h
  have hbegins : Begins (octet '[' :: (w ++ [octet ']'])) := begins_octet (by decide) (by decide)
  refine ⟨hbegins, fun r a t ha ht hr => ?_⟩
  have htrim := Reader.trim_eq hr ha hbegins.solid
  have hr₁ := Reader.rest_skip hr
  have hr₂ : (r.skip a.length).next.rest = w ++ octet ']' :: t := by
    rw [Reader.rest_next hr₁]
    simp
  have hfuel : w.length < (r.skip a.length).left + 1 := by
    rw [(r.skip a.length).left_eq, hr₁]
    simp only [List.length_append, List.length_cons]
    omega
  have helements := elements_items hV h hr₂ hfuel
  have hclose := closeList_of_rest (Reader.rest_skip hr₂)
  unfold list
  simp only [htrim, Reader.head?_of_rest hr₁ (by decide)]
  refine helements.behind fun ys => ?_
  simp only [hclose]
  simp [pure, Except.pure, Reader.next_eq, Nat.add_comm, Nat.add_left_comm]

end

/-! ### Objects -/

/-- A text begins with a quote. -/
theorem Quoted.eq_cons {s : String} (h : Quoted q s) : ∃ v, q = octet '"' :: v := by
  obtain ⟨v, -, rfl⟩ := h
  exact ⟨_, rfl⟩

theorem Quoted.length_pos {s : String} (h : Quoted q s) : 0 < q.length := by
  obtain ⟨v, rfl⟩ := h.eq_cons
  simp

theorem nextKey_done (hr : r.rest = w ++ octet '\x7d' :: t) (hw : Blank w) :
    nextKey first r = .ok (none, r.skip w.length) := by
  unfold nextKey
  rw [Reader.trim_eq hr hw (solid_octet (by decide))]
  simp only [Reader.head?_of_rest (Reader.rest_skip hr) (by decide)]

variable {key : String}

theorem nextKey_first (hr : r.rest = a ++ (q ++ t)) (ha : Blank a) (hq : Quoted q key) :
    nextKey true r = .ok (some key, r.skip (a.length + q.length)) := by
  have hr₁ := Reader.rest_skip hr
  have hread := readText_quoted hq hr₁
  obtain ⟨v, rfl⟩ := hq.eq_cons
  unfold nextKey
  rw [Reader.trim_eq hr ha (solid_octet (by decide))]
  simp only [Reader.head?_of_rest hr₁ (by decide), if_true, hread, Reader.skip_skip]
  rfl

theorem nextKey_next (hr : r.rest = a ++ octet ',' :: (b ++ (q ++ t))) (ha : Blank a) (hb : Blank b)
    (hq : Quoted q key) :
    nextKey false r = .ok (some key, r.skip (a.length + (1 + (b.length + q.length)))) := by
  have hr₁ := Reader.rest_next (Reader.rest_skip hr)
  have hr₂ := Reader.rest_skip hr₁
  have hread := readText_quoted hq hr₂
  obtain ⟨v, rfl⟩ := hq.eq_cons
  unfold nextKey
  rw [Reader.trim_eq hr ha (solid_octet (by decide))]
  simp only [Reader.head?_of_rest (Reader.rest_skip hr) (by decide),
    Reader.trim_eq hr₁ hb (solid_octet (by decide)), Reader.head?_of_rest hr₂ (by decide), hread]
  simp [Except.map, Reader.next_eq, Nat.add_assoc]

/-- The value of a member is read behind its colon. -/
theorem readColon_valued (hr : r.rest = a ++ octet ':' :: t) (ha : Blank a) :
    readColon r = .ok (r.skip (a.length + 1)) := by
  unfold readColon
  rw [Reader.trim_eq hr ha (solid_octet (by decide))]
  simp only [Reader.head?_of_rest (Reader.rest_skip hr) (by decide), Reader.next_eq, Reader.skip_skip]

/-- The value of a field that has not come yet is read. -/
theorem gives_field {name : String} {old o : Option β} {value : Read β} {V : Octets → α → Prop} {x : α}
    {put : β → σ} (hV : ∀ u, V u x → Reads value u o) (hold : old = none) (h : Valued V v x)
    (ht : Delimited t) (hr : r.rest = v ++ t) :
    Gives (field name old value put r) ((o.map put).map .ok) (r.skip v.length) := by
  obtain ⟨a, b, u, ha, hb, hu, rfl⟩ := h
  simp only [List.append_assoc, List.cons_append] at hr
  have hr₁ := Reader.rest_next (Reader.rest_skip hr)
  rw [Reader.next_eq, Reader.skip_skip] at hr₁
  have hvalue := (hV u hu).gives _ b t hb ht hr₁
  have hlength : (a ++ octet ':' :: (b ++ u)).length = a.length + 1 + (b.length + u.length) := by
    simp only [List.length_append, List.length_cons]
    omega
  rw [Reader.skip_skip, ← hlength] at hvalue
  subst hold
  unfold field
  rw [readColon_valued hr ha, Option.map_map]
  exact hvalue.map fun y => rfl

section

variable {member : σ → String → Reader → Except Fault (Inside σ)} {M : String → Octets → μ → Prop}
  {put : σ → μ → Option σ} {free : σ → μ → Prop} {ms : List μ} {s : σ}

/-- Each of some members is free in the state that those in front of it leave. -/
def AllFree (put : σ → μ → Option σ) (free : σ → μ → Prop) : σ → List μ → Prop
  | _, [] => True
  | s, m :: ms => free s m ∧ ∀ s', put s m = some s' → AllFree put free s' ms

/-- Some members are free if the next one always is and the rest stays so, and then `o` is made of what they leave
if that holds of what is left at the end. -/
theorem allFree_foldlM {I : σ → List μ → Prop} {f : σ → β} {o : Option β}
    (hnext : ∀ s m ms, I s (m :: ms) →
      free s m ∧ (∀ s', put s m = some s' → I s' ms) ∧ (put s m = none → o = none))
    (hend : ∀ s, I s [] → some (f s) = o) (h : I s ms) :
    AllFree put free s ms ∧ (ms.foldlM put s).map f = o := by
  induction ms generalizing s with
  | nil => exact ⟨trivial, hend s h⟩
  | cons m ms ih =>
    obtain ⟨hfree, hrest, hnone⟩ := hnext s m ms h
    refine ⟨⟨hfree, fun s' hs' => (ih (hrest s' hs')).1⟩, ?_⟩
    rw [List.foldlM_cons]
    cases hput : put s m with
    | none => rw [hnone hput]; rfl
    | some s' => exact (ih (hrest s' hput)).2

variable (hM : ∀ key v m s r t, M key v m → free s m → Delimited t → r.rest = v ++ t →
  Gives (member s key r) ((put s m).map .ok) (r.skip v.length))
include hM

/-- One more member is read, and then the rest. -/
theorem members_next {m : μ} {k : Nat} (hv : M key v m) (hw : Items (Member M) false w ms)
    (hfree : AllFree put free s (m :: ms)) (hnext : nextKey first r = .ok (some key, r.skip k))
    (hr : (r.skip k).rest = v ++ (w ++ octet '\x7d' :: t))
    (hrest : ∀ s', AllFree put free s' ms →
      Gives (members member fuel false s' (r.skip (k + v.length))) ((ms.foldlM put s').map .ok)
        (r.skip (k + v.length + w.length))) :
    Gives (members member (fuel + 1) first s r) (((m :: ms).foldlM put s).map .ok)
      (r.skip (k + v.length + w.length)) := by
  have hm := hM key v m s (r.skip k) _ hv hfree.1 (hw.delimited (.inr rfl)) hr
  rw [Reader.skip_skip] at hm
  rw [members, hnext, List.foldlM_cons]
  cases hput : put s m with
  | none =>
    rw [hput] at hm
    obtain ⟨f, hf⟩ := hm
    exact ⟨f, by simp only [hf]⟩
  | some s' =>
    rw [hput] at hm
    have hok : member s key (r.skip k) = .ok (.ok s', r.skip (k + v.length)) := hm
    simp only [hok]
    exact hrest s' (hfree.2 s' hput)

/-- The members of an object are read up to its closing bracket. -/
theorem members_items (h : Items (Member M) first w ms) (hfree : AllFree put free s ms)
    (hr : r.rest = w ++ octet '\x7d' :: t) (hfuel : w.length < fuel) :
    Gives (members member fuel first s r) ((ms.foldlM put s).map .ok) (r.skip w.length) := by
  obtain ⟨fuel, rfl⟩ := Nat.exists_eq_succ_of_ne_zero (Nat.ne_of_gt (Nat.zero_lt_of_lt hfuel))
  induction h generalizing r fuel s with
  | done hw =>
    rw [members, nextKey_done hr hw]
    rfl
  | @first a v w x xs ha hv hw ih =>
    obtain ⟨key, q, v, hq, hv, rfl⟩ := hv
    have hlength := hq.length_pos
    simp only [List.append_assoc, List.length_append] at hr hfuel ⊢
    obtain ⟨fuel, rfl⟩ := Nat.exists_eq_succ_of_ne_zero (show fuel ≠ 0 by omega)
    have hr₁ := Reader.rest_skip (Reader.rest_skip hr)
    rw [Reader.skip_skip] at hr₁
    have hr₂ := Reader.rest_skip hr₁
    rw [Reader.skip_skip] at hr₂
    rw [show a.length + (q.length + (v.length + w.length)) =
      a.length + q.length + v.length + w.length by omega]
    refine members_next hM hv hw hfree (nextKey_first hr ha hq) hr₁ fun s' hs' => ?_
    have hrest := ih hs' hr₂ fuel (by omega)
    rwa [Reader.skip_skip] at hrest
  | @next a b v w x xs ha hb hv hw ih =>
    obtain ⟨key, q, v, hq, hv, rfl⟩ := hv
    have hlength := hq.length_pos
    simp only [List.append_assoc, List.cons_append, List.length_append, List.length_cons] at hr hfuel ⊢
    obtain ⟨fuel, rfl⟩ := Nat.exists_eq_succ_of_ne_zero (show fuel ≠ 0 by omega)
    have hr₁ := Reader.rest_skip (Reader.rest_skip (Reader.rest_next (Reader.rest_skip hr)))
    rw [Reader.next_eq, Reader.skip_skip, Reader.skip_skip, Reader.skip_skip] at hr₁
    have hr₂ := Reader.rest_skip hr₁
    rw [Reader.skip_skip] at hr₂
    rw [show a.length + (b.length + (q.length + (v.length + w.length)) + 1) =
      a.length + (1 + (b.length + q.length)) + v.length + w.length by omega]
    refine members_next hM hv hw hfree (nextKey_next hr ha hb hq) hr₁ fun s' hs' => ?_
    have hrest := ih hs' hr₂ fuel (by omega)
    rwa [Reader.skip_skip] at hrest

end

theorem closeObject_of_rest (hr : r.rest = octet '\x7d' :: t) : closeObject r = (none, r.next) := by
  unfold closeObject
  rw [Reader.trim_eq (a := []) hr blank_nil (solid_octet (by decide))]
  simp only [List.length_nil, Reader.skip_zero, Reader.head?_of_rest hr (by decide)]

/-- An object is read as a record if its inside is. -/
theorem readRecord_object {expected : String} {asList asObject : Reader → Except Fault (Inside α)} {o : Option α}
    (h : ∀ r t, r.rest = w ++ octet '\x7d' :: t → Gives (asObject r) (o.map .ok) (r.skip w.length)) :
    Reads (readRecord expected asList asObject) (octet '\x7b' :: (w ++ [octet '\x7d'])) o := by
  have hbegins : Begins (octet '\x7b' :: (w ++ [octet '\x7d'])) := begins_octet (by decide) (by decide)
  refine ⟨hbegins, fun r a t ha ht hr => ?_⟩
  have htrim := Reader.trim_eq hr ha hbegins.solid
  have hr₁ := Reader.rest_skip hr
  have hr₂ : (r.skip a.length).next.rest = w ++ octet '\x7d' :: t := by
    rw [Reader.rest_next hr₁]
    simp
  have hinside := h _ t hr₂
  have hclose := closeObject_of_rest (Reader.rest_skip hr₂)
  unfold readRecord
  simp only [htrim, Reader.head?_of_rest hr₁ (by decide)]
  cases o with
  | none =>
    obtain ⟨f, hf⟩ := hinside
    exact ⟨f, by simp only [hf]; rfl⟩
  | some x =>
    have hok : asObject (r.skip a.length).next =
      .ok (.ok x, (r.skip a.length).next.skip w.length) := hinside
    rw [hok]
    simp only [bind, Except.bind, hclose]
    have hend : ((r.skip a.length).next.skip w.length).next =
        r.skip (a.length + (octet '\x7b' :: (w ++ [octet '\x7d'])).length) := by
      simp [Reader.next_eq, Nat.add_comm, Nat.add_left_comm]
    rw [hend]
    rfl

/-- An object is read as a record if its members are and what they leave makes up the record. -/
theorem reads_record {member : σ → String → Reader → Except Fault (Inside σ)} {M : String → Octets → μ → Prop}
    {put : σ → μ → Option σ} {free : σ → μ → Prop} {ms : List μ} {s : σ} {expected : String}
    {asList asObject : Reader → Except Fault (Inside α)} {k : Except Complaint σ → Except Complaint α}
    {o : Option α}
    (hobject : ∀ r, asObject r = members member (r.left + 1) true s r >>= fun p => .ok (k p.1, p.2))
    (hM : ∀ key v m s r t, M key v m → free s m → Delimited t → r.rest = v ++ t →
      Gives (member s key r) ((put s m).map .ok) (r.skip v.length))
    (h : Braced (Member M) w ms) (hfree : AllFree put free s ms)
    (hk : ((ms.foldlM put s).map .ok).map k = o.map .ok) :
    Reads (readRecord expected asList asObject) w o := by
  obtain ⟨w, h, rfl⟩ := h
  refine readRecord_object fun r t hr => ?_
  have hfuel : w.length < r.left + 1 := by
    rw [r.left_eq, hr]
    simp only [List.length_append, List.length_cons]
    omega
  rw [hobject, ← hk]
  exact (members_items hM h hfree hr hfuel).map fun x => rfl

end IconModules.Json
