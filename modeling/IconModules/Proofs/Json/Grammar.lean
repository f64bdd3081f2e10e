import IconModules.Json.Skip

/-! # JSON as it may be written

What a writer may put down for a text, a number or any other value, as relations between octets and what they
stand for.

* `Spelling` has every form of a character in a text: itself, an escape of one letter, a number of four hexadecimal
  digits, or two such numbers. A text (`Quoted`) may change the form from one character to the next.
* `Items` are the elements of a list or the members of an object up to the closing bracket, with blanks wherever
  they may stand; `Listed` and `Braced` have the brackets as well.
* `Scalar` and `Value` are the values that stand for nothing in particular; `Value d` has at most `d` brackets
  around each other. -/

namespace IconModules.Json

/-- A character of one octet. -/
def octet (c : Char) : UInt8 :=
  c.toNat.toUInt8

/-! ### Blanks -/

/-- The octets that may stand between tokens. -/
def blanks : Octets :=
  Text.encode " \t\n\r"

/-- Nothing but blanks. -/
def Blank (w : Octets) : Prop :=
  ∀ b ∈ w, b ∈ blanks

theorem blank_nil : Blank [] := by
  intro b hb
  cases hb

/-- The elements of a list or the members of an object, of which `V` says how each is written, up to the closing
bracket. A comma stands in front of each that is not the first. -/
inductive Items {α : Type} (V : Octets → α → Prop) : Bool → Octets → List α → Prop
  | done {first : Bool} {w : Octets} (hw : Blank w) : Items V first w []
  | first {a v w : Octets} {x : α} {xs : List α} (ha : Blank a) (hv : V v x) (hw : Items V false w xs) :
      Items V true (a ++ v ++ w) (x :: xs)
  | next {a b v w : Octets} {x : α} {xs : List α} (ha : Blank a) (hb : Blank b) (hv : V v x)
      (hw : Items V false w xs) : Items V false (a ++ octet ',' :: (b ++ v ++ w)) (x :: xs)

/-- A list in its brackets. -/
def Listed {α : Type} (V : Octets → α → Prop) (w : Octets) (xs : List α) : Prop :=
  ∃ v, Items V true v xs ∧ w = octet '[' :: (v ++ [octet ']'])

/-- The members of an object in its brackets. -/
def Braced {α : Type} (V : Octets → α → Prop) (w : Octets) (xs : List α) : Prop :=
  ∃ v, Items V true v xs ∧ w = octet '\x7b' :: (v ++ [octet '\x7d'])

/-! ### Texts -/

/-- A hexadecimal digit, in small or capital letters. -/
def HexDigit (b : UInt8) (d : Nat) : Prop :=
  d < 16 ∧ (b = octet (Nat.digitChar d) ∨ b = octet (Nat.digitChar d).toUpper)

/-- A number of four hexadecimal digits behind a backslash and the letter that announces it. -/
inductive Numbered : Octets → Nat → Prop
  | digits {a b c d : UInt8} {m n o p : Nat} (ha : HexDigit a m) (hb : HexDigit b n) (hc : HexDigit c o)
      (hd : HexDigit d p) :
      Numbered [octet '\\', octet 'u', a, b, c, d] (((m * 16 + n) * 16 + o) * 16 + p)

/-- The letters behind a backslash and the characters that they stand for. -/
def escapes : List (Char × Char) :=
  [('"', '"'), ('\\', '\\'), ('/', '/'), ('b', '\x08'), ('f', '\x0c'), ('n', '\n'), ('r', '\r'),
   ('t', '\t')]

/-- How a character may be written in a text. -/
inductive Spelling : Octets → Char → Prop
  | itself {c : Char} (hc : 0x20 ≤ c.toNat) (hquote : c ≠ '"') (hslash : c ≠ '\\') :
      Spelling (Text.encodeChar c) c
  | escape {e c : Char} (he : (e, c) ∈ escapes) : Spelling [octet '\\', octet e] c
  | number {w : Octets} {c : Char} (hw : Numbered w c.toNat) : Spelling w c
  /-- A character beyond the first plane is written in two halves. -/
  | halves {v w : Octets} {c : Char} {m n : Nat} (hm : 0xD800 ≤ m ∧ m < 0xDC00)
      (hn : 0xDC00 ≤ n ∧ n < 0xE000) (hc : c.toNat = 0x10000 + (m - 0xD800) * 0x400 + (n - 0xDC00))
      (hv : Numbered v m) (hw : Numbered w n) : Spelling (v ++ w) c

/-- Characters one behind the other. -/
inductive Spelled : Octets → List Char → Prop
  | nil : Spelled [] []
  | cons {v w : Octets} {c : Char} {cs : List Char} (hv : Spelling v c) (hw : Spelled w cs) :
      Spelled (v ++ w) (c :: cs)

/-- A text in quotes. -/
def Quoted (w : Octets) (s : String) : Prop :=
  ∃ v, Spelled v s.toList ∧ w = octet '"' :: (v ++ [octet '"'])

/-- A text in which nothing has to be escaped may be written as it is. -/
theorem quoted_itself {s : String}
    (h : (s.toList.all fun c => 0x20 ≤ c.toNat && c != '"' && c != '\\') = true) :
    Quoted (octet '"' :: (Text.encode s ++ [octet '"'])) s := by
  refine ⟨Text.encode s, ?_, rfl⟩
  unfold Text.encode
  generalize s.toList = cs at h
  induction cs with
  | nil => exact .nil
  | cons c cs ih =>
    simp only [List.all_cons, Bool.and_eq_true, decide_eq_true_iff, bne_iff_ne] at h
    obtain ⟨⟨⟨hc, hquote⟩, hslash⟩, h⟩ := h
    exact .cons (.itself hc hquote hslash) (ih h)

/-- The inside of a text that may hold anything, halves of characters as well. -/
inductive Loose : Octets → Prop
  | nil : Loose []
  | plain {b : UInt8} {w : Octets} (hb : 0x20 ≤ b) (hquote : b ≠ octet '"') (hslash : b ≠ octet '\\')
      (hw : Loose w) : Loose (b :: w)
  | escape {e c : Char} {w : Octets} (he : (e, c) ∈ escapes) (hw : Loose w) :
      Loose (octet '\\' :: octet e :: w)
  | number {v w : Octets} {n : Nat} (hv : Numbered v n) (hw : Loose w) : Loose (v ++ w)

/-! ### Members -/

/-- What stands behind the key of a member: a colon and a value. -/
def Valued {α : Type} (V : Octets → α → Prop) (w : Octets) (x : α) : Prop :=
  ∃ a b v, Blank a ∧ Blank b ∧ V v x ∧ w = a ++ octet ':' :: (b ++ v)

theorem valued_tight {α : Type} {V : Octets → α → Prop} {v : Octets} {x : α} (h : V v x) :
    Valued V (octet ':' :: v) x :=
  ⟨[], [], v, blank_nil, blank_nil, h, rfl⟩

/-- A member of an object, of which `M` says what may stand behind which key. -/
def Member {μ : Type} (M : String → Octets → μ → Prop) (w : Octets) (m : μ) : Prop :=
  ∃ key q v, Quoted q key ∧ M key v m ∧ w = q ++ v

/-! ### Other values -/

/-- Digits, at least one. -/
def Digits (w : Octets) : Prop :=
  w ≠ [] ∧ ∀ b ∈ w, ∃ d < 10, b = octet (Nat.digitChar d)

/-- The digits of a number in front of the point; a zero has no digit behind it. -/
def Whole (w : Octets) : Prop :=
  w = [octet '0'] ∨ Digits w ∧ w.head? ≠ some (octet '0')

/-- The point of a number and the digits behind it, or nothing. -/
def Fraction (w : Octets) : Prop :=
  w = [] ∨ ∃ ds, Digits ds ∧ w = octet '.' :: ds

/-- The exponent of a number, or nothing. -/
def Power (w : Octets) : Prop :=
  w = [] ∨ ∃ e sign ds, (e = octet 'e' ∨ e = octet 'E') ∧
    (sign = [] ∨ sign = [octet '+'] ∨ sign = [octet '-']) ∧ Digits ds ∧ w = e :: (sign ++ ds)

/-- A value without brackets. -/
inductive Scalar : Octets → Prop
  | null : Scalar (Text.encode "null")
  | true : Scalar (Text.encode "true")
  | false : Scalar (Text.encode "false")
  | text {w : Octets} (hw : Loose w) : Scalar (octet '"' :: (w ++ [octet '"']))
  | number {sign whole fraction power : Octets} (hsign : sign = [] ∨ sign = [octet '-'])
      (hwhole : Whole whole) (hfraction : Fraction fraction) (hpower : Power power) :
      Scalar (sign ++ whole ++ fraction ++ power)

/-- A key of any text and a value. -/
def LooseMember (V : Octets → Unit → Prop) (w : Octets) (x : Unit) : Prop :=
  ∃ key v, Loose key ∧ Valued V v x ∧ w = octet '"' :: (key ++ octet '"' :: v)

/-- A value with at most `d` brackets around each other. -/
def Value : Nat → Octets → Unit → Prop
  | 0, w, _ => Scalar w
  | d + 1, w, _ => Scalar w ∨ (∃ us, Listed (Value d) w us) ∨ ∃ us, Braced (LooseMember (Value d)) w us

/-- A value of any depth. -/
def AnyValue (w : Octets) (u : Unit) : Prop :=
  ∃ d, Value d w u

end IconModules.Json
