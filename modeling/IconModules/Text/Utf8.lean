/-!
# Texts as octets

A text is stored as UTF-8. Reading is a walk over the octets in a `State` that says how many more
octets the character at hand needs and in which range the next one has to lie.

* **`encode`** writes a text.
* **`events`** reads octets: characters, refused beginnings of characters, and an end inside one.
  What is refused is always the longest beginning that some character has.
* **`decodeLossy`** puts the replacement character in the place of everything refused.
* **`decode`** fails at the first refusal and says where it is.
-/

namespace IconModules

/-- The content of a file and everything that goes over a wire. -/
abbrev Octets := List UInt8

namespace Text

/-! ### Writing -/

def encodeChar (c : Char) : Octets :=
  let n := c.toNat
  if n < 0x80 then [n.toUInt8]
  else if n < 0x800 then [(0xC0 + n / 0x40).toUInt8, (0x80 + n % 0x40).toUInt8]
  else if n < 0x10000 then
    [(0xE0 + n / 0x1000).toUInt8, (0x80 + n / 0x40 % 0x40).toUInt8, (0x80 + n % 0x40).toUInt8]
  else
    [(0xF0 + n / 0x40000).toUInt8, (0x80 + n / 0x1000 % 0x40).toUInt8,
      (0x80 + n / 0x40 % 0x40).toUInt8, (0x80 + n % 0x40).toUInt8]

def encode (s : String) : Octets :=
  s.toList.flatMap encodeChar

/-! ### Reading -/

/-- Where a reader stands: before a character, or inside one of which `seen` octets are read, whose
bits are `bits`, and which needs `left + 1` more, the next of them from `low` to `high`. -/
inductive State where
  | start
  | inside (left : Nat) (low high : UInt8) (bits seen : Nat)

/-- What reading finds. -/
inductive Event where
  /-- A character and the number of its octets. -/
  | char (c : Char) (width : Nat)
  /-- Octets that begin no character. -/
  | refused (width : Nat)
  /-- The input ends inside a character. -/
  | cut (width : Nat)

/-- The number of octets an event stands for. -/
def Event.width : Event → Nat
  | .char _ n => n
  | .refused n => n
  | .cut n => n

/-- Reads the first octet of a character. -/
def State.lead (b : UInt8) : List Event × State :=
  let n := b.toNat
  if n < 0x80 then ([.char (Char.ofNat n) 1], .start)
  else if n < 0xC2 then ([.refused 1], .start)
  else if n < 0xE0 then ([], .inside 0 0x80 0xBF (n - 0xC0) 1)
  else if n = 0xE0 then ([], .inside 1 0xA0 0xBF 0 1)
  else if n = 0xED then ([], .inside 1 0x80 0x9F 0xD 1)
  else if n < 0xF0 then ([], .inside 1 0x80 0xBF (n - 0xE0) 1)
  else if n = 0xF0 then ([], .inside 2 0x90 0xBF 0 1)
  else if n < 0xF4 then ([], .inside 2 0x80 0xBF (n - 0xF0) 1)
  else if n = 0xF4 then ([], .inside 2 0x80 0x8F 4 1)
  else ([.refused 1], .start)

/-- Reads one octet. An octet out of range ends the character at hand and begins the next. -/
def State.feed : State → UInt8 → List Event × State
  | .start, b => State.lead b
  | .inside left low high bits seen, b =>
    if low ≤ b ∧ b ≤ high then
      let bits := bits * 0x40 + (b.toNat - 0x80)
      match left with
      | 0 => ([.char (Char.ofNat bits) (seen + 1)], .start)
      | left + 1 => ([], .inside left 0x80 0xBF bits (seen + 1))
    else
      let (found, next) := State.lead b
      (.refused seen :: found, next)

/-- The end of the input. -/
def State.finish : State → List Event
  | .start => []
  | .inside _ _ _ _ seen => [.cut seen]

def eventsFrom : State → Octets → List Event
  | st, [] => st.finish
  | st, b :: bs => (st.feed b).1 ++ eventsFrom (st.feed b).2 bs

/-- Everything found in some octets. -/
def events (bs : Octets) : List Event :=
  eventsFrom .start bs

/-- The text with a replacement character for every refusal. -/
def decodeLossy (bs : Octets) : String :=
  String.ofList <| (events bs).map fun
    | .char c _ => c
    | _ => '\uFFFD'

/-- Why octets are no text: at offset `offset`, `width` octets begin no character, or, without a
width, the input ends inside one. -/
structure Malformed where
  offset : Nat
  width : Option Nat

/-- The complaint in words. -/
def Malformed.message (m : Malformed) : String :=
  match m.width with
  | some w => s!"invalid utf-8 sequence of {w} bytes from index {m.offset}"
  | none => s!"incomplete utf-8 byte sequence from index {m.offset}"

/-- Collects characters up to the first refusal, `offset` octets into the input. -/
def collect (offset : Nat) : List Event → Except Malformed (List Char)
  | [] => .ok []
  | .char c n :: es => (collect (offset + n) es).map (c :: ·)
  | .refused n :: _ => .error ⟨offset, some n⟩
  | .cut _ :: _ => .error ⟨offset, none⟩

/-- The text, if the octets are one. -/
def decode (bs : Octets) : Except Malformed String :=
  (collect 0 (events bs)).map String.ofList

end Text
end IconModules
