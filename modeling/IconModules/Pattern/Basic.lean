import IconModules.Text.Blank
/-!
# Patterns

A `Pattern` describes pieces of text. It is matched from left to right, and of several ways to match
the first one counts: in an alternative the left side before the right, in a run the longer before
the shorter.

* **`CharSet`** is a set of characters as a pattern writes it.
* **`Cursor`** is a place in a text together with what the groups have matched so far.
* **`Pattern.ways`** lists the places where a match may end, best first.
* **`Pattern.match?`** is the best match.
* **`Pattern.depth`** and **`Pattern.size`** measure a pattern; neither may be too great.
-/

namespace IconModules

/-! ### Sets of characters -/

inductive CharItem where
  | range (first last : Char)
  /-- White space. -/
  | blank
  deriving DecidableEq, Repr

def CharItem.holds : CharItem → Char → Bool
  | range a b, c => a ≤ c && c ≤ b
  | blank, c => Text.isBlank c

/-- The characters that some item holds or, if `negated`, that no item holds. -/
structure CharSet where
  negated : Bool
  items : List CharItem
  deriving DecidableEq, Repr

namespace CharSet

def holds (s : CharSet) (c : Char) : Bool :=
  s.items.any (·.holds c) != s.negated

def single (c : Char) : CharSet :=
  ⟨false, [.range c c]⟩

/-- The set of white space. -/
def blanks : CharSet :=
  ⟨false, [.blank]⟩

/-- How many steps it takes to match a character of the set octet by octet, roughly. -/
def size (s : CharSet) : Nat :=
  match s with
  | ⟨false, [.range a b]⟩ => if a = b then a.utf8Size else 12
  | _ => 12

@[simp] theorem holds_single (a c : Char) : (single a).holds c = (c == a) := by
  rw [Bool.eq_iff_iff]
  simp only [holds, single, List.any_cons, List.any_nil, Bool.or_false, CharItem.holds,
    Bool.bne_false, Bool.and_eq_true, decide_eq_true_eq, beq_iff_eq]
  exact ⟨fun ⟨h1, h2⟩ => Char.le_antisymm h2 h1, fun h => h ▸ ⟨Char.le_refl _, Char.le_refl _⟩⟩

@[simp] theorem holds_blanks (c : Char) : blanks.holds c = Text.isBlank c := by
  simp [holds, blanks, CharItem.holds]

end CharSet

/-! ### Patterns -/

/-- A description of pieces of text. -/
inductive Pattern where
  | empty
  /-- The empty piece at the start of a line or, if not `each`, of the whole text. -/
  | start (each : Bool)
  | one (set : CharSet)
  /-- At least `least` characters of a set and, if there is a bound, at most `most`. -/
  | run (set : CharSet) (least : Nat) (most : Option Nat)
  | seq (p q : Pattern)
  | alt (p q : Pattern)
  /-- A piece that is remembered under a number. -/
  | group (number : Nat) (p : Pattern)
  deriving DecidableEq, Repr

/-! ### Matching -/

/-- A place in a text: the character before it, the characters behind it, how many characters the
match has taken, and where the groups began and ended, last one first. -/
structure Cursor where
  before : Option Char
  rest : List Char
  taken : Nat
  groups : List (Nat × Nat × Nat)
  deriving DecidableEq, Repr

namespace Cursor

/-- Where a match may begin. -/
def origin (before : Option Char) (rest : List Char) : Cursor :=
  ⟨before, rest, 0, []⟩

/-- The place behind the character `c`, with `rest` following. -/
def past (k : Cursor) (c : Char) (rest : List Char) : Cursor :=
  ⟨some c, rest, k.taken + 1, k.groups⟩

/-- The place with a group added that began when `first` characters were taken. -/
def close (number first : Nat) (k : Cursor) : Cursor :=
  { k with groups := (number, first, k.taken) :: k.groups }

/-- The places behind `least` to `most` characters of a set, the farthest first. -/
def runs (set : CharSet) (least : Nat) (most : Option Nat) (k : Cursor) : List Cursor :=
  go k least most k.rest
where
  go (k : Cursor) (least : Nat) (most : Option Nat) : List Char → List Cursor
    | [] => if least = 0 then [k] else []
    | c :: cs =>
      if most ≠ some 0 && set.holds c then
        go (k.past c cs) (least - 1) (most.map (· - 1)) cs ++ if least = 0 then [k] else []
      else if least = 0 then [k] else []

theorem runs_end {k : Cursor} (h : k.rest = []) (set : CharSet) (least : Nat) (most : Option Nat) :
    k.runs set least most = if least = 0 then [k] else [] := by
  rw [runs, h]
  rfl

theorem runs_next {k : Cursor} {c : Char} {cs : List Char} (h : k.rest = c :: cs) (set : CharSet)
    (least : Nat) (most : Option Nat) :
    k.runs set least most =
      if most ≠ some 0 && set.holds c then
        (k.past c cs).runs set (least - 1) (most.map (· - 1)) ++ if least = 0 then [k] else []
      else if least = 0 then [k] else [] := by
  rw [runs, h]
  rfl

end Cursor

namespace Pattern

/-- The places where a match that begins at a place may end, best first. -/
def ways : Pattern → Cursor → List Cursor
  | empty, k => [k]
  | start each, k =>
    match k.before with
    | none => [k]
    | some c => if each && c = '\n' then [k] else []
  | one set, k =>
    match k.rest with
    | [] => []
    | c :: cs => if set.holds c then [k.past c cs] else []
  | run set least most, k => k.runs set least most
  | seq p q, k => (p.ways k).flatMap q.ways
  | alt p q, k => p.ways k ++ q.ways k
  | group n p, k => (p.ways k).map (Cursor.close n k.taken)

@[simp] theorem ways_empty (k : Cursor) : empty.ways k = [k] := rfl

theorem ways_start (each : Bool) (k : Cursor) :
    (start each).ways k =
      match k.before with
      | none => [k]
      | some c => if each && c = '\n' then [k] else [] := rfl

theorem ways_one (set : CharSet) (k : Cursor) :
    (one set).ways k =
      match k.rest with
      | [] => []
      | c :: cs => if set.holds c then [k.past c cs] else [] := rfl

theorem ways_run (set : CharSet) (least : Nat) (most : Option Nat) (k : Cursor) :
    (run set least most).ways k = k.runs set least most := rfl

@[simp] theorem ways_seq (p q : Pattern) (k : Cursor) :
    (seq p q).ways k = (p.ways k).flatMap q.ways := rfl

@[simp] theorem ways_alt (p q : Pattern) (k : Cursor) :
    (alt p q).ways k = p.ways k ++ q.ways k := rfl

@[simp] theorem ways_group (n : Nat) (p : Pattern) (k : Cursor) :
    (group n p).ways k = (p.ways k).map (Cursor.close n k.taken) := rfl

/-- The end of the best match that begins here. -/
def match? (p : Pattern) (before : Option Char) (rest : List Char) : Option Cursor :=
  (p.ways (.origin before rest)).head?

/-! ### Measures -/

/-- How deep the pieces of a pattern are nested. A sequence is one level however long it is, and so
are alternatives; a sequence of one piece is none. -/
def depth : Pattern → Nat
  | empty => 0
  | start _ => 0
  | one _ => 0
  | run .. => 1
  | seq p empty => p.depth
  | seq p (seq q empty) => max p.depth q.depth + 1
  | seq p q => max (p.depth + 1) q.depth
  | alt p (alt q r) => max (p.depth + 1) (alt q r).depth
  | alt p q => max p.depth q.depth + 1
  | group _ p => p.depth + 1

/-- How many steps a machine has that matches the pattern octet by octet, roughly: as many as an
octet in every piece, a run as often as it may be told to repeat. -/
def size : Pattern → Nat
  | empty => 1
  | start _ => 1
  | one set => set.size
  | run set least most => set.size * (most.getD least + 1)
  | seq p q => p.size + q.size
  | alt p q => p.size + q.size + 1
  | group _ p => p.size + 2

/-! ### Words -/

/-- The pattern of a fixed text. -/
def word : List Char → Pattern
  | [] => empty
  | c :: cs => seq (one (.single c)) (word cs)

end Pattern
end IconModules
