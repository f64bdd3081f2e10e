import IconModules.Pattern.Basic
/-!
# Reading patterns

* **`Pattern.read?`** reads the text of a pattern. It fails on a text that is not well formed: a
  group or set left open, a sign of repetition with nothing to repeat, bounds or ends of a range in
  the wrong order, a range that begins or ends with white space, an escape of something that has no
  escape. It also fails on a pattern that is nested too deep or too large.

The signs are `^` for the start, `.` for any character but a line break, `[…]` for sets, `(…)` for
groups, `|` between alternatives, `*`, `+`, `?` and `{m,n}` behind a character or set, `\s` for
white space, and a backslash before any mark that is to stand for itself. With `(?m)` in front, `^`
is the start of every line.
-/

namespace IconModules.Pattern

/-! ### Sets -/

/-- Whether a backslash makes a character stand for itself: every plain character but letters,
digits and angle brackets. -/
def isEscapable (c : Char) : Bool :=
  c.toNat < 128 && !c.isAlphanum && c != '<' && c != '>'

/-- What a backslash and the character `c` stand for. -/
def escaped? (c : Char) : Option CharItem :=
  if c = 's' then some .blank else if isEscapable c then some (.range c c) else none

/-- One character or escape in a set and what follows it. -/
def readMember : List Char → Option (CharItem × List Char)
  | '\\' :: c :: cs => (escaped? c).map (·, cs)
  | '\\' :: [] => none
  | '[' :: _ => none
  | c :: cs => some (.range c c, cs)
  | [] => none

/-- The range from one member of a set to another. Both have to be characters, in order. -/
def joined? : CharItem → CharItem → Option CharItem
  | .range a _, .range b _ => if a ≤ b then some (.range a b) else none
  | _, _ => none

/-- One item of a set and what follows it. A hyphen at the end of the set stands for itself. -/
def readItem (cs : List Char) : Option (CharItem × List Char) :=
  match readMember cs with
  | some (item, '-' :: d :: rest) =>
    if d = ']' then some (item, '-' :: d :: rest)
    else
      match readMember (d :: rest) with
      | some (last, rest) => (joined? item last).map (·, rest)
      | none => none
  | r => r

/-- The items of a set up to its closing bracket, and what follows that. -/
def readItems : Nat → List Char → Option (List CharItem × List Char)
  | 0, _ => none
  | _ + 1, ']' :: cs => some ([], cs)
  | fuel + 1, cs =>
    match readItem cs with
    | none => none
    | some (item, rest) => (readItems fuel rest).map fun r => (item :: r.1, r.2)

/-- A set in brackets, from behind the opening one. The first item may be a closing bracket. -/
def readClass (cs : List Char) : Option (CharSet × List Char) :=
  let (negated, cs) := match cs with
    | '^' :: rest => (true, rest)
    | _ => (false, cs)
  match readItem cs with
  | none => none
  | some (item, rest) =>
    (readItems (rest.length + 1) rest).map fun r => (⟨negated, item :: r.1⟩, r.2)

def readSet : List Char → Option (CharSet × List Char)
  | [] => none
  | '\\' :: c :: cs => (escaped? c).map fun item => (⟨false, [item]⟩, cs)
  | '[' :: cs => readClass cs
  | '.' :: cs => some (⟨true, [.range '\n' '\n']⟩, cs)
  | c :: cs => if c ∈ "\\*+?\x7b()|^$".toList then none else some (.single c, cs)

/-! ### Repetition -/

def readNumber (cs : List Char) : Option (Nat × List Char) :=
  match cs.takeWhile Char.isDigit with
  | [] => none
  | ds => some (ds.foldl (fun n d => n * 10 + (d.toNat - 48)) 0, cs.dropWhile Char.isDigit)

/-- The bounds of a repetition, from behind the opening brace. -/
def readBounds (cs : List Char) : Option ((Nat × Option Nat) × List Char) :=
  match readNumber cs with
  | some (m, '\x7d' :: rest) => some ((m, some m), rest)
  | some (m, ',' :: '\x7d' :: rest) => some ((m, none), rest)
  | some (m, ',' :: rest) =>
    match readNumber rest with
    | some (n, '\x7d' :: rest) => if m ≤ n then some ((m, some n), rest) else none
    | _ => none
  | _ => none

/-- Whether a sign of repetition comes first. -/
def repeats : List Char → Bool
  | c :: _ => c ∈ "*+?\x7b".toList
  | [] => false

/-- The sign of repetition behind a set, if there is one; a second one may not follow it. -/
def readRepetition (set : CharSet) (cs : List Char) : Option (Pattern × List Char) :=
  let bounded (least : Nat) (most : Option Nat) (rest : List Char) :=
    if repeats rest then none else some (run set least most, rest)
  match cs with
  | '*' :: rest => bounded 0 none rest
  | '+' :: rest => bounded 1 none rest
  | '?' :: rest => bounded 0 (some 1) rest
  | '\x7b' :: rest =>
    match readBounds rest with
    | some ((m, n), rest) => bounded m n rest
    | none => none
  | _ => some (one set, cs)

/-! ### Patterns -/

mutual

/-- Alternatives up to a closing bracket or the end. `each` is the meaning of `^`, `next` is the
number of the next group; the fuel has to exceed twice the length of the text. -/
def readAlternatives (each : Bool) : Nat → Nat → List Char → Option (Pattern × Nat × List Char)
  | 0, _, _ => none
  | fuel + 1, next, cs =>
    match readSequence each fuel next cs with
    | some (p, next, '|' :: rest) =>
      (readAlternatives each fuel next rest).map fun r => (alt p r.1, r.2)
    | r => r

/-- Pieces up to a bar, a closing bracket or the end. -/
def readSequence (each : Bool) : Nat → Nat → List Char → Option (Pattern × Nat × List Char)
  | 0, _, _ => none
  | _ + 1, next, [] => some (empty, next, [])
  | _ + 1, next, '|' :: cs => some (empty, next, '|' :: cs)
  | _ + 1, next, ')' :: cs => some (empty, next, ')' :: cs)
  | fuel + 1, next, '^' :: cs =>
    if repeats cs then none
    else (readSequence each fuel next cs).map fun r => (seq (start each) r.1, r.2)
  | fuel + 1, next, '(' :: cs =>
    match readAlternatives each fuel (next + 1) cs with
    | some (p, following, ')' :: rest) =>
      if repeats rest then none
      else (readSequence each fuel following rest).map fun r => (seq (group next p) r.1, r.2)
    | _ => none
  | fuel + 1, next, c :: cs =>
    match readSet (c :: cs) with
    | none => none
    | some (set, rest) =>
      match readRepetition set rest with
      | none => none
      | some (p, rest) => (readSequence each fuel next rest).map fun r => (seq p r.1, r.2)

end

/-- How many levels deep a pattern may be nested. -/
def greatestDepth : Nat := 250

/-- How large a pattern may be. -/
def greatestSize : Nat := 327680

def read? (text : String) : Option Pattern :=
  let (each, cs) := match text.toList with
    | '(' :: '?' :: 'm' :: ')' :: rest => (true, rest)
    | cs => (false, cs)
  match readAlternatives each (2 * cs.length + 2) 1 cs with
  | some (p, _, []) => if p.depth ≤ greatestDepth ∧ p.size ≤ greatestSize then some p else none
  | _ => none

end IconModules.Pattern
