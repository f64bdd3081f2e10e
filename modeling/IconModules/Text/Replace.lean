/-!
# Replacing stretches of text

* **`replaceSpans`** reads a text from left to right and puts a fixed text in the place of every
  stretch that a length function reports. After a stretch it goes on behind it, so the stretches
  are leftmost and never overlap.
* **`replace`** is the case of one fixed word, **`replaceFirst`** does the same once.
-/

namespace IconModules.Text

/-! ### Stretches -/

/-- Put `put` in the place of every stretch found by `span`, where `span s = some n` with `0 < n`
says that the first `n` characters of `s` are a stretch. The number is what is left to pass over of
the stretch just replaced. -/
def replaceSpans (span : List Char → Option Nat) (put : List Char) : Nat → List Char → List Char
  | _, [] => []
  | left + 1, _ :: cs => replaceSpans span put left cs
  | 0, c :: cs =>
    match span (c :: cs) with
    | some (n + 1) => put ++ replaceSpans span put n cs
    | _ => c :: replaceSpans span put 0 cs

@[simp] theorem replaceSpans_nil (span : List Char → Option Nat) (put : List Char) (n : Nat) :
    replaceSpans span put n [] = [] := by
  cases n <;> rfl

/-- The rest of a stretch is passed over. -/
theorem replaceSpans_drop (span : List Char → Option Nat) (put : List Char) (n : Nat)
    (s : List Char) : replaceSpans span put n s = replaceSpans span put 0 (s.drop n) := by
  induction s generalizing n with
  | nil => simp
  | cons c cs ih => cases n with
    | zero => rfl
    | succ n => simpa [replaceSpans] using ih n

/-! ### Words -/

/-- A word as a stretch. The empty word is no stretch. -/
def wordSpan (word s : List Char) : Option Nat :=
  if word.isPrefixOf s then some word.length else none

/-- Every leftmost occurrence of `word` replaced by `put`; the empty word occurs nowhere. -/
def replace (word put s : String) : String :=
  String.ofList (replaceSpans (wordSpan word.toList) put.toList 0 s.toList)

def replaceFirst (c : Char) (put s : String) : String :=
  let cs := s.toList
  match cs.dropWhile (· != c) with
  | [] => s
  | _ :: rest => String.ofList (cs.takeWhile (· != c) ++ put.toList ++ rest)

end IconModules.Text
