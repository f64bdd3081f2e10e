import IconModules.Text.CaseTable
/-!
# Letter case

* **`lowerCase`** writes a text in small letters by the full mapping of the Unicode standard. The
  only mapping that looks at its neighbours is that of the capital sigma, which has a form of its
  own at the end of a word.
* **`upperChar`** is the capital form of one character, which may be several characters.
-/

namespace IconModules.Text

/-! ### Single characters -/

/-- Whether a number lies in one of the ranges. -/
def inRanges (ranges : List (Nat × Nat)) (n : Nat) : Bool :=
  ranges.any fun r => r.1 ≤ n && n ≤ r.2

/-- The character that a table of runs gives for `c`; a character in no run stands for itself. -/
def mapByRuns (runs : List (Nat × Nat × Nat × Nat)) (c : Char) : Char :=
  match runs.find? fun r =>
      r.1 ≤ c.toNat && c.toNat ≤ r.2.1 && (c.toNat - r.1) % r.2.2.1 == 0 with
  | some r => Char.ofNat (r.2.2.2 + (c.toNat - r.1))
  | none => c

/-- The small form of one character. Only the capital I with a dot has two characters. -/
def lowerChar (c : Char) : List Char :=
  if c = '\u0130' then ['i', '\u0307'] else [mapByRuns lowerRuns c]

/-- The capital form of one character. -/
def upperChar (c : Char) : List Char :=
  match longUppers.lookup c.toNat with
  | some cs => cs.map Char.ofNat
  | none => [mapByRuns upperRuns c]

/-! ### Texts -/

/-- Whether the next character that counts, reading on from here, is a cased one. -/
def casedNext (s : List Char) : Bool :=
  match s.dropWhile fun c => inRanges caseIgnorableRanges c.toNat with
  | [] => false
  | c :: _ => inRanges casedRanges c.toNat

/-- A sigma ends a word if a cased character comes before it and none after it. The characters
before are given from the nearest to the first. -/
def endsWord (before after : List Char) : Bool :=
  casedNext before && !casedNext after

/-- The small letters of a text of which `before` has been read, nearest character first. -/
def lowerFrom (before : List Char) : List Char → List Char
  | [] => []
  | c :: cs =>
    (if c = 'Σ' then [if endsWord before cs then 'ς' else 'σ'] else lowerChar c)
      ++ lowerFrom (c :: before) cs

/-- The text in small letters. -/
def lowerCase (s : String) : String :=
  String.ofList (lowerFrom [] s.toList)

/-- The text with a capital first character and the others as they are. -/
def capitalize (s : String) : String :=
  match s.toList with
  | [] => s
  | c :: cs => String.ofList (upperChar c ++ cs)

end IconModules.Text
