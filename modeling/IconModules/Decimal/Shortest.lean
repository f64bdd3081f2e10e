import IconModules.Decimal.Binary64
/-!
# The shortest decimal that reads back

* **`Shortest.decimal`** finds, for a `Binary64`, the fewest digits that read back as the same
  number, and of those the ones nearest to it.
* **`Shortest.write`** lays the digits out.
-/

namespace IconModules.Shortest

/-- The digits `digits` with the first one standing for `10 ^ exponent`. -/
structure Decimal where
  digits : List Char
  exponent : Int
  deriving DecidableEq, Repr

/-! ### Which numbers read back -/

/-- The ends of the interval of numbers that round to `x`, and `x` itself, all times the second
component: lower end, `x`, upper end. A power of two has half the distance below. -/
def interval (x : Binary64) : (Nat × Nat × Nat) × Nat :=
  let (low, mid, high) :=
    if x.m = Nat.pow 2 52 ∧ Binary64.leastExponent < x.q then (4 * x.m - 1, 4 * x.m, 4 * x.m + 2)
    else (4 * x.m - 2, 4 * x.m, 4 * x.m + 2)
  if 2 ≤ x.q then
    let p := Nat.pow 2 (x.q - 2).toNat
    ((low * p, mid * p, high * p), 1)
  else ((low, mid, high), Nat.pow 2 (2 - x.q).toNat)

/-- Whether the number `n · 10 ^ e` reads back as `x`; the ends do if `x` has an even `m`. -/
def readsBack (x : Binary64) (n : Nat) (e : Int) : Bool :=
  let ((low, _, high), scale) := interval x
  let value := n * scale * Nat.pow 10 e.toNat
  let low := low * Nat.pow 10 (-e).toNat
  let high := high * Nat.pow 10 (-e).toNat
  if x.m % 2 = 0 then low ≤ value && value ≤ high else low < value && value < high

/-! ### Finding the digits -/

/-- The exponent of the first digit of `num / den`, which is not zero: the greatest `k` with
`10 ^ k ≤ num / den`. -/
def leadExponent (num den : Nat) : Int :=
  if den ≤ num then ((Nat.toDigits 10 (num / den)).length : Int) - 1
  else
    let k := (Nat.toDigits 10 (den / num)).length
    if den ≤ num * Nat.pow 10 (k - 1) then 1 - (k : Int) else -(k : Int)

/-- The neighbours of `x` among the multiples of `10 ^ e`: the nearest one that reads back. -/
def onGrid? (x : Binary64) (e : Int) : Option Nat :=
  let (num, den) := x.quotient
  let (n, d) := (num * Nat.pow 10 (-e).toNat, den * Nat.pow 10 e.toNat)
  let below := n / d
  let nearer := Binary64.roundQuotient n d
  let other := if nearer = below then below + 1 else below
  if readsBack x nearer e then some nearer
  else if readsBack x other e then some other
  else none

/-- The digits of a number without the zeros at the end. -/
def plainDigits (n : Nat) : List Char :=
  ((Nat.toDigits 10 n).reverse.dropWhile (· == '0')).reverse

/-- The first grid from `count` digits on that has a hit, trying `fuel` more. -/
def search (x : Binary64) (lead : Int) : Nat → Nat → Decimal
  | 0, _ => ⟨['0'], 0⟩
  | fuel + 1, count =>
    let e := lead + 1 - (count : Int)
    match onGrid? x e with
    | some n => ⟨plainDigits n, ((Nat.toDigits 10 n).length : Int) - 1 + e⟩
    | none => search x lead fuel (count + 1)

/-- The fewest digits that read back as `x`. Seventeen are always enough. -/
def decimal (x : Binary64) : Decimal :=
  if x.m = 0 then ⟨['0'], 0⟩
  else search x (leadExponent x.quotient.1 x.quotient.2) 17 1

/-! ### Layout -/

/-- The exponents of the first digit that are written by position: the least and the greatest. -/
def positional : Int × Int := (-5, 15)

/-- The decimal in digits: by position with a point between whole part and fraction, neither of them
empty, or with an exponent and its sign. -/
def layout (d : Decimal) : List Char :=
  if positional.1 ≤ d.exponent ∧ d.exponent ≤ positional.2 then
    if d.exponent < 0 then
      ['0', '.'] ++ List.replicate (-d.exponent - 1).toNat '0' ++ d.digits
    else
      let count := d.exponent.toNat + 1
      let whole := d.digits.take count
      let fraction := d.digits.drop count
      whole ++ List.replicate (count - whole.length) '0' ++ ['.'] ++
        if fraction.isEmpty then ['0'] else fraction
  else
    let mantissa := match d.digits with
      | [] => []
      | [c] => [c]
      | c :: cs => c :: '.' :: cs
    mantissa ++ ['e', if d.exponent < 0 then '-' else '+'] ++ Nat.toDigits 10 d.exponent.natAbs

/-- The number with its sign. -/
def write (negative : Bool) (x : Binary64) : String :=
  String.ofList <| (if negative then ['-'] else []) ++ layout (decimal x)

end IconModules.Shortest
