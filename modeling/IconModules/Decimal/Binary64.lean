/-!
# Binary fractions of double width

* A **`Binary64`** is a number `m · 2 ^ q` with at most fifty-three binary digits and an exponent in
  the range of the binary64 format, without sign.
* **`Binary64.round?`** is the number of the format nearest to a quotient; of two that are equally
  near it takes the one with even `m`. Quotients beyond the range have none.
* **`times?`** and **`over?`** multiply and divide with one rounding, **`tenTo?`** is the number
  nearest to a power of ten.
-/

namespace IconModules

/-- The number `m · 2 ^ q`. -/
structure Binary64 where
  m : Nat
  q : Int
  deriving DecidableEq, Repr, Inhabited

namespace Binary64

def leastExponent : Int := -1074

def greatestExponent : Int := 971

def zero : Binary64 := ⟨0, leastExponent⟩

/-! ### Rounding -/

/-- The whole number nearest to `num / den`, the even one of two. -/
def roundQuotient (num den : Nat) : Nat :=
  let whole := num / den
  let twice := 2 * (num % den)
  if twice < den then whole
  else if twice > den then whole + 1
  else whole + whole % 2

/-- The quotient `num / den` divided by `2 ^ q`, as a numerator and a denominator. -/
def shifted (num den : Nat) (q : Int) : Nat × Nat :=
  if 0 ≤ q then (num, den * Nat.pow 2 q.toNat) else (num * Nat.pow 2 (-q).toNat, den)

/-- The exponent with which `num / den` has fifty-three binary digits, but none below the least. -/
def exponentFor (num den : Nat) : Int :=
  let low : Int := (Nat.log2 num : Int) - (Nat.log2 den : Int) - 53
  let (n, d) := shifted num den low
  max (if n / d < Nat.pow 2 53 then low else low + 1) leastExponent

/-- The number nearest to `num / den`, if there is one in range. -/
def round? (num den : Nat) : Option Binary64 :=
  if num = 0 then some zero
  else
    let q := exponentFor num den
    let (n, d) := shifted num den q
    let m := roundQuotient n d
    let (m, q) := if m = Nat.pow 2 53 then (Nat.pow 2 52, q + 1) else (m, q)
    if q ≤ greatestExponent then some ⟨m, q⟩ else none

/-! ### Arithmetic -/

/-- The number as a numerator and a denominator. -/
def quotient (x : Binary64) : Nat × Nat :=
  if 0 ≤ x.q then (x.m * Nat.pow 2 x.q.toNat, 1) else (x.m, Nat.pow 2 (-x.q).toNat)

/-- The product, rounded. -/
def times? (x y : Binary64) : Option Binary64 :=
  round? (x.quotient.1 * y.quotient.1) (x.quotient.2 * y.quotient.2)

/-- The quotient, rounded. -/
def over? (x y : Binary64) : Option Binary64 :=
  round? (x.quotient.1 * y.quotient.2) (x.quotient.2 * y.quotient.1)

/-- The number nearest to ten to the power `k`. -/
def tenTo? (k : Nat) : Option Binary64 :=
  round? (Nat.pow 10 k) 1

/-! ### Scaling -/

def greatestTen : Nat := 308

/-- The number times ten to the power `e`. There is one rounding for the power and one for the
product; a power too small to be written is taken in portions. The fuel bounds the portions, of
which three reach zero. -/
def scale? : Nat → Binary64 → Int → Option Binary64
  | fuel, x, e =>
    if e.natAbs ≤ greatestTen then
      (tenTo? e.natAbs).bind fun p => if 0 ≤ e then x.times? p else x.over? p
    else if x.m = 0 then some x
    else if 0 ≤ e then none
    else match fuel with
      | 0 => some zero
      | fuel + 1 =>
        ((tenTo? greatestTen).bind x.over?).bind fun y => scale? fuel y (e + greatestTen)

/-- The whole number `n` times ten to the power `e`. -/
def ofScientific? (n : Nat) (e : Int) : Option Binary64 :=
  (round? n 1).bind fun x => scale? 3 x e

end Binary64
end IconModules
