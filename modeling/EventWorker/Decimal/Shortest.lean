import EventWorker.Decimal.Double

/-!
# Shortest decimals

The shortest decimal of a number is the one with the fewest significant digits
among the decimals that round to the number, and the nearest of those. It is
found in exact arithmetic: for one digit, two digits and so on, the two
neighbours of the number on that decimal grid are tested against the interval of
the reals that round to it.
-/

namespace EventWorker.Double

/-- The decimal `digits * 10 ^ exponent`. -/
structure Decimal where
  digits : Nat
  exponent : Int
  deriving DecidableEq, Repr

/-- The reals that round to a number, as `lower / den` to `upper / den` around
`centre / den`; the ends belong to the interval when `closed`. -/
structure Interval where
  lower : Nat
  centre : Nat
  upper : Nat
  den : Nat
  closed : Bool

/-- The rounding interval of a non-zero magnitude. Below a power of two the
spacing is half of that above it. -/
def interval (x : Double) : Interval :=
  let (m, q) := x.magnitude
  let below := if m = 1 <<< 52 ∧ -1074 < q then 1 else 2
  let num (k : Nat) : Nat := if 0 ≤ q then k <<< q.toNat else k
  { lower := num (4 * m - below)
    centre := num (4 * m)
    upper := num (4 * m + 2)
    den := if 0 ≤ q then 4 else 4 <<< (-q).toNat
    closed := m % 2 = 0 }

/-- Whether `candidate * 10 ^ exponent` lies in the interval. -/
def Interval.admits (i : Interval) (candidate : Nat) (exponent : Int) : Bool :=
  let value := if 0 ≤ exponent then candidate * Nat.pow 10 exponent.toNat * i.den else candidate * i.den
  let scale := if 0 ≤ exponent then 1 else Nat.pow 10 (-exponent).toNat
  if i.closed then i.lower * scale ≤ value && value ≤ i.upper * scale
  else i.lower * scale < value && value < i.upper * scale

/-- The point of the grid of multiples of `10 ^ exponent` that lies in the
interval and nearest to its centre; of two equally near the even one. -/
def Interval.nearest? (i : Interval) (exponent : Int) : Option Nat :=
  let num := if 0 ≤ exponent then i.centre else i.centre * Nat.pow 10 (-exponent).toNat
  let den := if 0 ≤ exponent then i.den * Nat.pow 10 exponent.toNat else i.den
  let floor := num / den
  let first := roundHalfEven num den
  let second := if first = floor then floor + 1 else floor
  if i.admits first exponent then some first
  else if i.admits second exponent then some second
  else none

/-- The number of decimal digits of `n`. -/
def digitCount (n : Nat) : Nat :=
  (Nat.toDigits 10 n).length

/-- The exponent of the leading decimal digit of `num / den`, or one less. -/
def leadingExponent (num den : Nat) : Int :=
  if den ≤ num then digitCount (num / den) - 1 else -(digitCount (den / num) : Int)

/-- The first grid, from coarse to fine, that has a point in the interval. -/
private def search (i : Interval) (exponent : Int) : Nat → Decimal
  | 0 => ⟨0, 0⟩
  | fuel + 1 =>
    match i.nearest? exponent with
    | some digits => ⟨digits, exponent⟩
    | none => search i (exponent - 1) fuel

/-- The shortest decimal of the magnitude. Seventeen digits always suffice, and
the coarsest grid tried is one digit above the leading one. -/
def shortest (x : Double) : Decimal :=
  if x.isZero then ⟨0, 0⟩
  else
    let i := x.interval
    search i (leadingExponent i.centre i.den + 1) 20

end EventWorker.Double
