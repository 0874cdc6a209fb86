/-!
# Binary floating-point numbers

A `Double` is a finite binary64 number, kept as its bit pattern so that equality
is decidable and distinguishes the two zeros. Magnitudes are `m * 2 ^ q` with
natural `m`, and every operation rounds its exact rational result once, to the
nearest representable number, ties to the even significand.
-/

namespace EventWorker

/-- A finite binary64 number by its bit pattern. -/
structure Double where
  bits : UInt64
  deriving DecidableEq, Repr, Inhabited

namespace Double

/-- The sign bit is set. -/
def isNegative (x : Double) : Bool :=
  decide (1 <<< 63 ≤ x.bits.toNat)

/-- The significand `m` and exponent `q` of the magnitude `m * 2 ^ q`. -/
def magnitude (x : Double) : Nat × Int :=
  let fraction : Nat := x.bits.toNat % 1 <<< 52
  let biased : Nat := x.bits.toNat >>> 52 % 1 <<< 11
  if biased = 0 then (fraction, -1074) else (1 <<< 52 + fraction, (biased : Int) - 1075)

/-- The magnitude is zero. -/
def isZero (x : Double) : Bool :=
  x.magnitude.1 = 0

/-- The same magnitude with the sign turned round. -/
def negate (x : Double) : Double :=
  ⟨UInt64.ofNat ((x.bits.toNat + 1 <<< 63) % UInt64.size)⟩

/-- `num / den` rounded to an integer, a half going to the even neighbour. -/
def roundHalfEven (num den : Nat) : Nat :=
  let floor := num / den
  let rest := 2 * (num % den)
  if rest < den then floor
  else if den < rest then floor + 1
  else floor + floor % 2

/-- The nearest non-negative number to `num / den`, or `none` when it lies
beyond the largest finite one. -/
def ofRatio (num den : Nat) : Option Double :=
  if num = 0 then some ⟨0⟩
  else
    let guess : Int := (Nat.log2 num : Int) - (Nat.log2 den : Int) - 52
    let quotient (e : Int) : Nat × Nat :=
      if 0 ≤ e then (num, den <<< e.toNat) else (num <<< (-e).toNat, den)
    let exponent : Int :=
      let (n, d) := quotient guess
      if n < d <<< 52 then guess - 1 else guess
    let exponent := max exponent (-1074)
    let (n, d) := quotient exponent
    let significand := roundHalfEven n d
    let (significand, exponent) :=
      if significand = 1 <<< 53 then (1 <<< 52, exponent + 1) else (significand, exponent)
    if significand < 1 <<< 52 then some ⟨UInt64.ofNat significand⟩
    else if 971 < exponent then none
    else some ⟨UInt64.ofNat ((exponent + 1075).toNat <<< 52 + (significand - 1 <<< 52))⟩

/-- The nearest number to a natural number. -/
def ofNat? (n : Nat) : Option Double :=
  ofRatio n 1

/-- `m * 2 ^ q` as a fraction. -/
private def fraction (part : Nat × Int) : Nat × Nat :=
  if 0 ≤ part.2 then (part.1 <<< part.2.toNat, 1) else (part.1, 1 <<< (-part.2).toNat)

/-- The rounded product of two magnitudes; `none` when it is too large. -/
def mul? (x y : Double) : Option Double :=
  let (a, b) := fraction x.magnitude
  let (c, d) := fraction y.magnitude
  ofRatio (a * c) (b * d)

/-- The rounded quotient of two magnitudes, `none` for a zero divisor. -/
def div? (x y : Double) : Option Double :=
  let (a, b) := fraction x.magnitude
  let (c, d) := fraction y.magnitude
  if c = 0 then none else ofRatio (a * d) (b * c)

end Double

end EventWorker
