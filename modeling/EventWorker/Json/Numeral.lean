import EventWorker.Json.Value
import EventWorker.Text.Digits

/-!
# Numerals

A numeral is the written form of a number. A numeral without fraction and
exponent that fits 64 bits is an integer, except `-0`; any other numeral is a
double. Its significand takes as many leading digits as fit 64 bits and is then
scaled by a power of ten, with one rounding for the significand and one for each
scaling.
-/

namespace EventWorker.Json

/-- The parts of a numeral as written; digits are values, most significant
first. -/
structure Numeral where
  negative : Bool := false
  whole : List Nat := []
  fraction : Option (List Nat) := none
  exponent : Option (Bool × List Nat) := none
  deriving DecidableEq, Repr

namespace Numeral

/-- Appends digits to a significand while it fits an unsigned word, and gives the
digits that are left over. -/
def absorb (significand : Nat) : List Nat → Nat × List Nat
  | [] => (significand, [])
  | d :: ds =>
    if fitsUnsigned (significand * 10 + d) then absorb (significand * 10 + d) ds
    else (significand, d :: ds)

/-- The power of ten `10 ^ k` as a double. -/
def power (k : Nat) : Double :=
  (Double.ofNat? (Nat.pow 10 k)).getD default

/-- `x * 10 ^ k`; `none` when it leaves the finite range. -/
def scaleUp (x : Double) (k : Nat) : Option Double :=
  if k ≤ 308 then x.mul? (power k) else if x.isZero then some x else none

/-- `x / 10 ^ k`, divided by `10 ^ 308` as often as `k` holds it. -/
def scaleDown (x : Double) (k : Nat) : Option Double :=
  if k ≤ 308 then x.div? (power k)
  else if x.isZero then some x
  else (x.div? (power 308)).bind fun y => scaleDown y (k - 308)
termination_by k

/-- `significand * 10 ^ exponent` as a double. -/
def scale (significand : Nat) (exponent : Int) : Option Double :=
  (Double.ofNat? significand).bind fun x =>
    if 0 ≤ exponent then scaleUp x exponent.toNat else scaleDown x (-exponent).toNat

/-- The magnitude of a numeral read as a double. An exponent beyond 31 bits
leaves nothing but zero or an error. -/
def magnitude? (n : Numeral) : Option Double :=
  let (significand, extra) := absorb 0 n.whole
  let fraction := n.fraction.getD []
  let (significand, unused) := absorb significand fraction
  let shift : Int := (extra.length : Int) - (fraction.length - unused.length : Nat)
  match n.exponent with
  | none => scale significand shift
  | some (negative, digits) =>
    let e := Text.ofDigits digits
    if e < 2147483648 then scale significand (if negative then shift - e else shift + e)
    else if significand ≠ 0 ∧ negative = false then none
    else some ⟨0⟩

/-- The number a numeral stands for, or `none` when it is beyond the range of
doubles. -/
def number? (n : Numeral) : Option Number :=
  let value := Text.ofDigits n.whole
  let double := n.magnitude?.map fun x => Number.double (if n.negative then x.negate else x)
  if n.fraction.isNone ∧ n.exponent.isNone then
    if n.negative = false ∧ fitsUnsigned value then some (.int value)
    else if n.negative ∧ 0 < value ∧ value ≤ signedBound then some (.int (-value))
    else double
  else double

/-- Where the reading of a numeral has got to. -/
inductive Phase
  | sign
  | zero
  | whole
  | point
  | fraction
  | mark
  | exponentSign
  | exponent
  deriving DecidableEq, Repr

/-- A numeral being read. -/
structure Draft where
  phase : Phase
  numeral : Numeral
  deriving DecidableEq, Repr

/-- A numeral may end in this phase. -/
def Phase.complete : Phase → Bool
  | .zero | .whole | .fraction | .exponent => true
  | .sign | .point | .mark | .exponentSign => false

/-- The draft of a numeral that begins with `c`. -/
def Draft.start? (c : Char) : Option Draft :=
  if c = '-' then some ⟨.sign, { negative := true }⟩
  else (Text.digit? c).map fun d => ⟨if d = 0 then .zero else .whole, { whole := [d] }⟩

/-- The draft one character longer, if `c` belongs to the numeral. -/
def Draft.extend? (draft : Draft) (c : Char) : Option Draft :=
  let n := draft.numeral
  let opened : Option Draft :=
    if c = '.' then some ⟨.point, { n with fraction := some [] }⟩
    else if c = 'e' ∨ c = 'E' then some ⟨.mark, { n with exponent := some (false, []) }⟩
    else none
  match draft.phase, Text.digit? c with
  | .sign, some d => some ⟨if d = 0 then .zero else .whole, { n with whole := [d] }⟩
  | .whole, some d => some ⟨.whole, { n with whole := n.whole ++ [d] }⟩
  | .zero, none | .whole, none => opened
  | .point, some d | .fraction, some d =>
    some ⟨.fraction, { n with fraction := n.fraction.map (· ++ [d]) }⟩
  | .fraction, none =>
    if c = 'e' ∨ c = 'E' then some ⟨.mark, { n with exponent := some (false, []) }⟩ else none
  | .mark, none =>
    if c = '+' then some ⟨.exponentSign, n⟩
    else if c = '-' then some ⟨.exponentSign, { n with exponent := some (true, []) }⟩
    else none
  | .mark, some d | .exponentSign, some d | .exponent, some d =>
    some ⟨.exponent, { n with exponent := n.exponent.map fun e => (e.1, e.2 ++ [d]) }⟩
  | _, _ => none

/-- The number of a draft that may end here. -/
def Draft.finish? (draft : Draft) : Option Number :=
  if draft.phase.complete then draft.numeral.number? else none

end Numeral

end EventWorker.Json
