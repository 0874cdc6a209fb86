/-!
# Digits

Decimal and hexadecimal digits as characters, and the plain decimal form of
integers. All of it is ASCII: other decimal digits of the character set are not
digits here.
-/

namespace EventWorker.Text

/-- The value of a decimal digit. -/
def digit? (c : Char) : Option Nat :=
  if '0' ≤ c ∧ c ≤ '9' then some (c.toNat - '0'.toNat) else none

/-- The value of a hexadecimal digit of either case. -/
def hexDigit? (c : Char) : Option Nat :=
  if '0' ≤ c ∧ c ≤ '9' then some (c.toNat - '0'.toNat)
  else if 'a' ≤ c ∧ c ≤ 'f' then some (c.toNat - 'a'.toNat + 10)
  else if 'A' ≤ c ∧ c ≤ 'F' then some (c.toNat - 'A'.toNat + 10)
  else none

/-- The lowercase hexadecimal digit of the low four bits of `n`. -/
def hexDigit (n : Nat) : Char :=
  let low := n % 16
  if low < 10 then Char.ofNat ('0'.toNat + low) else Char.ofNat ('a'.toNat + (low - 10))

/-- The decimal digits of a natural number, `0` for zero. -/
def decimal (n : Nat) : List Char :=
  Nat.toDigits 10 n

/-- The decimal form of an integer: a minus sign for a negative one, never a
plus sign. -/
def signedDecimal : Int → List Char
  | .ofNat n => decimal n
  | .negSucc n => '-' :: decimal (n + 1)

/-- The number that a list of digit values writes in base ten. -/
def ofDigits (ds : List Nat) : Nat :=
  ds.foldl (fun acc d => acc * 10 + d) 0

end EventWorker.Text
