/-!
# Words

The integers that fit machine words of 64 bits, signed and unsigned.
-/

namespace EventWorker

/-- Half the number of 64-bit words: the first integer too large for a signed
one, whose negative is the least that fits. -/
def signedBound : Nat := 9223372036854775808

/-- An integer that fits a signed 64-bit word. -/
def fitsSigned (n : Int) : Bool :=
  decide (-(signedBound : Int) ≤ n ∧ n < signedBound)

/-- A natural number that fits an unsigned 64-bit word. -/
def fitsUnsigned (n : Nat) : Bool :=
  decide (n < UInt64.size)

end EventWorker
