import EventWorker.Text.Digits
import EventWorker.Text.Word

/-!
# Reading decimal integers

A decimal integer is an optional sign of either kind and at least one digit, with
nothing around it. It is read as a signed 64-bit number, and one outside that
range is none.
-/

namespace EventWorker.Text

/-- The digit values of a text that consists of decimal digits only and has at
least one. -/
def digitValues? (cs : List Char) : Option (List Nat) :=
  if cs.isEmpty then none else cs.mapM digit?

/-- The integer that a text writes, of any size. -/
def anyInteger? : List Char → Option Int
  | '-' :: rest => (digitValues? rest).map fun ds => -(ofDigits ds : Int)
  | '+' :: rest => (digitValues? rest).map fun ds => (ofDigits ds : Int)
  | cs => (digitValues? cs).map fun ds => (ofDigits ds : Int)

/-- The signed 64-bit integer that a text writes. -/
def integer? (s : String) : Option Int :=
  (anyInteger? s.toList).filter fitsSigned

end EventWorker.Text
