import EventWorker.Decimal.Double
import EventWorker.Keyed
import EventWorker.Text.Word

/-!
# JSON values

A number is an integer or a double, and the two are never equal. The fields of
an object are a keyed list: in ascending order of their names, each name once.
-/

namespace EventWorker.Json

/-- A number: an integer when it was written as one and fits 64 bits. -/
inductive Number
  | int (value : Int)
  | double (value : Double)
  deriving DecidableEq, Repr, Inhabited

/-- A JSON value. -/
inductive Value
  | null
  | bool (value : Bool)
  | num (value : Number)
  | str (value : String)
  | arr (items : List Value)
  | obj (fields : List (String × Value))
  deriving Repr, Inhabited

/-- The fields of an object. -/
abbrev Fields := List (String × Value)

namespace Value

mutual

/-- Equality of values is decided structurally. -/
def decEq : (a b : Value) → Decidable (a = b)
  | .null, .null => isTrue rfl
  | .bool a, .bool b =>
    if h : a = b then isTrue (h ▸ rfl) else isFalse fun e => h (by injection e)
  | .num a, .num b =>
    if h : a = b then isTrue (h ▸ rfl) else isFalse fun e => h (by injection e)
  | .str a, .str b =>
    if h : a = b then isTrue (h ▸ rfl) else isFalse fun e => h (by injection e)
  | .arr a, .arr b =>
    match decEqItems a b with
    | isTrue h => isTrue (h ▸ rfl)
    | isFalse h => isFalse fun e => h (by injection e)
  | .obj a, .obj b =>
    match decEqFields a b with
    | isTrue h => isTrue (h ▸ rfl)
    | isFalse h => isFalse fun e => h (by injection e)
  | .null, .bool _ | .null, .num _ | .null, .str _ | .null, .arr _ | .null, .obj _
  | .bool _, .null | .bool _, .num _ | .bool _, .str _ | .bool _, .arr _ | .bool _, .obj _
  | .num _, .null | .num _, .bool _ | .num _, .str _ | .num _, .arr _ | .num _, .obj _
  | .str _, .null | .str _, .bool _ | .str _, .num _ | .str _, .arr _ | .str _, .obj _
  | .arr _, .null | .arr _, .bool _ | .arr _, .num _ | .arr _, .str _ | .arr _, .obj _
  | .obj _, .null | .obj _, .bool _ | .obj _, .num _ | .obj _, .str _ | .obj _, .arr _ =>
    isFalse fun e => by injection e

/-- Equality of the items of two arrays. -/
def decEqItems : (a b : List Value) → Decidable (a = b)
  | [], [] => isTrue rfl
  | [], _ :: _ => isFalse fun e => by injection e
  | _ :: _, [] => isFalse fun e => by injection e
  | x :: xs, y :: ys =>
    match decEq x y with
    | isFalse h => isFalse fun e => h (by injection e)
    | isTrue h =>
      match decEqItems xs ys with
      | isFalse h' => isFalse fun e => h' (by injection e)
      | isTrue h' => isTrue (h ▸ h' ▸ rfl)

/-- Equality of the fields of two objects. -/
def decEqFields : (a b : List (String × Value)) → Decidable (a = b)
  | [], [] => isTrue rfl
  | [], _ :: _ => isFalse fun e => by injection e
  | _ :: _, [] => isFalse fun e => by injection e
  | (k, x) :: xs, (l, y) :: ys =>
    if hk : k = l then
      match decEq x y with
      | isFalse h => isFalse fun e => h (by injection e with e _; injection e)
      | isTrue h =>
        match decEqFields xs ys with
        | isFalse h' => isFalse fun e => h' (by injection e)
        | isTrue h' => isTrue (hk ▸ h ▸ h' ▸ rfl)
    else isFalse fun e => hk (by injection e with e _; injection e)

end

instance : DecidableEq Value := decEq

/-- An integer as a value. -/
def int (n : Int) : Value :=
  .num (.int n)

/-- A natural number as a value. -/
def nat (n : Nat) : Value :=
  .num (.int n)

/-- The text of a string value. -/
def str? : Value → Option String
  | .str s => some s
  | _ => none

/-- The integer of a value, provided it fits an unsigned word. -/
def nat? : Value → Option Nat
  | .num (.int (.ofNat n)) => if fitsUnsigned n then some n else none
  | _ => none

/-- The integer of a value, provided it fits a signed word. -/
def int? : Value → Option Int
  | .num (.int n) => if fitsSigned n then some n else none
  | _ => none

/-- The fields of an object. -/
def fields? : Value → Option Fields
  | .obj fields => some fields
  | _ => none

/-- The items of an array. -/
def items? : Value → Option (List Value)
  | .arr items => some items
  | _ => none

/-- The field `name` of an object; a value of another kind has none. -/
def get? (name : String) : Value → Option Value
  | .obj fields => Keyed.find? name fields
  | _ => none

/-- An object of the given fields, the last of equal names winning. -/
def object (fields : List (String × Value)) : Value :=
  .obj (Keyed.ofList fields)

end Value

end EventWorker.Json
