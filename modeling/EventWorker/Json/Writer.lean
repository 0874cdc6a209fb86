import EventWorker.Decimal.Shortest
import EventWorker.Json.Value
import EventWorker.Text.Digits

/-!
# Writing JSON

The compact form: no blanks, fields in the order of the object, characters
outside ASCII as they are. Control characters are always escaped, so a written
value is one line.
-/

namespace EventWorker.Json

/-- The written form of a character inside a string. -/
def escape (c : Char) : List Char :=
  match c with
  | '"' => ['\\', '"']
  | '\\' => ['\\', '\\']
  | '\x08' => ['\\', 'b']
  | '\x0c' => ['\\', 'f']
  | '\n' => ['\\', 'n']
  | '\r' => ['\\', 'r']
  | '\t' => ['\\', 't']
  | _ =>
    if c.toNat < 0x20 then
      ['\\', 'u', '0', '0', Text.hexDigit (c.toNat / 16), Text.hexDigit c.toNat]
    else [c]

/-- A string in quotes. -/
def quoted (s : String) : List Char :=
  '"' :: (s.toList.flatMap escape ++ ['"'])

/-- How the digits of a double are laid out: positional from `10 ^ -5` up to but
not including `10 ^ 16`, else with an exponent whose sign is always written. -/
def layout (digits : List Char) (exponent : Int) : List Char :=
  let leading : Int := exponent + digits.length - 1
  if -5 ≤ leading ∧ leading < 16 then
    if 0 ≤ exponent then digits ++ List.replicate exponent.toNat '0' ++ ['.', '0']
    else if 0 ≤ leading then
      let cut := (leading + 1).toNat
      digits.take cut ++ '.' :: digits.drop cut
    else '0' :: '.' :: List.replicate (-leading - 1).toNat '0' ++ digits
  else
    let fraction := digits.drop 1
    digits.take 1 ++ (if fraction.isEmpty then [] else '.' :: fraction) ++
      ['e', if leading < 0 then '-' else '+'] ++ Text.decimal leading.natAbs

/-- A double by its shortest decimal. -/
def doubleText (x : Double) : List Char :=
  let d := x.shortest
  let body := if x.isZero then ['0', '.', '0'] else layout (Text.decimal d.digits) d.exponent
  if x.isNegative then '-' :: body else body

/-- A number. -/
def Number.chars : Number → List Char
  | .int n => Text.signedDecimal n
  | .double x => doubleText x

/-- A number as text. -/
def Number.render (n : Number) : String :=
  String.ofList n.chars

namespace Value

mutual

/-- The compact form of a value. -/
def chars : Value → List Char
  | .null => ['n', 'u', 'l', 'l']
  | .bool true => ['t', 'r', 'u', 'e']
  | .bool false => ['f', 'a', 'l', 's', 'e']
  | .num n => n.chars
  | .str s => quoted s
  | .arr items => '[' :: (itemChars items ++ [']'])
  | .obj fields => '{' :: (fieldChars fields ++ ['}'])

/-- The items of an array with commas between them. -/
def itemChars : List Value → List Char
  | [] => []
  | [v] => chars v
  | v :: rest => chars v ++ ',' :: itemChars rest

/-- The fields of an object with commas between them. -/
def fieldChars : List (String × Value) → List Char
  | [] => []
  | [(k, v)] => quoted k ++ ':' :: chars v
  | (k, v) :: rest => quoted k ++ ':' :: (chars v ++ ',' :: fieldChars rest)

end

/-- The compact form of a value as text. -/
def render (v : Value) : String :=
  String.ofList v.chars

end Value

end EventWorker.Json
