import EventWorker.Json.Numeral

/-!
# JSON tokens

The lexer reads a text one character at a time. A character that no token can
take stops it, so a token never contains anything but what it was written with,
and outside strings only the structural characters, the three words, numerals
and the four blanks occur.
-/

namespace EventWorker.Json

/-- A token of a JSON text. -/
inductive Token
  | lbrace
  | rbrace
  | lbracket
  | rbracket
  | colon
  | comma
  | scalar (value : Value)
  | text (value : String)
  deriving Repr

/-- What the lexer is in the middle of. The characters of a string are kept
newest first. -/
inductive Mode
  | ready
  | word (rest : List Char) (value : Value)
  | numeral (draft : Numeral.Draft)
  | text (acc : List Char)
  | escape (acc : List Char)
  | unicode (acc : List Char) (high : Option Nat) (missing : Nat) (code : Nat)
  | surrogate (acc : List Char) (high : Nat) (slash : Bool)
  deriving Repr

/-- The tokens read so far, newest first, and the mode. -/
structure Scan where
  tokens : List Token := []
  mode : Mode := .ready
  deriving Repr

namespace Scan

/-- A blank between tokens. -/
def isBlank (c : Char) : Bool :=
  c = ' ' || c = '\t' || c = '\n' || c = '\r'

/-- The character written by a backslash and `c`, `\u` aside. -/
def unescape? (c : Char) : Option Char :=
  match c with
  | '"' => some '"'
  | '\\' => some '\\'
  | '/' => some '/'
  | 'b' => some '\x08'
  | 'f' => some '\x0c'
  | 'n' => some '\n'
  | 'r' => some '\r'
  | 't' => some '\t'
  | _ => none

/-- The start of a token, or a blank. -/
def begin? (tokens : List Token) (c : Char) : Option Scan :=
  if isBlank c then some ⟨tokens, .ready⟩
  else
    match c with
    | '{' => some ⟨.lbrace :: tokens, .ready⟩
    | '}' => some ⟨.rbrace :: tokens, .ready⟩
    | '[' => some ⟨.lbracket :: tokens, .ready⟩
    | ']' => some ⟨.rbracket :: tokens, .ready⟩
    | ':' => some ⟨.colon :: tokens, .ready⟩
    | ',' => some ⟨.comma :: tokens, .ready⟩
    | '"' => some ⟨tokens, .text []⟩
    | 't' => some ⟨tokens, .word ['r', 'u', 'e'] (.bool true)⟩
    | 'f' => some ⟨tokens, .word ['a', 'l', 's', 'e'] (.bool false)⟩
    | 'n' => some ⟨tokens, .word ['u', 'l', 'l'] .null⟩
    | _ => (Numeral.Draft.start? c).map fun draft => ⟨tokens, .numeral draft⟩

/-- The string continues after a complete `\u` escape. A high surrogate needs
its low one, and neither may stand alone. -/
def unicode? (tokens : List Token) (acc : List Char) (high : Option Nat) (code : Nat) :
    Option Scan :=
  match high with
  | some h =>
    if 0xDC00 ≤ code ∧ code < 0xE000 then
      some ⟨tokens, .text (Char.ofNat (0x10000 + (h - 0xD800) * 0x400 + (code - 0xDC00)) :: acc)⟩
    else none
  | none =>
    if 0xD800 ≤ code ∧ code < 0xDC00 then some ⟨tokens, .surrogate acc code false⟩
    else if 0xDC00 ≤ code ∧ code < 0xE000 then none
    else some ⟨tokens, .text (Char.ofNat code :: acc)⟩

/-- Reads one character. -/
def step (s : Scan) (c : Char) : Option Scan :=
  match s.mode with
  | .ready => begin? s.tokens c
  | .word [] value => begin? (.scalar value :: s.tokens) c
  | .word [d] value => if c = d then some ⟨.scalar value :: s.tokens, .ready⟩ else none
  | .word (d :: rest) value => if c = d then some ⟨s.tokens, .word rest value⟩ else none
  | .numeral draft =>
    match draft.extend? c with
    | some longer => some ⟨s.tokens, .numeral longer⟩
    | none => draft.finish?.bind fun n => begin? (.scalar (.num n) :: s.tokens) c
  | .text acc =>
    if c = '"' then some ⟨.text (String.ofList acc.reverse) :: s.tokens, .ready⟩
    else if c = '\\' then some ⟨s.tokens, .escape acc⟩
    else if c.toNat < 0x20 then none
    else some ⟨s.tokens, .text (c :: acc)⟩
  | .escape acc =>
    if c = 'u' then some ⟨s.tokens, .unicode acc none 3 0⟩
    else (unescape? c).map fun d => ⟨s.tokens, .text (d :: acc)⟩
  | .unicode acc high missing code =>
    (Text.hexDigit? c).bind fun d =>
      match missing with
      | 0 => unicode? s.tokens acc high (code * 16 + d)
      | missing + 1 => some ⟨s.tokens, .unicode acc high missing (code * 16 + d)⟩
  | .surrogate acc high slash =>
    if slash then
      if c = 'u' then some ⟨s.tokens, .unicode acc (some high) 3 0⟩ else none
    else if c = '\\' then some ⟨s.tokens, .surrogate acc high true⟩
    else none

/-- The tokens of a text that ends here, in their order. -/
def finish? (s : Scan) : Option (List Token) :=
  match s.mode with
  | .ready => some s.tokens.reverse
  | .numeral draft => draft.finish?.map fun n => (.scalar (.num n) :: s.tokens).reverse
  | _ => none

end Scan

/-- The tokens of a text, unless some character of it belongs to none. -/
def tokens? (text : List Char) : Option (List Token) :=
  (text.foldlM Scan.step {}).bind Scan.finish?

end EventWorker.Json
