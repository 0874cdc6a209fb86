import EventWorker.Json.Token
import EventWorker.Json.Writer
import EventWorker.Proofs.Text.Digits

/-!
# Strings and numerals as tokens

A numeral only ends where something else begins, so after the characters of a token the lexer
either has it or is left with a numeral that may end. Either way a comma or a closing bracket finds
the token complete.

Results:
1. `Numeral.read?_signedDecimal`: an integer that fits a word is read back from its decimal form.
2. `Scan.quoted_whole`: a string in quotes is one token.
3. `Scan.numeral_reads`: so is a numeral.
4. `Scan.Reads.close`, `Scan.Whole.append_reads`: what is read one after the other.
-/

namespace EventWorker.Json

namespace Numeral

/-- The number of a whole numeral. -/
def read? : List Char → Option Number
  | [] => none
  | c :: cs => do
    let draft ← Draft.start? c
    let longer ← cs.foldlM Draft.extend? draft
    longer.finish?

/-- More digits make a whole numeral longer. -/
theorem extend_digits (n : Numeral) {cs : List Char} {ds : List Nat}
    (digits : cs.mapM Text.digit? = some ds) :
    cs.foldlM Draft.extend? ⟨.whole, n⟩ = some ⟨.whole, { n with whole := n.whole ++ ds }⟩ := by
  induction cs generalizing n ds with
  | nil =>
    cases digits
    simp
  | cons c cs ih =>
    rw [List.mapM_cons] at digits
    obtain ⟨d, first, digits⟩ := Option.bind_eq_some_iff.mp digits
    obtain ⟨others, rest, digits⟩ := Option.bind_eq_some_iff.mp digits
    cases digits
    have step : Draft.extend? ⟨.whole, n⟩ c =
        some ⟨.whole, { n with whole := n.whole ++ [d] }⟩ := by
      simp only [Draft.extend?, first]
    rw [List.foldlM_cons, step, Option.bind_eq_bind, Option.bind_some, ih _ rest]
    simp

/-- After its sign a decimal form is read as a whole numeral. -/
theorem extend_decimal (negative : Bool) (n : Nat) :
    ∃ phase ds, (Text.decimal n).foldlM Draft.extend? ⟨.sign, { negative }⟩ =
        some ⟨phase, { negative, whole := ds }⟩ ∧
      phase.complete = true ∧ Text.ofDigits ds = n := by
  obtain ⟨d, ds, read, value, leading⟩ := Text.decimal_digits n
  cases h : Text.decimal n with
  | nil => rw [h] at read; cases read
  | cons c cs =>
    rw [h, List.mapM_cons] at read
    obtain ⟨d', first, read⟩ := Option.bind_eq_some_iff.mp read
    obtain ⟨ds', rest, read⟩ := Option.bind_eq_some_iff.mp read
    cases read
    have step : Draft.extend? ⟨.sign, { negative }⟩ c =
        some ⟨if d = 0 then .zero else .whole, { negative, whole := [d] }⟩ := by
      simp only [Draft.extend?, first]
    rw [List.foldlM_cons, step, Option.bind_eq_bind, Option.bind_some]
    by_cases zero : d = 0
    · rw [leading zero] at rest
      have none_left : cs = [] := by
        cases cs with
        | nil => rfl
        | cons c' cs =>
          rw [List.mapM_cons] at rest
          obtain ⟨_, -, rest⟩ := Option.bind_eq_some_iff.mp rest
          obtain ⟨_, -, rest⟩ := Option.bind_eq_some_iff.mp rest
          cases rest
      rw [leading zero] at value
      rw [if_pos zero, none_left]
      exact ⟨.zero, [d], rfl, rfl, value⟩
    · rw [if_neg zero, extend_digits _ rest]
      exact ⟨.whole, d :: ds, rfl, rfl, value⟩

/-- A numeral without a sign begins like one whose sign has been read. -/
theorem start?_digit {c : Char} {d : Nat} (digit : Text.digit? c = some d) (sign : c ≠ '-') :
    Draft.start? c = Draft.extend? ⟨.sign, {}⟩ c := by
  simp only [Draft.start?, Draft.extend?, if_neg sign, digit, Option.map_some]

/-- An integer that fits a signed or an unsigned word. -/
def fitsWord (n : Int) : Prop :=
  -(signedBound : Int) ≤ n ∧ n < UInt64.size

theorem read?_signedDecimal {n : Int} (fits : fitsWord n) :
    read? (Text.signedDecimal n) = some (.int n) := by
  obtain ⟨least, greatest⟩ := fits
  cases n with
  | ofNat n =>
    obtain ⟨phase, ds, read, complete, value⟩ := extend_decimal false n
    obtain ⟨d, _, digits, -, -⟩ := Text.decimal_digits n
    rw [Text.signedDecimal]
    cases h : Text.decimal n with
    | nil => rw [h] at digits; cases digits
    | cons c cs =>
      rw [h, List.mapM_cons] at digits
      obtain ⟨_, first, -⟩ := Option.bind_eq_some_iff.mp digits
      rw [h, List.foldlM_cons] at read
      rw [read?, start?_digit first (Text.decimal_sign h).1]
      rw [← bind_assoc, read]
      have small : fitsUnsigned n = true := decide_eq_true (Int.ofNat_lt.mp greatest)
      simp [Draft.finish?, complete, number?, small, value]
  | negSucc n =>
    obtain ⟨phase, ds, read, complete, value⟩ := extend_decimal true (n + 1)
    have large : n + 1 ≤ signedBound := by omega
    have positive : Draft.start? '-' = some ⟨.sign, { negative := true }⟩ := rfl
    rw [Text.signedDecimal, read?, positive]
    simp only [Option.bind_eq_bind, Option.bind_some, read, Int.negSucc_eq]
    simp [Draft.finish?, complete, number?, value, large]

end Numeral

namespace Scan

/-- All characters of `ts` have been read, newest first; the last of them may be a numeral that
can still go on. -/
inductive Holds : Scan → List Token → Prop
  | whole (ts : List Token) : Holds ⟨ts, .ready⟩ ts
  | numeral {ts : List Token} {draft : Numeral.Draft} {n : Number} (ends : draft.finish? = some n) :
    Holds ⟨ts, .numeral draft⟩ (.scalar (.num n) :: ts)

/-- A comma or a closing bracket. -/
inductive Closes : Char → Token → Prop
  | comma : Closes ',' .comma
  | rbracket : Closes ']' .rbracket
  | rbrace : Closes '}' .rbrace

theorem Closes.begin? {c : Char} {t : Token} (closes : Closes c t) (ts : List Token) :
    Scan.begin? ts c = some ⟨t :: ts, .ready⟩ := by
  cases closes <;> rfl

/-- A numeral does not go on with a comma or a closing bracket. -/
theorem Closes.extend? {c : Char} {t : Token} (closes : Closes c t) (draft : Numeral.Draft) :
    draft.extend? c = none := by
  obtain ⟨phase, n⟩ := draft
  cases closes <;> cases phase <;> rfl

theorem Holds.closed {s : Scan} {ts : List Token} (h : s.Holds ts) {c : Char} {t : Token}
    (closes : Closes c t) : s.step c = some ⟨t :: ts, .ready⟩ := by
  cases h with
  | whole => exact closes.begin? ts
  | numeral ends => simp only [step, closes.extend?, ends, Option.bind_some, closes.begin?]

theorem Holds.finish? {s : Scan} {ts : List Token} (h : s.Holds ts) :
    s.finish? = some ts.reverse := by
  cases h with
  | whole => rfl
  | numeral ends => simp only [Scan.finish?, ends, Option.map_some]

/-- The characters are read as the tokens, the last of which may be a numeral that can go on. -/
def Reads (cs : List Char) (us : List Token) : Prop :=
  ∀ ts, ∃ s, cs.foldlM step ⟨ts, .ready⟩ = some s ∧ s.Holds (us.reverse ++ ts)

/-- The characters are read as the tokens and nothing is left over. -/
def Whole (cs : List Char) (us : List Token) : Prop :=
  ∀ ts, cs.foldlM step ⟨ts, .ready⟩ = some ⟨us.reverse ++ ts, .ready⟩

theorem Reads.nil : Reads [] [] :=
  fun ts => ⟨⟨ts, .ready⟩, rfl, .whole ts⟩

theorem Whole.reads {cs : List Char} {us : List Token} (h : Whole cs us) : Reads cs us :=
  fun ts => ⟨_, h ts, .whole _⟩

theorem Reads.close {cs : List Char} {us : List Token} (h : Reads cs us) {c : Char} {t : Token}
    (closes : Closes c t) : Whole (cs ++ [c]) (us ++ [t]) := by
  intro ts
  obtain ⟨s, read, holds⟩ := h ts
  rw [List.foldlM_append, read, Option.bind_eq_bind, Option.bind_some, List.foldlM_cons,
    holds.closed closes, List.reverse_append]
  rfl

theorem Whole.append {cs cs' : List Char} {us us' : List Token} (h : Whole cs us)
    (h' : Whole cs' us') : Whole (cs ++ cs') (us ++ us') := by
  intro ts
  rw [List.foldlM_append, h ts, Option.bind_eq_bind, Option.bind_some, h', List.reverse_append,
    List.append_assoc]

theorem Whole.append_reads {cs cs' : List Char} {us us' : List Token} (h : Whole cs us)
    (h' : Reads cs' us') : Reads (cs ++ cs') (us ++ us') := by
  intro ts
  obtain ⟨s, read, holds⟩ := h' (us.reverse ++ ts)
  refine ⟨s, ?_, ?_⟩
  · rw [List.foldlM_append, h ts, Option.bind_eq_bind, Option.bind_some, read]
  · rw [List.reverse_append, List.append_assoc]
    exact holds

theorem Reads.tokens {cs : List Char} {us : List Token} (h : Reads cs us) :
    tokens? cs = some us := by
  obtain ⟨s, read, holds⟩ := h []
  have started : ({} : Scan) = ⟨[], .ready⟩ := rfl
  rw [tokens?, started, read, Option.bind_some, holds.finish?, List.append_nil,
    List.reverse_reverse]

variable (ts : List Token)

/-- The written form of a character is read as the character. -/
theorem escape_read (acc : List Char) (c : Char) :
    (escape c).foldlM step ⟨ts, .text acc⟩ = some ⟨ts, .text (c :: acc)⟩ := by
  unfold escape
  split
  iterate 7 rfl
  next quote backslash _ _ _ _ _ =>
  split
  · next control =>
    -- Four hexadecimal digits, of which the first two are zero, make the code of the character.
    have code : (c.toNat / 16 % 16) * 16 + c.toNat % 16 = c.toNat := by omega
    have zero : Text.hexDigit? '0' = some 0 := rfl
    have low : ¬ (0xD800 ≤ c.toNat ∧ c.toNat < 0xDC00) := by omega
    have lower : ¬ (0xDC00 ≤ c.toNat ∧ c.toNat < 0xE000) := by omega
    simp [step, zero, Text.hexDigit?_hexDigit, unicode?, code, low, lower, Char.ofNat_toNat]
  · next plain =>
    have notQuote : c ≠ '"' := quote
    have notBackslash : c ≠ '\\' := backslash
    simp [step, notQuote, notBackslash, plain]

theorem escapes_read (cs acc : List Char) :
    (cs.flatMap escape).foldlM step ⟨ts, .text acc⟩ = some ⟨ts, .text (cs.reverse ++ acc)⟩ := by
  induction cs generalizing acc with
  | nil => rfl
  | cons c cs ih =>
    rw [List.flatMap_cons, List.foldlM_append, escape_read, Option.bind_eq_bind, Option.bind_some,
      ih, List.reverse_cons, List.append_assoc, List.singleton_append]

theorem quoted_whole (s : String) : Whole (quoted s) [.text s] := by
  intro ts
  have opened : step ⟨ts, .ready⟩ '"' = some ⟨ts, .text []⟩ := rfl
  rw [quoted, List.foldlM_cons, opened, Option.bind_eq_bind, Option.bind_some, List.foldlM_append,
    escapes_read]
  simp [step, String.ofList_toList]

/-- What begins a numeral begins no other token. -/
theorem begin?_start {c : Char} {draft : Numeral.Draft} (h : Numeral.Draft.start? c = some draft) :
    begin? ts c = some ⟨ts, .numeral draft⟩ := by
  have notBlank : isBlank c = false := by
    cases blank : isBlank c with
    | false => rfl
    | true =>
      simp only [isBlank, Bool.or_eq_true, decide_eq_true_eq] at blank
      rcases blank with ((rfl | rfl) | rfl) | rfl <;> cases h
  unfold begin?
  rw [notBlank, if_neg Bool.false_ne_true]
  split
  iterate 10 cases h
  rw [h, Option.map_some]

theorem extend_read {cs : List Char} {draft longer : Numeral.Draft}
    (h : cs.foldlM Numeral.Draft.extend? draft = some longer) :
    cs.foldlM step ⟨ts, .numeral draft⟩ = some ⟨ts, .numeral longer⟩ := by
  induction cs generalizing draft with
  | nil =>
    cases h
    rfl
  | cons c cs ih =>
    rw [List.foldlM_cons] at h
    obtain ⟨next, first, rest⟩ := Option.bind_eq_some_iff.mp h
    have one : step ⟨ts, .numeral draft⟩ c = some ⟨ts, .numeral next⟩ := by
      simp only [step, first]
    rw [List.foldlM_cons, one, Option.bind_eq_bind, Option.bind_some, ih rest]

/-- A numeral that is read by itself is read as the last token. -/
theorem numeral_reads {cs : List Char} {n : Number} (h : Numeral.read? cs = some n) :
    Reads cs [.scalar (.num n)] := by
  intro ts
  cases cs with
  | nil => cases h
  | cons c cs =>
    obtain ⟨draft, start, h⟩ := Option.bind_eq_some_iff.mp h
    obtain ⟨longer, rest, ends⟩ := Option.bind_eq_some_iff.mp h
    refine ⟨⟨ts, .numeral longer⟩, ?_, .numeral ends⟩
    have one : step ⟨ts, .ready⟩ c = some ⟨ts, .numeral draft⟩ := begin?_start ts start
    rw [List.foldlM_cons, one, Option.bind_eq_bind, Option.bind_some, extend_read ts rest]

end Scan

end EventWorker.Json
