import EventWorker.Text.Integer

/-!
# Reading back digits

Results:
1. `hexDigit?_hexDigit`: a hexadecimal digit has the value it was written for.
2. `decimal_digits`: the decimal form of a number consists of digits that make the number, without
   a leading zero.
3. `mem_signedDecimal`: what characters the decimal form of an integer has.
4. `anyInteger?_signedDecimal`, `signedDecimal_injective`: an integer is read back from its decimal
   form.
-/

namespace EventWorker.Text

theorem hexDigit?_hexDigit (n : Nat) : hexDigit? (hexDigit n) = some (n % 16) := by
  have digits : ∀ k < 16, hexDigit? (hexDigit k) = some k := by decide
  have low : hexDigit n = hexDigit (n % 16) := by
    simp only [hexDigit, Nat.mod_mod]
  rw [low]
  exact digits _ (Nat.mod_lt _ (by decide))

theorem digit?_digitChar : ∀ n < 10, digit? n.digitChar = some n := by
  decide

theorem ofDigits_concat (ds : List Nat) (d : Nat) :
    ofDigits (ds ++ [d]) = ofDigits ds * 10 + d := by
  simp [ofDigits]

/-- The digits of a number are read one by one, and only the number zero begins with a zero. -/
theorem decimal_digits (n : Nat) :
    ∃ d ds, (decimal n).mapM digit? = some (d :: ds) ∧ ofDigits (d :: ds) = n ∧
      (d = 0 → ds = []) := by
  induction n using Nat.strongRecOn with
  | ind n ih =>
    rw [decimal, Nat.toDigits_eq_if (by decide)]
    split
    · next small =>
      refine ⟨n, [], ?_, by simp [ofDigits], fun _ => rfl⟩
      simp [digit?_digitChar n small]
    · next large =>
      obtain ⟨d, ds, read, value, leading⟩ := ih (n / 10) (by omega)
      have last : digit? (n % 10).digitChar = some (n % 10) :=
        digit?_digitChar _ (Nat.mod_lt _ (by decide))
      rw [decimal] at read
      refine ⟨d, ds ++ [n % 10], by simp [List.mapM_append, read, last], ?_, ?_⟩
      · rw [← List.cons_append, ofDigits_concat, value]
        omega
      · intro zero
        rw [zero, leading zero] at value
        change 0 = n / 10 at value
        omega

theorem decimal_ne_nil (n : Nat) : decimal n ≠ [] := by
  obtain ⟨d, ds, read, -⟩ := decimal_digits n
  intro empty
  rw [empty] at read
  cases read

theorem digitValues?_decimal (n : Nat) : (digitValues? (decimal n)).map ofDigits = some n := by
  obtain ⟨d, ds, read, value, -⟩ := decimal_digits n
  unfold digitValues?
  split
  · next empty => exact absurd (List.isEmpty_iff.mp empty) (decimal_ne_nil n)
  · rw [read, Option.map_some, value]

/-- No sign is a digit. -/
theorem decimal_sign {n : Nat} {c : Char} {cs : List Char} (h : decimal n = c :: cs) :
    c ≠ '-' ∧ c ≠ '+' := by
  obtain ⟨d, ds, read, -, -⟩ := decimal_digits n
  rw [h, List.mapM_cons] at read
  constructor
  · rintro rfl
    cases read
  · rintro rfl
    cases read

theorem isDigit_of_mem_decimal {n : Nat} {c : Char} (h : c ∈ decimal n) : c.isDigit = true :=
  Nat.isDigit_of_mem_toDigits (by decide) (by decide) h

/-- An integer is written with digits and at most a minus sign. -/
theorem mem_signedDecimal {n : Int} {c : Char} (h : c ∈ signedDecimal n) :
    c = '-' ∨ c.isDigit = true := by
  cases n with
  | ofNat n => exact .inr (isDigit_of_mem_decimal h)
  | negSucc n =>
    rcases List.mem_cons.mp h with sign | digit
    · exact .inl sign
    · exact .inr (isDigit_of_mem_decimal digit)

/-- A character that is neither a digit nor the minus sign is in no decimal form. -/
theorem notMem_signedDecimal {c : Char} (sign : c ≠ '-') (digit : c.isDigit = false) (n : Int) :
    c ∉ signedDecimal n := by
  intro h
  rcases mem_signedDecimal h with same | other
  · exact sign same
  · exact Bool.false_ne_true (digit.symm.trans other)

theorem anyInteger?_signedDecimal (n : Int) : anyInteger? (signedDecimal n) = some n := by
  cases n with
  | ofNat n =>
    have read := digitValues?_decimal n
    obtain ⟨values, found, value⟩ := Option.map_eq_some_iff.mp read
    rw [signedDecimal]
    cases h : decimal n with
    | nil => rw [h] at found; cases found
    | cons c cs =>
      obtain ⟨minus, plus⟩ := decimal_sign h
      rw [anyInteger?]
      · rw [← h, found, Option.map_some, value]
        rfl
      · rintro _ same
        exact minus (List.cons.inj same).1
      · rintro _ same
        exact plus (List.cons.inj same).1
  | negSucc n =>
    obtain ⟨values, found, value⟩ := Option.map_eq_some_iff.mp (digitValues?_decimal (n + 1))
    rw [signedDecimal, anyInteger?, found, Option.map_some, value]
    rfl

theorem signedDecimal_injective {m n : Int} (h : signedDecimal m = signedDecimal n) : m = n := by
  have read := anyInteger?_signedDecimal m
  rw [h, anyInteger?_signedDecimal] at read
  exact (Option.some.inj read).symm

end EventWorker.Text
