import EventWorker.Retry
import EventWorker.Proofs.Settings
import EventWorker.Proofs.Text.Digits

/-!
# The policy a configuration line asks for

A line with one integer is read as that integer, and the policy keeps what fits its fields. The
delay is kept whenever it is not negative. The retry count has 32 bits, and a count above them is
taken for none at all: more retries asked for can mean fewer retries made.

Results:
1. `Settings.integer_line`: the integer of a line.
2. `RetryPolicy.retries_line`, `RetryPolicy.delay_line`: the policy of a line.
3. `RetryPolicy.policy_monotone_iff`: for which integers the policy is monotone.
4. `RetryPolicy.retries_fall`: two counts for which it is not.
-/

namespace EventWorker

/-! ## Lines with one integer -/

namespace Settings

/-- The configuration line that gives `key` an integer. -/
def line (key : String) (n : Int) : String :=
  key ++ "=" ++ String.ofList (Text.signedDecimal n)

theorem isBlank_of_mem_signedDecimal {n : Int} {c : Char} (h : c ∈ Text.signedDecimal n) :
    Text.isBlank c = false := by
  have digits : ∀ k < 58, 48 ≤ k → Text.isBlank (Char.ofNat k) = false := by decide
  rcases Text.mem_signedDecimal h with rfl | digit
  · decide
  · rw [Char.isDigit, Bool.and_eq_true, decide_eq_true_eq, decide_eq_true_eq] at digit
    rw [← Char.ofNat_toNat c]
    exact digits c.toNat (Nat.lt_succ_of_le digit.2) digit.1

/-- An integer can stand in a line under any key that can. -/
theorem plain_signedDecimal {key : String} (n : Int) (plain : Plain (key, "")) :
    Plain (key, String.ofList (Text.signedDecimal n)) where
  key_ne := plain.key_ne
  key_trimmed := plain.key_trimmed
  key_semicolon := plain.key_semicolon
  key_equals := plain.key_equals
  value_trimmed := by
    rw [Text.trimmed, String.toList_ofList,
      Text.trim_of_no_blank fun _ h => isBlank_of_mem_signedDecimal h]
  value_semicolon := by
    rw [String.toList_ofList]
    exact Text.notMem_signedDecimal (by decide) (by decide) n

theorem parse_line {key : String} (n : Int) (plain : Plain (key, "")) :
    parse (line key n) = ⟨[(key, String.ofList (Text.signedDecimal n))]⟩ := by
  have nothing : Text.Blank "".toList := by decide
  have spelled : Spells [(key, String.ofList (Text.signedDecimal n))] [line key n] := by
    have entry := @Spells.entry _ _ key (String.ofList (Text.signedDecimal n)) "" "" "" ""
      nothing nothing nothing nothing .done
    rwa [String.empty_append, String.append_empty, String.empty_append, String.append_empty]
      at entry
  have read := parse_spelled spelled
    (List.forall_mem_singleton.mpr (plain_signedDecimal n plain))
  rwa [String.intercalate_singleton] at read

/-- A 64-bit integer is read back under its key, whichever of the names the key is. -/
theorem integer_line {keys : List String} {key : String} (named : key ∈ keys) (default : Int)
    {n : Int} (fits : fitsSigned n = true) (plain : Plain (key, "")) :
    (parse (line key n)).integer keys default = n := by
  have found : (parse (line key n)).get? keys = some (String.ofList (Text.signedDecimal n)) := by
    rw [parse_line n plain, get?]
    induction keys with
    | nil => cases named
    | cons first rest ih =>
      rw [List.findSome?_cons, Keyed.find?_cons]
      by_cases same : first = key
      · rw [if_pos same]
      · rw [if_neg same, Keyed.find?_nil]
        exact ih (List.mem_of_ne_of_mem (Ne.symm same) named)
  rw [integer, found, Option.bind_some, Text.integer?, String.toList_ofList,
    Text.anyInteger?_signedDecimal, Option.filter_some, if_pos fits, Option.getD_some]

end Settings

/-! ## Their policy -/

namespace RetryPolicy

open Settings (line)

theorem plain_rc : Settings.Plain ("rc", "") :=
  ⟨by decide, by decide, by decide, by decide, by decide, by decide⟩

theorem plain_rd : Settings.Plain ("rd", "") :=
  ⟨by decide, by decide, by decide, by decide, by decide, by decide⟩

theorem retries_line {n : Int} (fits : fitsSigned n = true) :
    (ofSettings (.parse (line "rc" n))).retries =
      if 0 ≤ n ∧ n < UInt32.size then n.toNat else 0 := by
  rw [ofSettings, Settings.integer_line (by decide) 10 fits plain_rc]

theorem delay_line {n : Int} (fits : fitsSigned n = true) :
    (ofSettings (.parse (line "rd" n))).delay = n.toNat := by
  rw [ofSettings, Settings.integer_line (by decide) 1 fits plain_rd]

/-- The delay is monotone. The retry count is monotone up to the largest number of 32 bits and
from there on, but not across: below zero and above 32 bits nothing is tried again. -/
theorem policy_monotone_iff {a b : Int} (ha : fitsSigned a = true) (hb : fitsSigned b = true)
    (le : a ≤ b) :
    (ofSettings (.parse (line "rd" a))).delay ≤ (ofSettings (.parse (line "rd" b))).delay ∧
    ((ofSettings (.parse (line "rc" a))).retries ≤ (ofSettings (.parse (line "rc" b))).retries ↔
      a ≤ 0 ∨ b < UInt32.size ∨ UInt32.size ≤ a) := by
  constructor
  · rw [delay_line ha, delay_line hb]
    exact Int.toNat_le_toNat le
  · rw [retries_line ha, retries_line hb]
    have kept : ∀ n : Int, 0 ≤ n → n < UInt32.size →
        (if 0 ≤ n ∧ n < UInt32.size then n.toNat else 0) = n.toNat :=
      fun n least most => if_pos ⟨least, most⟩
    have lost : ∀ n : Int, n ≤ 0 ∨ UInt32.size ≤ n →
        (if 0 ≤ n ∧ n < UInt32.size then n.toNat else 0) = 0 := by
      intro n outside
      split <;> omega
    by_cases none : a ≤ 0 ∨ UInt32.size ≤ a
    · rw [lost a none]
      exact iff_of_true (Nat.zero_le _) (none.elim .inl fun large => .inr (.inr large))
    · rw [kept a (by omega) (by omega)]
      by_cases small : b < UInt32.size
      · rw [kept b (by omega) small]
        exact iff_of_true (Int.toNat_le_toNat le) (.inr (.inl small))
      · rw [lost b (by omega)]
        exact iff_of_false (by omega) (by omega)

/-- Between 5 and 4294967295 the count grows with what is asked for. -/
theorem policy_monotone_largest :
    (ofSettings (.parse (line "rd" 5))).delay ≤
      (ofSettings (.parse (line "rd" 4294967295))).delay ∧
    (ofSettings (.parse (line "rc" 5))).retries ≤
      (ofSettings (.parse (line "rc" 4294967295))).retries := by
  obtain ⟨delay, retries⟩ := policy_monotone_iff (a := 5) (b := 4294967295)
    (by decide) (by decide) (by decide)
  exact ⟨delay, retries.mpr (.inr (.inl (by decide)))⟩

/-- One retry more than 4294967295 asked for is none allowed. -/
theorem retries_fall :
    (fitsSigned 4294967295 = true ∧ fitsSigned 4294967296 = true ∧
      (4294967295 : Int) ≤ 4294967296) ∧
    (ofSettings (.parse "rc=4294967295")).retries = 4294967295 ∧
    (ofSettings (.parse "rc=4294967296")).retries = 0 ∧
    ¬ ∀ a b : Int, fitsSigned a = true → fitsSigned b = true → a ≤ b →
      (ofSettings (.parse (line "rc" a))).retries ≤
        (ofSettings (.parse (line "rc" b))).retries := by
  refine ⟨by decide, by decide, by decide, fun monotone => ?_⟩
  have le := monotone 4294967295 4294967296 (by decide) (by decide) (by decide)
  rw [retries_line (by decide), retries_line (by decide)] at le
  exact absurd le (by decide)

end RetryPolicy

end EventWorker
