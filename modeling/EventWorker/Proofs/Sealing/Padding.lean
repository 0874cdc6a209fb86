import EventWorker.Proofs.Bytes.Utf8
import EventWorker.Sealing.Padding

/-!
# Texts without their padding

Stripping takes the zero bytes at the end, whether they were padding or belonged to the text. In
UTF-8 a zero byte stands for a zero character and for nothing else, so what is left is a text
again.

Results:
1. `Padding.strip_pad`: what is stripped of a padded byte string.
2. `Padding.strip_eq_iff`: which byte strings lose nothing.
3. `Padding.padding_laws`: what padding adds, and what stripping takes off again.
4. `Padding.strip_ofText`: what is stripped of a text.
5. `Padding.stripText_eq_iff`: which texts lose nothing.
-/

namespace EventWorker.Padding

/-- A text without the zero characters at its end. -/
def stripText (text : String) : String :=
  String.ofList (text.toList.reverse.dropWhile (· = '\x00')).reverse

theorem strip_replicate (bytes : Bytes) (n : Nat) :
    strip (bytes ++ List.replicate n 0) = strip bytes := by
  induction n with
  | zero => rw [List.replicate_zero, List.append_nil]
  | succ n ih =>
    rw [List.replicate_succ', ← List.append_assoc, strip, List.reverse_append]
    exact ih

/-- The padding is stripped, and with it the zero bytes that were there before. -/
theorem strip_pad (block : Nat) (bytes : Bytes) : strip (pad block bytes) = strip bytes :=
  strip_replicate bytes _

/-- Nothing is taken off a list whose last element is to stay. -/
theorem reverse_dropWhile_of_ends {α : Type} {p : α → Bool} {xs : List α}
    (ends : ∀ x, xs.getLast? = some x → p x = false) : (xs.reverse.dropWhile p).reverse = xs := by
  cases h : xs.reverse with
  | nil => rw [List.reverse_eq_nil_iff.mp h]; rfl
  | cons x rest =>
    have last : xs.getLast? = some x := by
      rw [← List.head?_reverse, h, List.head?_cons]
    rw [List.dropWhile_cons_of_neg (by simp [ends x last]), ← h, List.reverse_reverse]

/-- Nothing is stripped of a byte string that does not end in a zero byte. -/
theorem strip_of_ends {bytes : Bytes} (ends : bytes.getLast? ≠ some 0) : strip bytes = bytes := by
  refine reverse_dropWhile_of_ends fun b last => ?_
  have nonzero : b ≠ 0 := fun zero => ends (zero ▸ last)
  simpa using nonzero

/-- What is left after stripping does not end in a zero byte. -/
theorem getLast?_strip (bytes : Bytes) : (strip bytes).getLast? ≠ some 0 := by
  intro last
  rw [strip, List.getLast?_reverse] at last
  have first := List.head?_dropWhile_not (· = 0) bytes.reverse
  rw [last] at first
  simp at first

/-- A byte string loses nothing exactly when its last byte, if it has one, is not zero. -/
theorem strip_eq_iff (bytes : Bytes) : strip bytes = bytes ↔ bytes.getLast? ≠ some 0 := by
  constructor
  · intro same
    rw [← same]
    exact getLast?_strip bytes
  · exact strip_of_ends

/-- Stripping a second time takes nothing more off. -/
theorem strip_strip (bytes : Bytes) : strip (strip bytes) = strip bytes :=
  strip_of_ends (getLast?_strip bytes)

/-- A length and what is missing to the next multiple of `block` make a multiple of `block`. -/
theorem dvd_add_missing (length : Nat) {block : Nat} (positive : 0 < block) :
    block ∣ length + (block - length % block) % block := by
  have below : length % block < block := Nat.mod_lt length positive
  have whole : length = block * (length / block) + length % block :=
    (Nat.div_add_mod length block).symm
  by_cases aligned : length % block = 0
  · rw [aligned, Nat.sub_zero, Nat.mod_self, Nat.add_zero]
    exact Nat.dvd_of_mod_eq_zero aligned
  · have missing : (block - length % block) % block = block - length % block :=
      Nat.mod_eq_of_lt (by omega)
    have next : length + (block - length % block) = block * (length / block + 1) := by
      rw [Nat.mul_succ]
      omega
    rw [missing, next]
    exact Nat.dvd_mul_right block _

/-- Padding keeps the bytes and puts zero bytes behind them, fewer than a block and as many as
make whole blocks of it; without a block size it adds nothing. Stripping undoes it as far as it
can: it takes the zero bytes off that were there before as well, so it gives the bytes back
unless they end in one. It takes nothing off a second time. -/
theorem padding_laws (block : Nat) (bytes : Bytes) :
    (∃ added, pad block bytes = bytes ++ List.replicate added 0 ∧
      (0 < block → added < block ∧ block ∣ (pad block bytes).length)) ∧
    (block = 0 → pad block bytes = bytes) ∧
    strip (pad block bytes) = strip bytes ∧
    (strip bytes = bytes ↔ bytes = [] ∨ ∃ last, bytes.getLast? = some last ∧ last ≠ 0) ∧
    strip (strip bytes) = strip bytes := by
  refine ⟨⟨(block - bytes.length % block) % block, rfl, fun positive => ⟨?_, ?_⟩⟩, ?_,
    strip_pad block bytes, ?_, strip_strip bytes⟩
  · exact Nat.mod_lt _ positive
  · rw [pad, List.length_append, List.length_replicate]
    exact dvd_add_missing bytes.length positive
  · intro zero
    subst zero
    rw [pad, Nat.zero_sub, Nat.zero_mod, List.replicate_zero, List.append_nil]
  · rw [strip_eq_iff]
    cases h : bytes.getLast? with
    | none => simp [List.getLast?_eq_none_iff.mp h]
    | some last =>
      have some_byte : bytes ≠ [] := by
        rintro rfl
        cases h
      simp [some_byte]

example : pad 4 [7, 0, 9, 1, 0] = [7, 0, 9, 1, 0, 0, 0, 0] ∧
    strip (pad 4 [7, 0, 9, 1, 0]) = [7, 0, 9, 1] := by decide

/-! ## Texts -/

/-- The UTF-8 form of a character other than zero does not end in a zero byte. -/
theorem getLast?_utf8EncodeChar {c : Char} (nonzero : c ≠ '\x00') :
    (String.utf8EncodeChar c).getLast? ≠ some 0 := by
  intro last
  have zero : c.toNat = 0 :=
    Bytes.toNat_of_mem_utf8EncodeChar (List.mem_of_getLast? last) (by decide)
  exact nonzero (by rw [← Char.ofNat_toNat c, zero])

/-- What is stripped of a text are the zero characters at its end. -/
theorem strip_ofText (text : String) :
    strip (Bytes.ofText text) = Bytes.ofText (stripText text) := by
  have reversed (cs : List Char) : strip (cs.reverse.flatMap String.utf8EncodeChar) =
      (cs.dropWhile (· = '\x00')).reverse.flatMap String.utf8EncodeChar := by
    induction cs with
    | nil => rfl
    | cons c rest ih =>
      rw [List.reverse_cons, List.flatMap_append, List.flatMap_singleton]
      by_cases zero : c = '\x00'
      · subst zero
        rw [List.dropWhile_cons_of_pos (by simp), ← ih]
        exact strip_replicate _ 1
      · rw [List.dropWhile_cons_of_neg (by simpa using zero), List.reverse_cons,
          List.flatMap_append, List.flatMap_singleton]
        refine strip_of_ends fun last => ?_
        rw [List.getLast?_append] at last
        cases own : (String.utf8EncodeChar c).getLast? with
        | none => exact absurd (List.getLast?_eq_none_iff.mp own) (String.utf8EncodeChar_ne_nil)
        | some b =>
          rw [own] at last
          exact getLast?_utf8EncodeChar zero (own.trans last)
  have whole := reversed text.toList.reverse
  rw [List.reverse_reverse, ← Bytes.ofText_ofList, ← Bytes.ofText_ofList,
    String.ofList_toList] at whole
  exact whole

/-- A text loses nothing unless it ends in a zero character. -/
theorem stripText_eq_iff (text : String) :
    stripText text = text ↔ text.toList.getLast? ≠ some '\x00' := by
  constructor
  · intro same last
    have kept : text.toList.reverse.dropWhile (· = '\x00') = text.toList.reverse := by
      rw [← List.reverse_eq_iff, ← String.toList_ofList (l := List.reverse _)]
      exact congrArg String.toList same
    have first := List.head?_dropWhile_not (· = '\x00') text.toList.reverse
    rw [kept, List.head?_reverse, last] at first
    simp at first
  · intro ends
    have kept : (text.toList.reverse.dropWhile (· = '\x00')).reverse = text.toList := by
      refine reverse_dropWhile_of_ends fun c last => ?_
      have nonzero : c ≠ '\x00' := fun zero => ends (zero ▸ last)
      simpa using nonzero
    rw [stripText, kept, String.ofList_toList]

end EventWorker.Padding
