import EventWorker.Bytes.Basic

/-!
# UTF-8, character by character

The UTF-8 form of a text is that of its characters one after the other, and a byte of the ASCII
range stands for the character with its number and for nothing else.

Results:
1. `ofText_ofList`: the form of a text from those of its characters.
2. `toNat_of_mem_utf8EncodeChar`, `notMem_ofText`: where the bytes of the ASCII range are.
-/

namespace EventWorker.Bytes

theorem ofText_ofList (cs : List Char) :
    ofText (String.ofList cs) = cs.flatMap String.utf8EncodeChar := by
  rw [ofText, String.toByteArray_ofList, List.utf8Encode, List.data_toByteArray]

theorem ofText_eq (s : String) : ofText s = s.toList.flatMap String.utf8EncodeChar := by
  rw [← ofText_ofList, String.ofList_toList]

/-- All bytes of a longer form have the highest bit set. -/
theorem toNat_of_mem_utf8EncodeChar {c : Char} {b : UInt8} (h : b ∈ String.utf8EncodeChar c)
    (ascii : b.toNat < 128) : c.toNat = b.toNat := by
  have high (n : Nat) (large : 128 ≤ n % 256) : b ≠ UInt8.ofNat n := by
    rintro rfl
    rw [UInt8.toNat_ofNat'] at ascii
    exact absurd ascii (Nat.not_lt.mpr large)
  unfold String.utf8EncodeChar at h
  dsimp only at h
  split at h
  · next small =>
    rw [List.mem_singleton.mp h, UInt8.toNat_ofNat']
    exact (Nat.mod_eq_of_lt (Nat.lt_of_le_of_lt small (by decide))).symm
  · simp only [apply_ite (b ∈ ·), List.mem_cons, List.not_mem_nil, or_false] at h
    split at h
    · rcases h with h | h <;> exact absurd h (high _ (by omega))
    · split at h
      · rcases h with h | h | h <;> exact absurd h (high _ (by omega))
      · rcases h with h | h | h | h <;> exact absurd h (high _ (by omega))

/-- A character of the ASCII range that is not in a text has no byte there. -/
theorem notMem_ofText {c : Char} (ascii : c.toNat < 128) {s : String} (absent : c ∉ s.toList) :
    UInt8.ofNat c.toNat ∉ ofText s := by
  have same : (UInt8.ofNat c.toNat).toNat = c.toNat := by
    rw [UInt8.toNat_ofNat']
    exact Nat.mod_eq_of_lt (Nat.lt_trans ascii (by decide))
  intro h
  rw [ofText_eq] at h
  obtain ⟨d, hd, h⟩ := List.mem_flatMap.mp h
  have number := toNat_of_mem_utf8EncodeChar h (same.symm ▸ ascii)
  rw [same] at number
  have equal : d = c := by
    rw [← Char.ofNat_toNat d, number, Char.ofNat_toNat]
  exact absent (equal ▸ hd)

end EventWorker.Bytes
