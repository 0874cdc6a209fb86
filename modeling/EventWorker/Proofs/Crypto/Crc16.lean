import EventWorker.Proofs.Text.Digits
import EventWorker.Sealing.Codec
import Mathlib.Logic.Function.Iterate

/-!
# What the CRC-16 detects

A shift of the register is linear in exclusive or and loses nothing. So the difference of two
registers is itself fed like a register, and it vanishes only under a byte that equals it. What
differs in two adjacent bytes is no wider than the register and leaves a difference in it, which no
bytes that follow in both can remove.

Results:
1. `shifts_xor`, `shifts_eq_zero`: shifts are linear and injective.
2. `feed_pair_eq_zero`: two bytes that leave a zero register as it is are both zero.
3. `digest_ne`: two byte strings that differ within two adjacent bytes have different checks.
4. `IntegrityFunction.crc16_detects_pair`: so a check is accepted for at most one of two texts that
   differ like that.
-/

namespace EventWorker

/-! ## Hexadecimal words -/

namespace Bytes

theorem ofHex?_hex (bytes : Bytes) : ofHex? (hex bytes).toList = some bytes := by
  rw [hex, String.toList_ofList]
  induction bytes with
  | nil => rfl
  | cons b rest ih =>
    have high : b.toNat / 16 % 16 = b.toNat / 16 :=
      Nat.mod_eq_of_lt (by have := b.toNat_lt; omega)
    have value : UInt8.ofNat (b.toNat / 16 * 16 + b.toNat % 16) = b := by
      rw [Nat.div_add_mod', UInt8.ofNat_toNat]
    simp only [List.flatMap_cons, List.cons_append, List.nil_append, ofHex?,
      Text.hexDigit?_hexDigit, Option.bind_eq_bind, Option.bind_some, ih, high, value]
    rfl

theorem hex_injective : Function.Injective hex := by
  intro xs ys same
  have read := ofHex?_hex xs
  rw [same, ofHex?_hex] at read
  exact (Option.some.inj read).symm

theorem toBigEndian_two (n : UInt16) : toBigEndian (bigEndian 2 n.toNat) = n.toNat := by
  have fits := n.toNat_lt
  simp only [toBigEndian, bigEndian, List.range_succ, List.range_zero, List.nil_append,
    List.cons_append, List.map_cons, List.map_nil, List.foldl_cons, List.foldl_nil,
    UInt8.toNat_ofNat', Nat.shiftRight_eq_div_pow]
  omega

theorem ofText_injective : Function.Injective ofText := by
  intro t u same
  have read := text?_ofText t
  rw [same, text?_ofText] at read
  exact (Option.some.inj read).symm

end Bytes

namespace Crypto.Crc16

/-! ## Shifts -/

theorem low_bit (r : UInt16) : r &&& 1 = 1 ↔ r.toNat % 2 = 1 := by
  rw [← UInt16.toNat_inj, UInt16.toNat_and]
  exact (Nat.and_one_is_mod r.toNat).congr_left

/-- The polynomial is taken when the low bit is set. -/
def taken (r : UInt16) : UInt16 :=
  if r &&& 1 = 1 then 0xA001 else 0

theorem shift_eq (r : UInt16) : shift r = (r >>> 1) ^^^ taken r := by
  unfold shift taken
  split
  · rfl
  · rw [UInt16.xor_zero]

theorem taken_xor (r s : UInt16) : taken (r ^^^ s) = taken r ^^^ taken s := by
  have odd : (r ^^^ s).toNat % 2 = 1 ↔ ¬ (r.toNat % 2 = 1 ↔ s.toNat % 2 = 1) := by
    rw [UInt16.toNat_xor]
    exact Nat.xor_mod_two_eq_one
  simp only [taken, low_bit, odd]
  by_cases hr : r.toNat % 2 = 1 <;> by_cases hs : s.toNat % 2 = 1 <;> simp [hr, hs]

theorem shift_xor (r s : UInt16) : shift (r ^^^ s) = shift r ^^^ shift s := by
  simp only [shift_eq, taken_xor, UInt16.shiftRight_xor]
  ac_rfl

theorem toNat_half (r : UInt16) : (r >>> 1).toNat = r.toNat / 2 := by
  rw [UInt16.toNat_shiftRight]
  exact Nat.shiftRight_eq_div_pow _ 1

theorem shift_eq_zero {r : UInt16} (zero : shift r = 0) : r = 0 := by
  rw [shift_eq, UInt16.xor_eq_zero_iff, ← UInt16.toNat_inj, toNat_half, taken] at zero
  have fits := r.toNat_lt
  split at zero
  · -- The polynomial has its top bit set, which no shifted register has.
    have top : (0xA001 : UInt16).toNat = 0xA001 := rfl
    omega
  · next even =>
    rw [low_bit] at even
    have nothing : (0 : UInt16).toNat = 0 := rfl
    rw [← UInt16.toNat_inj]
    omega

theorem shift_of_even {r : UInt16} (even : r.toNat % 2 = 0) : (shift r).toNat = r.toNat / 2 := by
  have low : ¬ r &&& 1 = 1 := by
    rw [low_bit]
    omega
  rw [shift, if_neg low, toNat_half]

theorem shifts_xor (n : Nat) (r s : UInt16) :
    shift^[n] (r ^^^ s) = shift^[n] r ^^^ shift^[n] s := by
  induction n generalizing r s with
  | zero => rfl
  | succ n ih => simp only [Function.iterate_succ_apply, shift_xor, ih]

theorem shifts_eq_zero {n : Nat} {r : UInt16} (zero : shift^[n] r = 0) : r = 0 := by
  induction n generalizing r with
  | zero => exact zero
  | succ n ih =>
    rw [Function.iterate_succ_apply] at zero
    exact shift_eq_zero (ih zero)

/-- A register whose low bits are clear only moves down. -/
theorem shifts_of_clear {n : Nat} {r : UInt16} {high : Nat} (clear : r.toNat = high <<< n) :
    (shift^[n] r).toNat = high := by
  induction n generalizing r with
  | zero => exact clear
  | succ n ih =>
    rw [Function.iterate_succ_apply]
    rw [Nat.shiftLeft_succ] at clear
    refine ih ?_
    rw [shift_of_even (by omega), clear, Nat.mul_div_cancel_left _ (by decide)]

/-! ## Bytes -/

theorem feed_eq (r : UInt16) (b : UInt8) : feed r b = shift^[8] (r ^^^ b.toUInt16) :=
  rfl

theorem feed_xor (r s : UInt16) (a b : UInt8) :
    feed (r ^^^ s) (a ^^^ b) = feed r a ^^^ feed s b := by
  simp only [feed_eq, ← shifts_xor, UInt8.toUInt16_xor]
  congr 1
  ac_rfl

/-- A byte can clear a register only if it is the register's own low byte. -/
theorem feed_eq_zero {r : UInt16} {b : UInt8} (zero : feed r b = 0) : r = b.toUInt16 := by
  rw [feed_eq] at zero
  exact UInt16.xor_eq_zero_iff.mp (shifts_eq_zero zero)

theorem feed_injective (b : UInt8) : Function.Injective (feed · b) := by
  intro r s same
  have zero : feed (r ^^^ s) (b ^^^ b) = 0 := by
    rw [feed_xor]
    exact UInt16.xor_eq_zero_iff.mpr same
  have difference := feed_eq_zero zero
  rw [UInt8.xor_self] at difference
  exact UInt16.xor_eq_zero_iff.mp difference

/-- The register that one byte leaves has a clear high byte only if the byte was zero, so no second
byte clears it. -/
theorem feed_pair_eq_zero {a b : UInt8} (zero : feed (feed 0 a) b = 0) : a = 0 ∧ b = 0 := by
  have after : feed 0 a = b.toUInt16 := feed_eq_zero zero
  have fits := b.toNat_lt
  have small := a.toNat_lt
  -- Eight shifts bring the second byte down from the high byte.
  have raised : (UInt16.ofNat (b.toNat <<< 8)).toNat = b.toNat <<< 8 :=
    UInt16.toNat_ofNat_of_lt' (show b.toNat <<< 8 < 65536 by omega)
  have lowered : shift^[8] (UInt16.ofNat (b.toNat <<< 8)) = b.toUInt16 := by
    rw [← UInt16.toNat_inj, shifts_of_clear raised, UInt8.toNat_toUInt16]
  have apart : a.toUInt16 = UInt16.ofNat (b.toNat <<< 8) := by
    rw [← UInt16.xor_eq_zero_iff]
    refine shifts_eq_zero (n := 8) ?_
    rw [shifts_xor, lowered, UInt16.xor_eq_zero_iff, ← after, feed_eq, UInt16.zero_xor]
  have value : a.toNat = b.toNat <<< 8 := by
    rw [← UInt8.toNat_toUInt16, apart, raised]
  have zeros : a.toNat = 0 ∧ b.toNat = 0 := by omega
  exact ⟨UInt8.toNat_inj.mp zeros.1, UInt8.toNat_inj.mp zeros.2⟩

theorem feed_pair_injective {r : UInt16} {a b a' b' : UInt8}
    (same : feed (feed r a) b = feed (feed r a') b') : a = a' ∧ b = b' := by
  have difference : feed (feed (r ^^^ r) (a ^^^ a')) (b ^^^ b') =
      feed (feed r a) b ^^^ feed (feed r a') b' := by
    rw [feed_xor, feed_xor]
  rw [UInt16.xor_self, same, UInt16.xor_self] at difference
  obtain ⟨first, second⟩ := feed_pair_eq_zero difference
  exact ⟨UInt8.xor_eq_zero_iff.mp first, UInt8.xor_eq_zero_iff.mp second⟩

/-! ## Byte strings -/

/-- Registers that differ still differ after any bytes that follow. -/
theorem foldl_feed_injective (rest : Bytes) : Function.Injective fun r => rest.foldl feed r := by
  induction rest with
  | nil => exact fun r s same => same
  | cons b rest ih => exact fun r s same => feed_injective b (ih same)

/-- From one register, at most two bytes are told by the register they leave. -/
theorem eq_of_foldl_feed {r : UInt16} {x y : Bytes} (sized : x.length = y.length)
    (short : x.length ≤ 2) (same : x.foldl feed r = y.foldl feed r) : x = y := by
  match x, y, sized, short, same with
  | [], [], _, _, _ => rfl
  | [a], [a'], _, _, same =>
    -- One byte is a pair with a zero behind it.
    rw [(feed_pair_injective (congrArg (feed · 0) same)).1]
  | [a, b], [a', b'], _, _, same =>
    obtain ⟨first, second⟩ := feed_pair_injective same
    rw [first, second]

theorem register_append (before x after : Bytes) :
    register (before ++ x ++ after) = after.foldl feed (x.foldl feed (register before)) := by
  rw [register, List.foldl_append, List.foldl_append]
  rfl

theorem register_of_digest {xs ys : Bytes} (same : digest xs = digest ys) :
    register xs = register ys := by
  have words := congrArg Bytes.toBigEndian (Bytes.hex_injective same)
  rw [Bytes.toBigEndian_two, Bytes.toBigEndian_two] at words
  exact UInt16.toNat_inj.mp words

theorem digest_ne {x y : Bytes} (sized : x.length = y.length) (short : x.length ≤ 2)
    (differ : x ≠ y) (before after : Bytes) :
    digest (before ++ x ++ after) ≠ digest (before ++ y ++ after) := by
  intro same
  have registers := register_of_digest same
  rw [register_append, register_append] at registers
  exact differ (eq_of_foldl_feed sized short (foldl_feed_injective after registers))

end Crypto.Crc16

/-! ## Texts -/

/-- Two byte strings of one length agree everywhere but at two adjacent places. -/
def Bytes.AgreeBesidePair (xs ys : Bytes) : Prop :=
  xs.length = ys.length ∧ ∃ i, ∀ j, j ≠ i → j ≠ i + 1 → xs[j]? = ys[j]?

theorem Bytes.agreeBesidePair_iff {xs ys : Bytes} :
    AgreeBesidePair xs ys ↔
      ∃ before x y after, xs = before ++ x ++ after ∧ ys = before ++ y ++ after ∧
        x.length = y.length ∧ x.length ≤ 2 := by
  constructor
  · rintro ⟨sized, i, same⟩
    have before : xs.take i = ys.take i := by
      refine List.ext_getElem? fun j => ?_
      rw [List.getElem?_take, List.getElem?_take]
      split
      · exact same j (by omega) (by omega)
      · rfl
    have after : (xs.drop i).drop 2 = (ys.drop i).drop 2 := by
      refine List.ext_getElem? fun j => ?_
      rw [List.getElem?_drop, List.getElem?_drop, List.getElem?_drop, List.getElem?_drop]
      exact same _ (by omega) (by omega)
    refine ⟨xs.take i, (xs.drop i).take 2, (ys.drop i).take 2, (xs.drop i).drop 2, ?_, ?_, ?_, ?_⟩
    · rw [List.append_assoc, List.take_append_drop, List.take_append_drop]
    · rw [before, after, List.append_assoc, List.take_append_drop, List.take_append_drop]
    · rw [List.length_take, List.length_take, List.length_drop, List.length_drop, sized]
    · exact List.length_take_le 2 _
  · rintro ⟨before, x, y, after, rfl, rfl, sized, short⟩
    refine ⟨by simp [sized], before.length, fun j first second => ?_⟩
    simp only [List.getElem?_append, List.length_append, sized]
    by_cases inside : j < before.length
    · rw [if_pos inside, if_pos inside, if_pos (by omega)]
    · rw [if_neg (by omega), if_neg (by omega)]

namespace IntegrityFunction

theorem check_crc16 (text digest : String) :
    check text digest "crc16" = true ↔ Crypto.Crc16.digest (Bytes.ofText text) = digest := by
  simp [check, named?]

/-- Two byte strings that differ in two adjacent bytes have different checks, so of two texts of
one length that differ nowhere else no digest is accepted for both. -/
theorem crc16_detects_pair :
    (∀ before x y after : Bytes, x.length = 2 → y.length = 2 → x ≠ y →
      Crypto.Crc16.digest (before ++ x ++ after) ≠ Crypto.Crc16.digest (before ++ y ++ after)) ∧
    ∀ t u : String, t ≠ u → (Bytes.ofText t).AgreeBesidePair (Bytes.ofText u) →
      ∀ digest, ¬ (check t digest "crc16" = true ∧ check u digest "crc16" = true) := by
  refine ⟨fun before x y after hx hy differ => ?_, fun t u differ agree digest both => ?_⟩
  · exact Crypto.Crc16.digest_ne (hx.trans hy.symm) (Nat.le_of_eq hx) differ before after
  · obtain ⟨before, x, y, after, ht, hu, sized, short⟩ := Bytes.agreeBesidePair_iff.mp agree
    obtain ⟨first, second⟩ := both
    rw [check_crc16, ht] at first
    rw [check_crc16, hu] at second
    have different : x ≠ y := by
      rintro rfl
      exact differ (Bytes.ofText_injective (ht.trans hu.symm))
    exact Crypto.Crc16.digest_ne sized short different before after (first.trans second.symm)

theorem crc16_detects_pair_amount :
    let t := "pay 10 tokens"
    let u := "pay 97 tokens"
    let digest := Crypto.Crc16.digest (Bytes.ofText t)
    (Bytes.ofText t).AgreeBesidePair (Bytes.ofText u) ∧ check t digest "crc16" = true ∧
      check u digest "crc16" = false ∧ Crypto.Crc16.digest (Bytes.ofText u) ≠ digest := by
  intro t u digest
  have agree : (Bytes.ofText t).AgreeBesidePair (Bytes.ofText u) :=
    Bytes.agreeBesidePair_iff.mpr ⟨Bytes.ofText "pay ", Bytes.ofText "10", Bytes.ofText "97",
      Bytes.ofText " tokens", by decide +kernel, by decide +kernel, by decide +kernel,
      by decide +kernel⟩
  have accepted : check t digest "crc16" = true := (check_crc16 t digest).mpr rfl
  refine ⟨agree, accepted, ?_, ?_⟩
  · have refused := crc16_detects_pair.2 t u (by decide) agree digest
    exact Bool.eq_false_iff.mpr fun also => refused ⟨accepted, also⟩
  · exact crc16_detects_pair.1 (Bytes.ofText "pay ") (Bytes.ofText "97") (Bytes.ofText "10")
      (Bytes.ofText " tokens") (by decide +kernel) (by decide +kernel) (by decide +kernel)

end IntegrityFunction

end EventWorker
