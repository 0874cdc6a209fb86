import EventWorker.Sealing.Codec

/-!
# Reading what base64 writes

Results:
1. `Bytes.Base64.decode?_encode`: a byte string is read back from its written form.
2. `Bytes.Base64.decodeText?_encodeText`, `decodeBase64_encodeText`: so it is from a text, since
   the symbols are ASCII.
3. `Codec.decode_encode`: every built-in codec undoes what it does.
-/

namespace EventWorker

namespace Bytes

/-- ASCII characters are written as the bytes of their codes. -/
theorem ofText_ascii {bytes : Bytes} (ascii : ∀ b ∈ bytes, b.toNat < 128) :
    ofText (String.ofList (bytes.map fun b => Char.ofNat b.toNat)) = bytes := by
  have one (b : UInt8) (hb : b.toNat < 128) : String.utf8EncodeChar (Char.ofNat b.toNat) = [b] := by
    have valid : b.toNat.isValidChar := by
      left
      omega
    have code : (Char.ofNat b.toNat).val.toNat = b.toNat := by
      rw [Char.ofNat, dif_pos valid]
      rfl
    simp only [String.utf8EncodeChar, code]
    rw [if_pos (by omega), UInt8.ofNat_toNat]
  have all : (bytes.map fun b => Char.ofNat b.toNat).flatMap String.utf8EncodeChar = bytes := by
    induction bytes with
    | nil => rfl
    | cons b rest ih =>
      rw [List.map_cons, List.flatMap_cons, one b (ascii b List.mem_cons_self),
        ih fun c hc => ascii c (List.mem_cons_of_mem _ hc)]
      rfl
  rw [ofText, String.toByteArray_ofList, List.utf8Encode, all, List.data_toByteArray]

namespace Base64

theorem value?_symbol : ∀ n < 64, value? (symbol n) = some n := by
  decide

theorem symbol_ne_pad : ∀ n < 64, symbol n ≠ pad := by
  decide

/-- The symbols and the padding are ASCII. -/
theorem symbol_ascii : ∀ n < 64, (symbol n).toNat < 128 := by
  decide

/-- The bits of a byte that stand in two symbols are put together again. -/
theorem first_byte (a : UInt8) (low : Nat) (hlow : low < 16) :
    UInt8.ofNat (a.toNat / 4 * 4 + (a.toNat % 4 * 16 + low) / 16) = a := by
  have whole : a.toNat / 4 * 4 + (a.toNat % 4 * 16 + low) / 16 = a.toNat := by omega
  rw [whole, UInt8.ofNat_toNat]

theorem second_byte (b : UInt8) (high low : Nat) (hlow : low < 4) :
    UInt8.ofNat ((high * 16 + b.toNat / 16) % 16 * 16 + (b.toNat % 16 * 4 + low) / 4) = b := by
  have hb := b.toNat_lt
  have whole : (high * 16 + b.toNat / 16) % 16 * 16 + (b.toNat % 16 * 4 + low) / 4 = b.toNat := by
    omega
  rw [whole, UInt8.ofNat_toNat]

theorem third_byte (c : UInt8) (high : Nat) :
    UInt8.ofNat ((high * 4 + c.toNat / 64) % 4 * 64 + c.toNat % 64) = c := by
  have hc := c.toNat_lt
  have whole : (high * 4 + c.toNat / 64) % 4 * 64 + c.toNat % 64 = c.toNat := by omega
  rw [whole, UInt8.ofNat_toNat]

/-- The last group of a written form is padded or it is not, and reads back either way. -/
theorem decode?_encode (bytes : Bytes) : decode? (encode bytes) = some bytes := by
  induction bytes using encode.induct with
  | case1 => rfl
  | case2 a =>
    have ha := a.toNat_lt
    have bits : a.toNat % 4 * 16 % 16 = 0 := by omega
    have only := first_byte a 0 (by decide)
    rw [Nat.add_zero] at only
    simp only [encode, decode?, decodePadded?, if_true]
    rw [value?_symbol _ (by omega), value?_symbol _ (by omega)]
    simp only [Option.bind_eq_bind, Option.bind_some]
    rw [if_pos bits, only]
  | case3 a b =>
    have ha := a.toNat_lt
    have hb := b.toNat_lt
    have bits : b.toNat % 16 * 4 % 4 = 0 := by omega
    have last := second_byte b (a.toNat % 4) 0 (by decide)
    rw [Nat.add_zero] at last
    simp only [encode, decode?, decodePadded?, if_true]
    rw [if_neg (symbol_ne_pad _ (by omega)), value?_symbol _ (by omega), value?_symbol _ (by omega),
      value?_symbol _ (by omega)]
    simp only [Option.bind_eq_bind, Option.bind_some]
    rw [if_pos bits, first_byte a _ (by omega), last]
  | case4 a b c rest ih =>
    have ha := a.toNat_lt
    have hb := b.toNat_lt
    have hc := c.toNat_lt
    have first := first_byte a (b.toNat / 16) (by omega)
    have second := second_byte b (a.toNat % 4) (c.toNat / 64) (by omega)
    have third := third_byte c (b.toNat % 16)
    rw [encode]
    -- Whether this is the last group decides how it is read.
    cases hrest : encode rest with
    | nil =>
      rw [hrest] at ih
      cases ih
      rw [decode?, if_neg (symbol_ne_pad _ (by omega)), value?_symbol _ (by omega),
        value?_symbol _ (by omega), value?_symbol _ (by omega), value?_symbol _ (by omega)]
      simp only [Option.bind_eq_bind, Option.bind_some, first, second, third]
    | cons s others =>
      rw [hrest] at ih
      rw [decode?, value?_symbol _ (by omega), value?_symbol _ (by omega),
        value?_symbol _ (by omega), value?_symbol _ (by omega), ih]
      · simp only [Option.bind_eq_bind, Option.bind_some, first, second, third]
      · simp

theorem encode_ascii (bytes : Bytes) : ∀ b ∈ encode bytes, b.toNat < 128 := by
  induction bytes using encode.induct with
  | case1 => intro b hb; cases hb
  | case2 a =>
    have ha := a.toNat_lt
    simp only [encode, List.forall_mem_cons]
    exact ⟨symbol_ascii _ (by omega), symbol_ascii _ (by omega), by decide, by decide, nofun⟩
  | case3 a b =>
    have ha := a.toNat_lt
    have hb := b.toNat_lt
    simp only [encode, List.forall_mem_cons]
    exact ⟨symbol_ascii _ (by omega), symbol_ascii _ (by omega), symbol_ascii _ (by omega),
      by decide, nofun⟩
  | case4 a b c rest ih =>
    have ha := a.toNat_lt
    have hb := b.toNat_lt
    have hc := c.toNat_lt
    simp only [encode, List.forall_mem_cons]
    exact ⟨symbol_ascii _ (by omega), symbol_ascii _ (by omega), symbol_ascii _ (by omega),
      symbol_ascii _ (by omega), ih⟩

theorem ofText_encodeText (bytes : Bytes) : ofText (encodeText bytes) = encode bytes :=
  ofText_ascii (encode_ascii bytes)

theorem decodeText?_encodeText (bytes : Bytes) : decodeText? (encodeText bytes) = some bytes := by
  rw [decodeText?, ofText_encodeText, decode?_encode]

end Base64

end Bytes

theorem decodeBase64_encodeText (bytes : Bytes) :
    decodeBase64 (Bytes.Base64.encodeText bytes) = .ok bytes := by
  rw [decodeBase64, Bytes.Base64.decodeText?_encodeText]

namespace Codec

/-- A built-in codec encodes everything and undoes it. -/
theorem decode_encode {name : String} {codec : Codec} (named : named? name = some codec)
    (bytes : Bytes) :
    ∃ encoded, codec.encode bytes = .ok encoded ∧ codec.decode encoded = .ok bytes := by
  unfold named? at named
  split at named
  · cases named
    refine ⟨Bytes.Base64.encode bytes, rfl, ?_⟩
    simp only [base64]
    rw [Bytes.Base64.decode?_encode]
  · split at named
    · cases named
      exact ⟨bytes, rfl, rfl⟩
    · cases named

end Codec

end EventWorker
