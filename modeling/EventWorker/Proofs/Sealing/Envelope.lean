import EventWorker.Proofs.Bytes.Base64
import EventWorker.Proofs.Crypto.Streams
import EventWorker.Proofs.Event
import EventWorker.Proofs.Sealing.Padding
import EventWorker.Proofs.Steps
import EventWorker.Sealing.Toolkit

/-!
# Envelopes that are opened again

Each built-in cipher undoes what it does to a text, except that `plaintext` takes zero bytes at the
end for padding. An envelope goes through JSON unchanged, and with the key it was made with it
gives its text back.

Results:
1. `Cipher.decrypt_encrypt`: decrypting undoes encrypting but for the padding.
2. `Envelope.unwrap_wrap`: an envelope gives back a text that does not end in a zero byte.
3. `Envelope.ofValue?_fields`: an envelope is read from its JSON form.
4. `Envelope.unwrap_wrap_exact`: what every envelope gives back.
-/

namespace EventWorker

open Json (Value Fields FieldSpec)

namespace Cipher

/-- What decrypting gives for the encrypted text: `plaintext` takes zero bytes at the end for
padding. -/
def returned (c : Cipher) (text : Bytes) : Bytes :=
  if c.name = "plaintext" then Padding.strip text else text

/-- Decrypting undoes encrypting but for the padding. -/
theorem decrypt_encrypt {c : Cipher} (known : c ∈ builtin) {text : Bytes} {params : CipherParams}
    {nonce key sent : Bytes} (h : c.encrypt text params nonce key = .ok sent) :
    c.decrypt sent params nonce key = .ok (c.returned text) := by
  simp only [builtin, List.mem_cons, List.not_mem_nil, or_false] at known
  rcases known with rfl | rfl | rfl | rfl
  · exact h.symm
  · cases h
    exact congrArg Except.ok (Padding.strip_pad 16 text)
  · obtain ⟨_, checked, h⟩ := exists_of_bind_ok h
    cases h
    have opened :
        authenticated (Crypto.Gcm.decrypt? key nonce (Crypto.Gcm.encrypt key nonce text)) =
          .ok text := by
      rw [Crypto.Gcm.decrypt?_encrypt, authenticated]
    simp only [aes, checked]
    exact opened
  · obtain ⟨_, checked, h⟩ := exists_of_bind_ok h
    cases h
    have opened : authenticated
        (Crypto.XChaCha.decrypt? key nonce (Crypto.XChaCha.encrypt key nonce text)) = .ok text := by
      rw [Crypto.XChaCha.decrypt?_encrypt, authenticated]
    simp only [xchacha20, checked]
    exact opened

end Cipher

namespace Envelope

variable {cipher : Cipher} {text : String} {params : CipherParams} {key : Bytes} {encoding : String}
  {draw : Nat → Bytes} {envelope : Envelope}

/-- The parameters of an envelope are those that it was made with. -/
theorem params_of_wrap
    (h : wrap cipher Codec.named? draw text params key encoding = .ok envelope) :
    envelope.params = params := by
  obtain ⟨codec, -, h⟩ := exists_of_bind_ok h
  obtain ⟨sent, -, h⟩ := exists_of_bind_ok h
  obtain ⟨encoded, -, h⟩ := exists_of_bind_ok h
  split at h
  · cases h
    rfl
  · cases h

/-- Whatever is encrypted goes into an envelope in base64. -/
theorem wrap_base64 {sent : Bytes}
    (encrypted : cipher.encrypt (Bytes.ofText text) params (draw (cipher.nonceBits / 8)) key =
      .ok sent) :
    ∃ envelope, wrap cipher Codec.named? draw text params key "base64" = .ok envelope := by
  have isText : Bytes.text? (Bytes.Base64.encode sent) = some (Bytes.Base64.encodeText sent) := by
    rw [← Bytes.Base64.ofText_encodeText, Bytes.text?_ofText]
  have selected : selectCodec Codec.named? "base64" = .ok Codec.base64 := rfl
  have encoded : Codec.base64.encode sent = .ok (Bytes.Base64.encode sent) := rfl
  exact ⟨_, by simp only [wrap, selected, ok_bind, encrypted, encoded, isText]; rfl⟩

theorem wrap_error {f : SealError}
    (refused : cipher.encrypt (Bytes.ofText text) params (draw (cipher.nonceBits / 8)) key =
      .error f) : wrap cipher Codec.named? draw text params key "base64" = .error f := by
  have selected : selectCodec Codec.named? "base64" = .ok Codec.base64 := rfl
  simp only [wrap, selected, ok_bind, refused]
  rfl

/-- An envelope gives back what the cipher makes of its text, with the key it was made with. -/
theorem unwrap_wrap_returned {back : String} (known : cipher ∈ Cipher.builtin)
    (isBack : cipher.returned (Bytes.ofText text) = Bytes.ofText back)
    (h : wrap cipher Codec.named? draw text params key encoding = .ok envelope) :
    unwrap cipher Codec.named? envelope key = .ok back := by
  obtain ⟨codec, selected, h⟩ := exists_of_bind_ok h
  obtain ⟨sent, encrypted, h⟩ := exists_of_bind_ok h
  obtain ⟨encoded, coded, h⟩ := exists_of_bind_ok h
  have named : Codec.named? encoding = some codec := by
    unfold selectCodec at selected
    split at selected
    · next codec' named =>
      cases selected
      exact named
    · cases selected
  obtain ⟨encoded', coded', decoded⟩ := codec.decode_encode named sent
  rw [coded] at coded'
  cases coded'
  split at h
  · next ciphertext isText =>
    cases h
    have decrypted := Cipher.decrypt_encrypt known encrypted
    have sentText : Bytes.ofText ciphertext = encoded := Bytes.ofText_of_text? isText
    have backText := Bytes.text?_ofText back
    simp only [unwrap, selected, decodeBase64_encodeText, sentText, ok_bind, decoded, decrypted,
      isBack, backText]
    rfl
  · cases h

/-- An envelope gives its text back with the key it was made with. -/
theorem unwrap_wrap (known : cipher ∈ Cipher.builtin) (ends : (Bytes.ofText text).getLast? ≠ some 0)
    (h : wrap cipher Codec.named? draw text params key encoding = .ok envelope) :
    unwrap cipher Codec.named? envelope key = .ok text := by
  refine unwrap_wrap_returned known ?_ h
  rw [Cipher.returned, Padding.strip_of_ends ends, ite_self]

/-- An envelope is read from its JSON form if its key length fits a word. -/
theorem ofValue?_fields (fits : fitsSigned envelope.params.keyLength = true) :
    ofValue? (.obj envelope.fields) = some envelope := by
  have length : keyLength? (.int envelope.params.keyLength) = some envelope.params.keyLength :=
    if_pos fits
  simp [ofValue?, fields, Json.record?, Keyed.ofList, Keyed.find?_insert, FieldSpec.read?,
    FieldSpec.required, CipherParams.ofValue?, CipherParams.toValue, Value.object, Value.str?,
    length]

theorem faithful_fields (fits : fitsSigned envelope.params.keyLength = true) :
    (Value.obj envelope.fields).Faithful 2 := by
  obtain ⟨least, greatest⟩ := of_decide_eq_true fits
  have word : Json.Numeral.fitsWord envelope.params.keyLength :=
    ⟨least, Int.lt_trans greatest (by decide)⟩
  refine .object fun x hx => ?_
  simp only [List.mem_cons, List.not_mem_nil, or_false] at hx
  rcases hx with rfl | rfl | rfl | rfl
  · refine .object fun x hx => ?_
    simp only [List.mem_cons, List.not_mem_nil, or_false] at hx
    rcases hx with rfl | rfl
    · exact .str _ _
    · exact .int _ word
  · exact .str _ _
  · exact .str _ _
  · exact .str _ _

/-- An envelope of a built-in cipher always gives a text back, with the key it was made with. It is
the text that was encrypted, unless the cipher is `plaintext` and the text ends in a zero
character. -/
theorem unwrap_wrap_exact (known : cipher ∈ Cipher.builtin)
    (h : wrap cipher Codec.named? draw text params key encoding = .ok envelope) :
    unwrap cipher Codec.named? envelope key =
        .ok (if cipher.name = "plaintext" then Padding.stripText text else text) ∧
      (unwrap cipher Codec.named? envelope key = .ok text ↔
        (cipher.name = "plaintext" → text.toList.getLast? ≠ some '\x00')) := by
  have back : unwrap cipher Codec.named? envelope key =
      .ok (if cipher.name = "plaintext" then Padding.stripText text else text) := by
    refine unwrap_wrap_returned known ?_ h
    rw [Cipher.returned, Padding.strip_ofText]
    split <;> rfl
  refine ⟨back, ?_⟩
  rw [back, Except.ok.injEq]
  split
  · next padded => simp [padded, Padding.stripText_eq_iff]
  · next other => simp [other]

/-- A text of eight characters is padded with eight zero bytes, which are stripped again. -/
theorem unwrap_wrap_exact_padded :
    Cipher.plaintext ∈ Cipher.builtin ∧
    ∃ envelope, wrap .plaintext Codec.named? (List.replicate · 0) "greeting" ⟨"none", -1⟩ []
        "base64" = .ok envelope ∧
      envelope.ciphertext = "Z3JlZXRpbmcAAAAAAAAAAA==" ∧
      unwrap .plaintext Codec.named? envelope [] = .ok "greeting" := by
  have known : Cipher.plaintext ∈ Cipher.builtin := by simp [Cipher.builtin]
  have wrapped : wrap .plaintext Codec.named? (List.replicate · 0) "greeting" ⟨"none", -1⟩ []
      "base64" = .ok ⟨⟨"none", -1⟩, "", "base64", "Z3JlZXRpbmcAAAAAAAAAAA=="⟩ := rfl
  exact ⟨known, _, wrapped, rfl, (unwrap_wrap_exact known wrapped).2.mpr (by decide)⟩

/-- Not every text is given back: `plaintext` takes the zero character at the end of this one for
padding. -/
theorem unwrap_loses_zeros :
    ¬ ∀ cipher ∈ Cipher.builtin, ∀ (draw : Nat → Bytes) (text : String) (params : CipherParams)
      (key : Bytes) (encoding : String) (envelope : Envelope), text ≠ "" →
      wrap cipher Codec.named? draw text params key encoding = .ok envelope →
      unwrap cipher Codec.named? envelope key = .ok text := by
  intro all
  have wrapped :
      wrap .plaintext Codec.named? (List.replicate · 0) "a\x00" ⟨"none", -1⟩ [] "base64" =
        .ok ⟨⟨"none", -1⟩, "", "base64", "YQAAAAAAAAAAAAAAAAAAAA=="⟩ := rfl
  have stripped : unwrap .plaintext Codec.named?
      ⟨⟨"none", -1⟩, "", "base64", "YQAAAAAAAAAAAAAAAAAAAA=="⟩ [] = .ok "a" := rfl
  have kept := all .plaintext (by simp [Cipher.builtin]) _ "a\x00" _ _ _ _ (by decide) wrapped
  rw [stripped] at kept
  exact absurd (Except.ok.inj kept) (by decide)

end Envelope

end EventWorker
