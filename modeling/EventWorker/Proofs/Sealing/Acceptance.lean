import EventWorker.Processor.Handshake
import EventWorker.Proofs.Sealing.Negotiation
import EventWorker.Proofs.Sealing.Opening
import EventWorker.Proofs.Text.Digits
import EventWorker.Proofs.Text.Spelling
import Mathlib.Data.List.Basic

/-!
# Accepted suites and what they seal

A suite is accepted by its normal text, which leaves out the blanks around its name and mode. A
cipher is looked up, and checks its mode, with the blanks.

Results:
1. `Suite.Plainly.of_normalized`: what the normal text of a plain suite says about another one.
2. `Event.sealUnder_exact`: an accepted suite that is written without blanks seals every event.
3. `Event.sealUnder_inexact`: an accepted suite with a blank that matters seals none.
-/

namespace EventWorker

/-! ## Normal texts -/

/-- Two texts with a mark of which the rest has none are the same before and after it. -/
theorem append_cons_inj_of_last {α : Type} {xs ys zs ws : List α} {mark : α} (hz : mark ∉ zs)
    (hw : mark ∉ ws) (same : xs ++ mark :: zs = ys ++ mark :: ws) : xs = ys ∧ zs = ws := by
  rcases List.append_eq_append_iff.mp same with ⟨between, rfl, rest⟩ | ⟨between, rfl, rest⟩
  · cases between with
    | nil => exact ⟨(List.append_nil xs).symm, (List.cons.inj rest).2⟩
    | cons x between =>
      obtain ⟨-, rfl⟩ := List.cons.inj rest
      exact absurd (List.mem_append_right _ List.mem_cons_self) hz
  · cases between with
    | nil => exact ⟨List.append_nil ys, (List.cons.inj rest).2.symm⟩
    | cons x between =>
      obtain ⟨-, rfl⟩ := List.cons.inj rest
      exact absurd (List.mem_append_right _ List.mem_cons_self) hw

/-- What stands between the parts of a normal text. -/
def bar : Char := '|'

theorem bar_notMem_signedDecimal (n : Int) : bar ∉ Text.signedDecimal n :=
  Text.notMem_signedDecimal (by decide) (by decide) n

namespace Suite

theorem toList_normalized (s : Suite) :
    s.normalized.toList =
      ((Text.lowercase (Text.trimmed s.name)).toList ++
        bar :: (Text.lowercase (Text.trimmed s.mode)).toList) ++
      bar :: Text.signedDecimal s.keyLength := by
  have mark : "|".toList = [bar] := rfl
  simp only [normalized, String.toList_append, String.toList_ofList, mark, List.append_assoc,
    List.singleton_append]

/-- The name and the mode of a suite are written plainly: in lower case, without blanks and without
what separates them in a normal text. -/
structure Plainly (t : Suite) : Prop where
  name : Text.lowercase (Text.trimmed t.name) = t.name
  mode : Text.lowercase (Text.trimmed t.mode) = t.mode
  solid : ∀ c ∈ t.name.toList ++ t.mode.toList, Text.isBlank c = false ∧ c ≠ bar

/-- Equal normal texts mean equal suites, up to blanks and case. -/
theorem Plainly.of_normalized {s t : Suite} (plainly : t.Plainly)
    (same : s.normalized = t.normalized) :
    Text.lowercase (Text.trimmed s.name) = t.name ∧
      Text.lowercase (Text.trimmed s.mode) = t.mode ∧ s.keyLength = t.keyLength := by
  have texts := congrArg String.toList same
  rw [toList_normalized, toList_normalized, plainly.name, plainly.mode] at texts
  obtain ⟨parts, length⟩ := append_cons_inj_of_last (bar_notMem_signedDecimal _)
    (bar_notMem_signedDecimal _) texts
  have no_bar (cs : List Char) (h : ∀ c ∈ cs, c ∈ t.name.toList ++ t.mode.toList) : bar ∉ cs :=
    fun member => (plainly.solid bar (h bar member)).2 rfl
  obtain ⟨name, -, mode⟩ := (List.append_cons_inj_of_notMem
    (no_bar t.name.toList fun c hc => List.mem_append_left _ hc)
    (no_bar t.mode.toList fun c hc => List.mem_append_right _ hc)).mp parts.symm
  exact ⟨String.toList_inj.mp name.symm, String.toList_inj.mp mode.symm,
    Text.signedDecimal_injective length⟩

/-- The name is written without blanks around it, and so is the mode if there is a key. -/
def Exact (s : Suite) : Prop :=
  Text.trimmed s.name = s.name ∧ (s.keyLength = -1 ∨ Text.trimmed s.mode = s.mode)

instance (s : Suite) : Decidable s.Exact :=
  inferInstanceAs (Decidable (_ ∧ _))

end Suite

/-! ## The built-in ciphers -/

namespace Cipher

variable {c : Cipher} {t : Suite}

theorem Offers.plainly (offers : c.Offers t) :
    t.Plainly ∧ t.name = c.name ∧ Text.lowercase c.name = c.name := by
  cases offers <;>
    exact ⟨⟨by decide, by decide, List.forall_iff_forall_mem.mp (by decide)⟩, rfl, by decide⟩

/-- Only the cipher that leaves events as they are is called none. -/
theorem Offers.keyless_of_none (offers : c.Offers t) (named : c.name = Text.lowercase noneName) :
    t.keyLength = -1 := by
  cases offers <;> first | rfl | exact absurd named (by decide)

/-- A cipher that takes the mode and the key of one of its suites encrypts every text. -/
theorem Offers.encrypts (offers : c.Offers t) (params : CipherParams) {nonce key : Bytes}
    (mode : t.keyLength = -1 ∨ Text.lowercase params.mode = t.mode)
    (length : params.keyLength = t.keyLength) (nonce_length : nonce.length = c.nonceBits / 8)
    (key_length : (key.length : Int) = t.keyLength.tdiv 8) (text : Bytes) :
    ∃ sent, c.encrypt text params nonce key = .ok sent := by
  have accepted {name : String} (plain : Text.lowercase name = name)
      (same : Text.lowercase params.mode = name) : checkMode params name = .ok () := by
    rw [checkMode, Text.sameIgnoringCase, plain, decide_eq_true same]
    rfl
  cases offers with
  | none => exact ⟨_, rfl⟩
  | plaintext => exact ⟨_, rfl⟩
  | aes128 =>
    have twelve : nonce.length = 12 := nonce_length
    have sixteen : key.length = 16 := Int.ofNat_inj.mp key_length
    have gcm := accepted (by decide) (mode.resolve_left (by decide))
    exact ⟨_, by simp only [aes, checkAes, gcm, checkNonce, checkKey, twelve, length, sixteen]; rfl⟩
  | aes256 =>
    have twelve : nonce.length = 12 := nonce_length
    have thirtyTwo : key.length = 32 := Int.ofNat_inj.mp key_length
    have gcm := accepted (by decide) (mode.resolve_left (by decide))
    exact ⟨_, by
      simp only [aes, checkAes, gcm, checkNonce, checkKey, twelve, length, thirtyTwo]; rfl⟩
  | xchacha20 =>
    have twentyFour : nonce.length = 24 := nonce_length
    have thirtyTwo : key.length = 32 := Int.ofNat_inj.mp key_length
    have poly1305 := accepted (by decide) (mode.resolve_left (by decide))
    exact ⟨_, by
      simp only [Cipher.xchacha20, checkXChaCha, poly1305, checkNonce, checkKey, twentyFour,
        thirtyTwo]
      rfl⟩

/-- A cipher with a key refuses every text under another mode. -/
theorem Offers.refuses (offers : c.Offers t) (params : CipherParams) (keyed : t.keyLength ≠ -1)
    (mode : Text.lowercase params.mode ≠ t.mode) (text nonce key : Bytes) :
    c.encrypt text params nonce key = .error (.unsupportedMode params.mode) := by
  have refused {name : String} (plain : Text.lowercase name = name)
      (other : Text.lowercase params.mode ≠ name) :
      checkMode params name = .error (.unsupportedMode params.mode) := by
    rw [checkMode, Text.sameIgnoringCase, plain, decide_eq_false other]
    rfl
  cases offers with
  | none => exact absurd rfl keyed
  | plaintext => exact absurd rfl keyed
  | aes128 =>
    simp only [aes, checkAes, refused (by decide : Text.lowercase "gcm" = "gcm") mode]
    rfl
  | aes256 =>
    simp only [aes, checkAes, refused (by decide : Text.lowercase "gcm" = "gcm") mode]
    rfl
  | xchacha20 =>
    simp only [Cipher.xchacha20, checkXChaCha,
      refused (by decide : Text.lowercase "poly1305" = "poly1305") mode]
    rfl

end Cipher

namespace Cipher

variable {c : Cipher}

theorem lowercase_name (builtin : c ∈ Cipher.builtin) : Text.lowercase c.name = c.name := by
  simp only [Cipher.builtin, List.mem_cons, List.not_mem_nil, or_false] at builtin
  rcases builtin with rfl | rfl | rfl | rfl <;> decide

/-- Whatever names a cipher, up to case, has no blanks around it. -/
theorem trimmed_of_name (builtin : c ∈ Cipher.builtin) {name : String}
    (same : Text.lowercase name = c.name) : Text.trimmed name = name := by
  refine Text.trimmed_of_lowercase same ?_
  simp only [Cipher.builtin, List.mem_cons, List.not_mem_nil, or_false] at builtin
  rcases builtin with rfl | rfl | rfl | rfl <;> exact List.forall_iff_forall_mem.mp (by decide)

/-- No two built-in ciphers have one name. -/
theorem eq_of_name {c c' : Cipher} (h : c ∈ Cipher.builtin) (h' : c' ∈ Cipher.builtin)
    (same : c.name = c'.name) : c = c' := by
  simp only [Cipher.builtin, List.mem_cons, List.not_mem_nil, or_false] at h h'
  rcases h with rfl | rfl | rfl | rfl <;> rcases h' with rfl | rfl | rfl | rfl <;>
    first | rfl | exact absurd same (by decide)

end Cipher

/-- The cipher of a name is found, in whatever case the name is written. -/
theorem Toolkit.cipher_known {ciphers : List Cipher} (known : ∀ c ∈ ciphers, c ∈ Cipher.builtin)
    {c : Cipher} (member : c ∈ ciphers) {name : String} (named : Text.lowercase name = c.name) :
    (ofCiphers ciphers).cipher name = .ok c := by
  have filed : (Text.lowercase name, c) ∈ ciphers.map fun c => (Text.lowercase c.name, c) := by
    rw [named, ← Cipher.lowercase_name (known c member)]
    exact List.mem_map_of_mem member
  obtain ⟨c', found⟩ := Keyed.exists_find?_ofList filed
  have served : (ofCiphers ciphers).cipher name = .ok c' := by
    unfold cipher ofCiphers
    rw [found]
  obtain ⟨member', same⟩ := mem_of_cipher served
  rw [Cipher.lowercase_name (known c' member'), named] at same
  rw [served, Cipher.eq_of_name (known c' member') (known c member) same]

/-- Two peers with suites of one normal text find the same cipher under the name of the suite. -/
theorem Toolkit.cipher_common {own peer : List Cipher} (known : ∀ c ∈ own, c ∈ Cipher.builtin)
    (known' : ∀ c ∈ peer, c ∈ Cipher.builtin) {s t : Suite} (serve : Serve peer s)
    (serve' : Serve own t) (same : t.normalized = s.normalized) :
    (ofCiphers peer).cipher s.name = (ofCiphers own).cipher s.name := by
  obtain ⟨c, member, listed⟩ := serve
  obtain ⟨c', member', listed'⟩ := serve'
  obtain ⟨plainly, named, -⟩ := (Cipher.offers_of_listed (known' c member) listed).plainly
  obtain ⟨plainly', named', -⟩ := (Cipher.offers_of_listed (known c' member') listed').plainly
  have names : s.name = t.name :=
    plainly.name.symm.trans (plainly'.of_normalized same.symm).1
  have lower : Text.lowercase s.name = c.name := by
    rw [named]
    exact Cipher.lowercase_name (known' c member)
  obtain rfl := Cipher.eq_of_name (known' c member) (known c' member')
    (named.symm.trans (names.trans named'))
  rw [cipher_known known' member lower, cipher_known known member' lower]

/-- A name with blanks around it names no cipher. -/
theorem Toolkit.cipher_unknown {ciphers : List Cipher} (known : ∀ c ∈ ciphers, c ∈ Cipher.builtin)
    {name : String} (blank : Text.trimmed name ≠ name) :
    (ofCiphers ciphers).cipher name = .error (.unknownCipher name) := by
  cases found : (ofCiphers ciphers).cipher name with
  | error f =>
    unfold Toolkit.cipher at found
    split at found
    · cases found
    · rw [← found]
  | ok c =>
    obtain ⟨member, same⟩ := Toolkit.mem_of_cipher found
    rw [Cipher.lowercase_name (known c member)] at same
    exact absurd (Cipher.trimmed_of_name (known c member) same.symm) blank

open Processor in
/-- The text of a key that fits a suite has a key in it. -/
theorem decodeBase64_of_keyFits {s : Suite} {secret : String} (fits : keyFits s secret = true) :
    ∃ key, decodeBase64 secret = .ok key ∧ (key.length : Int) = s.keyLength.tdiv 8 := by
  rw [keyFits] at fits
  rw [decodeBase64]
  cases decoded : Bytes.Base64.decodeText? secret with
  | none => rw [decoded] at fits; cases fits
  | some key => rw [decoded] at fits; exact ⟨key, rfl, of_decide_eq_true fits⟩

namespace Event

open Processor

variable {ciphers : List Cipher} {s t : Suite} {secret : String} {draw : Nat → Bytes}

/-- With cipher, digest and key at hand, sealing is a matter of the envelope. -/
theorem sealUnder_eq {e : Event} {k : KeyState} {toolkit : Toolkit} {cipher : Cipher}
    {digest : IntegrityFunction} {key : Bytes} (encrypted : ¬ k.isPlaintext = true)
    (hcipher : toolkit.cipher k.cipher = .ok cipher)
    (hdigest : toolkit.integrity k.integrity = .ok digest) (hkey : decodeBase64 k.key = .ok key) :
    e.sealUnder k toolkit draw =
      (Envelope.wrap cipher toolkit.codecs draw e.withoutSession.render k.params key k.encoding).map
        fun envelope =>
          { header := { Header.transport "" k.cipher k.integrity
                          (digest (Bytes.ofText e.withoutSession.render)) with sealing := some 1 }
            payload := envelope.fields } := by
  unfold sealUnder
  rw [if_neg encrypted]
  simp only [hcipher, hdigest, hkey, ok_bind]
  cases Envelope.wrap cipher toolkit.codecs draw e.withoutSession.render k.params key k.encoding <;>
    rfl

/-- An accepted suite that is written without blanks seals every event. -/
theorem sealUnder_exact (known : ∀ c ∈ ciphers, c ∈ Cipher.builtin) (serve : Serve ciphers t)
    (same : s.normalized = t.normalized) (fits : keyFits s secret = true) (exactly : s.Exact)
    (drawn : ∀ n, (draw n).length = n) (e : Event) :
    ∃ y, e.sealUnder (chosenState s secret) (.ofCiphers ciphers) draw = .ok y := by
  obtain ⟨c, member, listed⟩ := serve
  have offers := Cipher.offers_of_listed (known c member) listed
  obtain ⟨plainly, named, -⟩ := offers.plainly
  obtain ⟨name, mode, length⟩ := plainly.of_normalized same
  obtain ⟨exact_name, exact_mode⟩ := exactly
  rw [exact_name, named] at name
  obtain ⟨key, hkey, key_length⟩ := decodeBase64_of_keyFits fits
  rw [length] at key_length exact_mode
  have mode : t.keyLength = -1 ∨ Text.lowercase s.mode = t.mode := by
    rcases exact_mode with keyless | trimmed
    · exact .inl keyless
    · exact .inr (by rw [← mode, trimmed])
  have hcipher := Toolkit.cipher_known known member name
  obtain ⟨sent, encrypted⟩ : ∃ sent, c.encrypt (Bytes.ofText e.withoutSession.render)
      (chosenState s secret).params (draw (c.nonceBits / 8)) key = .ok sent :=
    offers.encrypts (chosenState s secret).params mode length (drawn _) key_length _
  obtain ⟨envelope, wrapped⟩ := Envelope.wrap_base64 encrypted
  by_cases unencrypted : (chosenState s secret).isPlaintext = true
  · exact ⟨e.marked, by rw [sealUnder, if_pos unencrypted]; rfl⟩
  · rw [sealUnder_eq unencrypted hcipher rfl hkey]
    exact ⟨_, congrArg _ wrapped⟩

/-- An accepted suite with a blank that matters seals no event. -/
theorem sealUnder_inexact (known : ∀ c ∈ ciphers, c ∈ Cipher.builtin) (serve : Serve ciphers t)
    (same : s.normalized = t.normalized) (fits : keyFits s secret = true) (inexact : ¬ s.Exact)
    (draw : Nat → Bytes) (e : Event) :
    ∃ f, e.sealUnder (chosenState s secret) (.ofCiphers ciphers) draw = .error f ∧
      (f = .unknownCipher s.name ∨ f = .unsupportedMode s.mode) := by
  obtain ⟨c, member, listed⟩ := serve
  have offers := Cipher.offers_of_listed (known c member) listed
  obtain ⟨plainly, named, lower⟩ := offers.plainly
  obtain ⟨name, mode, length⟩ := plainly.of_normalized same
  by_cases exact_name : Text.trimmed s.name = s.name
  · -- The cipher is found, and its mode has a blank that it does not expect.
    rw [exact_name, named] at name
    have keyed : t.keyLength ≠ -1 :=
      fun keyless => inexact ⟨exact_name, .inl (length.trans keyless)⟩
    have other : Text.lowercase s.mode ≠ t.mode := fun same => inexact ⟨exact_name,
      .inr (Text.trimmed_of_lowercase same fun c hc =>
        (plainly.solid c (List.mem_append_right _ hc)).1)⟩
    have encrypted : ¬ (chosenState s secret).isPlaintext = true := fun unencrypted =>
      keyed (offers.keyless_of_none (name.symm.trans (of_decide_eq_true unencrypted)))
    obtain ⟨key, hkey, -⟩ := decodeBase64_of_keyFits fits
    have refused : c.encrypt (Bytes.ofText e.withoutSession.render) (chosenState s secret).params
        (draw (c.nonceBits / 8)) key = .error (.unsupportedMode s.mode) :=
      offers.refuses (chosenState s secret).params keyed other _ _ _
    rw [sealUnder_eq encrypted (Toolkit.cipher_known known member name) rfl hkey]
    exact ⟨_, congrArg _ (Envelope.wrap_error refused), .inr rfl⟩
  · have encrypted : ¬ (chosenState s secret).isPlaintext = true := fun unencrypted =>
      exact_name (Cipher.trimmed_of_name (c := .none) List.mem_cons_self
        ((of_decide_eq_true unencrypted).trans (by decide)))
    have unknown : (Toolkit.ofCiphers ciphers).cipher (chosenState s secret).cipher =
        .error (.unknownCipher s.name) := Toolkit.cipher_unknown known exact_name
    rw [sealUnder, if_neg encrypted, unknown]
    exact ⟨_, rfl, .inl rfl⟩

end Event

end EventWorker
