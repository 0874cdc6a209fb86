import EventWorker.Proofs.Sealing.Envelope
import EventWorker.Sealing.Transport

/-!
# Sealed events are opened

What the peer makes of a sealed event with the key it was sealed with is what it would have made
of the event itself, sent without its session.

Results:
1. `Event.sealUnder_encrypted`: what a sealed event consists of.
2. `Event.openWith_sealed`: a peer with the same cipher and key opens it.
3. `Event.sealed_opens`: whatever can be sealed can be opened.
-/

namespace EventWorker

open Json (Value)

theorem Toolkit.mem_of_cipher {ciphers : List Cipher} {name : String} {c : Cipher}
    (h : (ofCiphers ciphers).cipher name = .ok c) :
    c ∈ ciphers ∧ Text.lowercase c.name = Text.lowercase name := by
  unfold cipher at h
  split at h
  · next c' found =>
    cases h
    have listed := Keyed.mem_ofList (Keyed.mem_of_find? found)
    obtain ⟨c', member, entry⟩ := List.mem_map.mp listed
    obtain ⟨same, rfl⟩ := Prod.mk.inj entry
    exact ⟨member, same⟩
  · cases h

namespace Event

/-- The text of an event ends in a brace. -/
theorem render_ends (e : Event) : (Bytes.ofText e.render).getLast? ≠ some 0 := by
  have braced (cs : List Char) :
      (Bytes.ofText (String.ofList (cs ++ ['}']))).getLast? = some 125 := by
    have brace : String.utf8EncodeChar '}' = [125] := rfl
    rw [Bytes.ofText, String.toByteArray_ofList, List.utf8Encode, List.data_toByteArray,
      List.flatMap_append, List.flatMap_singleton, brace, List.getLast?_concat]
  have ends : (Bytes.ofText e.render).getLast? = some 125 := braced ('{' :: _)
  rw [ends]
  decide

variable {e s : Event} {k : KeyState} {draw : Nat → Bytes}

/-- An event that is sealed carries the envelope and the digest of its text. -/
theorem sealUnder_encrypted {t : Toolkit} (sealed : e.sealUnder k t draw = .ok s)
    (encrypted : k.isPlaintext = false) :
    ∃ cipher digest key envelope, t.cipher k.cipher = .ok cipher ∧
      t.integrity k.integrity = .ok digest ∧ decodeBase64 k.key = .ok key ∧
      Envelope.wrap cipher t.codecs draw e.withoutSession.render k.params key k.encoding =
        .ok envelope ∧
      s = { header := { Header.transport "" k.cipher k.integrity
                          (digest (Bytes.ofText e.withoutSession.render)) with sealing := some 1 }
            payload := envelope.fields } := by
  unfold sealUnder at sealed
  rw [encrypted, if_neg Bool.false_ne_true] at sealed
  obtain ⟨cipher, hcipher, sealed⟩ := exists_of_bind_ok sealed
  obtain ⟨digest, hdigest, sealed⟩ := exists_of_bind_ok sealed
  obtain ⟨key, hkey, sealed⟩ := exists_of_bind_ok sealed
  obtain ⟨envelope, hwrap, sealed⟩ := exists_of_bind_ok sealed
  cases sealed
  exact ⟨cipher, digest, key, envelope, hcipher, hdigest, hkey, hwrap, rfl⟩

theorem sealUnder_plaintext {t : Toolkit} (sealed : e.sealUnder k t draw = .ok s)
    (unencrypted : k.isPlaintext = true) : s = e.marked := by
  unfold sealUnder at sealed
  rw [unencrypted, if_pos rfl] at sealed
  cases sealed
  rfl

/-- A sealed event is opened when every part of it is there and its digest is right. -/
theorem openWith_ok {wire opened : Event} {t : Toolkit} {secret text : String} {cipher : Cipher}
    {envelope : Envelope} {key : Bytes} {digest : IntegrityFunction}
    (mark : wire.header.sealing = some 1)
    (hcipher : t.cipher (wire.header.cipher.getD "") = .ok cipher)
    (henvelope : Envelope.ofValue? (.obj wire.payload) = some envelope)
    (hkey : decodeBase64 secret = .ok key)
    (unwrapped : envelope.unwrap cipher t.codecs key = .ok text)
    (hdigest : t.integrity (wire.header.integrity.getD "") = .ok digest)
    (same : digest (Bytes.ofText text) = wire.header.digest.getD "")
    (parsed : parse text = .ok opened) : wire.openWith secret t = .ok opened := by
  unfold openWith
  rw [if_neg (not_not_intro mark)]
  simp only [hcipher, henvelope, hkey, unwrapped, hdigest, ok_bind]
  rw [if_neg (not_not_intro same), parsed]
  rfl

/-- An event with a mark is not opened unless its envelope is unwrapped. -/
theorem unwrapped_of_openWith {wire opened : Event} {t : Toolkit} {secret : String}
    (mark : wire.header.sealing = some 1) (h : wire.openWith secret t = .ok opened) :
    ∃ cipher envelope key text, t.cipher (wire.header.cipher.getD "") = .ok cipher ∧
      Envelope.ofValue? (.obj wire.payload) = some envelope ∧ decodeBase64 secret = .ok key ∧
      envelope.unwrap cipher t.codecs key = .ok text := by
  unfold openWith at h
  rw [if_neg (not_not_intro mark)] at h
  obtain ⟨cipher, hcipher, h⟩ := exists_of_bind_ok h
  split at h
  · next envelope henvelope =>
    obtain ⟨key, hkey, h⟩ := exists_of_bind_ok h
    obtain ⟨text, unwrapped, -⟩ := exists_of_bind_ok h
    exact ⟨cipher, envelope, key, text, hcipher, henvelope, hkey, unwrapped⟩
  · cases h

/-- A sealed event is received from its text. -/
theorem parse_sealed {own : List Cipher} (fits : fitsSigned k.keyLength = true)
    (encrypted : k.isPlaintext = false) (sealed : e.sealUnder k (.ofCiphers own) draw = .ok s) :
    parse s.render = .ok s.received := by
  obtain ⟨cipher, digest, key, envelope, -, -, -, hwrap, rfl⟩ :=
    sealUnder_encrypted sealed encrypted
  have length : fitsSigned envelope.params.keyLength = true := by
    rw [Envelope.params_of_wrap hwrap]
    exact fits
  have deep (v : Value) (h : v.Faithful 3) : v.Faithful Json.Reading.depthLimit :=
    h.mono (by decide)
  refine parse_render (Json.parse?_render (deep _ ?_))
  refine faithful_toValue (Envelope.faithful_fields length) fun n mark => ?_
  cases mark
  decide

/-- A peer that serves the cipher opens a sealed event with the key it was sealed with. -/
theorem openWith_sealed {own peer : List Cipher} (known : ∀ c ∈ own, c ∈ Cipher.builtin)
    (served : (Toolkit.ofCiphers peer).cipher k.cipher = (Toolkit.ofCiphers own).cipher k.cipher)
    (fits : fitsSigned k.keyLength = true) (encrypted : k.isPlaintext = false)
    (readable : Json.parse? e.withoutSession.render = some e.withoutSession.toValue)
    (sealed : e.sealUnder k (.ofCiphers own) draw = .ok s) :
    parse s.render = .ok s.received ∧
      s.received.openWith k.key (.ofCiphers peer) = .ok e.withoutSession.received := by
  refine ⟨parse_sealed fits encrypted sealed, ?_⟩
  obtain ⟨cipher, digest, key, envelope, hcipher, hdigest, hkey, hwrap, rfl⟩ :=
    sealUnder_encrypted sealed encrypted
  have length : fitsSigned envelope.params.keyLength = true := by
    rw [Envelope.params_of_wrap hwrap]
    exact fits
  have member := (Toolkit.mem_of_cipher hcipher).1
  have unwrapped := Envelope.unwrap_wrap (known _ member) e.withoutSession.render_ends hwrap
  rw [← served] at hcipher
  exact openWith_ok rfl hcipher (Envelope.ofValue?_fields length) hkey unwrapped hdigest rfl
    (parse_render readable)

/-- Whatever can be sealed can be opened. -/
theorem sealed_opens {ciphers : List Cipher} (known : ∀ c ∈ ciphers, c ∈ Cipher.builtin)
    (fits : fitsSigned k.keyLength = true)
    (readable : Json.parse? e.withoutSession.render = some e.withoutSession.toValue)
    (sealed : e.sealUnder k (.ofCiphers ciphers) draw = .ok s) :
    s.header.session = "" ∧
      (k.isPlaintext = true → s.header.sealing = some 0 ∧ s.header.isTransport = false ∧
        s.header.task = e.header.task ∧ s.label = e.label ∧ s.payload = e.payload) ∧
      (k.isPlaintext = false → ∃ wire opened, parse s.render = .ok wire ∧
        parse e.withoutSession.render = .ok opened ∧
        wire.openWith k.key (.ofCiphers ciphers) = .ok opened ∧ opened.payload = e.payload ∧
        (e.header.isTransport = false →
          opened.header.task = e.header.task ∧ opened.label = e.label)) := by
  cases unencrypted : k.isPlaintext with
  | true =>
    rw [sealUnder_plaintext sealed unencrypted]
    exact ⟨rfl, fun _ => ⟨rfl, rfl, rfl, rfl, rfl⟩, nofun⟩
  | false =>
    obtain ⟨parsed, opened⟩ := openWith_sealed known rfl fits unencrypted readable sealed
    refine ⟨?_, nofun, fun _ => ⟨s.received, e.withoutSession.received, parsed,
      parse_render readable, opened, rfl, fun plain => ?_⟩⟩
    · obtain ⟨_, _, _, _, -, -, -, -, rfl⟩ := sealUnder_encrypted sealed unencrypted
      rfl
    · have no_cipher : e.header.cipher = none :=
        Option.isNone_iff_eq_none.mp (Option.isSome_eq_false_iff.mp plain)
      simp [received, Header.received, withoutSession, label, no_cipher, Header.plain]

/-- A notification for one session. -/
def greeting : Event where
  header := Header.plain "aa01" "main" "greeting"
  payload := [("text", .str "hello")]

/-- Under these key states texts are padded and written in base64. -/
def padding : KeyState where
  cipher := "PlainText"
  mode := "none"
  keyLength := -1
  key := ""
  encoding := "base64"
  integrity := "crc16"

theorem sealed_opens_greeting :
    ∃ s wire opened, greeting.sealUnder padding (.ofCiphers Cipher.builtin) (List.replicate · 0) =
        .ok s ∧
      s.header.session = "" ∧ parse s.render = .ok wire ∧
      parse greeting.withoutSession.render = .ok opened ∧
      wire.openWith padding.key (.ofCiphers Cipher.builtin) = .ok opened ∧
      opened.payload = greeting.payload ∧ opened.header.task = "main" ∧ opened.label = "greeting" := by
  have readable : Json.parse? greeting.withoutSession.render =
      some greeting.withoutSession.toValue := by
    decide +kernel
  cases sealed : greeting.sealUnder padding (.ofCiphers Cipher.builtin) (List.replicate · 0) with
  | error f =>
    have seals : (greeting.sealUnder padding (.ofCiphers Cipher.builtin)
        (List.replicate · 0)).isOk = true := by
      decide +kernel
    rw [sealed] at seals
    cases seals
  | ok s =>
    obtain ⟨session, -, encrypted⟩ :=
      sealed_opens (fun c member => member) (by decide) readable sealed
    obtain ⟨wire, opened, parsed, original, opens, payload, plain⟩ := encrypted (by decide +kernel)
    obtain ⟨task, label⟩ := plain rfl
    exact ⟨s, wire, opened, rfl, session, parsed, original, opens, payload, task, label⟩

end Event

end EventWorker
