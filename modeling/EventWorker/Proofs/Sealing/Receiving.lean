import EventWorker.Dispatch.Report
import EventWorker.Proofs.Processor.Delivery
import EventWorker.Proofs.Sealing.Opening
import EventWorker.Sealing.Client

/-!
# What a client receives

A worker writes events that it has sealed for a session, and reports of failures as they are. A
client reads both, if it has the key that the worker sealed with.

Results:
1. `Client.receive_plain`: a plain event is received as it is.
2. `Client.receive_sealed`: a client with the key and the cipher receives what was sealed.
3. `Client.not_receive`: a client whose key the cipher refuses does not.
-/

namespace EventWorker

open Json (Value)

namespace Event

/-- The header of the event is plain, and its payload is read back from its text. -/
structure Plain (x : Event) : Prop where
  header : x.header = Header.plain x.header.session x.header.task x.header.label
  payload : (Value.obj x.payload).Faithful 3

theorem Plain.faithful {x : Event} (plain : x.Plain) {y : Event} (payload : y.payload = x.payload)
    (mark : ∀ n, y.header.sealing = some n → n < UInt64.size) :
    Json.parse? y.render = some y.toValue := by
  have inside := faithful_toValue (payload ▸ plain.payload : (Value.obj y.payload).Faithful 3) mark
  exact Json.parse?_render (inside.mono (by decide))

theorem Plain.sealing {x : Event} (plain : x.Plain) : x.header.sealing = none :=
  congrArg Header.sealing plain.header

theorem Plain.withoutSession {x : Event} (plain : x.Plain) :
    Json.parse? x.withoutSession.render = some x.withoutSession.toValue := by
  refine plain.faithful (y := x.withoutSession) rfl fun n mark => ?_
  cases plain.sealing.symm.trans mark

end Event

/-- The codes of the failure and of its nearest cause are words of 32 bits, as all codes are. -/
structure Failure.Fits (f : Failure) : Prop where
  code : f.code < UInt32.size
  cause : f.causeCode < UInt32.size

theorem plain_errorEvent {f : Failure} (fits : f.Fits) (header : Header) (label : String)
    (source : ErrorSource) : (errorEvent header f (inputLabel label) source).Plain := by
  have word {n : Nat} (small : n < UInt32.size) : (Value.nat n).Faithful 2 :=
    .nat 2 (Nat.lt_trans small (by decide))
  have zero : 0 < UInt32.size := by decide
  refine ⟨rfl, .obj ((Keyed.Ascending.ofList _).union _) fun x hx => ?_⟩
  rcases Keyed.mem_union hx with hx | hx
  · have hx := Keyed.mem_ofList hx
    simp only [List.mem_cons, List.not_mem_nil, or_false] at hx
    rcases hx with rfl | rfl | rfl | rfl
    · cases source
      · exact word fits.code
      · exact word zero
    · cases source
      · exact word zero
      · exact word fits.code
    · exact word fits.cause
    · exact .str _ _
  · rw [List.mem_singleton.mp hx]
    exact .str _ _

/-- AES opens nothing with a key of another length than its parameters name. -/
theorem Cipher.keyLength_of_decrypt {received nonce key text : Bytes} {params : CipherParams}
    (h : aes.decrypt received params nonce key = .ok text) :
    (key.length : Int) * 8 = params.keyLength := by
  obtain ⟨_, checked, -⟩ := exists_of_bind_ok h
  obtain ⟨_, -, checked⟩ := exists_of_bind_ok checked
  obtain ⟨_, -, checked⟩ := exists_of_bind_ok checked
  have fits {n : Nat} (checked : checkKey key n = .ok ()) : key.length = n := by
    unfold checkKey at checked
    split at checked
    · next same => exact same
    · cases checked
  split at checked
  · next bits => rw [bits, fits checked]; rfl
  · split at checked
    · next bits => rw [bits, fits checked]; rfl
    · cases checked

/-- A client opens what a worker with some ciphers seals under a key state: that goes out as it
is, or the client has the key and finds the cipher that the worker finds. -/
def KeyState.ReadBy (k : KeyState) (own : List Cipher) (client : Client) : Prop :=
  k.isPlaintext = true ∨
    k.key = client.key ∧ fitsSigned k.keyLength = true ∧
      client.toolkit.cipher k.cipher = (Toolkit.ofCiphers own).cipher k.cipher

namespace Client

variable {client : Client} {own peer : List Cipher} {k : KeyState} {x y : Event}

/-- What has no mark of a sealed event is not opened. -/
theorem receive_plain (readable : Json.parse? y.render = some y.toValue)
    (unmarked : y.received.header.sealing ≠ some 1) : client.receive y.render = .ok y.received := by
  rw [receive, Event.receive, Event.parse_render readable, ok_bind, Event.openWith, if_pos unmarked]
  rfl

theorem receive_sealed (known : ∀ c ∈ own, c ∈ Cipher.builtin)
    (toolkit : client.toolkit = .ofCiphers peer) (plain : x.Plain) (reads : k.ReadBy own client)
    (sealed : x.SealedAs (.ofCiphers own) k y) :
    ∃ opened, client.receive y.render = .ok opened ∧ opened.payload = x.payload := by
  obtain ⟨draw, sealed⟩ := sealed
  cases unencrypted : k.isPlaintext with
  | true =>
    obtain rfl := Event.sealUnder_plaintext sealed unencrypted
    have readable : Json.parse? x.marked.render = some x.marked.toValue := by
      refine plain.faithful (y := x.marked) rfl fun n mark => ?_
      cases mark
      decide
    have mark : x.marked.received.header.sealing = some 0 := rfl
    exact ⟨_, receive_plain readable (by rw [mark]; decide), rfl⟩
  | false =>
    obtain ⟨key, fits, served⟩ := reads.resolve_left (by rw [unencrypted]; exact Bool.false_ne_true)
    rw [toolkit] at served
    obtain ⟨parsed, opened⟩ :=
      Event.openWith_sealed known served fits unencrypted plain.withoutSession sealed
    refine ⟨x.withoutSession.received, ?_, rfl⟩
    rw [receive, Event.receive, parsed, toolkit, ← key, ok_bind, opened]
    rfl

/-- A key that the cipher refuses opens nothing. -/
theorem not_receive (toolkit : client.toolkit = .ofCiphers peer)
    (fits : fitsSigned k.keyLength = true) (encrypted : k.isPlaintext = false) {cipher : Cipher}
    (served : (Toolkit.ofCiphers peer).cipher k.cipher = .ok cipher) {key : Bytes}
    (hkey : decodeBase64 client.key = .ok key)
    (refuses : ∀ received nonce text, cipher.decrypt received k.params nonce key ≠ .ok text)
    (sealed : x.SealedAs (.ofCiphers own) k y) (opened : Event) :
    client.receive y.render ≠ .ok opened := by
  intro received
  obtain ⟨draw, sealed⟩ := sealed
  rw [receive, Event.receive, Event.parse_sealed fits encrypted sealed, ok_bind, toolkit]
    at received
  have received := mapError_ok received
  obtain ⟨_, _, _, envelope, -, -, -, hwrap, rfl⟩ := Event.sealUnder_encrypted sealed encrypted
  have params := Envelope.params_of_wrap hwrap
  have written :=
    Envelope.ofValue?_fields (params ▸ fits : fitsSigned envelope.params.keyLength = true)
  obtain ⟨cipher', envelope', key', text, found, read, decoded, unwrapped⟩ :=
    Event.unwrapped_of_openWith rfl received
  cases served.symm.trans found
  cases written.symm.trans read
  cases hkey.symm.trans decoded
  obtain ⟨codec, -, unwrapped⟩ := exists_of_bind_ok unwrapped
  obtain ⟨nonce, -, unwrapped⟩ := exists_of_bind_ok unwrapped
  obtain ⟨sent, -, unwrapped⟩ := exists_of_bind_ok unwrapped
  obtain ⟨bytes, decrypted, -⟩ := exists_of_bind_ok unwrapped
  exact refuses sent nonce bytes (params ▸ decrypted)

end Client

end EventWorker
