import EventWorker.Proofs.Dispatch.Atomicity
import EventWorker.Proofs.Processor.Ended
import EventWorker.Proofs.Processor.Selection
import EventWorker.Proofs.Sealing.Acceptance

/-!
# What an acknowledged selection is good for

A selection is compared with the suites of the worker by its normal text and stored as it is
written. Sealing takes it as it is written too, so a blank that the comparison leaves out comes
back when the first event is sealed.

Results:
1. `selectSuite_acknowledged`: the key state that an acknowledged selection leaves.
2. `acknowledged_seals`: if the suite has no blanks around its name and its mode every event is
   sealed and opens with the key of the client, and else none is sealed.
3. `acknowledged_useless`: a selection with a blank is acknowledged.
-/

namespace EventWorker

open Processor

namespace Processor

variable {ω : Type} {h : Host ω} {thread : String} {env : Environment ω}
  {served : List (String × Cipher)} {e : Event} {b c : Bench ω}

/-- Answers with different codes differ. -/
theorem answered_injective {n m : Nat} (same : answered e n = answered e m) : n = m := by
  have told (code : Nat) : Keyed.find? "err" (answered e code).payload = some (.nat code) := by
    simp [answered, Event.reply, Keyed.ofList, Keyed.find?_insert]
  have codes := (told n).symm.trans ((congrArg (fun e => Keyed.find? "err" e.payload) same).trans
    (told m))
  cases codes
  rfl

theorem requestedSuite?_spec {s : Suite} (requested : requestedSuite? served e = some s) :
    ∃ t, Serve (served.map Prod.snd) t ∧ s.normalized = t.normalized := by
  obtain ⟨-, granted⟩ := Option.filter_eq_some_iff.mp requested
  obtain ⟨t, ht, same⟩ := List.any_eq_true.mp granted
  exact ⟨t, serve_of_mem_suitesOf ht, (of_decide_eq_true same).symm⟩

/-- An acknowledged selection is that of a suite and a key that fit, and the session has them as
they are written. -/
theorem selectSuite_acknowledged (henv : h.Equips thread env)
    (present : env.providers.ciphers = .ok served) (selects : e.label = selectionLabel)
    {r : Except Failure Unit} (ended : (selectSuite env e).outcome b = (r, c))
    (acknowledged : c.events = b.events.push e.label (answered e 0)) :
    ∃ s row, requestedSuite? served e = some s ∧ keyFits s (keyOf e) = true ∧
      (h.store.get c.world).tables.encryptionFor? e.header.session = some row ∧
      row.state = chosenState s (keyOf e) := by
  -- No other answer is an acknowledgement.
  have code {n : Nat} {m : Memory Event} (same : m = b.events)
      (pushed : m.push e.label (answered e n) = b.events.push e.label (answered e 0)) : n = 0 := by
    have waiting := congrArg (Memory.get · e.label) pushed
    simp only [same, Memory.push, Memory.get_pushAll, if_pos] at waiting
    exact answered_injective (List.singleton_inj.mp (List.append_cancel_left waiting))
  have selected := selectSuite_selected present selects b
  rw [ended] at selected
  cases selected with
  | unserved refused => exact absurd (code rfl acknowledged) (by decide)
  | misfit requested refused => exact absurd (code rfl acknowledged) (by decide)
  | sessionless database looked =>
    have none : Code.sessionNotFound.id = 0 := code (events_onWorld looked) acknowledged
    exact absurd none (by decide)
  | failed same =>
    have waiting := congrArg (fun m => (Memory.get m e.label).length) (same.symm.trans acknowledged)
    simp [Memory.push, Memory.get_pushAll] at waiting
  | @stored s db session b₁ b₂ requested fits database looked written =>
    cases (henv.database_eq).symm.trans database
    obtain ⟨found, rfl⟩ := reading_ended looked
    dsimp only [store, Store.database] at written
    obtain ⟨undo, replaced⟩ := Store.write_ok (writing_ended written)
    obtain ⟨⟨_, _⟩, replaced, made⟩ := exists_of_map_ok replaced
    cases made
    obtain ⟨row, key, state⟩ := Tables.encryptionFor?_updateEncryption found.symm replaced
    exact ⟨s, row, requested, fits, key, state⟩

end Processor

/-! ## Events for the session -/

variable {ω : Type} {h : Host ω} {thread : String} {env : Environment ω} {ciphers : List Cipher}
  {e : Event} {b c : Bench ω}

namespace KeyState

/-- Every event is sealed under the key state. Unless it goes out as it is, a peer that finds the
same cipher under the name opens it with the key. -/
def Usable (k : KeyState) (ciphers : List Cipher) : Prop :=
  ∀ (x : Event) (draw : Nat → Bytes), (∀ n, (draw n).length = n) →
    ∃ y, x.sealUnder k (.ofCiphers ciphers) draw = .ok y ∧
      (k.isPlaintext = false →
        Json.parse? x.withoutSession.render = some x.withoutSession.toValue →
        ∀ peer,
          (Toolkit.ofCiphers peer).cipher k.cipher = (Toolkit.ofCiphers ciphers).cipher k.cipher →
          ∃ wire opened, Event.parse y.render = .ok wire ∧
            wire.openWith k.key (.ofCiphers peer) = .ok opened ∧ opened.payload = x.payload)

/-- No event is sealed under the key state, and the delivery fails for it. -/
def Useless (k : KeyState) (ciphers : List Cipher) : Prop :=
  ∀ (x : Event) (draw : Nat → Bytes), ∃ f, x.sealUnder k (.ofCiphers ciphers) draw = .error f ∧
    (sealFailure f).code = Code.encapsulation.id

variable {s t : Suite} {secret : String}

theorem chosenState_usable (known : ∀ c ∈ ciphers, c ∈ Cipher.builtin) (serve : Serve ciphers t)
    (same : s.normalized = t.normalized) (fits : keyFits s secret = true) (exactly : s.Exact) :
    (chosenState s secret).Usable ciphers := by
  intro x draw drawn
  obtain ⟨y, sealed⟩ := Event.sealUnder_exact known serve same fits exactly drawn x
  refine ⟨y, sealed, fun encrypted readable peer served => ?_⟩
  obtain ⟨c, member, listed⟩ := serve
  have offers := Cipher.offers_of_listed (known c member) listed
  have word : fitsSigned s.keyLength = true := by
    rw [(offers.plainly.1.of_normalized same).2.2]
    exact (measured_builtin known ⟨c, member, listed⟩).fits
  obtain ⟨parsed, opened⟩ := Event.openWith_sealed known served word encrypted readable sealed
  exact ⟨_, _, parsed, opened, rfl⟩

theorem chosenState_useless (known : ∀ c ∈ ciphers, c ∈ Cipher.builtin) (serve : Serve ciphers t)
    (same : s.normalized = t.normalized) (fits : keyFits s secret = true) (inexact : ¬ s.Exact) :
    (chosenState s secret).Useless ciphers := by
  intro x draw
  obtain ⟨f, refused, reason⟩ := Event.sealUnder_inexact known serve same fits inexact draw x
  refine ⟨f, refused, ?_⟩
  rcases reason with rfl | rfl <;> rfl

end KeyState

theorem Toolkit.mem_ciphers {c : Cipher}
    (member : c ∈ (ofCiphers ciphers).ciphers.map Prod.snd) : c ∈ ciphers := by
  obtain ⟨entry, hentry, rfl⟩ := List.mem_map.mp member
  obtain ⟨c, hc, rfl⟩ := List.mem_map.mp (Keyed.mem_ofList hentry)
  exact hc

theorem Providers.ciphers_of_toolkit {p : Providers}
    (toolkit : p.toolkit = .ok (.ofCiphers ciphers)) :
    p.ciphers = .ok (Toolkit.ofCiphers ciphers).ciphers := by
  obtain ⟨served, present, toolkit⟩ := exists_of_bind_ok toolkit
  obtain ⟨codecs, -, toolkit⟩ := exists_of_bind_ok toolkit
  obtain ⟨integrities, -, toolkit⟩ := exists_of_bind_ok toolkit
  rw [present, ← Except.ok.inj toolkit]

/-- What an acknowledged selection stores is usable if the suite was written without blanks around
its name, and, if it has a key, its mode. If there is a blank it is useless. -/
theorem acknowledged_seals (henv : h.Equips thread env)
    (known : ∀ c ∈ ciphers, c ∈ Cipher.builtin)
    (toolkit : env.providers.toolkit = .ok (.ofCiphers ciphers))
    (selects : e.label = selectionLabel) {r : Except Failure Unit}
    (ended : (selectSuite env e).outcome b = (r, c))
    (acknowledged : c.events = b.events.push e.label (answered e 0)) :
    ∃ s row, (Keyed.find? "cipher_suite" e.payload).bind Suite.ofValue? = some s ∧
      (h.store.get c.world).tables.encryptionFor? e.header.session = some row ∧
      row.state = chosenState s (keyOf e) ∧
      (s.Exact → row.state.Usable ciphers) ∧ (¬ s.Exact → row.state.Useless ciphers) := by
  have present := Providers.ciphers_of_toolkit toolkit
  obtain ⟨s, row, requested, fits, key, state⟩ :=
    selectSuite_acknowledged henv present selects ended acknowledged
  obtain ⟨t, ⟨c, member, listed⟩, same⟩ := requestedSuite?_spec requested
  have serve : Serve ciphers t := ⟨c, Toolkit.mem_ciphers member, listed⟩
  refine ⟨s, row, (Option.filter_eq_some_iff.mp requested).1, key, state, fun exactly => ?_,
    fun inexact => ?_⟩
  · rw [state]
    exact KeyState.chosenState_usable known serve same fits exactly
  · rw [state]
    exact KeyState.chosenState_useless known serve same fits inexact

/-- The environment of a worker at a site that has all built-in ciphers. -/
def equippedEnvironment : Environment Site :=
  Site.environment Site.thread
    { ciphers? := some (Toolkit.ofCiphers Cipher.builtin).ciphers
      codecs? := some Codec.named?
      integrities? := some IntegrityFunction.named? }

/-- The user selects a suite in the session. -/
def choosing (s : Suite) (key : String) : Event where
  header := Header.plain "aa01" notAvailable selectionLabel
  payload := [("cipher_key", .str key), ("cipher_suite", s.toValue)]

/-- Case does not matter, and nothing looks at the mode of a cipher without a key. -/
theorem acknowledged_seals_plaintext :
    let out := (selectSuite equippedEnvironment (choosing ⟨"PlainText", " none", -1⟩ "")).outcome
      aliceBench
    ∃ row, (Site.host.store.get out.2.world).tables.encryptionFor? "aa01" = some row ∧
      row.state = chosenState ⟨"PlainText", " none", -1⟩ "" ∧ row.state.Usable Cipher.builtin := by
  intro out
  have acknowledged : out.2.events = aliceBench.events.push selectionLabel
      (answered (choosing ⟨"PlainText", " none", -1⟩ "") 0) := by
    decide +kernel
  have known : ∀ c ∈ Cipher.builtin, c ∈ Cipher.builtin := fun c hc => hc
  have ended : (selectSuite equippedEnvironment (choosing ⟨"PlainText", " none", -1⟩ "")).outcome
      aliceBench = (out.1, out.2) := (Prod.eta out).symm
  obtain ⟨s, row, requested, key, state, usable, -⟩ :=
    acknowledged_seals (Site.host_equips Site.thread _) known rfl rfl ended acknowledged
  have chosen : s = ⟨"PlainText", " none", -1⟩ := by
    refine Option.some.inj (requested.symm.trans ?_)
    decide
  rw [chosen] at state usable
  exact ⟨row, key, state, usable (by decide)⟩

/-- Alice's choice of AES with blanks around the name is acknowledged, and then nothing can be
sealed for her session. -/
theorem acknowledged_useless :
    let e := choosing ⟨" aes ", "gcm", 128⟩ "AAAAAAAAAAAAAAAAAAAAAA=="
    let out := (selectSuite equippedEnvironment e).outcome aliceBench
    (Site.host.store.get aliceBench.world).Reachable ∧ out.1 = .ok () ∧
      out.2.events = aliceBench.events.push selectionLabel (answered e 0) ∧
      ∃ row, (Site.host.store.get out.2.world).tables.encryptionFor? "aa01" = some row ∧
        ∀ (x : Event) (draw : Nat → Bytes), ∃ f,
          x.sealUnder row.state (.ofCiphers Cipher.builtin) draw = .error f ∧
            (sealFailure f).code = 24766 := by
  intro e out
  refine ⟨⟨aliceTurns, rfl⟩, by decide +kernel, by decide +kernel,
    ⟨1, 1, chosenState ⟨" aes ", "gcm", 128⟩ "AAAAAAAAAAAAAAAAAAAAAA=="⟩, by decide +kernel, ?_⟩
  have known : ∀ c ∈ Cipher.builtin, c ∈ Cipher.builtin := fun c hc => hc
  have serve : Serve Cipher.builtin ⟨"aes", "gcm", 128⟩ :=
    ⟨.aes, List.mem_cons_of_mem _ (List.mem_cons_of_mem _ List.mem_cons_self), List.mem_cons_self⟩
  exact KeyState.chosenState_useless known serve (by decide) (by decide +kernel) (by decide)

end EventWorker
