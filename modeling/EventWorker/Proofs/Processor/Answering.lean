import EventWorker.Proofs.Processor.Acknowledgement
import EventWorker.Proofs.Processor.Prepared
import EventWorker.Proofs.Sealing.Receiving

/-!
# The answers of the handshake

One processor offers the suites of the worker, and one takes the choice of a client. Each has an
answer to a message under its label.

Results:
1. `Utterance`: what a client can read in an answer, and in the report of a failure.
2. `Answers.ended`: a processor that comes to its end has answered with one utterance.
3. `Answers.keyState?`: only a choice changes a key state, and only that of its session.
4. `selectSuite_chosen`: a choice that is granted becomes the key state of its session.
-/

namespace EventWorker

open Json (Value)
open Processor

/-- What a worker with some ciphers says: a plain event. A client that finds suites in it finds
those of the worker. -/
structure Utterance (own : List Cipher) (x : Event) : Prop where
  plain : x.Plain
  suites : ∀ offered, Client.suitesOfReply x = .ok offered →
    offered = (Toolkit.ofCiphers own).suites

variable {own : List Cipher} {e : Event}

theorem Utterance.of_no_suites {x : Event} (plain : x.Plain)
    (none : Keyed.find? "cipher_suites" x.payload = none) : Utterance own x := by
  refine ⟨plain, fun offered read => ?_⟩
  rw [Client.suitesOfReply, none] at read
  cases read

theorem utterance_errorEvent {f : Failure} (fits : f.Fits) (header : Header) (label : String)
    (source : ErrorSource) :
    Utterance own (errorEvent header f (inputLabel label) source) := by
  refine .of_no_suites (plain_errorEvent fits header label source) ?_
  cases source <;> simp [errorEvent, inputLabel, Keyed.union, Keyed.ofList, Keyed.find?_insert]

theorem utterance_answered {code : Nat} (word : code < UInt32.size) :
    Utterance own (answered e code) := by
  refine .of_no_suites ⟨rfl, .object fun x hx => ?_⟩ ?_
  · simp only [List.mem_cons, List.not_mem_nil, or_false] at hx
    rcases hx with rfl | rfl
    · exact .nat _ (Nat.lt_trans word (by decide))
    · exact .nat _ (by decide)
  · simp [answered, Event.reply, Keyed.ofList, Keyed.find?_insert]

theorem Processor.Measured.faithful {s : Suite} (measured : Measured s) : s.toValue.Faithful 1 := by
  obtain ⟨least, greatest⟩ := of_decide_eq_true measured.fits
  refine .object fun x hx => ?_
  simp only [List.mem_cons, List.not_mem_nil, or_false] at hx
  rcases hx with rfl | rfl | rfl
  · exact .str _ _
  · exact .str _ _
  · exact .int _ ⟨least, Int.lt_trans greatest (by decide)⟩

theorem utterance_offer (known : ∀ c ∈ own, c ∈ Cipher.builtin) :
    Utterance own (offer e (Toolkit.ofCiphers own).suites) := by
  have measured (s : Suite) (hs : s ∈ (Toolkit.ofCiphers own).suites) : Measured s :=
    measured_builtin (fun c hc => known c (Toolkit.mem_ciphers hc)) (serve_of_mem_suitesOf hs)
  refine ⟨⟨rfl, .object fun x hx => ?_⟩, fun offered read => ?_⟩
  · simp only [List.mem_cons, List.not_mem_nil, or_false] at hx
    rcases hx with rfl | rfl | rfl
    · exact .nat _ (by decide)
    · exact .nat _ (by decide)
    · refine .arr fun v hv => ?_
      obtain ⟨s, hs, rfl⟩ := List.mem_map.mp hv
      exact (measured s hs).faithful
  · rw [suitesOfReply_offer fun s hs => (measured s hs).fits] at read
    exact (Except.ok.inj read).symm

/-! ## The processors that answer -/

/-- The label of the handshake that a processor answers. -/
inductive Answers : String → BuiltinMain → Prop
  | ready : Answers readyLabel .offerSuites
  | selection : Answers selectionLabel .selectSuite

variable {ω : Type} {h : Host ω} {thread : String} {env : Environment ω} {last : BuiltinMain}
  {b c : Bench ω}

theorem Answers.ended (answers : Answers e.label last) (known : ∀ c ∈ own, c ∈ Cipher.builtin)
    (present : env.providers.ciphers = .ok (Toolkit.ofCiphers own).ciphers)
    (ended : (last.act env e).outcome b = (.ok (), c)) :
    ∃ x, Utterance own x ∧ c.events = b.events.push e.label x := by
  generalize labelled : e.label = label at answers
  cases answers with
  | ready =>
    have replies := offerSuites_replies present labelled (b := b)
    cases replies.symm.trans ended
    exact ⟨_, utterance_offer known, congrArg (b.events.push · _) labelled⟩
  | selection =>
    have selected := selectSuite_selected present labelled b
    have ended : (selectSuite env e).outcome b = (.ok (), c) := ended
    rw [ended] at selected
    rw [← labelled]
    cases selected with
    | unserved => exact ⟨_, utterance_answered (by decide), rfl⟩
    | misfit => exact ⟨_, utterance_answered (by decide), rfl⟩
    | sessionless present looked =>
      exact ⟨_, utterance_answered (by decide),
        congrArg (Memory.push · _ _) (events_onWorld looked)⟩
    | stored requested fits present looked written =>
      refine ⟨_, utterance_answered (by decide), congrArg (Memory.push · _ _) ?_⟩
      exact (events_onWorld written).trans (events_onWorld looked)

/-- What a choice that comes to its end has written. -/
theorem selectSuite_chosen (henv : h.Equips thread env) {served : List (String × Cipher)}
    (present : env.providers.ciphers = .ok served) (selects : e.label = selectionLabel)
    (sound : (h.store.get b.world).Sound)
    (ended : (selectSuite env e).outcome b = (.ok (), c)) :
    (∀ value, e.header.session ≠ value →
      (h.store.get c.world).tables.keyState? value =
        (h.store.get b.world).tables.keyState? value) ∧
    ∀ s x, requestedSuite? served e = some s → keyFits s (keyOf e) = true →
      (h.store.get b.world).tables.sessionByValue? e.header.session = some x →
      (h.store.get c.world).tables.keyState? e.header.session = some (chosenState s (keyOf e)) := by
  have selected := selectSuite_selected present selects b
  rw [ended] at selected
  cases selected with
  | unserved refused =>
    refine ⟨fun _ _ => rfl, fun s x requested => ?_⟩
    cases refused.symm.trans requested
  | misfit requested refused =>
    refine ⟨fun _ _ => rfl, fun s x requested' fits => ?_⟩
    cases requested.symm.trans requested'
    cases refused.symm.trans fits
  | sessionless database looked =>
    cases (henv.database_eq).symm.trans database
    obtain ⟨missing, rfl⟩ := reading_ended looked
    refine ⟨fun _ _ => rfl, fun s x _ _ found => ?_⟩
    cases missing.trans found
  | @stored s db session b₁ b₂ requested fits database looked written =>
    cases (henv.database_eq).symm.trans database
    obtain ⟨found, rfl⟩ := reading_ended looked
    dsimp only [store, Store.database] at written
    obtain ⟨undo, replaced⟩ := Store.write_ok (writing_ended written)
    obtain ⟨⟨_, _⟩, replaced, made⟩ := exists_of_map_ok replaced
    cases made
    have changed (value : String) :=
      Tables.keyState?_updateEncryption sound.tables found.symm replaced value
    refine ⟨fun value other => ?_, fun s' x requested' _ _ => ?_⟩
    · exact (changed value).trans (if_neg (Ne.symm other))
    · cases requested.symm.trans requested'
      exact (changed _).trans (if_pos rfl)

theorem Answers.keyState? (henv : h.Equips thread env) {served : List (String × Cipher)}
    (answers : Answers e.label last) (present : env.providers.ciphers = .ok served)
    (sound : (h.store.get b.world).Sound)
    (ended : (last.act env e).outcome b = (.ok (), c)) {value : String}
    (other : e.label = selectionLabel → e.header.session ≠ value) :
    (h.store.get c.world).tables.keyState? value =
      (h.store.get b.world).tables.keyState? value := by
  generalize labelled : e.label = label at answers other
  cases answers with
  | ready => rw [offerSuites_ended ended]
  | selection => exact (selectSuite_chosen henv present labelled sound ended).1 value (other rfl)

end EventWorker
