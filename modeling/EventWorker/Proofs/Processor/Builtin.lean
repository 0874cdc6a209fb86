import EventWorker.Proofs.Processor.Authentication
import EventWorker.Proofs.Processor.Handout

/-!
# The built-in processors on a store

Results:
1. `Registry.builtin_main`, `Registry.builtin_final`: what the built-in registry makes.
2. `BuiltinMain.undoable`: all main processors but the authentication check do nothing to the
   store that cannot be rolled back.
3. `does_authenticate`: nor does the authentication check, unless it finds the session
   expired; then it deletes it.
4. `quiet_builtin_final`: the final processors do nothing to the store.
-/

namespace EventWorker

variable {ω : Type}

/-- The built-in main processors. -/
inductive BuiltinMain
  | authenticate
  | touchSession
  | startSession
  | offerSuites
  | selectSuite
  | findRecipients (multiple : Bool)
  deriving DecidableEq, Repr

/-- What a built-in main processor does. -/
def BuiltinMain.act : BuiltinMain → Environment ω → Event → Act (Bench ω) Unit
  | .authenticate => Processor.authenticate
  | .touchSession => Processor.touchSession
  | .startSession => Processor.startSession
  | .offerSuites => Processor.offerSuites
  | .selectSuite => Processor.selectSuite
  | .findRecipients multiple => Processor.findRecipients multiple

/-- A registry makes main processors with the given run. -/
def Registry.MakesMain (r : Registry ω) (run : MainRun ω) : Prop :=
  ∃ spec w processor w', (r.create spec).outcome w = (.ok processor, w') ∧
    processor.stage = .main run

/-- A registry makes final processors with the given run. -/
def Registry.MakesFinal (r : Registry ω) (run : FinalRun ω) : Prop :=
  ∃ spec w processor w', (r.create spec).outcome w = (.ok processor, w') ∧
    processor.stage = .final run

theorem Registry.create_ok {r : Registry ω} {spec : ProcessorSpec} {w w' : ω}
    {processor : Processor ω} (h : (r.create spec).outcome w = (.ok processor, w')) :
    ∃ (factory : Factory ω) (number? : Option Nat), (spec.name, factory) ∈ r.factories ∧
      (r.setUp spec.line (factory w).1).outcome (factory w).2 = (.ok (number?, processor), w') := by
  obtain ⟨⟨number?, p⟩, u, handed, last⟩ := Step.bind_ended h
  cases last
  obtain ⟨factory, named, ended⟩ := Registry.handOut_ended handed
  exact ⟨factory, number?, Keyed.mem_of_find? named, ended⟩

/-- The built-in registry makes the built-in main processors and two final ones. -/
theorem Registry.builtin_stage {spec : ProcessorSpec} {w w' : ω} {processor : Processor ω}
    (h : (Registry.builtin.create spec).outcome w = (.ok processor, w')) :
    (∃ k : BuiltinMain, processor.stage = .main (MainRun.ofAct k.act)) ∨
      processor.stage = .final (FinalRun.ofAct Processor.multiply) ∨
      processor.stage = .final (FinalRun.ofAct fun _ _ => Processor.rekeyBySession) := by
  obtain ⟨name, line⟩ := spec
  obtain ⟨factory, number?, hmem, made⟩ := Registry.create_ok h
  dsimp only [Registry.builtin] at hmem
  have hmem := Keyed.mem_ofList hmem
  simp only [List.mem_cons, List.not_mem_nil, or_false] at hmem
  rcases hmem with hm | hm | hm | hm | hm | hm | hm | hm <;> cases hm <;> cases made
  · exact .inl ⟨.authenticate, rfl⟩
  · exact .inl ⟨.touchSession, rfl⟩
  · exact .inl ⟨.startSession, rfl⟩
  · exact .inl ⟨.offerSuites, rfl⟩
  · exact .inl ⟨.selectSuite, rfl⟩
  · exact .inl ⟨.findRecipients _, rfl⟩
  · exact .inr (.inl rfl)
  · exact .inr (.inr rfl)

theorem Registry.builtin_main {run : MainRun ω} (h : Registry.builtin.MakesMain run) :
    ∃ k : BuiltinMain, run = MainRun.ofAct k.act := by
  obtain ⟨spec, w, processor, w', created, hstage⟩ := h
  rcases Registry.builtin_stage created with ⟨k, hk⟩ | hk | hk
  · exact ⟨k, Stage.main.inj (hstage.symm.trans hk)⟩
  · cases hstage.symm.trans hk
  · cases hstage.symm.trans hk

theorem Registry.builtin_final {run : FinalRun ω} (h : Registry.builtin.MakesFinal run) :
    run = FinalRun.ofAct Processor.multiply ∨
      run = FinalRun.ofAct fun _ _ => Processor.rekeyBySession := by
  obtain ⟨spec, w, processor, w', created, hstage⟩ := h
  rcases Registry.builtin_stage created with ⟨k, hk⟩ | hk | hk
  · cases hstage.symm.trans hk
  · exact .inl (Stage.final.inj (hstage.symm.trans hk))
  · exact .inr (Stage.final.inj (hstage.symm.trans hk))

open Processor

variable {h : Host ω} {thread : String} {env : Environment ω}

theorem undoable_touchSession (henv : h.Equips thread env) (e : Event) :
    h.Undoable thread (touchSession env e) := by
  unfold touchSession
  refine henv.undoable_database ?_
  dsimp only [Store.database]
  refine Host.Undoable.bind (Host.undoable_reading _ (by decide)) fun found => ?_
  cases found with
  | none => exact Host.Undoable.throw_bind (by decide) _
  | some session =>
    show h.Undoable thread (Bench.onWorld (Step.ofState env.services.now) >>= _)
    refine henv.undoable_now.bind fun now => ?_
    exact Host.undoable_writing (.updateLastUpdated e.header.session now) (fun s => rfl)
      (by decide)

theorem undoable_reply (e : Event) (payload : List (String × Json.Value)) :
    h.Undoable thread (Bench.reply e payload) :=
  .change fun _ => rfl

theorem undoable_startSession (henv : h.Equips thread env) (e : Event) :
    h.Undoable thread (startSession env e) := by
  unfold startSession
  refine henv.undoable_database ?_
  dsimp only [Store.database]
  refine Host.Undoable.bind (Host.undoable_reading _ (by decide)) fun found => ?_
  cases found with
  | none => exact undoable_reply e _
  | some user =>
    refine henv.undoable_now.bind fun now => ?_
    refine Host.Undoable.bind ?_ fun id => ?_
    · exact Host.undoable_writing
        (.createSession user.id e.header.session (e.param? "auth_token") now)
        (fun s => rfl) (by decide)
    · refine Host.Undoable.bind ?_ fun _ => undoable_reply e _
      exact Host.undoable_writing (.createEncryption id .unencrypted) (fun s => rfl)
        (by decide)

theorem undoable_ciphers : h.Undoable thread (Step.ofResult env.providers.ciphers) := by
  refine Host.Undoable.ofResult fun f hf => ?_
  rw [Providers.ciphers] at hf
  cases hc : env.providers.ciphers? with
  | none =>
    rw [hc] at hf
    cases hf
    decide
  | some ciphers =>
    rw [hc] at hf
    cases hf

theorem undoable_offerSuites (e : Event) : h.Undoable thread (offerSuites env e) := by
  unfold offerSuites
  split
  · exact undoable_ciphers.bind fun ciphers => undoable_reply e _
  · exact .pure _

theorem undoable_selectSuite (henv : h.Equips thread env) (e : Event) :
    h.Undoable thread (selectSuite env e) := by
  unfold selectSuite
  split
  · exact .pure _
  · refine undoable_ciphers.bind fun ciphers => ?_
    split
    · exact undoable_reply e _
    · next suite _ =>
      dsimp only
      split
      · refine henv.undoable_database ?_
        dsimp only [Store.database]
        refine Host.Undoable.bind (Host.undoable_reading _ (by decide)) fun found => ?_
        cases found with
        | none => exact undoable_reply e _
        | some session =>
          refine Host.Undoable.bind ?_ fun _ => undoable_reply e _
          exact Host.undoable_writing (.updateEncryption session.id (chosenState suite _))
            (fun s => rfl) (by decide)
      · exact undoable_reply e _

theorem undoable_findRecipients (henv : h.Equips thread env) (multiple : Bool) (e : Event) :
    h.Undoable thread (findRecipients multiple env e) := by
  unfold findRecipients
  refine henv.undoable_database ?_
  dsimp only [Store.database]
  refine Host.Undoable.bind ?_ fun found => ?_
  · split
    · exact Host.undoable_reading _ (by decide)
    · exact Host.undoable_reading _ (by decide)
  · cases found with
    | none => exact Host.Undoable.throw (by decide)
    | some recipients => exact .change fun _ => rfl

theorem BuiltinMain.undoable (henv : h.Equips thread env) {k : BuiltinMain}
    (hk : k ≠ .authenticate) (e : Event) : h.Undoable thread (k.act env e) := by
  cases k with
  | authenticate => exact absurd rfl hk
  | touchSession => exact undoable_touchSession henv e
  | startSession => exact undoable_startSession henv e
  | offerSuites => exact undoable_offerSuites e
  | selectSuite => exact undoable_selectSuite henv e
  | findRecipients multiple => exact undoable_findRecipients henv multiple e

/-! ## The authentication check -/

/-- The session that an event names, found under the token that the event brings, is
expired. -/
structure ExpiredAt (h : Host ω) (env : Environment ω) (e : Event) (b : Bench ω)
    (session : Session) : Prop where
  available : (h.store.get b.world).unavailable = false
  found : (h.store.get b.world).tables.session? (tokenOf e) e.header.session = some session
  expired : session.isExpired (env.services.now b.world).1 = true

theorem does_authenticate (henv : h.Equips thread env) (e : Event) :
    h.Does (authenticate env e) fun b r turns =>
      Host.Undone thread r turns ∨
        ∃ session, ExpiredAt h env e b session ∧ r = .error Code.sessionExpired.failure.silent ∧
          turns = [{ thread, op := .delete session.id }] := by
  intro b
  have course := authenticates henv e b
  generalize (authenticate env e).outcome b = ended at course ⊢
  obtain ⟨r, c⟩ := ended
  cases course with
  | unknown found code =>
    refine ⟨[], .inl ⟨⟨[], rfl⟩, fun f hf => ?_⟩, rfl, rfl⟩
    rw [← Except.error.inj hf, code]
    decide
  | expired found old store ledger =>
    have available := Store.yields?_available found
    have found := (Store.yields?_eq available _ _).symm.trans found
    exact ⟨_, .inr ⟨_, ⟨available, found, old⟩, rfl, rfl⟩, store, ledger⟩
  | ownerless found fresh store ledger =>
    exact ⟨[], .inl ⟨⟨[], rfl⟩, fun f hf => by cases hf; decide⟩, store, ledger⟩
  | passed found fresh store ledger =>
    exact ⟨[], .inl ⟨⟨[], rfl⟩, fun f hf => nomatch hf⟩, store, ledger⟩

/-- What a built-in main processor does to the store can be rolled back, but for the session
that an authentication check finds expired and deletes. -/
theorem BuiltinMain.does (henv : h.Equips thread env) (k : BuiltinMain) (e : Event) :
    h.Does (k.act env e) fun b r turns =>
      Host.Undone thread r turns ∨
        ∃ session, k = .authenticate ∧ ExpiredAt h env e b session ∧
          r = .error Code.sessionExpired.failure.silent ∧
          turns = [{ thread, op := .delete session.id }] := by
  by_cases hk : k = .authenticate
  · subst hk
    refine (does_authenticate henv e).mono fun b r turns => Or.imp_right ?_
    rintro ⟨session, expired⟩
    exact ⟨session, rfl, expired⟩
  · exact Host.Does.mono (BuiltinMain.undoable henv hk e) fun _ _ _ => .inl

/-! ## The final processors -/

theorem quiet_sealFor (henv : h.Equips thread env) (toolkit : Toolkit) (e : Event)
    (recipients : List Recipient) : h.Quiet (sealFor env.services toolkit e recipients) := by
  induction recipients with
  | nil => exact .of_world fun _ => rfl
  | cons r rest ih =>
    refine henv.quiet_draw.bind fun draw => ?_
    refine Host.Quiet.bind (.of_world fun _ => rfl) fun copy => ?_
    exact Host.Quiet.bind (.of_world fun _ => rfl) fun _ => ih

theorem quiet_sealAll (henv : h.Equips thread env) (toolkit : Toolkit) (events : List Event) :
    h.Quiet (sealAll env.services toolkit events) := by
  induction events with
  | nil => exact .of_world fun _ => rfl
  | cons e rest ih =>
    refine Host.Quiet.bind (.of_world fun _ => rfl) fun rows => ?_
    split
    · exact .of_world fun _ => rfl
    · exact (quiet_sealFor henv toolkit e _).bind fun _ => ih

theorem quiet_multiply (henv : h.Equips thread env) :
    h.Quiet (multiply env.services env.providers) := by
  refine Host.Quiet.bind (.of_world fun _ => rfl) fun waiting => ?_
  split
  · exact .of_world fun _ => rfl
  · refine Host.Quiet.bind (.of_world fun _ => rfl) fun toolkit => ?_
    exact quiet_sealAll henv toolkit waiting

/-- The built-in final processors leave the store and the ledger alone. -/
theorem quiet_builtin_final (henv : h.Equips thread env) {run : FinalRun ω}
    (builtin : Registry.builtin.MakesFinal run) : h.Quiet (run env.services env.providers) := by
  rcases Registry.builtin_final builtin with rfl | rfl
  · exact (quiet_multiply henv).mapError Stop.failed
  · exact .of_world fun _ => rfl

end EventWorker
