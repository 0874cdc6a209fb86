import EventWorker.Proofs.Dispatch.Pairing
import EventWorker.Proofs.Processor.Answering

/-!
# Key states and the messages of the handshake

Both pipelines of the handshake load the recipients before they answer, so what they write is
sealed under the key states from before the message. The choice of a suite changes one of them.

Results:
1. `Shaking.written`: what is written for a message, and under which key states.
2. `Shaking.kept`: no message but the choice of a suite for a session gives it another key state.
3. `Shaking.chosen`: the key state of a session after such a message.
-/

namespace EventWorker

open Processor

variable {ω : Type} {h : Host ω} {thread : String} {env : Environment ω} {e : Event}
  {b c : Bench ω}

/-! ## The main stage -/

/-- When the units of work around a body come to their end, so has the body, and what it has made
of the store is kept. -/
theorem inUnits_ended {body : Act (Bench ω) Unit}
    (ended : (Dispatch.inUnits (Store.database h.store thread).toManager
      (Ledger.manager h.ledger) body).outcome b = (.ok (), c)) :
    ∃ left, body.outcome (Dispatch.begun (Store.database h.store thread).toManager
        (Ledger.manager h.ledger) b) = (.ok (), left) ∧
      h.store.get c.world = (h.store.get left.world).commit thread ∧ c.events = left.events := by
  obtain ⟨_, b₁, opens, ended⟩ := Step.bind_ended ended
  obtain ⟨_, b₂, opens', ended⟩ := Step.bind_ended ended
  obtain ⟨_, left, ends, ended⟩ := Step.bind_ended ended
  obtain ⟨_, b₃, commits, ended⟩ := Step.bind_ended ended
  have opens' := Step.onError_ended opens'
  have commits := Step.onError_ended commits
  have commits' := Step.onError_ended ended
  refine ⟨left, ?_, ?_, ?_⟩
  · rw [Dispatch.begun, opens, opens']
    exact Step.onError_ended ends
  · exact (Host.managed_call commits').1.trans (Host.managed_change commits).2.1
  · have first := (managed_memories (Store.database h.store thread).commit left).1
    have second := (managed_memories (Ledger.manager h.ledger).commit b₃).1
    rw [commits] at first
    rw [commits'] at second
    exact second.trans first

theorem mainStage_ended (henv : h.Equips thread env) {p : Pipeline ω}
    (ended : (Dispatch.mainStage env p e).outcome
      (env.log .debug Code.logNewEvent e.toValue b) = (.ok (), c)) :
    ∃ left, (Dispatch.runMain env e p.main).outcome (h.begun thread env p e b) = (.ok (), left) ∧
      h.store.get c.world = (h.store.get left.world).commit thread ∧ c.events = left.events := by
  rw [Dispatch.mainStage_outcome henv.database henv.ledger] at ended
  exact inUnits_ended ended

/-- The main processors start on the rows from before the message. -/
theorem sound_begun (henv : h.Equips thread env) (p : Pipeline ω) (e : Event)
    (sound : (h.store.get b.world).Sound) :
    (h.store.get (h.begun thread env p e b).world).Sound ∧
      (h.store.get (h.begun thread env p e b).world).tables = (h.store.get b.world).tables := by
  rw [Host.store_begun henv]
  exact ⟨(Store.performed _ ⟨thread, .begin⟩).sound sound, rfl⟩

/-- All that waits after a failure is the report of it. -/
theorem event_of_replaceEvents {key : String} {header : Header} {f : Failure}
    {source : ErrorSource} {entry : String × Event}
    (hentry : entry ∈ (Dispatcher.replaceEvents key header f source b).events.drain.1) :
    entry.2 = errorEvent header f (inputLabel header.label) source := by
  unfold Dispatcher.replaceEvents at hentry
  split at hentry
  · rcases Memory.mem_drain_pushAll.mp hentry with hentry | ⟨-, hentry⟩
    · cases hentry
    · exact List.mem_singleton.mp hentry
  · cases hentry

/-- The codes that an outcome tells are words. -/
def Outcome.Fits : Outcome → Prop
  | .rejected f => f.Fits
  | .unrouted _ f => f.Fits
  | .handled _ main final => (∀ f, main = some f → f.Fits) ∧ ∀ f, final = some f → f.Fits

/-- A pipeline of the handshake: it checks a session, notes its use, loads the recipients and
answers, and in the end the answer is sealed. -/
structure Answering (p : Pipeline ω) (multiple : Bool) (last : BuiltinMain) : Prop where
  main : OfKinds p.main [.authenticate, .touchSession, .findRecipients multiple, last]
  final : ∃ m, p.final = [m] ∧ m.run = FinalRun.ofAct multiply

/-- The worker of a handshake: its ciphers are built in, and it has the pipelines of the
handshake. -/
structure Shaking (h : Host ω) (thread : String) (own : List Cipher) (d : Dispatcher ω) : Prop
    extends Builtin h thread d where
  known : ∀ c ∈ own, c ∈ Cipher.builtin
  toolkit : d.env.providers.toolkit = .ok (.ofCiphers own)
  table : ∀ label p, d.table.get? label = some p →
    ∃ multiple last, Answers label last ∧ Answering p multiple last

/-- These processors load recipients at most, and answer nothing. -/
theorem prepares_first {multiple : Bool} :
    ∀ k ∈ [BuiltinMain.authenticate, .touchSession, .findRecipients multiple],
      k.prepares = true := by
  intro k hk
  simp only [List.mem_cons, List.not_mem_nil, or_false] at hk
  rcases hk with rfl | rfl | rfl <;> rfl

theorem Answers.selects {label : String} {last : BuiltinMain} (answers : Answers label last)
    (selects : label = selectionLabel) : last = .selectSuite := by
  cases answers with
  | ready => exact absurd selects (by decide)
  | selection => rfl

theorem Answers.finds {label : String} {last : BuiltinMain} (answers : Answers label last) :
    last.finds = false := by
  cases answers <;> rfl

variable {d : Dispatcher ω} {p : Pipeline ω} {own : List Cipher} {multiple : Bool}
  {last : BuiltinMain} {raw : String}

/-- The last processor starts when the others have prepared everything. -/
theorem Answering.ended (answering : Answering p multiple last) (henv : h.Equips thread env)
    (sound : (h.store.get b.world).Sound)
    (ended : (Dispatch.runMain env e p.main).outcome b = (.ok (), c)) :
    ∃ mid left, Prepared h b mid ∧ (last.act env e).outcome mid = (.ok (), left) ∧
      h.store.get c.world = h.store.get left.world ∧ c.events = left.events := by
  have main : OfKinds p.main
      ([.authenticate, .touchSession, .findRecipients multiple] ++ [last]) := answering.main
  exact runMain_prepared henv main prepares_first sound ended

theorem Answering.loaded_keyState? (answering : Answering p multiple last)
    (henv : h.Equips thread env) (answers : Answers e.label last)
    (settled : (h.store.get b.world).Settled thread) {r : Recipient}
    (hr : r ∈ h.loaded env e p.main [.authenticate, .touchSession, .findRecipients multiple, last]
      (h.begun thread env p e b)) :
    (h.store.get b.world).tables.keyState? r.value = some r.state := by
  obtain ⟨sound, tables⟩ := sound_begun henv p e settled.sound
  rw [← tables]
  have main : OfKinds p.main
      ([.authenticate, .touchSession, .findRecipients multiple] ++ [last]) := answering.main
  refine EventWorker.loaded_keyState? henv main prepares_first answers.finds sound ?_ hr
  rw [tables]
  exact settled.paired.unambiguous settled.sound.tables

/-- A pipeline of the handshake whose main stage comes to its end leaves one utterance. -/
theorem Answering.answered (answering : Answering p multiple last) (hd : Shaking h thread own d)
    (answers : Answers e.label last) (settled : (h.store.get b.world).Settled thread)
    (ended : d.runMain p e (d.arrived e b) = (none, c)) :
    ∀ x ∈ c.events.values, Utterance own x := by
  obtain ⟨left, ran, -, events⟩ := mainStage_ended hd.equips (runMain_ended ended)
  have sound := (sound_begun hd.equips p e settled.sound).1
  obtain ⟨mid, left', prepared, acted, -, same⟩ := answering.ended hd.equips sound ran
  obtain ⟨x, utterance, pushed⟩ :=
    answers.ended hd.known (Providers.ciphers_of_toolkit hd.toolkit) acted
  intro y hy
  rw [events, same, pushed, prepared.events, (Host.begun_memories h thread d.env p e b).1,
    Memory.values_eq] at hy
  obtain ⟨entry, hentry, rfl⟩ := List.mem_map.mp hy
  rcases Memory.mem_drain_pushAll.mp hentry with hentry | ⟨-, hentry⟩
  · cases hentry
  · rw [List.mem_singleton.mp hentry]
    exact utterance

/-- A final stage of sealing only fails when the sealing does. -/
theorem finalStage_ends {m : Wired (FinalRun ω)} (final : p.final = [m])
    (run : m.run = FinalRun.ofAct multiply)
    (ended : (multiply d.env.services d.env.providers).outcome b = (.ok (), c)) :
    (d.runFinal p e b).1 = none := by
  have one : (m.run d.env.services d.env.providers).outcome b = (.ok (), c) := by
    rw [run, FinalRun.ofAct, Step.outcome_mapError, ended]
    rfl
  unfold Dispatcher.runFinal Dispatch.finalStage
  rw [final, Dispatch.runFinal, Step.outcome_bind, Dispatch.runOne, Step.outcome_ofFunction, one]
  rfl

/-- Whether the main stage has failed or come to its end, utterances are what it leaves. -/
theorem Answering.utterances (answering : Answering p multiple last) (hd : Shaking h thread own d)
    (answers : Answers e.label last) (settled : (h.store.get b.world).Settled thread)
    {main? : Option Failure} (main : d.runMain p e (d.arrived e b) = (main?, c))
    (fits : ∀ f, main? = some f → f.Fits) : ∀ x ∈ c.events.values, Utterance own x := by
  intro x hx
  cases main? with
  | none => exact answering.answered hd answers settled main x hx
  | some f =>
    obtain ⟨mid, -, rfl⟩ := runMain_failing main
    rw [← replaceEvents_eq, Memory.values_eq] at hx
    obtain ⟨report, hreport, rfl⟩ := List.mem_map.mp hx
    rw [event_of_replaceEvents hreport]
    exact utterance_errorEvent (fits f rfl) _ _ _

/-- What goes to a session is the report of a failure as it is, or an utterance sealed under the
key state that the session had before. -/
def Host.Speaks (h : Host ω) (own : List Cipher) (b : Bench ω) (entry : String × Event) : Prop :=
  ∃ x, Utterance own x ∧ (entry.2 = x ∨
    ∃ k, (h.store.get b.world).tables.keyState? entry.1 = some k ∧
      x.SealedAs (.ofCiphers own) k entry.2)

theorem Host.Speaks.of_report {key : String} {header : Header} {f : Failure} {source : ErrorSource}
    {entry : String × Event} (fits : f.Fits)
    (hentry : entry ∈ (Dispatcher.replaceEvents key header f source c).events.drain.1) :
    h.Speaks own b entry := by
  exact ⟨_, utterance_errorEvent fits _ _ _, .inl (event_of_replaceEvents hentry)⟩

/-- What is written for a message with a pipeline. -/
theorem Answering.written (answering : Answering p multiple last) (hd : Shaking h thread own d)
    (valid : validate raw = .ok e) (routed : d.table.get? e.label = some p)
    (answers : Answers e.label last) (settled : (h.store.get b.world).Settled thread)
    (fits : (d.handle raw b).1.outcome.Fits) {entry : String × Event}
    (hentry : entry ∈ d.writes raw b) : h.Speaks own b entry := by
  rcases hmain : d.runMain p e (d.arrived e b) with ⟨main?, start⟩
  rcases hfinal : d.runFinal p e start with ⟨final?, left⟩
  obtain ⟨outcome, waiting⟩ := handled_stages valid routed hmain hfinal
  rw [outcome] at fits
  rw [waiting] at hentry
  cases final? with
  | some f =>
    obtain ⟨left, -, rfl⟩ := runFinal_failing hfinal
    rw [← replaceEvents_eq] at hentry
    exact .of_report (fits.2 f rfl) hentry
  | none =>
    obtain ⟨m, final, run⟩ := answering.final
    obtain ⟨rs, leaves, some_or_all, -⟩ := mainStage_left hd.equips answering.main
      (session_ne_userKey valid) (b := b) settled.sound
    have leaves : Leaves e rs start := by
      rw [← Dispatcher.arrived, hmain] at leaves
      exact leaves
    have copied := finalStage_left hd.toolkit final run leaves
    rw [hfinal] at copied
    rcases copied with ⟨-, blocks, all, events⟩ | ⟨⟨f, failed⟩, -⟩
    · rw [events, Memory.mem_drain_refilled] at hentry
      obtain ⟨r, hr, x, hx, destination, sealed⟩ := mem_copies all hentry
      refine ⟨x, answering.utterances hd answers settled hmain fits.1 x hx,
        .inr ⟨r.state, ?_, sealed⟩⟩
      rw [destination]
      rcases some_or_all with rfl | rfl
      · cases hr
      · exact answering.loaded_keyState? hd.equips answers settled hr
    · cases failed

/-- What is written for a message is the report of a failure as it is, or an utterance sealed under
the key state that the session it goes to had before. -/
theorem Shaking.written (hd : Shaking h thread own d)
    (settled : (h.store.get b.world).Settled thread) (clear : b.events.drain.1 = [])
    (fits : (d.handle raw b).1.outcome.Fits) {entry : String × Event}
    (hentry : entry ∈ d.writes raw b) : h.Speaks own b entry := by
  cases valid : validate raw with
  | error r =>
    rw [Dispatcher.handle_writes] at fits
    unfold Dispatcher.writes at hentry
    unfold Dispatcher.settle at hentry fits
    rw [valid] at hentry fits
    dsimp only [Dispatcher.reject] at hentry
    cases known : r.header? with
    | none =>
      rw [known] at hentry
      cases hentry
    | some header =>
      rw [known] at hentry
      exact .of_report fits hentry
  | ok e =>
    cases routed : d.table.get? e.label with
    | none =>
      unfold Dispatcher.writes Dispatcher.settle Dispatcher.route at hentry
      rw [valid] at hentry
      dsimp only at hentry
      rw [routed] at hentry
      dsimp only at hentry
      rw [(d.env.log_memories _ _ _ _).1, (d.env.log_memories _ _ _ _).1, clear] at hentry
      cases hentry
    | some p =>
      obtain ⟨multiple, last, answers, answering⟩ := hd.table _ p routed
      exact answering.written hd valid routed answers settled fits hentry

/-! ## The key states after a message -/

/-- Nothing is done to the store after the main stage. -/
theorem store_handled (hd : Builtin h thread d) (valid : validate raw = .ok e)
    (routed : d.table.get? e.label = some p) :
    h.store.get (d.handle raw b).2.world =
      h.store.get ((Dispatch.mainStage d.env p e).outcome (d.arrived e b)).2.world := by
  have spares : h.SparesAfter d p := ⟨fun w hw => .inl (hd.final _ p routed w hw), hd.write⟩
  rw [Dispatcher.handle_writes, Dispatcher.settle_routed valid routed]
  dsimp only [Dispatcher.stages]
  rw [store_writeAll hd.equips hd.write, store_finalStage hd.equips spares, ← Dispatcher.arrived]
  unfold Dispatcher.runMain
  rcases (Dispatch.mainStage d.env p e).outcome (d.arrived e b) with ⟨f | v, c⟩
  · dsimp only
    rw [store_replaceEvents]
  · rfl

/-- Without a pipeline nothing is done to the store at all. -/
theorem store_unhandled (hd : Builtin h thread d)
    (unrouted : ∀ e, validate raw = .ok e → d.table.get? e.label = none) :
    h.store.get (d.handle raw b).2.world = h.store.get b.world := by
  rw [Dispatcher.handle_writes]
  dsimp only
  rw [store_writeAll hd.equips hd.write]
  unfold Dispatcher.settle
  cases valid : validate raw with
  | error r =>
    have logged := (hd.equips.log .debug r.failure.logCode (.object
      [("msg", .str r.failure.message), ("notifiable", .bool r.failure.notifiable),
        ("raw", .str raw)]) b).1
    dsimp only [Dispatcher.reject]
    cases r.header? with
    | none => exact logged
    | some header =>
      dsimp only
      rw [store_replaceEvents]
      exact logged
  | ok e =>
    dsimp only [Dispatcher.route]
    rw [unrouted e valid]
    dsimp only
    rw [(hd.equips.log _ _ _ _).1, (hd.equips.log _ _ _ _).1]

/-- The units of work around the processors of a pipeline give no session another key state,
unless the session has chosen a suite. -/
theorem Answering.kept (answering : Answering p multiple last) (hd : Shaking h thread own d)
    (routed : d.table.get? e.label = some p) (answers : Answers e.label last) {s after : Store}
    (settled : s.Settled thread)
    (leaves : UnitsLeave h thread (Dispatch.runMain d.env e p.main) s after) {value : String}
    (other : e.label = selectionLabel → e.header.session ≠ value) {k : KeyState}
    (key : after.tables.keyState? value = some k) : s.tables.keyState? value = some k := by
  have builtin := hd.main _ p routed
  cases leaves with
  | refused =>
    obtain ⟨-, -, sessions, encryptions⟩ := Store.rollback_writes settled.sound settled.idle []
    exact (Tables.keyState?_congr sessions encryptions value).symm.trans key
  | @undone begun c f opens fails =>
    obtain ⟨turns, hturns, store, -⟩ := does_runMain hd.equips e builtin begun
    rw [fails, opens] at store
    have store : h.store.get c.world = (s.begin thread).run turns := store
    rw [store] at key
    rcases hturns with ⟨⟨ws, rfl⟩, -⟩ | ⟨ws, session, -, available, -, rfl⟩
    · obtain ⟨-, -, sessions, encryptions⟩ := Store.rollback_writes settled.sound settled.idle ws
      exact (Tables.keyState?_congr sessions encryptions value).symm.trans key
    · rw [opens] at available
      obtain ⟨-, -, sessions, encryptions⟩ :=
        Store.rollback_writes_delete settled.sound settled.idle ws session.id available
      have deleted := Tables.keyState?_congr (t := s.tables.delete session.id) sessions encryptions
        value
      exact Tables.keyState?_delete settled.sound.tables
        (settled.paired.unambiguous settled.sound.tables) (deleted.symm.trans key)
  | @kept begun c opens ends =>
    have sound : (h.store.get begun.world).Sound :=
      opens ▸ (Store.performed s ⟨thread, .begin⟩).sound settled.sound
    obtain ⟨mid, left, prepared, acted, store, -⟩ := answering.ended hd.equips sound ends
    rw [Store.tables_commit, store, answers.keyState? hd.equips
      (Providers.ciphers_of_toolkit hd.toolkit) prepared.sound acted other, prepared.keyState?,
      opens] at key
    exact key

/-- No session has another key state after a message than before, unless the message chooses a
suite for the session. -/
theorem Shaking.kept (hd : Shaking h thread own d) (settled : (h.store.get b.world).Settled thread)
    {value : String} (other : ∀ e, validate raw = .ok e → e.label = selectionLabel →
      e.header.session ≠ value) {k : KeyState}
    (key : (h.store.get (d.handle raw b).2.world).tables.keyState? value = some k) :
    (h.store.get b.world).tables.keyState? value = some k := by
  by_cases unrouted : ∀ e, validate raw = .ok e → d.table.get? e.label = none
  · rw [store_unhandled hd.toBuiltin unrouted] at key
    exact key
  · push Not at unrouted
    obtain ⟨e, valid, routed⟩ := unrouted
    obtain ⟨p, routed⟩ := Option.ne_none_iff_exists'.mp routed
    obtain ⟨multiple, last, answers, answering⟩ := hd.table _ p routed
    rw [store_handled hd.toBuiltin valid routed,
      Dispatch.mainStage_outcome hd.equips.database hd.equips.ledger] at key
    have cleared : h.store.get (Dispatch.cleared d.env p e (d.arrived e b)).world =
        h.store.get b.world := (hd.equips.log _ _ _ _).1.trans (hd.equips.log _ _ _ b).1
    have leaves : UnitsLeave h thread (Dispatch.runMain d.env e p.main) _ _ :=
      inUnits_store _ (Dispatch.cleared d.env p e (d.arrived e b))
    rw [cleared] at leaves
    exact answering.kept hd routed answers settled leaves (other e valid) key

/-- The session that chooses a suite which is granted, with a key that fits, has them when the main
stage has come to its end. -/
theorem Shaking.chosen (hd : Shaking h thread own d)
    (settled : (h.store.get b.world).Settled thread) (valid : validate raw = .ok e)
    (selects : e.label = selectionLabel) {final? : Option Failure}
    (completes : (d.handle raw b).1.outcome = .handled e.label none final?) {s : Suite}
    (requested : requestedSuite? (Toolkit.ofCiphers own).ciphers e = some s)
    (fits : keyFits s (keyOf e) = true) :
    (h.store.get (d.handle raw b).2.world).tables.keyState? e.header.session =
      some (chosenState s (keyOf e)) := by
  cases routed : d.table.get? e.label with
  | none =>
    rw [Dispatcher.handle_writes] at completes
    unfold Dispatcher.settle Dispatcher.route at completes
    rw [valid] at completes
    dsimp only at completes
    rw [routed] at completes
    cases completes
  | some p =>
    obtain ⟨multiple, last, answers, answering⟩ := hd.table _ p routed
    rw [store_handled hd.toBuiltin valid routed]
    rcases hmain : d.runMain p e (d.arrived e b) with ⟨main?, start⟩
    rcases hfinal : d.runFinal p e start with ⟨final', left⟩
    rw [(handled_stages valid routed hmain hfinal).1] at completes
    cases completes
    have ended := runMain_ended hmain
    obtain ⟨left, ran, store, -⟩ := mainStage_ended hd.equips ended
    obtain ⟨sound, tables⟩ := sound_begun hd.equips p e settled.sound
    obtain ⟨mid, acted, prepared, ends, same, -⟩ := answering.ended hd.equips sound ran
    -- The check has passed, so the session is there.
    obtain ⟨x, found⟩ :
        ∃ x, (h.store.get b.world).yields? (tokenOf e) e.header.session = some x := by
      cases found : (h.store.get b.world).yields? (tokenOf e) e.header.session with
      | some x => exact ⟨x, rfl⟩
      | none =>
        obtain ⟨-, f, c, failed, -⟩ := runMain_unknown hd.equips answering.main found
        cases failed.symm.trans ran
    obtain ⟨held, named⟩ := settled.sound.tables.mem_of_yields? found
    obtain ⟨x', there⟩ := (tables ▸ prepared.clients).sessionByValue? held
    rw [named] at there
    rw [ended, store, Store.tables_commit, same]
    cases answers.selects selects
    exact (selectSuite_chosen hd.equips (Providers.ciphers_of_toolkit hd.toolkit) selects
      prepared.sound ends).2 s x' requested fits there

end EventWorker
