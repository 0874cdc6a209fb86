import EventWorker.Proofs.Dispatch.Atomicity
import EventWorker.Proofs.Dispatch.Discipline

/-!
# Messages that fail their authentication

A pipeline that starts with the authentication check does nothing for a message of an unknown
or expired session: the check stops the main stage before any other processor has run, its
failure is for nobody, and the final processors find no event.

Results:
1. `Host.opens`: both units of work begin unless the ledger refuses.
2. `Observed.mainStage_stopped`: what is noted down when the first processor stops.
3. `runFinal_idle`: the built-in final processors without events.
4. `handle_unauthenticated`: the message as a whole.
-/

namespace EventWorker

variable {ω : Type} {h : Host ω} {thread : String} {env : Environment ω}

/-! ## Beginning -/

namespace Host

/-- The bench on which the main processors of a pipeline start with an event, once the unit of
the store and that of the ledger have begun. -/
def begun (h : Host ω) (thread : String) (env : Environment ω) (p : Pipeline ω) (e : Event)
    (b : Bench ω) : Bench ω :=
  Dispatch.begun (Store.database h.store thread).toManager (Ledger.manager h.ledger)
    (Dispatch.cleared env p e (env.log .debug Code.logNewEvent e.toValue b))

/-- Both units of work begin unless the ledger refuses. -/
theorem opens (thread : String) {b : Bench ω}
    (begins : ∀ g, (h.ledger.get b.world).failing ≠ some (.begin, g)) :
    ∃ b₁, (Dispatch.managed (Store.database h.store thread).begin).outcome b = (.ok (), b₁) ∧
      (Dispatch.managed (Ledger.manager h.ledger).begin).outcome b₁ =
        (.ok (), Dispatch.begun (Store.database h.store thread).toManager
          (Ledger.manager h.ledger) b) := by
  rcases first : (Dispatch.managed (Store.database h.store thread).begin).outcome b with ⟨r, b₁⟩
  obtain ⟨rfl, -, ledger₁⟩ := managed_change first
  rcases second : (Dispatch.managed (Ledger.manager h.ledger).begin).outcome b₁ with ⟨r, b₂⟩
  have started : Dispatch.begun (Store.database h.store thread).toManager
      (Ledger.manager h.ledger) b = b₂ := by
    rw [Dispatch.begun, first, second]
  obtain ⟨-, -, error⟩ := managed_call second
  refine ⟨b₁, rfl, ?_⟩
  rw [started, second]
  cases r with
  | ok v => rfl
  | error f =>
    obtain ⟨g, failing, -⟩ := error f rfl
    exact absurd (ledger₁ ▸ failing) (begins g)

/-- When the ledger refuses, only the unit of the store begins. -/
theorem refuses (thread : String) {b : Bench ω} {g : Failure}
    (failing : (h.ledger.get b.world).failing = some (.begin, g)) :
    ∃ b₁ c, (Dispatch.managed (Store.database h.store thread).begin).outcome b = (.ok (), b₁) ∧
      (Dispatch.managed (Ledger.manager h.ledger).begin).outcome b₁ =
        (.error (Dispatch.processingFailure g), c) := by
  rcases first : (Dispatch.managed (Store.database h.store thread).begin).outcome b with ⟨r, b₁⟩
  obtain ⟨rfl, -, ledger₁⟩ := managed_change first
  have refused := managed_refused (h := h) (ledger₁.symm ▸ failing)
  rcases second : (Dispatch.managed (Ledger.manager h.ledger).begin).outcome b₁ with ⟨r, c⟩
  refine ⟨b₁, c, rfl, ?_⟩
  rw [second]
  exact congrArg (·, c) ((congrArg Prod.fst second).symm.trans refused)

theorem begun_memories (h : Host ω) (thread : String) (env : Environment ω) (p : Pipeline ω)
    (e : Event) (b : Bench ω) :
    (h.begun thread env p e b).events = {} ∧ (h.begun thread env p e b).data = {} := by
  obtain ⟨events, data⟩ := env.log_memories .info Code.logLookup
    (.object [("event", .str e.label), ("processors", .nat p.main.length)])
    { env.log .debug Code.logNewEvent e.toValue b with events := {}, data := {} }
  unfold begun Dispatch.begun
  rw [(managed_memories _ _).1, (managed_memories _ _).1, (managed_memories _ _).2,
    (managed_memories _ _).2]
  exact ⟨events, data⟩

/-- Neither logging nor the ledger touches the store before the main processors start. -/
theorem store_begun (henv : h.Equips thread env) (p : Pipeline ω) (e : Event) (b : Bench ω) :
    h.store.get (h.begun thread env p e b).world = (h.store.get b.world).begin thread := by
  generalize cleared : Dispatch.cleared env p e (env.log .debug Code.logNewEvent e.toValue b) = c
  have store : h.store.get c.world = h.store.get b.world := by
    rw [← cleared]
    exact (henv.log _ _ _ _).1.trans (henv.log _ _ _ b).1
  rcases first : (Dispatch.managed (Store.database h.store thread).begin).outcome c with ⟨r, b₁⟩
  rcases second : (Dispatch.managed (Ledger.manager h.ledger).begin).outcome b₁ with ⟨r', b₂⟩
  rw [begun, cleared, Dispatch.begun, first, second, (managed_call second).1,
    (managed_change first).2.1, store]

theorem ledger_cleared (henv : h.Equips thread env) (p : Pipeline ω) (e : Event) (b : Bench ω) :
    h.ledger.get (Dispatch.cleared env p e (env.log .debug Code.logNewEvent e.toValue b)).world =
      h.ledger.get b.world :=
  (henv.log _ _ _ _).2.trans (henv.log _ _ _ b).2

end Host

/-! ## The first processor stops -/

theorem Dispatch.runMain_stopped {e : Event} {w : Wired (MainRun ω)} {b c : Bench ω} {stop : Stop}
    (stops : (w.run env e).outcome b = (.error stop, c)) (later : List (Wired (MainRun ω))) :
    (runMain env e (w :: later)).outcome b =
      (.error stop.failure, env.logStopped w.name stop.failure c) := by
  rw [runMain]
  refine Step.outcome_bind_error ?_
  rw [runOne, Step.outcome_ofFunction, stops]

namespace Observed

theorem managed_began (callee : Callee) {a : Act ω Unit} {b : Bench (Observed ω)} {c : Bench ω}
    (ended : (Dispatch.managed a).outcome (plain b) = (.ok (), c)) :
    (Dispatch.managed (noted callsLens callee .failed (a.focus worldLens))).outcome b =
      (.ok (), after b c [{ callee }]) := by
  obtain ⟨calls, asked, h⟩ := managed_follows callee a b
  rw [ended] at asked h
  rcases asked with ⟨-, rfl⟩ | ⟨g, hg, -⟩
  · exact h
  · cases hg

theorem runMain_stopped {e : Event} {w : Wired (MainRun ω)} {b : Bench (Observed ω)} {c : Bench ω}
    {stop : Stop} (stops : (w.run env e).outcome (plain b) = (.error stop, c))
    (later : List (Wired (MainRun ω))) :
    (Dispatch.runMain env.observed e ((w :: later).mapIdx fun i w =>
        { id := w.id, name := w.name, run := fun _ e => watched (.main i) (w.run env e) })).outcome
        b =
      (.error stop.failure, after b (env.logStopped w.name stop.failure c)
        [{ callee := .main 0, stop? := some stop }]) := by
  rw [List.mapIdx_cons, Dispatch.runMain_stopped (watched_error stops), Environment.logStopped,
    log_observed, plain_after, after_after]
  rfl

/-- The first main processor stops: no other one is called, and both managers are asked to
roll back. -/
theorem mainStage_stopped {p : Pipeline ω} {e : Event} {db : Database ω} {ledger : Manager ω}
    (hdb : env.database? = some db) (hledger : env.ledger? = some ledger)
    {w : Wired (MainRun ω)} {later : List (Wired (MainRun ω))} (main : p.main = w :: later)
    {b : Bench (Observed ω)} {b₁ b₂ c : Bench ω} {stop : Stop}
    (opens : (Dispatch.managed db.begin).outcome (Dispatch.cleared env p e (plain b)) =
      (.ok (), b₁))
    (opens' : (Dispatch.managed ledger.begin).outcome b₁ = (.ok (), b₂))
    (stops : (w.run env e).outcome b₂ = (.error stop, c)) :
    ∃ undone, RolledBack [.database, .ledger] undone ∧
      (Dispatch.mainStage env.observed (p.observed env) e).outcome b =
        (((Dispatch.mainStage env p e).outcome (plain b)).1,
          after b ((Dispatch.mainStage env p e).outcome (plain b)).2
            ([{ callee := .unit .begin .database }, { callee := .unit .begin .ledger },
              { callee := .main 0, stop? := some stop }] ++ undone)) := by
  have hdb' : env.observed.database? = some db.observed := congrArg (Option.map _) hdb
  have hledger' : env.observed.ledger? = some (ledger.observed .ledger) :=
    congrArg (Option.map _) hledger
  have plainly := Dispatch.inUnits_stopped opens opens' (Dispatch.runMain_stopped stops later)
  rw [← main, ← Dispatch.mainStage_outcome hdb hledger] at plainly
  rw [Dispatch.mainStage_outcome hdb' hledger', cleared_observed, plainly]
  generalize Dispatch.cleared env p e (plain b) = b₀ at opens
  have began := managed_began (.unit .begin .database) (b := after b b₀ []) opens
  have began' := managed_began (.unit .begin .ledger)
    (b := after b b₁ [{ callee := .unit .begin .database }]) opens'
  rw [after_after] at began began'
  have noted := runMain_stopped (b := after b b₂ [{ callee := .unit .begin .database },
    { callee := .unit .begin .ledger }]) stops later
  rw [after_after, ← main] at noted
  obtain ⟨undone, rolled, h⟩ := undoBoth_follows .database .ledger db.toManager ledger
    (after b (env.logStopped w.name stop.failure c) [{ callee := .unit .begin .database },
      { callee := .unit .begin .ledger }, { callee := .main 0, stop? := some stop }])
  refine ⟨undone, rolled, ?_⟩
  rw [plain_after, after_after] at h
  refine (Dispatch.inUnits_stopped began began' noted).trans ?_
  exact congrArg (Prod.mk _) h

end Observed

/-! ## The final processors without events -/

/-- The built-in final processors have nothing to do without events, and need no provider. -/
theorem outcome_final_idle {run : FinalRun ω} (builtin : Registry.builtin.MakesFinal run)
    (services : Services ω) (providers : Providers) {b : Bench ω} (silent : b.events = {}) :
    (run services providers).outcome b = (.ok (), b) := by
  obtain ⟨events, data, world⟩ := b
  cases silent
  rcases Registry.builtin_final builtin with rfl | rfl
  · rfl
  · rfl

theorem runFinal_idle {final : List (Wired (FinalRun ω))}
    (builtin : ∀ w ∈ final, Registry.builtin.MakesFinal w.run) {b : Bench ω}
    (silent : b.events = {}) :
    ∃ c, (Dispatch.runFinal env final).outcome b = (.ok (), c) ∧ c.events = {} := by
  induction final generalizing b with
  | nil => exact ⟨b, rfl, silent⟩
  | cons w rest ih =>
    have idle := outcome_final_idle (builtin w List.mem_cons_self) env.services env.providers silent
    have one : (Dispatch.runOne env w.name [] (w.run env.services env.providers)).outcome b =
        (.ok (), env.logHandled w.name [] b) := by
      rw [Dispatch.runOne, Step.outcome_ofFunction, idle]
    rw [Dispatch.runFinal, Step.outcome_bind_ok one]
    exact ih (fun w' hw' => builtin w' (List.mem_cons_of_mem _ hw'))
      ((env.log_memories _ _ _ b).1.trans silent)

/-! ## The store -/

theorem Store.tables_rollback_begin (s : Store) (a : String) :
    ((s.begin a).rollback a).tables = s.tables := by
  rw [tables_rollback, innermost, units_begin, if_pos rfl]
  rfl

/-- A deletion is not undone by rolling back a unit of work in which nothing was written. -/
theorem Store.tables_rollback_begin_delete {s : Store} (available : s.unavailable = false)
    (a b : String) (id : Nat) :
    (((s.begin a).perform ⟨b, .delete id⟩).rollback a).tables = s.tables.delete id := by
  have done : (s.begin a).delete id = .ok ((), (s.begin a).perform ⟨b, .delete id⟩) :=
    delete_available (s := s.begin a) available b id
  rw [tables_rollback, innermost, units_delete done, units_begin, if_pos rfl, tables_delete done]
  rfl

/-! ## The message -/

namespace Call

theorem filter_isMain_final {n : Nat} {calls : List Call} {stop? : Option Stop}
    (ran : InOrder .final n calls stop?) : calls.filter isMain = [] := by
  have ended (k : Nat) : (ended .final k).filter isMain = [] := by
    rw [List.filter_eq_nil_iff]
    intro c hc
    obtain ⟨i, -, rfl⟩ := List.mem_map.mp hc
    exact Bool.false_ne_true
  cases stop? with
  | none =>
    obtain rfl : calls = _ := ran
    exact ended n
  | some stop =>
    obtain ⟨k, -, rfl⟩ := ran
    rw [List.filter_append, ended]
    rfl

end Call

variable {d : Dispatcher ω} {p : Pipeline ω} {e : Event}

/-- A failure that is for nobody leaves no event behind. -/
theorem Dispatcher.runMain_silent {b c : Bench ω} {f : Failure}
    (failed : (Dispatch.mainStage d.env p e).outcome b = (.error f, c))
    (silent : f.notifiable = false) :
    d.runMain p e b = (some f, { c with events := {} }) := by
  unfold runMain replaceEvents
  rw [failed]
  dsimp only
  rw [silent]
  rfl

/-- Without events and with built-in final processors the final stage succeeds, and nothing is
written. -/
theorem settle_idle (henv : h.Equips thread d.env) {raw : String} (valid : validate raw = .ok e)
    (routed : d.table.get? e.label = some p)
    (builtin : ∀ w ∈ p.final, Registry.builtin.MakesFinal w.run) {b c : Bench ω} {f : Failure}
    (hmain : d.runMain p e (d.env.log .debug Code.logNewEvent e.toValue b) = (some f, c))
    (silent : c.events = {}) :
    (d.handle raw b).1 = { outcome := .handled e.label (some f) none, sent := 0 } ∧
      d.writes raw b = [] ∧
      h.store.get (d.handle raw b).2.world = h.store.get c.world := by
  obtain ⟨c', ended, silent'⟩ :
      ∃ c', (Dispatch.runFinal d.env p.final).outcome c = (.ok (), c') ∧ c'.events = {} :=
    runFinal_idle builtin silent
  have store := store_runFinal henv (fun w hw => quiet_builtin_final henv (builtin w hw)) c
  rw [ended] at store
  have hfinal : d.runFinal p e c = (none, c') := by
    rw [Dispatcher.runFinal, Dispatch.finalStage, ended]
  have settled : d.settle raw b = (.handled e.label (some f) none, c') := by
    rw [Dispatcher.settle_routed valid routed, Dispatcher.stages, hmain]
    dsimp only
    rw [hfinal]
  have nothing : d.writes raw b = [] := by
    rw [Dispatcher.writes, settled, silent']
    rfl
  rw [Dispatcher.handle_writes, nothing, settled]
  exact ⟨rfl, rfl, store⟩

/-- A message for which the store finds no session, or one that is expired when the check
reads the clock, is stopped by the check. No later main processor is called, the failure is
523 or 817 and for nobody, nothing is written, and the final stage succeeds. The tables are
as they were, but for the expired session and its encryption row. This holds whatever the
later processors and the output do, and whether the ledger rolls back or refuses to. -/
theorem handle_unauthenticated (h : Host ω) (d : Dispatcher ω) {thread : String}
    (henv : h.Equips thread d.env) {raw : String} {e : Event} {p : Pipeline ω}
    (valid : validate raw = .ok e) (routed : d.table.get? e.label = some p)
    {check : Wired (MainRun ω)} {later : List (Wired (MainRun ω))} (main : p.main = check :: later)
    (first : check.run = MainRun.ofAct Processor.authenticate)
    (final : ∀ w ∈ p.final, Registry.builtin.MakesFinal w.run) {b : Bench ω}
    (reachable : (h.store.get b.world).Reachable)
    (begins : ∀ g, (h.ledger.get b.world).failing ≠ some (.begin, g))
    (refused : ∀ session,
      (h.store.get b.world).yields? (Processor.tokenOf e) e.header.session = some session →
      session.isExpired (d.env.services.now (h.begun thread d.env p e b).world).1 = true) :
    let before := h.store.get b.world
    let after := h.store.get (d.handle raw b).2.world
    ∃ f, f.notifiable = false ∧
      (d.handle raw b).1 = { outcome := .handled e.label (some f) none, sent := 0 } ∧
      d.writes raw b = [] ∧
      (d.observed.handle raw b.observed).1 = (d.handle raw b).1 ∧
      (d.observed.handle raw b.observed).2.world.calls.filter Call.isMain =
        [{ callee := .main 0, stop? := some (.failed f) }] ∧
      match before.yields? (Processor.tokenOf e) e.header.session with
      | none => f.code = 523 ∧ after.tables = before.tables
      | some session =>
        f.code = 817 ∧ session.value = e.header.session ∧
          session.token = some (Processor.tokenOf e) ∧
          Keyed.find? session.id before.tables.sessions = some session ∧
          after.tables = before.tables.delete session.id := by
  intro before after
  generalize logged : d.env.log .debug Code.logNewEvent e.toValue b = b₀
  have start := Host.store_begun henv p e b
  have begins' : ∀ g, (h.ledger.get (Dispatch.cleared d.env p e b₀).world).failing ≠
      some (.begin, g) := by
    rw [← logged, Host.ledger_cleared henv]
    exact begins
  obtain ⟨b₁, opens, opens'⟩ := Host.opens thread begins'
  have begun : Dispatch.begun (Store.database h.store thread).toManager (Ledger.manager h.ledger)
      (Dispatch.cleared d.env p e b₀) = h.begun thread d.env p e b := by
    rw [Host.begun, logged]
  rw [begun] at opens'
  -- The check is the first to run, in a store that is the one from before but for its unit.
  have yields : (h.store.get (h.begun thread d.env p e b).world).yields?
      (Processor.tokenOf e) e.header.session =
      before.yields? (Processor.tokenOf e) e.header.session := by
    rw [start]
    rfl
  have course := authenticates henv e (h.begun thread d.env p e b)
  rcases ended : (Processor.authenticate d.env e).outcome (h.begun thread d.env p e b) with ⟨r, c⟩
  rw [ended] at course
  obtain ⟨f, rfl, silent, -, -, effect⟩ := course.refused (by rw [yields]; exact refused)
  have stops : (check.run d.env e).outcome (h.begun thread d.env p e b) =
      (.error (.failed f), c) := by
    rw [first, MainRun.ofAct, Step.outcome_mapError, ended]
    rfl
  have stage := Dispatch.inUnits_stopped opens opens' (Dispatch.runMain_stopped stops later)
  rw [← main, ← Dispatch.mainStage_outcome henv.database henv.ledger] at stage
  have hmain := Dispatcher.runMain_silent (d := d) stage silent
  rw [← logged] at hmain
  obtain ⟨report, nothing, store⟩ := settle_idle henv valid routed final hmain rfl
  have hafter : after = (h.store.get c.world).rollback thread := by
    refine store.trans ?_
    dsimp only
    rw [Dispatch.undoBoth, Host.store_undo_ledger, Host.store_undo_database,
      Environment.logStopped, (henv.log _ _ _ c).1]
  -- What an observed dispatcher notes down.
  obtain ⟨undone, ⟨_, _, rfl, _, _, rfl, rfl⟩, observed⟩ := Observed.mainStage_stopped
    (b := Observed.after b.observed b₀ []) henv.database henv.ledger main opens opens' stops
  have observed := Observed.runMain_of_mainStage (d := d) observed
  rw [Observed.plain_after, Observed.after_after] at observed
  obtain ⟨_, tail, ⟨_, ran, -⟩, -, handled⟩ :=
    Observed.handle_of_runMain (b := b.observed) valid routed logged observed
  refine ⟨f, silent, report, nothing, by rw [handled]; rfl, ?_, ?_⟩
  · rw [handled]
    show List.filter Call.isMain ([] ++ ([] ++ _ ++ tail)) = _
    rw [List.nil_append, List.filter_append, Call.filter_isMain_final ran]
    rfl
  · rw [yields] at effect
    cases found : before.yields? (Processor.tokenOf e) e.header.session with
    | none =>
      rw [found, start] at effect
      rw [hafter, effect.2]
      exact ⟨effect.1, Store.tables_rollback_begin _ _⟩
    | some session =>
      rw [found, start] at effect
      have available := Store.yields?_available found
      rw [Store.yields?_eq available] at found
      obtain ⟨value, token, filed⟩ := reachable.sound.tables.session?_spec found
      rw [hafter, effect.2]
      exact ⟨effect.1, value, token, filed, Store.tables_rollback_begin_delete available _ _ _⟩

/-- Logins are checked before they open a session. -/
def guardedPipeline : Pipeline Site where
  main :=
    [⟨0, "authentication_check", MainRun.ofAct Processor.authenticate⟩,
      ⟨1, "start_session", MainRun.ofAct Processor.startSession⟩]
  final :=
    [⟨2, "event_multiplication_mle", FinalRun.ofAct Processor.multiply⟩,
      ⟨3, "event_type_to_session", FinalRun.ofAct fun _ _ => Processor.rekeyBySession⟩]

/-- A dispatcher at a site that takes logins through `guardedPipeline`. -/
def guardedDispatcher : Dispatcher Site where
  output := (Site.supply Lens.whole Site.thread).output .memory
  table := { pipelines := [("login", guardedPipeline)] }
  env := Site.environment Site.thread {}

/-- The bench at a site one second after the session of the user has expired, with a ledger
that refuses to roll back. -/
def lateBench : Bench Site :=
  { world :=
      { store := ({} : Store).run aliceTurns, clock := 43201000, entropy := { key := [] }
        ledger := { failing := some (.rollback, Failure.new 1 "ledger closed") } } }

/-- The event of `secondLogin`. -/
def secondLoginEvent : Event :=
  { header := Header.plain "aa01" notAvailable "login"
    payload := [("auth_token", .str "b1"), ("subject", .str "alice")] }

/-- The login finds its session expired. The session is gone and nobody is told. -/
theorem handle_unauthenticated_expired :
    let after := Site.host.store.get (guardedDispatcher.handle secondLogin lateBench).2.world
    ∃ f, f.notifiable = false ∧
      (guardedDispatcher.handle secondLogin lateBench).1 =
        { outcome := .handled "login" (some f) none, sent := 0 } ∧
      guardedDispatcher.writes secondLogin lateBench = [] ∧
      (guardedDispatcher.observed.handle secondLogin lateBench.observed).2.world.calls.filter
        Call.isMain = [{ callee := .main 0, stop? := some (.failed f) }] ∧
      f.code = 817 ∧ after.tables.sessions = [] ∧ after.tables.encryptions = [] := by
  intro after
  have valid : validate secondLogin = .ok secondLoginEvent := by rfl
  have found : (Site.host.store.get lateBench.world).yields? (Processor.tokenOf secondLoginEvent)
      secondLoginEvent.header.session = some ⟨1, 1, "aa01", some "b1", 0⟩ := by
    decide
  have final : ∀ w ∈ guardedPipeline.final, Registry.builtin.MakesFinal w.run := by
    intro w hw
    rcases List.mem_cons.mp hw with rfl | hw
    · exact ⟨⟨"event_multiplication_mle", ""⟩, lateBench.world, _, _, rfl, rfl⟩
    · rw [List.mem_singleton.mp hw]
      exact ⟨⟨"event_type_to_session", ""⟩, lateBench.world, _, _, rfl, rfl⟩
  obtain ⟨f, silent, report, nothing, -, calls, effect⟩ :=
    handle_unauthenticated Site.host guardedDispatcher (Site.host_equips Site.thread {}) valid rfl
      rfl rfl final (b := lateBench) ⟨aliceTurns, rfl⟩ (fun g hg => by cases hg)
      (fun session hs => by
        cases found.symm.trans hs
        decide +kernel)
  refine ⟨f, silent, report, nothing, calls, ?_⟩
  rw [found] at effect
  obtain ⟨code, -, -, -, tables⟩ := effect
  have tables : after.tables = (Site.host.store.get lateBench.world).tables.delete 1 := tables
  rw [tables]
  exact ⟨code, by decide, by decide⟩

end EventWorker
