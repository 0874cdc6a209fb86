import EventWorker.Proofs.Dispatch.Atomicity
import EventWorker.Proofs.Dispatch.Rounds
import EventWorker.Proofs.Processor.Pairing

/-!
# Pairs of rows over whole runs

A dispatcher over built-in processors handles one message after the other, while time passes
and the ledger refuses what it will.

Results:
1. `inUnits_store`: what any main stage on a store leaves there.
2. `handle_settled`: a message leaves sessions and encryption rows in pairs, and no unit of
   work open.
3. `rounds_paired`: so does every sequence of messages.
-/

namespace EventWorker

variable {ω : Type} {h : Host ω} {thread : String} {env : Environment ω}

/-! ## The main stage -/

/-- What the units of work around a body leave in the store: nothing when the ledger has refused
to begin, and else what the body did, rolled back if the body failed and committed if it has come
to its end. The ledger has no part in it, whether it commits or not. -/
inductive UnitsLeave (h : Host ω) (thread : String) (body : Act (Bench ω) Unit) (s : Store) :
    Store → Prop
  | refused : UnitsLeave h thread body s ((s.begin thread).rollback thread)
  | undone {begun c : Bench ω} {f : Failure} (opens : h.store.get begun.world = s.begin thread)
      (fails : body.outcome begun = (.error f, c)) :
      UnitsLeave h thread body s ((h.store.get c.world).rollback thread)
  | kept {begun c : Bench ω} (opens : h.store.get begun.world = s.begin thread)
      (ends : body.outcome begun = (.ok (), c)) :
      UnitsLeave h thread body s ((h.store.get c.world).commit thread)

theorem inUnits_store (body : Act (Bench ω) Unit) (b : Bench ω) :
    UnitsLeave h thread body (h.store.get b.world)
      (h.store.get ((Dispatch.inUnits (Store.database h.store thread).toManager
        (Ledger.manager h.ledger) body).outcome b).2.world) := by
  have course := Dispatch.inUnits_ends (Store.database h.store thread).toManager
    (Ledger.manager h.ledger) body b
  generalize (Dispatch.inUnits (Store.database h.store thread).toManager
    (Ledger.manager h.ledger) body).outcome b = out at course ⊢
  -- The database refuses nothing, and the ledger leaves the store alone.
  cases course with
  | unopened opens => cases (Host.managed_change opens).1
  | uncommitted _ _ _ commits => cases (Host.managed_change commits).1
  | refused opens refuses =>
    rw [Host.store_undo_database, (Host.managed_call refuses).1, (Host.managed_change opens).2.1]
    exact .refused
  | stopped opens opens' stops =>
    rw [Dispatch.undoBoth, Host.store_undo_ledger, Host.store_undo_database]
    exact .undone ((Host.managed_call opens').1.trans (Host.managed_change opens).2.1) stops
  | halfway opens opens' ends commits commits' =>
    rw [Host.store_undo_ledger, (Host.managed_call commits').1, (Host.managed_change commits).2.1]
    exact .kept ((Host.managed_call opens').1.trans (Host.managed_change opens).2.1) ends
  | committed opens opens' ends commits commits' =>
    rw [(Host.managed_call commits').1, (Host.managed_change commits).2.1]
    exact .kept ((Host.managed_call opens').1.trans (Host.managed_change opens).2.1) ends

/-- Half a pair is there only while a processor is at work, or after one that failed. -/
theorem UnitsLeave.settled (henv : h.Equips thread env) {e : Event}
    {main : List (Wired (MainRun ω))} (builtin : ∀ w ∈ main, Registry.builtin.MakesMain w.run)
    {s after : Store} (leaves : UnitsLeave h thread (Dispatch.runMain env e main) s after)
    (hs : s.Settled thread) : after.Settled thread := by
  cases leaves with
  | refused => exact hs.rollback []
  | @undone begun c f opens fails =>
    obtain ⟨turns, hturns, store, -⟩ := does_runMain henv e builtin begun
    rw [fails, opens] at store
    have store : h.store.get c.world = (s.begin thread).run turns := store
    rw [store]
    rcases hturns with ⟨⟨ws, rfl⟩, -⟩ | ⟨ws, session, -, available, -, rfl⟩
    · exact hs.rollback ws
    · rw [opens] at available
      exact hs.rollback_delete ws session.id available
  | @kept begun c opens ends =>
    obtain ⟨turns, hturns, store, -⟩ := does_runMain henv e builtin begun
    rw [ends, opens] at store
    have store : h.store.get c.world = (s.begin thread).run turns := store
    -- A main stage that has come to its end has found no session expired.
    rcases hturns with ⟨⟨ws, rfl⟩, -⟩ | ⟨_, _, _, _, failed, _⟩
    · have inPairs : InPairs h begun := by
        unfold InPairs
        rw [opens]
        exact ⟨(Store.performed _ ⟨thread, .begin⟩).sound hs.sound, hs.paired⟩
      have paired := (carries_runMain henv e builtin begun inPairs () c ends).2
      rw [store] at paired ⊢
      exact hs.commit ws paired
    · rw [ends] at failed
      cases failed

theorem mainStage_settled (henv : h.Equips thread env) {p : Pipeline ω}
    (builtin : ∀ w ∈ p.main, Registry.builtin.MakesMain w.run) (e : Event) {b : Bench ω}
    (hb : (h.store.get b.world).Settled thread) :
    (h.store.get ((Dispatch.mainStage env p e).outcome b).2.world).Settled thread := by
  rw [Dispatch.mainStage_outcome henv.database henv.ledger]
  have cleared : h.store.get (Dispatch.cleared env p e b).world = h.store.get b.world :=
    (henv.log .info Code.logLookup
      (.object [("event", .str e.label), ("processors", .nat p.main.length)])
      { b with events := {}, data := {} }).1
  refine (inUnits_store (Dispatch.runMain env e p.main) (Dispatch.cleared env p e b)).settled henv
    builtin ?_
  rw [cleared]
  exact hb

/-! ## One message -/

/-- A dispatcher over the store and the ledger whose pipelines are made of built-in processors,
and whose output leaves the store and the ledger alone. -/
structure Builtin (h : Host ω) (thread : String) (d : Dispatcher ω) : Prop where
  equips : h.Equips thread d.env
  write : ∀ m, h.Spares fun w => ((d.output.write m).outcome w).2
  main : ∀ label p, d.table.get? label = some p →
    ∀ w ∈ p.main, Registry.builtin.MakesMain w.run
  final : ∀ label p, d.table.get? label = some p →
    ∀ w ∈ p.final, Registry.builtin.MakesFinal w.run

variable {d : Dispatcher ω}

theorem runMain_settled (hd : Builtin h thread d) {p : Pipeline ω} {label : String}
    (routed : d.table.get? label = some p) (e : Event) {b : Bench ω}
    (hb : (h.store.get b.world).Settled thread) :
    (h.store.get (d.runMain p e b).2.world).Settled thread := by
  have main := mainStage_settled hd.equips (hd.main label p routed) e hb
  unfold Dispatcher.runMain
  rcases hstage : (Dispatch.mainStage d.env p e).outcome b with ⟨f | v, c⟩
  · rw [hstage] at main
    dsimp only
    rw [store_replaceEvents]
    exact main
  · rw [hstage] at main
    exact main

theorem route_settled (hd : Builtin h thread d) (e : Event) {b : Bench ω}
    (hb : (h.store.get b.world).Settled thread) :
    (h.store.get (d.route e b).2.world).Settled thread := by
  unfold Dispatcher.route
  cases routed : d.table.get? e.label with
  | none =>
    dsimp only
    rw [(hd.equips.log _ _ _ b).1]
    exact hb
  | some p =>
    have main := runMain_settled hd routed e hb
    have spares : h.SparesAfter d p :=
      ⟨fun w hw => .inl (hd.final _ p routed w hw), hd.write⟩
    dsimp only
    rw [store_finalStage hd.equips spares]
    exact main

/-- A message leaves pairs and no open unit of work, whatever becomes of it. -/
theorem handle_settled (hd : Builtin h thread d) (raw : String) {b : Bench ω}
    (hb : (h.store.get b.world).Settled thread) :
    (h.store.get (d.handle raw b).2.world).Settled thread := by
  have settled : (h.store.get (d.settle raw b).2.world).Settled thread := by
    unfold Dispatcher.settle
    cases validate raw with
    | error r =>
      dsimp only [Dispatcher.reject]
      have logged := (hd.equips.log .debug r.failure.logCode (.object
        [("msg", .str r.failure.message), ("notifiable", .bool r.failure.notifiable),
          ("raw", .str raw)]) b).1
      cases r.header? with
      | none =>
        dsimp only
        rw [logged]
        exact hb
      | some header =>
        dsimp only
        rw [store_replaceEvents, logged]
        exact hb
    | ok e =>
      refine route_settled hd e ?_
      rw [(hd.equips.log _ _ _ b).1]
      exact hb
  rw [Dispatcher.handle_writes]
  dsimp only
  rw [store_writeAll hd.equips hd.write]
  exact settled

/-! ## Many messages -/

/-- What happens between messages leaves the rows and the open units of work alone. The clock may
go on and the ledger may fail from now on or recover. -/
def Host.Undisturbed (h : Host ω) (rounds : List (Round ω)) : Prop :=
  ∀ r ∈ rounds, ∀ w, (h.store.get (r.before w)).tables = (h.store.get w).tables ∧
    (h.store.get (r.before w)).journals = (h.store.get w).journals

theorem handleEach_settled (hd : Builtin h thread d) {rounds : List (Round ω)}
    (undisturbed : h.Undisturbed rounds) {b : Bench ω}
    (hb : (h.store.get b.world).Settled thread) :
    (h.store.get (d.handleEach rounds b).2.world).Settled thread := by
  induction rounds generalizing b with
  | nil => exact hb
  | cons r rest ih =>
    obtain ⟨tables, journals⟩ := undisturbed r List.mem_cons_self b.world
    have start : (h.store.get (r.before b.world)).Settled thread := hb.of_same tables journals
    exact ih (fun r' hr' => undisturbed r' (List.mem_cons_of_mem _ hr'))
      (handle_settled hd r.raw (b := { b with world := r.before b.world }) start)

/-- From a store with any users and no sessions, every sequence of messages leads to one in which
every session has one encryption row, filed under its id, every encryption row belongs to a
session, no two sessions have one value, and the thread has no unit of work open. The ledger may
refuse any step of any message, and time may pass between messages and while they are handled. -/
theorem rounds_paired (h : Host ω) (d : Dispatcher ω) {thread : String} (hd : Builtin h thread d)
    {rounds : List (Round ω)} (undisturbed : h.Undisturbed rounds) {b : Bench ω}
    (sessions : (h.store.get b.world).tables.sessions = [])
    (encryptions : (h.store.get b.world).tables.encryptions = [])
    (idle : (h.store.get b.world).journals = []) :
    let after := h.store.get (d.handleEach rounds b).2.world
    (∀ x ∈ after.tables.sessions, ∃ y ∈ after.tables.encryptions, y.1 = x.2.id ∧
      ∀ z ∈ after.tables.encryptions, z.1 = x.2.id → z = y) ∧
    (∀ x ∈ after.tables.encryptions, x.2.sessionId = x.1 ∧
      ∃ y ∈ after.tables.sessions, y.2.id = x.2.sessionId) ∧
    (∀ x ∈ after.tables.sessions, ∀ y ∈ after.tables.sessions, x.2.value = y.2.value → x = y) ∧
    after.units thread = [] := by
  intro after
  have start : (h.store.get b.world).Settled thread := by
    have closed (a : String) : (h.store.get b.world).units a = [] := by
      unfold Store.units
      rw [idle]
      rfl
    refine ⟨⟨.of_no_rows sessions encryptions, fun a u hu => ?_⟩, .empty sessions encryptions,
      closed thread⟩
    rw [closed] at hu
    cases hu
  have settled : after.Settled thread := handleEach_settled hd undisturbed start
  obtain ⟨consistent, exactly⟩ := settled.paired.exactly settled.sound.tables
  exact ⟨exactly, fun x hx => ⟨consistent.keyed x hx, consistent.owned x hx⟩, consistent.values,
    settled.idle⟩

/-- Logins open sessions, and a call of `use` needs one. -/
def sessionPipelines : List (String × Pipeline Site) :=
  [("login",
      { main := [⟨0, "start_session", MainRun.ofAct Processor.startSession⟩]
        final := [⟨1, "event_type_to_session",
          FinalRun.ofAct fun _ _ => Processor.rekeyBySession⟩] }),
    ("use",
      { main :=
          [⟨2, "authentication_check", MainRun.ofAct Processor.authenticate⟩,
            ⟨3, "update_session", MainRun.ofAct Processor.touchSession⟩]
        final := [⟨4, "event_multiplication_mle", FinalRun.ofAct Processor.multiply⟩] })]

def sessionDispatcher : Dispatcher Site where
  output := (Site.supply Lens.whole Site.thread).output .memory
  table := { pipelines := sessionPipelines }
  env := Site.environment Site.thread {}

theorem sessionDispatcher_builtin : Builtin Site.host Site.thread sessionDispatcher where
  equips := Site.host_equips Site.thread {}
  write := Site.host_spares_output Site.thread .memory
  main label p routed w hw := by
    have hp : (label, p) ∈ sessionPipelines := Keyed.mem_of_find? routed
    rcases List.mem_cons.mp hp with hp | hp
    · cases hp
      rw [List.mem_singleton.mp hw]
      exact ⟨⟨"start_session", ""⟩, aliceBench.world, _, _, rfl, rfl⟩
    · cases List.mem_singleton.mp hp
      rcases List.mem_cons.mp hw with rfl | hw
      · exact ⟨⟨"authentication_check", ""⟩, aliceBench.world, _, _, rfl, rfl⟩
      · rw [List.mem_singleton.mp hw]
        exact ⟨⟨"update_session", ""⟩, aliceBench.world, _, _, rfl, rfl⟩
  final label p routed w hw := by
    have hp : (label, p) ∈ sessionPipelines := Keyed.mem_of_find? routed
    rcases List.mem_cons.mp hp with hp | hp
    · cases hp
      rw [List.mem_singleton.mp hw]
      exact ⟨⟨"event_type_to_session", ""⟩, aliceBench.world, _, _, rfl, rfl⟩
    · cases List.mem_singleton.mp hp
      rw [List.mem_singleton.mp hw]
      exact ⟨⟨"event_multiplication_mle", ""⟩, aliceBench.world, _, _, rfl, rfl⟩

/-- A message of the user for a session. -/
def aliceMessage (label session : String) : String :=
  "\x7b\"session\":\"" ++ session ++ "\",\"event\":\"" ++ label ++
    "\",\"params\":\x7b\"auth_token\":\"b1\",\"subject\":\"alice\"\x7d\x7d"

/-- The ledger of a site refuses a step from now on. -/
def refusing (step : UnitStep) (s : Site) : Site :=
  { s with ledger := { s.ledger with failing := some (step, Code.server.failure) } }

/-- A login, one that the ledger refuses to begin, one that it refuses to commit, one whose
session is there already and which it refuses to roll back, the use of a session long after its
time, and what is no message. -/
def aliceRounds : List (Round Site) :=
  [{ raw := aliceMessage "login" "aa01" },
    { before := refusing .begin, raw := aliceMessage "login" "aa02" },
    { before := refusing .commit, raw := aliceMessage "login" "aa03" },
    { before := refusing .rollback, raw := aliceMessage "login" "aa03" },
    { before := fun s => { s with clock := 1000000000 }, raw := aliceMessage "use" "aa01" },
    { raw := "no message" }]

/-- The bench at a site that knows the user. -/
def newcomerBench : Bench Site :=
  { world := { store := ({} : Store).insertUser ⟨1, "alice"⟩, entropy := { key := [] } } }

/-- One session is left with its encryption row: the one that the store had committed before the
ledger refused to. -/
theorem rounds_paired_alice :
    let after :=
      Site.host.store.get (sessionDispatcher.handleEach aliceRounds newcomerBench).2.world
    (∀ x ∈ after.tables.sessions, ∃ y ∈ after.tables.encryptions, y.1 = x.2.id ∧
      ∀ z ∈ after.tables.encryptions, z.1 = x.2.id → z = y) ∧
    after.units Site.thread = [] ∧
    after.tables.sessions = [(2, ⟨2, 1, "aa03", some "b1", 0⟩)] ∧
    after.tables.encryptions = [(2, ⟨2, 2, .unencrypted⟩)] ∧
    (sessionDispatcher.handleEach aliceRounds newcomerBench).1.map Report.isSuccess =
      [true, false, false, false, false, false] := by
  have undisturbed : Site.host.Undisturbed aliceRounds := by
    intro r hr w
    simp only [aliceRounds, List.mem_cons, List.not_mem_nil, or_false] at hr
    rcases hr with rfl | rfl | rfl | rfl | rfl | rfl <;> exact ⟨rfl, rfl⟩
  obtain ⟨exactly, -, -, units⟩ := rounds_paired Site.host sessionDispatcher
    sessionDispatcher_builtin undisturbed (b := newcomerBench) rfl rfl rfl
  exact ⟨exactly, units, by decide +kernel, by decide +kernel, by decide +kernel⟩

end EventWorker
