import EventWorker.Proofs.Dispatch.Fanout
import EventWorker.Proofs.Dispatch.Writes
import EventWorker.Proofs.Processor.Ended
import EventWorker.Proofs.Processor.Rekeying

/-!
# Whether the caller learns of a failure

The report of a failed main stage waits under the key of errors. `rekeyBySession` moves it to
the session of the event. `multiply` seals it for the recipients that the main stage had loaded
before it failed, and drops it when there are none.

Results:
1. `LoadsAfter.keyed`: the caller still has an encryption row when recipients are loaded.
2. `runMain_loads`, `mainStage_loads`: the recipients that a main stage leaves.
3. `failure_reaches_caller`: the report is written to the session of the event.
4. `failure_misses_caller`: a failure before the recipients are loaded is told to nobody.
-/

namespace EventWorker

open Processor

variable {ω : Type} {h : Host ω} {thread : String} {env : Environment ω} {e : Event}

/-! ## Loading recipients -/

/-- One of the main processors loads recipients and comes to its end. It starts on the bench
`loads`, when those in `earlier` have come to theirs. -/
inductive LoadsAfter (env : Environment ω) (e : Event) :
    List (Wired (MainRun ω)) → Bench ω → List (Wired (MainRun ω)) → Bench ω → Prop
  | here {w : Wired (MainRun ω)} {rest : List (Wired (MainRun ω))} {multiple : Bool}
      {b c : Bench ω} (finds : w.run = MainRun.ofAct (findRecipients multiple))
      (ended : (w.run env e).outcome b = (.ok (), c)) : LoadsAfter env e (w :: rest) b [] b
  | later {w : Wired (MainRun ω)} {rest earlier : List (Wired (MainRun ω))} {b c loads : Bench ω}
      (ended : (Dispatch.runOne env w.name [("event", .str e.label)] (w.run env e)).outcome b =
        (.ok (), c))
      (rest_loads : LoadsAfter env e rest c earlier loads) :
      LoadsAfter env e (w :: rest) b (w :: earlier) loads

theorem LoadsAfter.of_first {w : Wired (MainRun ω)} {rest earlier : List (Wired (MainRun ω))}
    {b loads : Bench ω} (loading : LoadsAfter env e [w] b earlier loads) :
    LoadsAfter env e (w :: rest) b earlier loads := by
  cases loading with
  | here run ended => exact .here run ended
  | later ended rest_loads => cases rest_loads

/-- The session of the event keeps its encryption row, and only the choice of a suite changes
the key state in it. -/
theorem BuiltinMain.Turned.keyed {k : BuiltinMain} {s t : Store} {row : Encryption}
    (turned : k.Turned thread e s t) (hs : s.Sound)
    (key : s.tables.encryptionFor? e.header.session = some row) :
    ∃ row', t.tables.encryptionFor? e.header.session = some row' ∧
      (k ≠ .selectSuite → row' = row) := by
  cases turned with
  | read => exact ⟨row, key, fun _ => rfl⟩
  | touched now =>
    obtain ⟨clients, -⟩ :=
      Store.perform_update (w := .updateLastUpdated e.header.session now) hs trivial thread
    have same := Store.encryptions_touched s thread e.header.session now
    exact ⟨row, (clients.encryptionFor?_same same _).trans key, fun _ => rfl⟩
  | opened session encryption =>
    -- The session is there already, so it was not opened.
    obtain ⟨owner, held, -⟩ := Option.bind_eq_some_iff.mp key
    obtain ⟨undo, session⟩ := Store.write_ok session
    rw [Tables.createSession, held] at session
    cases session
  | selected id state =>
    obtain ⟨clients, -⟩ := Store.perform_update (w := .updateEncryption id state) hs trivial thread
    obtain ⟨row', key'⟩ := clients.encryptionFor? key
    exact ⟨row', key', fun other => absurd rfl other⟩

theorem LoadsAfter.keyed (henv : h.Equips thread env) {main earlier : List (Wired (MainRun ω))}
    {b loads : Bench ω} (loading : LoadsAfter env e main b earlier loads)
    (builtin : ∀ w ∈ main, Registry.builtin.MakesMain w.run)
    (sound : (h.store.get b.world).Sound) {row : Encryption}
    (key : (h.store.get b.world).tables.encryptionFor? e.header.session = some row) :
    ∃ row', (h.store.get loads.world).tables.encryptionFor? e.header.session = some row' ∧
      ((∀ w ∈ earlier, w.run ≠ MainRun.ofAct selectSuite) → row' = row) := by
  induction loading generalizing row with
  | here => exact ⟨row, key, fun _ => rfl⟩
  | @later w rest earlier b c loads ended loading ih =>
    obtain ⟨k, run, turned⟩ := runOne_turned henv (builtin w List.mem_cons_self) ended
    obtain ⟨row₁, key₁, same₁⟩ := turned.keyed sound key
    obtain ⟨row', key', same⟩ :=
      ih (fun w' hw' => builtin w' (List.mem_cons_of_mem _ hw')) (turned.sound sound) key₁
    refine ⟨row', key', fun none_selects => ?_⟩
    have not_selects : k ≠ .selectSuite := by
      rintro rfl
      exact none_selects w List.mem_cons_self run
    rw [same fun w' hw' => none_selects w' (List.mem_cons_of_mem _ hw'), same₁ not_selects]

/-- What main processors that start on a bench have loaded for an event when they are over. -/
structure Loaded (h : Host ω) (env : Environment ω) (e : Event) (main : List (Wired (MainRun ω)))
    (b : Bench ω) (rs : List Recipient) (after : Bench ω) : Prop where
  data : after.data.get e.header.session =
    b.data.get e.header.session ++ rs.map Recipient.toValue
  /-- The session of the event is among the recipients whenever some are loaded. -/
  caller : ∀ earlier loads row, LoadsAfter env e main b earlier loads →
    (h.store.get loads.world).tables.encryptionFor? e.header.session = some row →
    ∃ r ∈ rs, r.value = e.header.session ∧ r.state = row.state
  nobody : (∀ earlier loads, ¬ LoadsAfter env e main b earlier loads) → rs = []

theorem data_runOne (name : String) (more : List (String × Json.Value))
    (run : Step Stop (Bench ω) Unit) (b : Bench ω) :
    ((Dispatch.runOne env name more run).outcome b).2.data = (run.outcome b).2.data := by
  rw [Dispatch.runOne, Step.outcome_ofFunction]
  rcases run.outcome b with ⟨stop | v, c⟩
  · exact (env.log_memories _ _ _ c).2
  · exact (env.log_memories _ _ _ c).2

theorem runOne_loads (henv : h.Equips thread env) (named : e.header.session ≠ userKey)
    {w : Wired (MainRun ω)} (builtin : Registry.builtin.MakesMain w.run) (b : Bench ω) :
    ∃ rs, Loaded h env e [w] b rs
      ((Dispatch.runOne env w.name [("event", .str e.label)] (w.run env e)).outcome b).2 := by
  by_cases finds : ∃ multiple c, w.run = MainRun.ofAct (findRecipients multiple) ∧
      (w.run env e).outcome b = (.ok (), c)
  · obtain ⟨multiple, c, run, ended⟩ := finds
    have loaded := ended
    rw [run] at loaded
    obtain ⟨rows, hrows, rfl⟩ := findRecipients_ended henv (Step.mapError_ended loaded)
    refine ⟨rows, ?_, fun earlier loads row loading key => ?_, fun never => ?_⟩
    · rw [data_runOne, ended]
      show (b.data.pushAll e.header.session (rows.map Recipient.toValue)).get e.header.session = _
      rw [Memory.get_pushAll, if_pos rfl]
    · cases loading with
      | here => exact Tables.recipients?_self hrows key
      | later ended rest_loads => cases rest_loads
    · exact absurd (.here run ended) (never [] b)
  · obtain ⟨k, run⟩ := Registry.builtin_main builtin
    refine ⟨[], ?_, fun earlier loads row loading key => ?_, fun _ => rfl⟩
    · rw [data_runOne, List.map_nil, List.append_nil, run, MainRun.ofAct, Step.outcome_mapError]
      by_cases kind : ∃ multiple, k = .findRecipients multiple
      · -- It has failed, or the recipients would have been loaded.
        obtain ⟨multiple, rfl⟩ := kind
        rcases fails : (findRecipients multiple env e).outcome b with ⟨f | v, c⟩
        · rw [BuiltinMain.act, fails]
          rw [findRecipients_failed henv fails]
        · refine absurd ⟨multiple, c, run, ?_⟩ finds
          rw [run, MainRun.ofAct, Step.outcome_mapError, BuiltinMain.act, fails]
          rfl
      · exact BuiltinMain.loaded henv named (fun multiple hk => kind ⟨multiple, hk⟩) b
    · cases loading with
      | here run' ended => exact absurd ⟨_, _, run', ended⟩ finds
      | later ended rest_loads => cases rest_loads

/-- The recipients are those that the processors which came to their ends have loaded. -/
theorem runMain_loads (henv : h.Equips thread env) (named : e.header.session ≠ userKey)
    {main : List (Wired (MainRun ω))} (builtin : ∀ w ∈ main, Registry.builtin.MakesMain w.run)
    (b : Bench ω) :
    ∃ rs, Loaded h env e main b rs ((Dispatch.runMain env e main).outcome b).2 := by
  induction main generalizing b with
  | nil =>
    refine ⟨[], (List.append_nil _).symm, fun earlier loads row loading => ?_, fun _ => rfl⟩
    cases loading
  | cons w rest ih =>
    obtain ⟨rs, first⟩ := runOne_loads henv named (builtin w List.mem_cons_self) b
    rw [Dispatch.runMain, Step.outcome_bind]
    rcases hone : (Dispatch.runOne env w.name [("event", .str e.label)] (w.run env e)).outcome b
      with ⟨f | v, c⟩
    · rw [hone] at first
      refine ⟨rs, first.data, fun earlier loads row loading key => ?_, fun never => ?_⟩
      · cases loading with
        | here run ended => exact first.caller [] b row (.here run ended) key
        | later ended rest_loads => cases hone.symm.trans ended
      · exact first.nobody fun earlier loads loading => never _ _ loading.of_first
    · rw [hone] at first
      obtain ⟨rs', others⟩ := ih (fun w' hw' => builtin w' (List.mem_cons_of_mem _ hw')) c
      refine ⟨rs ++ rs', ?_, fun earlier loads row loading key => ?_, fun never => ?_⟩
      · rw [others.data, first.data, List.map_append, List.append_assoc]
      · cases loading with
        | here run ended =>
          obtain ⟨r, hr, caller⟩ := first.caller [] b row (.here run ended) key
          exact ⟨r, List.mem_append_left _ hr, caller⟩
        | later ended rest_loads =>
          cases hone.symm.trans ended
          obtain ⟨r, hr, caller⟩ := others.caller _ loads row rest_loads key
          exact ⟨r, List.mem_append_right _ hr, caller⟩
      · have nobody : rs = [] :=
          first.nobody fun earlier loads loading => never _ _ loading.of_first
        have nobody' : rs' = [] :=
          others.nobody fun earlier loads loading => never _ _ (.later hone loading)
        rw [nobody, nobody', List.append_nil]

/-! ## The main stage -/

/-- In the main stage of a message recipients are loaded: its units of work begin, and one of
its processors loads them. -/
structure Host.Loads (h : Host ω) (thread : String) (env : Environment ω) (p : Pipeline ω)
    (e : Event) (b : Bench ω) (earlier : List (Wired (MainRun ω))) (loads : Bench ω) : Prop where
  begins : ∀ g, (h.ledger.get b.world).failing ≠ some (.begin, g)
  loading : LoadsAfter env e p.main (h.begun thread env p e b) earlier loads

/-- The recipients that a main stage leaves, whether it fails or not. -/
theorem mainStage_loads (henv : h.Equips thread env) (named : e.header.session ≠ userKey)
    {p : Pipeline ω} (builtin : ∀ w ∈ p.main, Registry.builtin.MakesMain w.run) (b : Bench ω) :
    ∃ rs, ((Dispatch.mainStage env p e).outcome
        (env.log .debug Code.logNewEvent e.toValue b)).2.data.get e.header.session =
          rs.map Recipient.toValue ∧
      (∀ earlier loads row, h.Loads thread env p e b earlier loads →
        (h.store.get loads.world).tables.encryptionFor? e.header.session = some row →
        ∃ r ∈ rs, r.value = e.header.session ∧ r.state = row.state) ∧
      ((∀ earlier loads, ¬ h.Loads thread env p e b earlier loads) → rs = []) := by
  rw [Dispatch.mainStage_outcome henv.database henv.ledger]
  have ledger := Host.ledger_cleared henv p e b
  by_cases refused : ∃ g, (h.ledger.get b.world).failing = some (.begin, g)
  · obtain ⟨g, failing⟩ := refused
    obtain ⟨b₁, c, opens, refuses⟩ := Host.refuses thread (ledger.symm ▸ failing)
    have first := (managed_memories (Store.database h.store thread).begin
      (Dispatch.cleared env p e (env.log .debug Code.logNewEvent e.toValue b))).2
    have second := (managed_memories (Ledger.manager h.ledger).begin b₁).2
    rw [opens] at first
    rw [refuses] at second
    have clear : (Dispatch.cleared env p e
        (env.log .debug Code.logNewEvent e.toValue b)).data = {} :=
      (env.log_memories _ _ _ _).2
    have nothing : c.data = {} := second.trans (first.trans clear)
    rw [Dispatch.inUnits_refused opens refuses]
    refine ⟨[], ?_, fun earlier loads row loading => ?_, fun _ => rfl⟩
    · show c.data.get e.header.session = []
      rw [nothing]
      rfl
    · exact absurd failing (loading.begins g)
  · have begins (g : Failure) : (h.ledger.get b.world).failing ≠ some (.begin, g) :=
      fun failing => refused ⟨g, failing⟩
    obtain ⟨b₁, opens, opens'⟩ := Host.opens thread fun g => ledger.symm ▸ begins g
    obtain ⟨-, data, -⟩ := Dispatch.inUnits_body (Dispatch.runMain env e p.main) opens opens'
    obtain ⟨rs, loaded⟩ := runMain_loads henv named builtin (h.begun thread env p e b)
    have start : (h.begun thread env p e b).data.get e.header.session = [] := by
      rw [(Host.begun_memories h thread env p e b).2]
      rfl
    refine ⟨rs, ?_, fun earlier loads row loading => ?_, fun never => ?_⟩
    · have all := loaded.data
      rw [start, List.nil_append] at all
      exact (congrArg (Memory.get · e.header.session) data).trans all
    · exact loaded.caller earlier loads row loading.loading
    · exact loaded.nobody fun earlier loads loading => never earlier loads ⟨begins, loading⟩

/-! ## The final stage -/

theorem finalStage_ended {p : Pipeline ω} {m : Wired (FinalRun ω)} (final : p.final = [m])
    {act : Services ω → Providers → Act (Bench ω) Unit} (run : m.run = FinalRun.ofAct act)
    {b c : Bench ω} (ended : (Dispatch.finalStage env p).outcome b = (.ok (), c)) :
    ∃ c', (act env.services env.providers).outcome b = (.ok (), c') ∧ c.events = c'.events := by
  rw [Dispatch.finalStage, final, Dispatch.runFinal] at ended
  obtain ⟨_, c₁, first, rest⟩ := Step.bind_ended ended
  obtain rfl : c₁ = c := congrArg Prod.snd rest
  obtain ⟨c', hrun, rfl⟩ := Dispatch.runOne_ended first
  rw [run] at hrun
  exact ⟨c', Step.mapError_ended hrun, (env.log_memories _ _ _ c').1⟩

theorem rekeyBySession_ended {b c : Bench ω}
    (ended : (rekeyBySession : Act (Bench ω) Unit).outcome b = (.ok (), c)) :
    c.events = b.events.drain.2.pushEach (b.events.drain.1.map readdressed) := by
  rw [outcome_rekeyBySession] at ended
  cases ended
  rfl

/-- The waiting events cannot be sealed without a toolkit. -/
theorem multiply_toolkit {services : Services ω} {providers : Providers} {b c : Bench ω}
    (waiting : b.events.values ≠ [])
    (ended : (multiply services providers).outcome b = (.ok (), c)) :
    ∃ toolkit, providers.toolkit = .ok toolkit := by
  rw [outcome_multiply, if_neg fun none => waiting (List.isEmpty_iff.mp none)] at ended
  obtain ⟨toolkit, _, present, -⟩ := Step.bind_ended ended
  exact ⟨toolkit, congrArg Prod.fst present⟩

/-! ## The message -/

theorem validate_hasSession {raw : String} (valid : validate raw = .ok e) :
    e.header.hasSession = true := by
  have named := validate_session valid
  have not_empty : e.header.session ≠ "" := by
    intro same
    rw [same] at named
    exact absurd named (by decide)
  have not_missing : e.header.session ≠ notAvailable := by
    intro same
    rw [same] at named
    exact absurd named (by decide)
  exact Header.hasSession_iff.mpr (not_or.mpr ⟨not_empty, not_missing⟩)

/-- The report of a failed main stage carries the code of the failure. -/
theorem errorEvent_code (header : Header) (f : Failure) (label : String) :
    Keyed.find? "err" (errorEvent header f (inputLabel label) .pipeline).payload =
      some (.nat f.code) := by
  simp [errorEvent, inputLabel, Keyed.union, Keyed.ofList, Keyed.find?_insert]

variable {d : Dispatcher ω} {p : Pipeline ω}

/-- When `multiply` has succeeded on a report, there is a copy for every recipient and for
nobody else. -/
theorem multiply_report {report : Event} {rs : List Recipient} {b c : Bench ω}
    (waiting : b.events.values = [report])
    (loaded : b.data.get report.header.session = rs.map Recipient.toValue)
    (ended : (multiply env.services env.providers).outcome b = (.ok (), c)) :
    ∃ toolkit copies, env.providers.toolkit = .ok toolkit ∧ CopiesFor toolkit rs report copies ∧
      ∀ entry, entry ∈ c.events.drain.1 ↔ entry ∈ copies := by
  obtain ⟨toolkit, set⟩ := multiply_toolkit (by rw [waiting]; exact List.cons_ne_nil _ _) ended
  have same (x : Event) (hx : x ∈ b.events.values) :
      x.header.session = report.header.session := by
    rw [waiting] at hx
    rw [List.mem_singleton.mp hx]
  obtain ⟨blocks, all, events⟩ := multiply_ended set same loaded ended
  rw [waiting] at all
  obtain ⟨copies, _, copied, none, rfl⟩ := List.forall₂_cons_left_iff.mp all
  cases none
  refine ⟨toolkit, copies, set, copied, fun entry => ?_⟩
  rw [events, Memory.mem_drain_refilled, List.flatten_singleton]

/-- The failure of a main stage of built-in processors is told to the caller, if it is to be
told, the caller has an encryption row, and the final stage succeeds.
- `rekeyBySession` moves the report of it to the session of the event.
- `multiply` seals the report under the key state with which the session was loaded, once
  recipients have been loaded. That is the key state that the store holds for it, unless a
  processor before the loading one has stored the choice of a suite. When no recipients have
  been loaded, nothing is written at all. -/
theorem failure_reaches_caller (h : Host ω) (d : Dispatcher ω) {thread : String}
    (henv : h.Equips thread d.env) {raw : String} {e : Event} {p : Pipeline ω}
    (valid : validate raw = .ok e) (routed : d.table.get? e.label = some p)
    (builtin : ∀ w ∈ p.main, Registry.builtin.MakesMain w.run) {m : Wired (FinalRun ω)}
    (final : p.final = [m]) {b : Bench ω} (reachable : (h.store.get b.world).Reachable)
    {stored : Encryption}
    (key : (h.store.get b.world).tables.encryptionFor? e.header.session = some stored) {f : Failure}
    (failed : (d.handle raw b).1.outcome = .handled e.label (some f) none)
    (notifiable : f.notifiable = true)
    (accepts : ∀ a ∈ (d.recorded.handle raw b.recorded).2.world.attempts, a.accepted = true) :
    let attempts := (d.recorded.handle raw b.recorded).2.world.attempts
    let report := errorEvent e.header f (inputLabel e.label) .pipeline
    report.label = errorLabel ∧ Keyed.find? "err" report.payload = some (.nat f.code) ∧
    (m.run = FinalRun.ofAct (fun _ _ => rekeyBySession) →
      ⟨outbound (e.header.session, report.withoutSession), true⟩ ∈ attempts) ∧
    (m.run = FinalRun.ofAct multiply →
      (∀ earlier loads, h.Loads thread d.env p e b earlier loads → ∃ row toolkit copy,
        (h.store.get loads.world).tables.encryptionFor? e.header.session = some row ∧
        ((∀ w ∈ earlier, w.run ≠ MainRun.ofAct selectSuite) → row = stored) ∧
        d.env.providers.toolkit = .ok toolkit ∧ report.SealedAs toolkit row.state copy ∧
        ⟨outbound (e.header.session, copy), true⟩ ∈ attempts) ∧
      ((∀ earlier loads, ¬ h.Loads thread d.env p e b earlier loads) → attempts = [])) := by
  intro attempts report
  rcases hmain : d.runMain p e (d.arrived e b) with ⟨main?, start⟩
  rcases hfinal : d.runFinal p e start with ⟨final?, left⟩
  obtain ⟨outcome, writes⟩ := handled_stages valid routed hmain hfinal
  rw [failed] at outcome
  cases outcome
  obtain ⟨mid, main, rfl⟩ := runMain_failing hmain
  have ended := runFinal_ended hfinal
  have all_taken : attempts = left.events.drain.1.map fun waiting => ⟨outbound waiting, true⟩ := by
    rw [← writes]
    exact Recorded.attempts_accepted d raw b accepts
  have taken {entry : String × Event} (hentry : entry ∈ left.events.drain.1) :
      ⟨outbound entry, true⟩ ∈ attempts := by
    rw [all_taken]
    exact List.mem_map_of_mem hentry
  have waiting : (told errorLabel e f).drain.1 = [(errorLabel, report)] := by
    rw [drain_told, if_pos notifiable]
  refine ⟨rfl, errorEvent_code _ _ _, fun rekeys => taken ?_, fun multiplies => ?_⟩
  · obtain ⟨c, moved, events⟩ := finalStage_ended final rekeys ended
    have own : readdressed (errorLabel, report) = (e.header.session, report.withoutSession) :=
      if_pos (validate_hasSession valid)
    rw [events, rekeyBySession_ended moved, Memory.mem_drain_refilled]
    dsimp only
    rw [waiting, List.map_singleton, own]
    exact List.mem_singleton.mpr rfl
  · obtain ⟨c, multiplied, events⟩ := finalStage_ended final multiplies ended
    obtain ⟨rs, data, caller, nobody⟩ :=
      mainStage_loads henv (session_ne_userKey valid) builtin b
    rw [← Dispatcher.arrived, main] at data
    have values : (told errorLabel e f).values = [report] := by
      rw [Memory.values_eq, waiting]
      rfl
    obtain ⟨toolkit, copies, set, copied, written⟩ :=
      multiply_report (b := { mid with events := told errorLabel e f }) values data multiplied
    constructor
    · intro earlier loads loading
      have store := Host.store_begun henv p e b
      have sound : (h.store.get (h.begun thread d.env p e b).world).Sound := by
        rw [store]
        exact (Store.performed (h.store.get b.world) ⟨thread, .begin⟩).sound reachable.sound
      have begun_key : (h.store.get (h.begun thread d.env p e b).world).tables.encryptionFor?
          e.header.session = some stored := by
        rw [store]
        exact key
      obtain ⟨row, key', same⟩ := loading.loading.keyed henv builtin sound begun_key
      obtain ⟨r, hr, value, state⟩ := caller earlier loads row loading key'
      obtain ⟨entry, hentry, destination, sealed⟩ := exists_of_forall₂ copied.flip hr
      refine ⟨row, toolkit, entry.2, key', same, set, state ▸ sealed, ?_⟩
      have addressed : (e.header.session, entry.2) = entry :=
        Prod.ext (destination.trans value).symm rfl
      rw [addressed]
      exact taken (events ▸ (written entry).mpr hentry)
    · intro never
      rw [nobody never] at copied
      cases copied
      have silent : left.events.drain.1 = [] :=
        List.eq_nil_iff_forall_not_mem.mpr fun entry hentry =>
          List.not_mem_nil ((written entry).mp (events ▸ hentry))
      rw [all_taken, silent]
      rfl

/-- Opens a session. -/
def opening : Wired (MainRun Site) :=
  ⟨0, "start_session", MainRun.ofAct startSession⟩

/-- Loads all sessions of a client. -/
def loading : Wired (MainRun Site) :=
  ⟨1, "find_sessions_mle", MainRun.ofAct (findRecipients true)⟩

/-- Logins go through some main processors and end with sealing. -/
def sealingPipeline (main : List (Wired (MainRun Site))) : Pipeline Site where
  main
  final := [⟨2, "event_multiplication_mle", FinalRun.ofAct multiply⟩]

/-- A dispatcher at a site that takes logins through a `sealingPipeline`. -/
def sealingDispatcher (main : List (Wired (MainRun Site))) : Dispatcher Site where
  output := (Site.supply Lens.whole Site.thread).output .memory
  table := { pipelines := [("login", sealingPipeline main)] }
  env := selectionDispatcher.env

/-- The failure of `secondLogin`, whose session is there already. -/
def secondLoginFailure : Failure :=
  Code.sessionNotCreated.failure.causedBy
    (Code.sessionNotCreated.failure.because "duplicate session aa01")

/-- The report of `secondLoginFailure`. -/
def secondLoginReport : Event :=
  errorEvent secondLoginEvent.header secondLoginFailure (inputLabel "login") .pipeline

theorem builtin_opening : Registry.builtin.MakesMain opening.run :=
  ⟨⟨"start_session", ""⟩, aliceBench.world, _, _, rfl, rfl⟩

theorem builtin_loading : Registry.builtin.MakesMain loading.run :=
  ⟨⟨"find_sessions_mle", ""⟩, aliceBench.world, _, _, rfl, rfl⟩

/-- The sessions are loaded before the login fails, and the caller is told. -/
theorem failure_reaches_caller_second_login :
    let attempts := ((sealingDispatcher [loading, opening]).recorded.handle secondLogin
      aliceBench.recorded).2.world.attempts
    ((sealingDispatcher [loading, opening]).handle secondLogin aliceBench).1.outcome =
      .handled "login" (some secondLoginFailure) none ∧
    secondLoginReport.label = errorLabel ∧
    ∃ copy, secondLoginReport.SealedAs keylessToolkit .unencrypted copy ∧
      ⟨outbound ("aa01", copy), true⟩ ∈ attempts := by
  intro attempts
  have failed : ((sealingDispatcher [loading, opening]).handle secondLogin aliceBench).1.outcome =
      .handled "login" (some secondLoginFailure) none := by
    decide +kernel
  have accepts : ∀ a ∈ attempts, a.accepted = true := by
    decide +kernel
  have valid : validate secondLogin = .ok secondLoginEvent := by rfl
  have builtin : ∀ w ∈ (sealingPipeline [loading, opening]).main,
      Registry.builtin.MakesMain w.run := by
    intro w hw
    rcases List.mem_cons.mp hw with rfl | hw
    · exact builtin_loading
    · rw [List.mem_singleton.mp hw]
      exact builtin_opening
  have key : (Site.host.store.get aliceBench.world).tables.encryptionFor? "aa01" =
      some ⟨1, 1, .unencrypted⟩ := by
    decide
  have loads : Site.host.Loads Site.thread (sealingDispatcher [loading, opening]).env
      (sealingPipeline [loading, opening]) secondLoginEvent aliceBench []
      (Site.host.begun Site.thread (sealingDispatcher [loading, opening]).env
        (sealingPipeline [loading, opening]) secondLoginEvent aliceBench) := by
    refine ⟨fun g hg => ?_, .here rfl rfl⟩
    cases hg
  obtain ⟨label, -, -, multiplies⟩ := failure_reaches_caller Site.host
    (sealingDispatcher [loading, opening]) (Site.host_equips Site.thread _) valid rfl builtin rfl
    (b := aliceBench) ⟨aliceTurns, rfl⟩ key failed (by decide) accepts
  obtain ⟨row, toolkit, copy, -, same, set, sealed, written⟩ := (multiplies rfl).1 [] _ loads
  obtain rfl := same fun w hw => absurd hw List.not_mem_nil
  cases set
  exact ⟨failed, label, copy, sealed, written⟩

/-- A failure before the recipients are loaded is told to nobody: the final stage succeeds and
writes nothing, though the session of the message is there with its encryption row, the output
refuses nothing, and a processor that loads recipients stands behind the one that failed. -/
theorem failure_misses_caller :
    let d := sealingDispatcher [opening, loading]
    validate secondLogin = .ok secondLoginEvent ∧
    d.table.get? "login" = some (sealingPipeline [opening, loading]) ∧
    (∀ w ∈ (sealingPipeline [opening, loading]).main, Registry.builtin.MakesMain w.run) ∧
    (Site.host.store.get aliceBench.world).Reachable ∧
    (Site.host.store.get aliceBench.world).tables.encryptionFor? "aa01" =
      some ⟨1, 1, .unencrypted⟩ ∧
    (d.handle secondLogin aliceBench).1.outcome =
      .handled "login" (some secondLoginFailure) none ∧
    secondLoginFailure.notifiable = true ∧
    aliceBench.world.kept.refused = [] ∧
    (d.recorded.handle secondLogin aliceBench.recorded).2.world.attempts = [] := by
  intro d
  have builtin : ∀ w ∈ (sealingPipeline [opening, loading]).main,
      Registry.builtin.MakesMain w.run := by
    intro w hw
    rcases List.mem_cons.mp hw with rfl | hw
    · exact builtin_opening
    · rw [List.mem_singleton.mp hw]
      exact builtin_loading
  exact ⟨by rfl, rfl, builtin, ⟨aliceTurns, rfl⟩, by decide, by decide +kernel, by decide,
    by decide, by decide +kernel⟩

end EventWorker
