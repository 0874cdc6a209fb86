import EventWorker.Proofs.Processor.Builtin
import EventWorker.Proofs.Store.Savepoints
import EventWorker.Worker.Site

/-!
# Failed messages leave no trace in the store

The main stage of a message runs in a unit of work of the store. When it fails the unit is
rolled back, and of what the built-in processors do to the store only the deletion of an
expired session is not undone.

Results:
1. `does_runMain`: what the built-in main processors of a pipeline do to the store.
2. `inUnits_failed`: where the failure of a main stage comes from and what it leaves.
3. `handle_failed_atomic`: the store after a message whose main stage failed.
-/

namespace EventWorker

variable {ω : Type} {h : Host ω} {thread : String} {env : Environment ω}

/-! ## The main processors -/

/-- The processors up to an authentication check have ended, and the check finds the session
of the event expired. -/
inductive FindsExpired (h : Host ω) (env : Environment ω) (e : Event)
    (main : List (Wired (MainRun ω))) (begun : Bench ω) (session : Session) : Prop
  | intro (earlier later : List (Wired (MainRun ω))) (w : Wired (MainRun ω)) (b : Bench ω)
      (place : main = earlier ++ w :: later) (check : w.run = MainRun.ofAct Processor.authenticate)
      (ended : (Dispatch.runMain env e earlier).outcome begun = (.ok (), b))
      (expired : ExpiredAt h env e b session) : FindsExpired h env e main begun session

/-- The main processors write, and fail for another reason than an expired session, or an
authentication check deletes a session it finds expired after they have written. -/
def MainTurns (h : Host ω) (thread : String) (env : Environment ω) (e : Event)
    (main : List (Wired (MainRun ω))) (b : Bench ω) (r : Except Failure Unit)
    (turns : List Turn) : Prop :=
  Host.Undone thread r turns ∨
    ∃ ws session, FindsExpired h env e main b session ∧
      ((h.store.get b.world).run (Write.turns thread ws)).unavailable = false ∧
      r = .error Code.sessionExpired.failure.silent ∧
      turns = Write.turns thread ws ++ [{ thread, op := .delete session.id }]

theorem does_runMain (henv : h.Equips thread env) (e : Event) {main : List (Wired (MainRun ω))}
    (builtin : ∀ w ∈ main, Registry.builtin.MakesMain w.run) :
    h.Does (Dispatch.runMain env e main) (MainTurns h thread env e main) := by
  induction main with
  | nil => exact Host.Does.mono (Host.Undoable.pure ()) fun _ _ _ => .inl
  | cons w rest ih =>
    have ih := ih fun w' hw' => builtin w' (List.mem_cons_of_mem _ hw')
    obtain ⟨k, hk⟩ := Registry.builtin_main (builtin w List.mem_cons_self)
    have first := henv.does_runOne (BuiltinMain.does henv k e) w.name [("event", .str e.label)]
    rw [← hk] at first
    intro b
    obtain ⟨xs, hx, hstore, hledger⟩ := first b
    rw [Dispatch.runMain, Step.outcome_bind]
    rcases houtcome : (Dispatch.runOne env w.name [("event", .str e.label)] (w.run env e)).outcome b
      with ⟨r, c⟩
    rw [houtcome] at hx hstore hledger
    cases r with
    | error f =>
      -- The first processor stops the stage, with nothing before it.
      refine ⟨xs, ?_, hstore, hledger⟩
      rcases hx with hx | ⟨session, rfl, expired, hr, rfl⟩
      · exact .inl hx
      · exact .inr ⟨[], session, .intro [] rest w b rfl hk rfl expired, expired.available, hr, rfl⟩
    | ok v =>
      -- It has ended, so it found no session expired, and its turns are writes.
      have hx : Host.Undone thread (.ok v : Except Failure Unit) xs := by
        rcases hx with hx | ⟨_, _, _, hr, _⟩
        · exact hx
        · cases hr
      obtain ⟨ys, hy, hstore', hledger'⟩ := ih c
      refine ⟨xs ++ ys, ?_, ?_, hledger'.trans hledger⟩
      · rcases hy with hy | ⟨ws', session, found, available, hr, rfl⟩
        · exact .inl (hx.append hy)
        · obtain ⟨earlier, later, check, b', place, run, ended, expired⟩ := found
          obtain ⟨⟨ws, rfl⟩, -⟩ := hx
          refine .inr ⟨ws ++ ws', session, ?_, ?_, hr, ?_⟩
          · refine .intro (w :: earlier) later check b' (congrArg (w :: ·) place) run ?_ expired
            rw [Dispatch.runMain, Step.outcome_bind_ok houtcome]
            exact ended
          · rw [Write.turns_append, Store.run_append, ← hstore]
            exact available
          · rw [Write.turns_append, List.append_assoc]
      · rw [Store.run_append]
        exact hstore'.trans (congrArg (Store.run · ys) hstore)

/-! ## The main stage -/

/-- What is left of the main processors when the main stage fails. The ledger had refused to
begin, or one of them failed and their unit of work was rolled back, or the ledger has
refused to commit. -/
theorem inUnits_failed {body : Act (Bench ω) Unit}
    {P : Bench ω → Except Failure Unit → List Turn → Prop} (hbody : h.Does body P) {b b' : Bench ω}
    {f : Failure}
    (failed : (Dispatch.inUnits (Store.database h.store thread).toManager
      (Ledger.manager h.ledger) body).outcome b = (.error f, b')) :
    (f.code = Code.processing.id ∧
        h.store.get b'.world = ((h.store.get b.world).begin thread).rollback thread) ∨
      (∃ begun turns, P begun (.error f) turns ∧
        h.store.get begun.world = (h.store.get b.world).begin thread ∧
        h.store.get b'.world =
          (((h.store.get b.world).begin thread).run turns).rollback thread) ∨
      ∃ g, (h.ledger.get b.world).failing = some (.commit, g) ∧
        f = Dispatch.processingFailure g := by
  have course := Dispatch.inUnits_ends (Store.database h.store thread).toManager
    (Ledger.manager h.ledger) body b
  rw [failed] at course
  cases course with
  | unopened opens => cases (Host.managed_change opens).1
  | uncommitted _ _ _ commits => cases (Host.managed_change commits).1
  | refused opens refuses =>
    obtain ⟨store, -, error⟩ := Host.managed_call refuses
    obtain ⟨g, -, rfl⟩ := error f rfl
    refine .inl ⟨rfl, ?_⟩
    rw [Host.store_undo_database, store, (Host.managed_change opens).2.1]
  | @stopped b₁ b₂ c _ opens opens' stops =>
    have begun := (Host.managed_call opens').1.trans (Host.managed_change opens).2.1
    obtain ⟨turns, hP, hstore, -⟩ := hbody b₂
    rw [stops] at hP hstore
    refine .inr (.inl ⟨b₂, turns, hP, begun, ?_⟩)
    rw [Dispatch.undoBoth, Host.store_undo_ledger, Host.store_undo_database, hstore, begun]
  | @halfway b₁ b₂ c c₁ c₂ _ opens opens' ends commits commits' =>
    obtain ⟨-, -, error⟩ := Host.managed_call commits'
    obtain ⟨g, failing, hf⟩ := error f rfl
    -- Nothing has changed what the ledger refuses, from the start on.
    obtain ⟨-, -, -, ledger⟩ := hbody b₂
    rw [ends] at ledger
    refine .inr (.inr ⟨g, ?_, hf⟩)
    rw [← failing, (Host.managed_change commits).2.2, ledger, (Host.managed_call opens').2.1,
      (Host.managed_change opens).2.2]

/-! ## After the main stage -/

/-- The output leaves the store alone, and so do those final processors of a pipeline that
are not built in. -/
structure Host.SparesAfter (h : Host ω) (d : Dispatcher ω) (p : Pipeline ω) : Prop where
  final : ∀ w ∈ p.final,
    Registry.builtin.MakesFinal w.run ∨ h.Quiet (w.run d.env.services d.env.providers)
  write : ∀ m, h.Spares fun w => ((d.output.write m).outcome w).2

theorem Host.SparesAfter.quiet {d : Dispatcher ω} {p : Pipeline ω} (spares : h.SparesAfter d p)
    (henv : h.Equips thread d.env) :
    ∀ w ∈ p.final, h.Quiet (w.run d.env.services d.env.providers) := by
  intro w hw
  rcases spares.final w hw with builtin | quiet
  · exact quiet_builtin_final henv builtin
  · exact quiet

theorem store_runFinal (henv : h.Equips thread env) {final : List (Wired (FinalRun ω))}
    (quiet : ∀ w ∈ final, h.Quiet (w.run env.services env.providers)) (b : Bench ω) :
    h.store.get ((Dispatch.runFinal env final).outcome b).2.world = h.store.get b.world := by
  induction final generalizing b with
  | nil => rfl
  | cons w rest ih =>
    rw [Dispatch.runFinal, Step.outcome_bind]
    have one := henv.store_runOne w.name [] (w.run env.services env.providers) b
    rw [(quiet w List.mem_cons_self b).1] at one
    rcases hone : (Dispatch.runOne env w.name [] (w.run env.services env.providers)).outcome b
      with ⟨_ | _, c⟩
    · rw [hone] at one
      exact one
    · rw [hone] at one
      exact (ih (fun w' hw' => quiet w' (List.mem_cons_of_mem _ hw')) c).trans one

variable {d : Dispatcher ω} {p : Pipeline ω} {e : Event}

theorem store_writeAll (henv : h.Equips thread d.env)
    (write : ∀ m, h.Spares fun w => ((d.output.write m).outcome w).2)
    (waiting : List (String × Event)) (b : Bench ω) :
    h.store.get (d.writeAll waiting b).2.world = h.store.get b.world := by
  induction waiting generalizing b with
  | nil => rfl
  | cons entry rest ih =>
    obtain ⟨destination, e⟩ := entry
    have one : h.store.get (d.writeOne destination e b).2.world = h.store.get b.world := by
      have logged := (henv.log .debug Code.logToSend
        (.object [("to", .str destination), ("event", .str e.render)]) b).1
      unfold Dispatcher.writeOne
      dsimp only
      rw [Bench.outcome_onWorld]
      generalize d.env.log .debug Code.logToSend
        (.object [("to", .str destination), ("event", .str e.render)]) b = c at logged
      have written := (write { destination, payload := e.render } c.world).1
      dsimp only at written
      rcases hr : (d.output.write { destination, payload := e.render }).outcome c.world
        with ⟨_ | _, w⟩
      · rw [hr] at written
        exact written.trans logged
      · rw [hr] at written
        exact written.trans logged
    exact (ih _).trans one

theorem store_replaceEvents (key : String) (header : Header) (f : Failure) (source : ErrorSource)
    (b : Bench ω) : (Dispatcher.replaceEvents key header f source b).world = b.world := by
  unfold Dispatcher.replaceEvents
  dsimp only
  split <;> rfl

/-! ## A failed message -/

theorem runMain_failed {b b' : Bench ω} {f : Failure} (hmain : d.runMain p e b = (some f, b')) :
    ∃ b'', (Dispatch.mainStage d.env p e).outcome b = (.error f, b'') ∧ b'.world = b''.world := by
  unfold Dispatcher.runMain at hmain
  rcases hstage : (Dispatch.mainStage d.env p e).outcome b with ⟨r, c⟩
  rw [hstage] at hmain
  cases r with
  | ok v => cases hmain
  | error g =>
    cases hmain
    exact ⟨c, rfl, store_replaceEvents _ _ _ _ _⟩

theorem store_finalStage (henv : h.Equips thread d.env) (spares : h.SparesAfter d p) (b : Bench ω) :
    h.store.get (d.runFinal p e b).2.world = h.store.get b.world := by
  have final := store_runFinal henv (spares.quiet henv) b
  unfold Dispatcher.runFinal Dispatch.finalStage
  rcases hstage : (Dispatch.runFinal d.env p.final).outcome b with ⟨r, c⟩
  rw [hstage] at final
  cases r with
  | ok v => exact final
  | error g =>
    dsimp only
    rw [store_replaceEvents]
    exact final

/-- The store after a message that was routed and whose main stage failed is the store after
the main stage. -/
theorem handled_failed (henv : h.Equips thread d.env) {raw label : String} {b : Bench ω}
    {f : Failure} {final : Option Failure} (routed : d.table.get? label = some p)
    (spares : h.SparesAfter d p)
    (failed : (d.handle raw b).1.outcome = .handled label (some f) final) :
    ∃ e b₀ b₁, validate raw = .ok e ∧ h.store.get b₀.world = h.store.get b.world ∧
      h.ledger.get b₀.world = h.ledger.get b.world ∧
      (Dispatch.mainStage d.env p e).outcome b₀ = (.error f, b₁) ∧
      h.store.get (d.handle raw b).2.world = h.store.get b₁.world := by
  cases valid : validate raw with
  | error r =>
    rw [Dispatcher.handle, valid] at failed
    cases failed
  | ok e =>
    cases hp : d.table.get? e.label with
    | none =>
      rw [Dispatcher.handle, valid] at failed
      dsimp only at failed
      rw [Dispatcher.route, hp] at failed
      cases failed
    | some p' =>
      rw [Dispatcher.handle_routed valid hp, Dispatcher.stages] at failed ⊢
      generalize hb₀ : d.env.log .debug Code.logNewEvent e.toValue b = b₀ at failed ⊢
      obtain ⟨store₀, ledger₀⟩ := henv.log .debug Code.logNewEvent e.toValue b
      rw [hb₀] at store₀ ledger₀
      rcases hmain : d.runMain p' e b₀ with ⟨main, c⟩
      rw [hmain] at failed
      cases failed
      cases routed.symm.trans hp
      obtain ⟨b₁, hstage, hworld⟩ := runMain_failed hmain
      refine ⟨e, b₀, b₁, rfl, store₀, ledger₀, hstage, ?_⟩
      have written := store_writeAll henv spares.write (d.runFinal p e c).2.events.drain.1
        { (d.runFinal p e c).2 with events := (d.runFinal p e c).2.events.drain.2 }
      rw [← hworld]
      exact written.trans (store_finalStage henv spares c)

/-- A message whose main stage failed leaves the users, the sessions and the encryption rows
of the store as they were, with no unit of work open. When it failed for an expired session,
that session and its encryption row are gone. This holds for every pipeline of built-in main
processors, in any order and number, unless the failure is that of the ledger to commit. -/
theorem handle_failed_atomic (h : Host ω) (d : Dispatcher ω) {thread : String}
    (henv : h.Equips thread d.env) {p : Pipeline ω} {label : String}
    (routed : d.table.get? label = some p)
    (builtin : ∀ w ∈ p.main, Registry.builtin.MakesMain w.run) (spares : h.SparesAfter d p)
    {raw : String} {b : Bench ω} (reachable : (h.store.get b.world).Reachable)
    (idle : (h.store.get b.world).units thread = []) {f : Failure} {final : Option Failure}
    (failed : (d.handle raw b).1.outcome = .handled label (some f) final)
    (not_commit : ∀ g, (h.ledger.get b.world).failing = some (.commit, g) →
      f ≠ Dispatch.processingFailure g) :
    let before := h.store.get b.world
    let after := h.store.get (d.handle raw b).2.world
    after.units thread = [] ∧ after.tables.users = before.tables.users ∧
    (f.code ≠ Code.sessionExpired.id →
      after.tables.sessions = before.tables.sessions ∧
      after.tables.encryptions = before.tables.encryptions) ∧
    (f.code = Code.sessionExpired.id → ∃ e begun session, validate raw = .ok e ∧
      h.store.get begun.world = before.begin thread ∧
      FindsExpired h d.env e p.main begun session ∧
      after.tables.sessions = Keyed.erase session.id before.tables.sessions ∧
      after.tables.encryptions = Keyed.erase session.id before.tables.encryptions) := by
  intro before after
  have sound : before.Sound := reachable.sound
  obtain ⟨e, b₀, b₁, valid, store₀, ledger₀, hstage, hafter⟩ :=
    handled_failed henv routed spares failed
  have hafter : after = h.store.get b₁.world := hafter
  rw [Dispatch.mainStage_outcome henv.database henv.ledger] at hstage
  obtain ⟨store, ledger⟩ : h.store.get (Dispatch.cleared d.env p e b₀).world = before ∧
      h.ledger.get (Dispatch.cleared d.env p e b₀).world = h.ledger.get b.world := by
    obtain ⟨hs, hl⟩ := henv.log .info Code.logLookup
      (.object [("event", .str e.label), ("processors", .nat p.main.length)])
      { b₀ with events := {}, data := {} }
    exact ⟨hs.trans store₀, hl.trans ledger₀⟩
  rcases inUnits_failed (does_runMain henv e builtin) hstage with
    ⟨code, h₁⟩ | ⟨begun, turns, hturns, hbegun, h₁⟩ | ⟨g, failing, rfl⟩
  · rw [store] at h₁
    obtain ⟨units, users, rows⟩ := Store.rollback_writes sound idle []
    rw [hafter, h₁]
    exact ⟨units, users, fun _ => rows, fun hf => absurd (code.symm.trans hf) (by decide)⟩
  · rw [store] at h₁ hbegun
    rw [hafter, h₁]
    -- A deletion is the last turn of all, since the check that makes it fails.
    rcases hturns with ⟨⟨ws, rfl⟩, code⟩ | ⟨ws, session, found, available, hr, rfl⟩
    · obtain ⟨units, users, rows⟩ := Store.rollback_writes sound idle ws
      exact ⟨units, users, fun _ => rows, fun hf => absurd hf (code f rfl)⟩
    · rw [hbegun] at available
      obtain ⟨units, users, rows⟩ :=
        Store.rollback_writes_delete sound idle ws session.id available
      cases hr
      exact ⟨units, users, fun hf => absurd rfl hf,
        fun _ => ⟨e, begun, session, valid, hbegun, found, rows⟩⟩
  · exact absurd rfl (not_commit g (ledger ▸ failing))

/-! ## At a site -/

namespace Site

/-- The store and the ledger of a site. -/
def host : Host Site where
  store := storeLens
  ledger := ledgerLens
  store_lawful := ⟨fun _ _ => rfl, fun _ => rfl, fun _ _ _ => rfl⟩
  ledger_lawful := ⟨fun _ _ => rfl, fun _ => rfl, fun _ _ _ => rfl⟩
  store_apart _ _ := rfl
  ledger_apart _ _ := rfl

/-- The environment of a worker at a site. -/
def environment (thread : String) (providers : Providers) : Environment Site where
  services := (supply Lens.whole thread).services
  database? := some ((supply Lens.whole thread).database .memory)
  ledger? := some ((supply Lens.whole thread).ledger .null)
  providers

theorem host_equips (thread : String) (providers : Providers) :
    host.Equips thread (environment thread providers) where
  database := rfl
  ledger := rfl
  now _ := ⟨rfl, rfl⟩
  draw _ := ⟨rfl, rfl⟩
  record _ _ := ⟨rfl, rfl⟩

theorem host_spares_output (thread : String) (kind : OutputKind) (m : Outbound) :
    host.Spares fun s => ((((supply Lens.whole thread).output kind).write m).outcome s).2 := by
  intro s
  cases kind with
  | lines => exact ⟨rfl, rfl⟩
  | memory => exact ⟨rfl, rfl⟩
  | broadcast => exact ⟨rfl, rfl⟩

end Site

/-- Logins use the session there is and then ask for one with the same value. -/
def loginPipeline : Pipeline Site where
  main :=
    [⟨0, "update_session", MainRun.ofAct Processor.touchSession⟩,
      ⟨1, "start_session", MainRun.ofAct Processor.startSession⟩]
  final := [⟨2, "event_type_to_session", FinalRun.ofAct fun _ _ => Processor.rekeyBySession⟩]

/-- A dispatcher at a site that takes logins through `loginPipeline`. -/
def loginDispatcher : Dispatcher Site where
  output := (Site.supply Lens.whole Site.thread).output .memory
  table := { pipelines := [("login", loginPipeline)] }
  env := Site.environment Site.thread {}

/-- A user with a session. -/
def aliceTurns : List Turn :=
  [⟨"seed", .insertUser ⟨1, "alice"⟩⟩,
    ⟨"seed", .write (.createSession 1 "aa01" (some "b1") 0)⟩,
    ⟨"seed", .write (.createEncryption 1 .unencrypted)⟩]

/-- The bench at a site one second after the user has got the session. -/
def aliceBench : Bench Site :=
  { world := { store := ({} : Store).run aliceTurns, clock := 1000, entropy := { key := [] } } }

/-- A login of the user in the session that is there. -/
def secondLogin : String :=
  "\x7b\"session\":\"aa01\",\"event\":\"login\"," ++
    "\"params\":\x7b\"auth_token\":\"b1\",\"subject\":\"alice\"\x7d\x7d"

/-- The time of last use is written and put back, since the second session is refused. -/
theorem handle_failed_atomic_second_login :
    let after := Site.host.store.get (loginDispatcher.handle secondLogin aliceBench).2.world
    (loginDispatcher.handle secondLogin aliceBench).1.outcome =
      .handled "login" (some (Code.sessionNotCreated.failure.causedBy
        (Code.sessionNotCreated.failure.because "duplicate session aa01"))) none ∧
    after.units Site.thread = [] ∧
    after.tables.sessions = [(1, ⟨1, 1, "aa01", some "b1", 0⟩)] ∧
    after.tables.encryptions = [(1, ⟨1, 1, .unencrypted⟩)] := by
  have failed : (loginDispatcher.handle secondLogin aliceBench).1.outcome =
      .handled "login" (some (Code.sessionNotCreated.failure.causedBy
        (Code.sessionNotCreated.failure.because "duplicate session aa01"))) none := by
    decide +kernel
  have builtin : ∀ w ∈ loginPipeline.main, Registry.builtin.MakesMain w.run := by
    intro w hw
    rcases List.mem_cons.mp hw with rfl | hw
    · exact ⟨⟨"update_session", ""⟩, aliceBench.world, _, _, rfl, rfl⟩
    · rw [List.mem_singleton.mp hw]
      exact ⟨⟨"start_session", ""⟩, aliceBench.world, _, _, rfl, rfl⟩
  have spares : Site.host.SparesAfter loginDispatcher loginPipeline := by
    refine ⟨fun w hw => ?_, Site.host_spares_output Site.thread .memory⟩
    rw [List.mem_singleton.mp hw]
    exact .inl ⟨⟨"event_type_to_session", ""⟩, aliceBench.world, _, _, rfl, rfl⟩
  obtain ⟨units, -, rows, -⟩ := handle_failed_atomic Site.host loginDispatcher
    (Site.host_equips Site.thread {}) rfl builtin spares ⟨aliceTurns, rfl⟩ rfl failed
    (by intro g hg; cases hg)
  obtain ⟨sessions, encryptions⟩ := rows (by decide)
  exact ⟨failed, units, sessions.trans rfl, encryptions.trans rfl⟩

end EventWorker
