import EventWorker.Proofs.Dispatch.Fanout
import EventWorker.Proofs.Dispatch.Pairing
import EventWorker.Proofs.Processor.Addressing
import EventWorker.Proofs.Validation.Checks

/-!
# Where messages are written to

The destinations of a message are labels of pipelines, the key of errors and sessions: that of the
message, or those of its recipients. A property that all of these have is one of all that is
written, from a store all of whose sessions have it. The sessions in the store keep it, for new
ones are those of messages, whether the units of work are committed or rolled back.

Results:
1. `inUnits_maintains`: what the units of work around a body leave.
2. `mainStage_maintains`, `runFinal_left`: what both stages of a pipeline leave.
3. `settle_left`: what a message leaves before anything is written.
-/

namespace EventWorker

variable {ω τ : Type} {h : Host ω} {thread : String} {env : Environment ω} {e : Event}
  {P : String → Prop} {part : ω → τ} {v : τ} {b c : Bench ω} {d : Dispatcher ω} {p : Pipeline ω}

/-- What a message can be written to has a property: no session, the key of errors, a session that
a message can name and the label of a pipeline. -/
structure Covers (P : String → Prop) (d : Dispatcher ω) : Prop where
  sessionless : P ""
  errors : P errorLabel
  session : ∀ s, Validation.isSessionValue s = true → P s
  label : ∀ label p, d.table.get? label = some p → P label

/-- What holds when no unit of work is open: of the waiting events and of the sessions in the
store. -/
structure Left (h : Host ω) (P : String → Prop) (part : ω → τ) (v : τ) (b : Bench ω) : Prop where
  addressed : Addressed P part v b
  named : (h.store.get b.world).tables.Named P

/-! ## The stages -/

/-- Running a processor keeps what the processor and logging keep. -/
theorem Dispatch.runOne_maintains {I : Bench ω → Prop} {run : Step Stop (Bench ω) Unit}
    (keeps : run.Maintains I)
    (logs : ∀ severity code detail c, I c → I (env.log severity code detail c)) (name : String)
    (more : List (String × Json.Value)) : (Dispatch.runOne env name more run).Maintains I := by
  intro b hb
  have ran := keeps b hb
  rw [Dispatch.runOne, Step.outcome_ofFunction]
  rcases outcome : run.outcome b with ⟨stop | _, c⟩
  · rw [outcome] at ran
    exact logs _ _ _ _ ran
  · rw [outcome] at ran
    exact logs _ _ _ _ ran

theorem Addressed.log (spare : env.services.Spare part) (hb : Addressed P part v b)
    (severity : Severity) (code : Nat) (detail : Json.Value) :
    Addressed P part v (env.log severity code detail b) := by
  obtain ⟨events, data⟩ := env.log_memories severity code detail b
  exact hb.of_same events data (spare.log severity code detail b)

theorem runMain_works (henv : h.Equips thread env) (spare : env.services.Spare part)
    (beside : h.Beside part) (label : P e.label) (session : P e.header.session)
    {main : List (Wired (MainRun ω))} (builtin : ∀ w ∈ main, Registry.builtin.MakesMain w.run) :
    (Dispatch.runMain env e main).Maintains (Working h thread P part v) := by
  induction main with
  | nil => exact .of_idle fun _ => rfl
  | cons w later ih =>
    obtain ⟨first, others⟩ := List.forall_mem_cons.mp builtin
    obtain ⟨k, run⟩ := Registry.builtin_main first
    refine .bind ?_ fun _ => ih others
    rw [run]
    refine Dispatch.runOne_maintains ((k.works henv spare beside label session).mapError _)
      (fun _ _ _ c hc => ?_) _ _
    exact ⟨hc.addressed.log spare _ _ _, (henv.log _ _ _ c).1 ▸ hc.named⟩

theorem runFinal_addressed (spare : env.services.Spare part) (sessionless : P "")
    {final : List (Wired (FinalRun ω))}
    (builtin : ∀ w ∈ final, Registry.builtin.MakesFinal w.run) :
    (Dispatch.runFinal env final).Maintains (Addressed P part v) := by
  induction final with
  | nil => exact .of_idle fun _ => rfl
  | cons w later ih =>
    obtain ⟨first, others⟩ := List.forall_mem_cons.mp builtin
    exact (Dispatch.runOne_maintains (builtin_final_addressed spare sessionless first)
      (fun _ _ _ _ hc => hc.log spare _ _ _) _ _).bind fun _ => ih others

/-! ## Units of work -/

theorem managed_addressed {a : Act ω Unit} {r : Except Failure Unit} (hb : Addressed P part v b)
    (rest : ∀ w, part (a.outcome w).2 = part w)
    (ends : (Dispatch.managed a).outcome b = (r, c)) : Addressed P part v c := by
  rw [Dispatch.managed, Step.outcome_mapError] at ends
  rw [← (Prod.mk.inj ends).2]
  exact hb.of_same rfl rfl (rest b.world)

theorem rest_change (beside : h.Beside part) (f : Store → Store) (w : ω) :
    part ((Store.change h.store f).outcome w).2 = part w :=
  beside.store _ w

theorem rest_call (beside : h.Beside part) (step : UnitStep) (w : ω) :
    part ((Ledger.manager.step h.ledger step).outcome w).2 = part w :=
  beside.ledger _ w

/-- A rollback puts back sessions that had the property before. -/
theorem Working.undo (beside : h.Beside part) (hb : Working h thread P part v b) :
    Left h P part v (Dispatch.undo (Store.database h.store thread).toManager b) :=
  ⟨hb.addressed.of_same rfl rfl (rest_change beside _ b.world),
    Host.store_undo_database b ▸ hb.named.rollback⟩

theorem Left.undo (beside : h.Beside part) (hb : Left h P part v b) :
    Left h P part v (Dispatch.undo (Ledger.manager h.ledger) b) :=
  ⟨hb.addressed.of_same rfl rfl (rest_call beside .rollback b.world),
    (Host.store_undo_ledger b).symm ▸ hb.named⟩

theorem Working.undoBoth (beside : h.Beside part) (hb : Working h thread P part v b) :
    Left h P part v (Dispatch.undoBoth (Store.database h.store thread).toManager
      (Ledger.manager h.ledger) b) :=
  (hb.undo beside).undo beside

/-- The sessions that a new unit of work would put back are none. -/
theorem Left.begun (beside : h.Beside part) (hb : Left h P part v b) {b₁ : Bench ω}
    {r : Except Failure Unit}
    (opens : (Dispatch.managed (Store.database h.store thread).begin).outcome b = (.ok (), b₁))
    (opens' : (Dispatch.managed (Ledger.manager h.ledger).begin).outcome b₁ = (r, c)) :
    Working h thread P part v c := by
  have addressed := managed_addressed hb.addressed (rest_change beside _) opens
  refine ⟨managed_addressed addressed (rest_call beside _) opens', ?_⟩
  rw [(Host.managed_call opens').1, (Host.managed_change opens).2.1]
  exact .begin hb.named thread

theorem Working.committed (beside : h.Beside part) (hb : Working h thread P part v b)
    {b₁ : Bench ω} {r : Except Failure Unit}
    (commits : (Dispatch.managed (Store.database h.store thread).commit).outcome b = (.ok (), b₁))
    (commits' : (Dispatch.managed (Ledger.manager h.ledger).commit).outcome b₁ = (r, c)) :
    Left h P part v c := by
  have addressed := managed_addressed hb.addressed (rest_change beside _) commits
  refine ⟨managed_addressed addressed (rest_call beside _) commits', ?_⟩
  rw [(Host.managed_call commits').1, (Host.managed_change commits).2.1, Store.tables_commit]
  exact hb.named.tables

/-- Whatever becomes of the units of work around a body that keeps to the property. -/
theorem inUnits_maintains (beside : h.Beside part) {body : Act (Bench ω) Unit}
    (works : body.Maintains (Working h thread P part v)) :
    (Dispatch.inUnits (Store.database h.store thread).toManager (Ledger.manager h.ledger)
      body).Maintains (Left h P part v) := by
  intro b hb
  have course := Dispatch.inUnits_ends (Store.database h.store thread).toManager
    (Ledger.manager h.ledger) body b
  generalize (Dispatch.inUnits (Store.database h.store thread).toManager
    (Ledger.manager h.ledger) body).outcome b = out at course ⊢
  cases course with
  | unopened opens => cases (Host.managed_change opens).1
  | uncommitted _ _ _ commits => cases (Host.managed_change commits).1
  | refused opens refuses => exact (hb.begun beside opens refuses).undo beside
  | stopped opens opens' stops =>
    have ran := works _ (hb.begun beside opens opens')
    rw [stops] at ran
    exact ran.undoBoth beside
  | halfway opens opens' ends commits commits' =>
    have ran := works _ (hb.begun beside opens opens')
    rw [ends] at ran
    exact (ran.committed beside commits commits').undo beside
  | committed opens opens' ends commits commits' =>
    have ran := works _ (hb.begun beside opens opens')
    rw [ends] at ran
    exact ran.committed beside commits commits'

theorem mainStage_maintains (henv : h.Equips thread env) (spare : env.services.Spare part)
    (beside : h.Beside part) (label : P e.label) (session : P e.header.session)
    (builtin : ∀ w ∈ p.main, Registry.builtin.MakesMain w.run) :
    (Dispatch.mainStage env p e).Maintains (Left h P part v) := by
  intro b hb
  rw [Dispatch.mainStage_outcome henv.database henv.ledger]
  refine inUnits_maintains beside (runMain_works henv spare beside label session builtin) _ ?_
  -- The stage starts from empty memories.
  have empty : Addressed P part v { b with events := {}, data := {} } :=
    ⟨nofun, fun _ _ hrow => (nomatch hrow), hb.addressed.rest⟩
  refine ⟨empty.log spare _ _ _, ?_⟩
  rw [Dispatch.cleared, (henv.log _ _ _ _).1]
  exact hb.named

/-! ## A message -/

/-- The event that tells of a failure is addressed to its key. -/
theorem Left.replaceEvents (hb : Left h P part v b) {key : String} (hkey : P key)
    {header : Header} (session : P header.session) (f : Failure) (source : ErrorSource) :
    Left h P part v (Dispatcher.replaceEvents key header f source b) := by
  have world := store_replaceEvents key header f source b
  refine ⟨⟨fun entry hentry => ?_, ?_, ?_⟩, ?_⟩
  · obtain ⟨at_key, named⟩ := mem_drain_replaceEvents hentry
    rw [at_key, named]
    exact ⟨hkey, session⟩
  · unfold Dispatcher.replaceEvents
    split <;> exact hb.addressed.loaded
  · rw [world]
    exact hb.addressed.rest
  · rw [world]
    exact hb.named

theorem Left.log (henv : h.Equips thread env) (spare : env.services.Spare part)
    (hb : Left h P part v b) (severity : Severity) (code : Nat) (detail : Json.Value) :
    Left h P part v (env.log severity code detail b) :=
  ⟨hb.addressed.log spare severity code detail, (henv.log severity code detail b).1 ▸ hb.named⟩

section

variable (hd : Builtin h thread d) (spare : d.env.services.Spare part) (beside : h.Beside part)
  (covers : Covers P d)

include hd spare beside covers

theorem runMain_left (routed : d.table.get? e.label = some p) (session : P e.header.session)
    (hb : Left h P part v b) : Left h P part v (d.runMain p e b).2 := by
  have main := mainStage_maintains hd.equips spare beside (covers.label _ p routed) session
    (hd.main _ p routed) b hb
  unfold Dispatcher.runMain
  rcases stage : (Dispatch.mainStage d.env p e).outcome b with ⟨f | u, c⟩
  · rw [stage] at main
    exact main.replaceEvents covers.errors session f .pipeline
  · rw [stage] at main
    exact main

omit beside in
theorem runFinal_left (routed : d.table.get? e.label = some p) (session : P e.header.session)
    (hb : Left h P part v b) : Left h P part v (d.runFinal p e b).2 := by
  have builtin := hd.final _ p routed
  have final : Left h P part v ((Dispatch.finalStage d.env p).outcome b).2 := by
    refine ⟨runFinal_addressed spare covers.sessionless builtin b hb.addressed, ?_⟩
    rw [Dispatch.finalStage,
      store_runFinal hd.equips fun w hw => quiet_builtin_final hd.equips (builtin w hw)]
    exact hb.named
  unfold Dispatcher.runFinal
  rcases stage : (Dispatch.finalStage d.env p).outcome b with ⟨f | u, c⟩
  · rw [stage] at final
    exact final.replaceEvents session session f .pipeline
  · rw [stage] at final
    exact final

theorem settle_left (raw : String) (hb : Left h P part v b) :
    Left h P part v (d.settle raw b).2 := by
  unfold Dispatcher.settle
  cases valid : validate raw with
  | error r =>
    have logged := hb.log hd.equips spare .debug r.failure.logCode (.object
        [("msg", .str r.failure.message), ("notifiable", .bool r.failure.notifiable),
          ("raw", .str raw)])
    dsimp only [Dispatcher.reject]
    cases known : r.header? with
    | none => exact ⟨logged.addressed.replace nofun, logged.named⟩
    | some header =>
      obtain ⟨fields, -, heads⟩ := (validate_error valid).2 header known
      have session : P header.session :=
        covers.session _ ((Validation.isSessionValue_iff _).mpr heads.hexadecimal)
      exact logged.replaceEvents session session r.failure .worker
  | ok e =>
    have session : P e.header.session := covers.session _ (validate_session valid)
    have arrived := hb.log hd.equips spare .debug Code.logNewEvent e.toValue
    dsimp only
    unfold Dispatcher.route
    cases routed : d.table.get? e.label with
    | none => exact arrived.log hd.equips spare _ _ _
    | some p =>
      exact runFinal_left hd spare covers routed session
        (runMain_left hd spare beside covers routed session arrived)

end

end EventWorker
