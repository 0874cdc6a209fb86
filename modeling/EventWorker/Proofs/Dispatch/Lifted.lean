import EventWorker.Proofs.Dispatch.Routed

/-!
# A dispatcher in larger surroundings

The surroundings of a dispatcher may be a part of other surroundings, where something
is noted down or other things happen. There each provider and each processor works
on its part and sees nothing else.

Results:
1. `Dispatch.mainStage_within`, `Dispatch.finalStage_within`: a stage in larger surroundings
   is the stage itself on its part of them.
2. `Dispatcher.settle_within`: so is everything up to the writes.
-/

namespace EventWorker

theorem slot_map {α β : Type} (what : String) (g : α → β) (o : Option α) :
    slot what (o.map g) = (slot what o).map g := by
  cases o <;> rfl

variable {ω ω' : Type} {l : Lens ω' ω}

/-- The bench in larger surroundings. -/
def Bench.within (l : Lens ω' ω) : Lens (Bench ω') (Bench ω) :=
  ⟨fun b => { b with world := l.get b.world },
    fun c b => { c with world := l.set c.world b.world }⟩

theorem Bench.within_lawful (hl : l.Lawful) : (Bench.within l).Lawful where
  get_set c b := by
    show ({ c with world := l.get (l.set c.world b.world) } : Bench ω) = c
    rw [hl.get_set]
  set_get b := by
    show ({ b with world := l.set (l.get b.world) b.world } : Bench ω') = b
    rw [hl.set_get]
  set_set c c' b := by
    show ({ c with world := l.set c.world (l.set c'.world b.world) } : Bench ω') =
      { c with world := l.set c.world b.world }
    rw [hl.set_set]

/-- A life cycle in larger surroundings. -/
def LifeCycle.within (l : Lens ω' ω) (c : LifeCycle ω) : LifeCycle ω' where
  setUp line := (c.setUp line).focus l
  connect := c.connect.focus l
  disconnect := c.disconnect.focus l

/-- A manager in larger surroundings. -/
def Manager.within (l : Lens ω' ω) (m : Manager ω) : Manager ω' where
  toLifeCycle := m.toLifeCycle.within l
  begin := m.begin.focus l
  commit := m.commit.focus l
  rollback := m.rollback.focus l

/-- A database in larger surroundings. -/
def Database.within (l : Lens ω' ω) (d : Database ω) : Database ω' where
  toManager := d.toManager.within l
  session? token value := (d.session? token value).focus l
  sessionByValue? value := (d.sessionByValue? value).focus l
  user? id := (d.user? id).focus l
  userByName? username := (d.userByName? username).focus l
  createSession client value token time := (d.createSession client value token time).focus l
  createEncryption sessionId state := (d.createEncryption sessionId state).focus l
  updateLastUpdated value time := (d.updateLastUpdated value time).focus l
  updateEncryption sessionId state := (d.updateEncryption sessionId state).focus l
  delete sessionId := (d.delete sessionId).focus l
  recipientsOf? value := (d.recipientsOf? value).focus l
  clientRecipients? value := (d.clientRecipients? value).focus l

/-- Services in larger surroundings. -/
def Services.within (l : Lens ω' ω) (s : Services ω) : Services ω' where
  now w := ((s.now (l.get w)).1, l.set (s.now (l.get w)).2 w)
  draw w := ((s.draw (l.get w)).1, l.set (s.draw (l.get w)).2 w)
  record r := l.modify (s.record r)

/-- An environment in larger surroundings. -/
def Environment.within (l : Lens ω' ω) (env : Environment ω) : Environment ω' where
  services := env.services.within l
  database? := env.database?.map (Database.within l)
  ledger? := env.ledger?.map (Manager.within l)
  providers := env.providers

/-- A pipeline in larger surroundings, of which its processors see no more than before. -/
def Pipeline.within (l : Lens ω' ω) (env : Environment ω) (p : Pipeline ω) : Pipeline ω' where
  main := p.main.map fun w =>
    { id := w.id, name := w.name, run := fun _ e => (w.run env e).focus (Bench.within l) }
  final := p.final.map fun w =>
    { id := w.id, name := w.name
      run := fun _ _ => (w.run env.services env.providers).focus (Bench.within l) }

/-- A dispatcher in larger surroundings, with an output there. -/
def Dispatcher.within (l : Lens ω' ω) (d : Dispatcher ω) (output : Output ω') :
    Dispatcher ω' where
  output
  table :=
    { pipelines := d.table.pipelines.map fun entry => (entry.1, entry.2.within l d.env) }
  env := d.env.within l

namespace Dispatch

variable {env : Environment ω}

theorem log_within (hl : l.Lawful) (severity : Severity) (code : Nat) (detail : Json.Value)
    (b : Bench ω') :
    (env.within l).log severity code detail b =
      (Bench.within l).modify (env.log severity code detail) b := by
  have same : (env.within l).loggerOrDefault = env.loggerOrDefault := rfl
  unfold Environment.log
  rw [same, Lens.modify]
  cases env.loggerOrDefault.record? severity code detail with
  | none => exact ((Bench.within_lawful hl).set_get b).symm
  | some r => rfl

theorem runOne_within (hl : l.Lawful) (name : String) (more : List (String × Json.Value))
    (run : Step Stop (Bench ω) Unit) :
    runOne (env.within l) name more (run.focus (Bench.within l)) =
      (runOne env name more run).focus (Bench.within l) := by
  have lawful := Bench.within_lawful hl
  refine Step.ext fun b => ?_
  rw [Step.outcome_focus, runOne, runOne, Step.outcome_ofFunction, Step.outcome_ofFunction,
    Step.outcome_focus]
  rcases run.outcome ((Bench.within l).get b) with ⟨stop | v, c⟩
  · dsimp only [Environment.logStopped]
    rw [log_within hl, Lens.modify, lawful.get_set, lawful.set_set]
  · dsimp only [Environment.logHandled]
    rw [log_within hl, Lens.modify, lawful.get_set, lawful.set_set]

theorem runMain_within (hl : l.Lawful) (e : Event) (ps : List (Wired (MainRun ω))) :
    runMain (env.within l) e
        (ps.map fun w =>
          { id := w.id, name := w.name, run := fun _ e => (w.run env e).focus (Bench.within l) }) =
      (runMain env e ps).focus (Bench.within l) := by
  induction ps with
  | nil => exact (Step.focus_pure (Bench.within_lawful hl) ()).symm
  | cons p rest ih =>
    rw [List.map_cons, runMain, runMain, Step.focus_bind (Bench.within_lawful hl),
      runOne_within hl, ih]

theorem runFinal_within (hl : l.Lawful) (ps : List (Wired (FinalRun ω))) :
    runFinal (env.within l)
        (ps.map fun w =>
          { id := w.id, name := w.name
            run := fun _ _ => (w.run env.services env.providers).focus (Bench.within l) }) =
      (runFinal env ps).focus (Bench.within l) := by
  induction ps with
  | nil => exact (Step.focus_pure (Bench.within_lawful hl) ()).symm
  | cons p rest ih =>
    rw [List.map_cons, runFinal, runFinal, Step.focus_bind (Bench.within_lawful hl),
      runOne_within hl, ih]

theorem managed_within (a : Act ω Unit) :
    managed (a.focus l) = (managed a).focus (Bench.within l) := by
  unfold managed
  rw [Step.focus_mapError]
  rfl

theorem undoBoth_within (hl : l.Lawful) (first second : Manager ω) :
    undoBoth (first.within l) (second.within l) =
      (Bench.within l).modify (undoBoth first second) := by
  have lawful := Bench.within_lawful hl
  have once (m : Manager ω) : undo (m.within l) = (Bench.within l).modify (undo m) := rfl
  funext b
  unfold undoBoth
  rw [once, once, Lens.modify, Lens.modify, Lens.modify, lawful.get_set, lawful.set_set]

theorem inUnits_within (hl : l.Lawful) (db ledger : Manager ω) (body : Act (Bench ω) Unit) :
    inUnits (db.within l) (ledger.within l) (body.focus (Bench.within l)) =
      (inUnits db ledger body).focus (Bench.within l) := by
  have lawful := Bench.within_lawful hl
  have once (m : Manager ω) : undo (m.within l) = (Bench.within l).modify (undo m) := rfl
  unfold inUnits
  simp only [Step.focus_bind lawful, Step.focus_onError lawful, ← managed_within,
    ← undoBoth_within hl, ← once]
  rfl

theorem mainStage_within (hl : l.Lawful) (p : Pipeline ω) (e : Event) :
    mainStage (env.within l) (p.within l env) e =
      (mainStage env p e).focus (Bench.within l) := by
  have lawful := Bench.within_lawful hl
  have places : (p.within l env).main.length = p.main.length := List.length_map _
  have database : (env.within l).database = env.database.map (Database.within l) :=
    slot_map _ _ env.database?
  have ledger : (env.within l).ledger = env.ledger.map (Manager.within l) :=
    slot_map _ _ env.ledger?
  unfold mainStage
  rw [Step.focus_bind lawful, places, database, ledger]
  congr 1
  · refine Step.ext fun b => congrArg (Prod.mk _) ?_
    exact log_within hl ..
  funext _
  refine Step.focus_ofResult_bind lawful _ fun db => ?_
  refine Step.focus_ofResult_bind lawful _ fun ledger => ?_
  rw [← inUnits_within hl, ← runMain_within hl]
  rfl

theorem finalStage_within (hl : l.Lawful) (p : Pipeline ω) :
    finalStage (env.within l) (p.within l env) = (finalStage env p).focus (Bench.within l) :=
  runFinal_within hl p.final

end Dispatch

namespace Dispatcher

variable {d : Dispatcher ω} {output : Output ω'}

theorem runMain_within (hl : l.Lawful) (p : Pipeline ω) (e : Event) (b : Bench ω') :
    (d.within l output).runMain (p.within l d.env) e b =
      ((d.runMain p e ((Bench.within l).get b)).1,
        (Bench.within l).set (d.runMain p e ((Bench.within l).get b)).2 b) := by
  unfold runMain
  rw [show (d.within l output).env = d.env.within l from rfl, Dispatch.mainStage_within hl,
    Step.outcome_focus]
  rcases (Dispatch.mainStage d.env p e).outcome ((Bench.within l).get b) with ⟨f | v, c⟩
  · dsimp only [replaceEvents]
    cases f.notifiable <;> rfl
  · rfl

theorem runFinal_within (hl : l.Lawful) (p : Pipeline ω) (e : Event) (b : Bench ω') :
    (d.within l output).runFinal (p.within l d.env) e b =
      ((d.runFinal p e ((Bench.within l).get b)).1,
        (Bench.within l).set (d.runFinal p e ((Bench.within l).get b)).2 b) := by
  unfold runFinal
  rw [show (d.within l output).env = d.env.within l from rfl, Dispatch.finalStage_within hl,
    Step.outcome_focus]
  rcases (Dispatch.finalStage d.env p).outcome ((Bench.within l).get b) with ⟨f | v, c⟩
  · dsimp only [replaceEvents]
    cases f.notifiable <;> rfl
  · rfl

theorem route_within (hl : l.Lawful) (e : Event) (b : Bench ω') :
    (d.within l output).route e b =
      ((d.route e ((Bench.within l).get b)).1,
        (Bench.within l).set (d.route e ((Bench.within l).get b)).2 b) := by
  have lawful := Bench.within_lawful hl
  have found : (d.within l output).table.get? e.label =
      (d.table.get? e.label).map (Pipeline.within l d.env) := Keyed.find?_map _ _ _
  unfold route
  rw [found]
  cases d.table.get? e.label with
  | none => exact congrArg (Prod.mk _) (Dispatch.log_within hl ..)
  | some p =>
    dsimp only [Option.map]
    rw [runMain_within hl, runFinal_within hl, lawful.get_set, lawful.set_set]

theorem reject_within (hl : l.Lawful) (raw : String) (r : Rejection) (b : Bench ω') :
    (d.within l output).reject raw r b =
      (Bench.within l).modify (d.reject raw r) b := by
  unfold reject
  dsimp only
  rw [show (d.within l output).env = d.env.within l from rfl, Dispatch.log_within hl]
  cases r.header? with
  | none => rfl
  | some h =>
    dsimp only [replaceEvents]
    cases r.failure.notifiable <;> rfl

/-- Up to its writes, a dispatcher does in larger surroundings what it does in its own. -/
theorem settle_within (hl : l.Lawful) (raw : String) (b : Bench ω') :
    (d.within l output).settle raw b =
      ((d.settle raw ((Bench.within l).get b)).1,
        (Bench.within l).set (d.settle raw ((Bench.within l).get b)).2 b) := by
  have lawful := Bench.within_lawful hl
  unfold settle
  cases validate raw with
  | error r => exact congrArg (Prod.mk _) (reject_within hl raw r b)
  | ok e =>
    dsimp only
    rw [show (d.within l output).env = d.env.within l from rfl, Dispatch.log_within hl,
      route_within hl, Lens.modify, lawful.get_set, lawful.set_set]

end Dispatcher

end EventWorker
