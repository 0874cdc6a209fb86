import EventWorker.Dispatch.Message
import EventWorker.Proofs.Steps

/-!
# A routed message, stage by stage

What handling a message comes to once it has passed its checks and has a pipeline,
and what the main stage comes to once it has its managers.

Results:
1. `Dispatcher.handle_writes`: handling is settling, and then one write after the other.
2. `Dispatcher.settle_routed`: settling a routed message is going through both stages.
3. `Dispatch.inUnits_refused`, `Dispatch.inUnits_stopped`: a main stage whose second unit of work
   does not begin, and one whose processors stop.
4. `Dispatch.inUnits_body`, `Dispatch.inUnits_memories`: what a main stage leaves in the memories.
5. `Dispatch.inUnits_ends`: all ways in which the units of work around a body end.
-/

namespace EventWorker

variable {ω : Type}

@[simp] theorem Bench.outcome_change {ε : Type} (f : Bench ω → Bench ω) (b : Bench ω) :
    (Bench.change f : Step ε (Bench ω) Unit).outcome b = (.ok (), f b) := rfl

@[simp] theorem Bench.outcome_onWorld {ε α : Type} (a : Step ε ω α) (b : Bench ω) :
    (Bench.onWorld a).outcome b =
      ((a.outcome b.world).1, { b with world := (a.outcome b.world).2 }) := rfl

theorem managed_memories (a : Act ω Unit) (b : Bench ω) :
    ((Dispatch.managed a).outcome b).2.events = b.events ∧
      ((Dispatch.managed a).outcome b).2.data = b.data := by
  rw [Dispatch.managed, Step.outcome_mapError]
  exact ⟨rfl, rfl⟩

theorem Environment.log_memories (env : Environment ω) (severity : Severity) (code : Nat)
    (detail : Json.Value) (b : Bench ω) :
    (env.log severity code detail b).events = b.events ∧
      (env.log severity code detail b).data = b.data := by
  unfold Environment.log
  split <;> exact ⟨rfl, rfl⟩

/-- The bench on which the main stage begins its units of work. -/
def Dispatch.cleared (env : Environment ω) (p : Pipeline ω) (e : Event) (b : Bench ω) : Bench ω :=
  env.log .info Code.logLookup
    (.object [("event", .str e.label), ("processors", .nat p.main.length)])
    { b with events := {}, data := {} }

theorem Dispatch.mainStage_outcome {env : Environment ω} {p : Pipeline ω} {e : Event}
    {db : Database ω} {ledger : Manager ω} (hdb : env.database? = some db)
    (hledger : env.ledger? = some ledger) (b : Bench ω) :
    (mainStage env p e).outcome b =
      (inUnits db.toManager ledger (runMain env e p.main)).outcome (cleared env p e b) := by
  have database : env.database = .ok db := by rw [Environment.database, hdb]; rfl
  have ledger' : env.ledger = .ok ledger := by rw [Environment.ledger, hledger]; rfl
  unfold mainStage
  rw [database, ledger']
  refine (Step.outcome_bind_ok (Bench.outcome_change _ _)).trans ?_
  refine (Step.outcome_bind_ok (Step.outcome_ofResult _ _)).trans ?_
  exact Step.outcome_bind_ok (Step.outcome_ofResult _ _)

/-- The bench on which a body inside two units of work starts. -/
def Dispatch.begun (db ledger : Manager ω) (b : Bench ω) : Bench ω :=
  ((managed ledger.begin).outcome ((managed db.begin).outcome b).2).2

/-- When both units of work begin and the body fails, both are rolled back. -/
theorem Dispatch.inUnits_stopped {db ledger : Manager ω} {body : Act (Bench ω) Unit}
    {b b₁ b₂ c : Bench ω} {f : Failure} (opens : (managed db.begin).outcome b = (.ok (), b₁))
    (opens' : (managed ledger.begin).outcome b₁ = (.ok (), b₂))
    (stops : body.outcome b₂ = (.error f, c)) :
    (inUnits db ledger body).outcome b = (.error f, undoBoth db ledger c) := by
  unfold inUnits
  rw [Step.outcome_bind_ok opens]
  have opens' : ((managed ledger.begin).onError (undo db)).outcome b₁ = (.ok (), b₂) := by
    rw [Step.outcome_onError, opens']
  rw [Step.outcome_bind_ok opens']
  refine Step.outcome_bind_error ?_
  rw [Step.outcome_onError, stops]

/-- When the second unit of work does not begin, the body is not run. -/
theorem Dispatch.inUnits_refused {db ledger : Manager ω} {body : Act (Bench ω) Unit}
    {b b₁ c : Bench ω} {f : Failure} (opens : (managed db.begin).outcome b = (.ok (), b₁))
    (refuses : (managed ledger.begin).outcome b₁ = (.error f, c)) :
    (inUnits db ledger body).outcome b = (.error f, undo db c) := by
  unfold inUnits
  rw [Step.outcome_bind_ok opens]
  refine Step.outcome_bind_error ?_
  rw [Step.outcome_onError, refuses]

/-- When both units of work begin, the memories after them are those of the body. -/
theorem Dispatch.inUnits_body {db ledger : Manager ω} (body : Act (Bench ω) Unit)
    {b b₁ b₂ : Bench ω} (opens : (managed db.begin).outcome b = (.ok (), b₁))
    (opens' : (managed ledger.begin).outcome b₁ = (.ok (), b₂)) :
    let out := (inUnits db ledger body).outcome b
    let mid := body.outcome b₂
    out.2.events = mid.2.events ∧ out.2.data = mid.2.data ∧ (out.1 = .ok () → mid.1 = .ok ()) := by
  dsimp only
  rcases stops : body.outcome b₂ with ⟨f | v, c⟩
  · rw [inUnits_stopped opens opens' stops]
    exact ⟨rfl, rfl, fun hr => nomatch hr⟩
  have opens' : ((managed ledger.begin).onError (undo db)).outcome b₁ = (.ok (), b₂) := by
    rw [Step.outcome_onError, opens']
  have ends : (body.onError (undoBoth db ledger)).outcome b₂ = (.ok v, c) := by
    rw [Step.outcome_onError, stops]
  unfold inUnits
  rw [Step.outcome_bind_ok opens, Step.outcome_bind_ok opens', Step.outcome_bind_ok ends]
  have keeps (m : Manager ω) (f : Bench ω → Bench ω)
      (hf : ∀ t, (f t).events = t.events ∧ (f t).data = t.data) :
      ((managed m.commit).onError f).Maintains
        fun t => t.events = c.events ∧ t.data = c.data :=
    Step.Maintains.onError
      (fun t ht => ⟨(managed_memories _ t).1.trans ht.1, (managed_memories _ t).2.trans ht.2⟩)
      fun t ht => ⟨(hf t).1.trans ht.1, (hf t).2.trans ht.2⟩
  obtain ⟨events, data⟩ := ((keeps db (undoBoth db ledger) fun _ => ⟨rfl, rfl⟩).bind fun _ =>
    keeps ledger (undo ledger) fun _ => ⟨rfl, rfl⟩) c ⟨rfl, rfl⟩
  exact ⟨events, data, fun _ => rfl⟩

/-- The managers work on the surroundings only: the memories after a main stage are those of its
body, unless it did not get that far and nothing was done to them. -/
theorem Dispatch.inUnits_memories (db ledger : Manager ω) (body : Act (Bench ω) Unit)
    (b : Bench ω) :
    let out := (inUnits db ledger body).outcome b
    let mid := body.outcome (begun db ledger b)
    ((∃ f, out.1 = .error f) ∧ out.2.data = b.data) ∨
      (out.2.events = mid.2.events ∧ out.2.data = mid.2.data ∧
        (out.1 = .ok () → mid.1 = .ok ())) := by
  dsimp only
  have data := (managed_memories db.begin b).2
  rcases opens : (managed db.begin).outcome b with ⟨f | v, b₁⟩
  · rw [opens] at data
    unfold inUnits
    rw [Step.outcome_bind_error opens]
    exact .inl ⟨⟨f, rfl⟩, data⟩
  have data' := (managed_memories ledger.begin b₁).2
  rcases opens' : (managed ledger.begin).outcome b₁ with ⟨f | v, b₂⟩
  · rw [opens] at data
    rw [opens'] at data'
    rw [inUnits_refused opens opens']
    exact .inl ⟨⟨f, rfl⟩, data'.trans data⟩
  · have started : begun db ledger b = b₂ := by
      rw [begun, opens, opens']
    rw [started]
    exact .inr (inUnits_body body opens opens')

/-- How the units of work around a body end, and on which bench. Each of the five steps is the last
one if it fails, and what has been begun by then is rolled back. -/
inductive Dispatch.UnitsEnd (db ledger : Manager ω) (body : Act (Bench ω) Unit) (b : Bench ω) :
    Except Failure Unit × Bench ω → Prop
  | unopened {b₁ : Bench ω} {f : Failure} (opens : (managed db.begin).outcome b = (.error f, b₁)) :
      UnitsEnd db ledger body b (.error f, b₁)
  | refused {b₁ b₂ : Bench ω} {f : Failure}
      (opens : (managed db.begin).outcome b = (.ok (), b₁))
      (refuses : (managed ledger.begin).outcome b₁ = (.error f, b₂)) :
      UnitsEnd db ledger body b (.error f, undo db b₂)
  | stopped {b₁ b₂ c : Bench ω} {f : Failure}
      (opens : (managed db.begin).outcome b = (.ok (), b₁))
      (opens' : (managed ledger.begin).outcome b₁ = (.ok (), b₂))
      (stops : body.outcome b₂ = (.error f, c)) :
      UnitsEnd db ledger body b (.error f, undoBoth db ledger c)
  | uncommitted {b₁ b₂ c c₁ : Bench ω} {f : Failure}
      (opens : (managed db.begin).outcome b = (.ok (), b₁))
      (opens' : (managed ledger.begin).outcome b₁ = (.ok (), b₂))
      (ends : body.outcome b₂ = (.ok (), c))
      (commits : (managed db.commit).outcome c = (.error f, c₁)) :
      UnitsEnd db ledger body b (.error f, undoBoth db ledger c₁)
  | halfway {b₁ b₂ c c₁ c₂ : Bench ω} {f : Failure}
      (opens : (managed db.begin).outcome b = (.ok (), b₁))
      (opens' : (managed ledger.begin).outcome b₁ = (.ok (), b₂))
      (ends : body.outcome b₂ = (.ok (), c))
      (commits : (managed db.commit).outcome c = (.ok (), c₁))
      (commits' : (managed ledger.commit).outcome c₁ = (.error f, c₂)) :
      UnitsEnd db ledger body b (.error f, undo ledger c₂)
  | committed {b₁ b₂ c c₁ c₂ : Bench ω}
      (opens : (managed db.begin).outcome b = (.ok (), b₁))
      (opens' : (managed ledger.begin).outcome b₁ = (.ok (), b₂))
      (ends : body.outcome b₂ = (.ok (), c))
      (commits : (managed db.commit).outcome c = (.ok (), c₁))
      (commits' : (managed ledger.commit).outcome c₁ = (.ok (), c₂)) :
      UnitsEnd db ledger body b (.ok (), c₂)

theorem Dispatch.inUnits_ends (db ledger : Manager ω) (body : Act (Bench ω) Unit) (b : Bench ω) :
    UnitsEnd db ledger body b ((inUnits db ledger body).outcome b) := by
  unfold inUnits
  rcases opens : (managed db.begin).outcome b with ⟨f | v, b₁⟩
  · rw [Step.outcome_bind_error opens]
    exact .unopened opens
  rw [Step.outcome_bind_ok opens, Step.outcome_bind, Step.outcome_onError]
  rcases opens' : (managed ledger.begin).outcome b₁ with ⟨f | v, b₂⟩
  · exact .refused opens opens'
  dsimp only
  rw [Step.outcome_bind, Step.outcome_onError]
  rcases ends : body.outcome b₂ with ⟨f | v, c⟩
  · exact .stopped opens opens' ends
  dsimp only
  rw [Step.outcome_bind, Step.outcome_onError]
  rcases commits : (managed db.commit).outcome c with ⟨f | v, c₁⟩
  · exact .uncommitted opens opens' ends commits
  dsimp only
  rw [Step.outcome_onError]
  rcases commits' : (managed ledger.commit).outcome c₁ with ⟨f | v, c₂⟩
  · exact .halfway opens opens' ends commits commits'
  · exact .committed opens opens' ends commits commits'

namespace Dispatcher

/-- What becomes of a message before anything is written, and the bench then. -/
def settle (d : Dispatcher ω) (raw : String) (b : Bench ω) : Outcome × Bench ω :=
  match validate raw with
  | .error r => (.rejected r.failure, d.reject raw r b)
  | .ok e => d.route e (d.env.log .debug Code.logNewEvent e.toValue b)

/-- The events that are written for a message, in order, each with its destination. -/
def writes (d : Dispatcher ω) (raw : String) (b : Bench ω) : List (String × Event) :=
  (d.settle raw b).2.events.drain.1

/-- Nothing but the writes of a message reaches the output. -/
theorem handle_writes (d : Dispatcher ω) (raw : String) (b : Bench ω) :
    d.handle raw b =
      let (outcome, c) := d.settle raw b
      let (sent, c) := d.writeAll (d.writes raw b) { c with events := c.events.drain.2 }
      ({ outcome, sent }, c) :=
  rfl

/-- The stages of a routed message, from the bench on which its arrival was logged. -/
def stages (d : Dispatcher ω) (p : Pipeline ω) (e : Event) (b : Bench ω) :
    Option Failure × Option Failure × Bench ω :=
  let (main, b) := d.runMain p e (d.env.log .debug Code.logNewEvent e.toValue b)
  let (final, b) := d.runFinal p e b
  (main, final, b)

/-- A message that passes its checks and has a pipeline goes through both stages. -/
theorem settle_routed {d : Dispatcher ω} {raw : String} {e : Event} {p : Pipeline ω}
    (valid : validate raw = .ok e) (routed : d.table.get? e.label = some p) (b : Bench ω) :
    d.settle raw b =
      (.handled e.label (d.stages p e b).1 (d.stages p e b).2.1, (d.stages p e b).2.2) := by
  simp only [settle, valid, route, routed, stages]

/-- A message that passes its checks and has a pipeline goes through both stages, and
what is waiting then is written. -/
theorem handle_routed {d : Dispatcher ω} {raw : String} {e : Event} {p : Pipeline ω}
    (valid : validate raw = .ok e) (routed : d.table.get? e.label = some p) (b : Bench ω) :
    d.handle raw b =
      let (main, final, b) := d.stages p e b
      let (sent, b) := d.notify b
      ({ outcome := .handled e.label main final, sent }, b) := by
  simp only [handle_writes, writes, settle_routed valid routed, notify]

end Dispatcher

end EventWorker
