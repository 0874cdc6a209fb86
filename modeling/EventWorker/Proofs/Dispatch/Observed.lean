import EventWorker.Ledger
import EventWorker.Proofs.Dispatch.Routed

/-!
# Watching a dispatcher

An observed dispatcher notes down every call that it makes: of the two managers
and of the processors of both stages. The notes are kept beside the surroundings,
where no provider and no processor can reach them.

Results:
1. `Observed.inUnits_follows`: the calls of the managers around a body, path by
   path (`UnitCourse`).
2. `Observed.handle_follows`: an observed dispatcher handles a message as the
   dispatcher itself does, and what it notes down is a course of the units followed
   by a run of the final processors.
-/

namespace EventWorker

/-! ## Calls -/

/-- The managers that have a unit of work open during the main stage. -/
inductive Party
  | database
  | ledger
  deriving DecidableEq, Repr

/-- What a dispatcher calls. The processors of a stage are named by their places. -/
inductive Callee
  | unit (step : UnitStep) (party : Party)
  | main (place : Nat)
  | final (place : Nat)
  deriving DecidableEq, Repr

/-- A call that was made, and why it stopped if it did. -/
structure Call where
  callee : Callee
  stop? : Option Stop := none
  deriving DecidableEq, Repr

namespace Call

/-- The first `n` places of a stage were called in order, and each came to its end. -/
def ended (callee : Nat → Callee) (n : Nat) : List Call :=
  (List.range n).map fun i => { callee := callee i }

/-- The `n` places of a stage were called in order, up to the first that stopped. -/
def InOrder (callee : Nat → Callee) (n : Nat) (calls : List Call) : Option Stop → Prop
  | none => calls = ended callee n
  | some stop => ∃ k < n, calls = ended callee k ++ [{ callee := callee k, stop? := some stop }]

end Call

/-- Surroundings with the calls that were made there, oldest first. -/
structure Observed (ω : Type) where
  world : ω
  calls : List Call := []

namespace Observed

variable {ω ε α σ : Type}

/-! ## Observed providers and processors -/

/-- The surroundings without the notes. -/
def worldLens : Lens (Observed ω) ω :=
  ⟨Observed.world, fun w o => { o with world := w }⟩

/-- The notes. -/
def callsLens : Lens (Observed ω) (List Call) :=
  ⟨Observed.calls, fun calls o => { o with calls }⟩

/-- The bench without the notes. -/
def plain (b : Bench (Observed ω)) : Bench ω :=
  { b with world := b.world.world }

/-- The bench without the notes, as a part of the bench. -/
def plainLens : Lens (Bench (Observed ω)) (Bench ω) :=
  ⟨plain, fun c b => { c with world := { b.world with world := c.world } }⟩

/-- A step that notes itself down when it is over. -/
def noted (l : Lens σ (List Call)) (callee : Callee) (stop : ε → Stop) (a : Step ε σ α) :
    Step ε σ α :=
  Step.ofFunction fun s =>
    match a.outcome s with
    | (.ok v, s) => (.ok v, l.modify (· ++ [{ callee }]) s)
    | (.error e, s) => (.error e, l.modify (· ++ [{ callee, stop? := some (stop e) }]) s)

end Observed

open Observed

variable {ω : Type}

/-- A life cycle in observed surroundings. -/
def LifeCycle.observed (c : LifeCycle ω) : LifeCycle (Observed ω) where
  setUp line := (c.setUp line).focus worldLens
  connect := c.connect.focus worldLens
  disconnect := c.disconnect.focus worldLens

/-- A manager whose units of work are noted down. -/
def Manager.observed (party : Party) (m : Manager ω) : Manager (Observed ω) where
  toLifeCycle := m.toLifeCycle.observed
  begin := noted callsLens (.unit .begin party) .failed (m.begin.focus worldLens)
  commit := noted callsLens (.unit .commit party) .failed (m.commit.focus worldLens)
  rollback := noted callsLens (.unit .rollback party) .failed (m.rollback.focus worldLens)

/-- A database whose units of work are noted down. -/
def Database.observed (d : Database ω) : Database (Observed ω) where
  toManager := d.toManager.observed .database
  session? token value := (d.session? token value).focus worldLens
  sessionByValue? value := (d.sessionByValue? value).focus worldLens
  user? id := (d.user? id).focus worldLens
  userByName? username := (d.userByName? username).focus worldLens
  createSession client value token time :=
    (d.createSession client value token time).focus worldLens
  createEncryption sessionId state := (d.createEncryption sessionId state).focus worldLens
  updateLastUpdated value time := (d.updateLastUpdated value time).focus worldLens
  updateEncryption sessionId state := (d.updateEncryption sessionId state).focus worldLens
  delete sessionId := (d.delete sessionId).focus worldLens
  recipientsOf? value := (d.recipientsOf? value).focus worldLens
  clientRecipients? value := (d.clientRecipients? value).focus worldLens

/-- An output in observed surroundings. -/
def Output.observed (o : Output ω) : Output (Observed ω) where
  toLifeCycle := o.toLifeCycle.observed
  write m := (o.write m).focus worldLens
  retry w := o.retry w.world

/-- Services in observed surroundings. -/
def Services.observed (s : Services ω) : Services (Observed ω) where
  now o := ((s.now o.world).1, { o with world := (s.now o.world).2 })
  draw o := ((s.draw o.world).1, { o with world := (s.draw o.world).2 })
  record r := worldLens.modify (s.record r)

/-- An environment whose managers note their units of work down. -/
def Environment.observed (env : Environment ω) : Environment (Observed ω) where
  services := env.services.observed
  database? := env.database?.map Database.observed
  ledger? := env.ledger?.map (Manager.observed .ledger)
  providers := env.providers

namespace Observed

/-- A processor that notes itself down. -/
def watched (callee : Callee) (run : Step Stop (Bench ω) Unit) :
    Step Stop (Bench (Observed ω)) Unit :=
  noted (Bench.worldLens.comp callsLens) callee id (run.focus plainLens)

end Observed

/-- A pipeline whose processors note themselves down, each with the environment that
it works with in the end. -/
def Pipeline.observed (env : Environment ω) (p : Pipeline ω) : Pipeline (Observed ω) where
  main := p.main.mapIdx fun i w =>
    { id := w.id, name := w.name, run := fun _ e => watched (.main i) (w.run env e) }
  final := p.final.mapIdx fun i w =>
    { id := w.id, name := w.name
      run := fun _ _ => watched (.final i) (w.run env.services env.providers) }

/-- A dispatcher that notes its calls down. -/
def Dispatcher.observed (d : Dispatcher ω) : Dispatcher (Observed ω) where
  output := d.output.observed
  table := { pipelines := d.table.pipelines.map fun entry => (entry.1, entry.2.observed d.env) }
  env := d.env.observed

/-- A bench on which nothing was noted down yet. -/
def Bench.observed (b : Bench ω) : Bench (Observed ω) :=
  { b with world := { world := b.world } }

/-! ## What observed steps do -/

namespace Observed

variable {ε δ α β : Type}

/-- The bench `c` with more calls than on `b`. -/
def after (b : Bench (Observed ω)) (c : Bench ω) (calls : List Call) : Bench (Observed ω) :=
  { c with world := { world := c.world, calls := b.world.calls ++ calls } }

@[simp] theorem plain_after (b : Bench (Observed ω)) (c : Bench ω) (calls : List Call) :
    plain (after b c calls) = c := rfl

@[simp] theorem after_after (b : Bench (Observed ω)) (c c' : Bench ω) (calls calls' : List Call) :
    after (after b c calls) c' calls' = after b c' (calls ++ calls') := by
  simp [after, List.append_assoc]

/-- The first step does what the second one does, and notes down calls that `Q`
allows for the way in which it ends. -/
def Follows (a' : Step ε (Bench (Observed ω)) α) (a : Step ε (Bench ω) α)
    (Q : Except ε α → List Call → Prop) : Prop :=
  ∀ b, ∃ calls, Q (a.outcome (plain b)).1 calls ∧
    a'.outcome b = ((a.outcome (plain b)).1, after b (a.outcome (plain b)).2 calls)

/-- The first change does what the second one does, and notes down calls that `Q`
allows. -/
def FollowsChange (f' : Bench (Observed ω) → Bench (Observed ω)) (f : Bench ω → Bench ω)
    (Q : List Call → Prop) : Prop :=
  ∀ b, ∃ calls, Q calls ∧ f' b = after b (f (plain b)) calls

theorem Follows.mono {a' : Step ε (Bench (Observed ω)) α} {a : Step ε (Bench ω) α}
    {Q R : Except ε α → List Call → Prop} (h : Follows a' a Q)
    (imp : ∀ r calls, Q r calls → R r calls) : Follows a' a R := by
  intro b
  obtain ⟨calls, hQ, hb⟩ := h b
  exact ⟨calls, imp _ _ hQ, hb⟩

/-- What is noted down in the course of two steps: a stop of the first one is the
end, and else the second one goes on. -/
def Then (Q : Except ε α → List Call → Prop) (R : Except ε β → List Call → Prop)
    (r : Except ε β) (calls : List Call) : Prop :=
  (∃ e, r = .error e ∧ Q (.error e) calls) ∨
    ∃ v xs ys, calls = xs ++ ys ∧ Q (.ok v) xs ∧ R r ys

theorem Follows.bind {a' : Step ε (Bench (Observed ω)) α} {a : Step ε (Bench ω) α}
    {f' : α → Step ε (Bench (Observed ω)) β} {f : α → Step ε (Bench ω) β}
    {Q : Except ε α → List Call → Prop} {R : Except ε β → List Call → Prop}
    (ha : Follows a' a Q) (hf : ∀ v, Follows (f' v) (f v) R) :
    Follows (a' >>= f') (a >>= f) (Then Q R) := by
  intro b
  obtain ⟨xs, hQ, hb⟩ := ha b
  rcases h : a.outcome (plain b) with ⟨e | v, c⟩
  · rw [h] at hQ hb
    rw [Step.outcome_bind_error hb, Step.outcome_bind_error h]
    exact ⟨xs, .inl ⟨e, rfl, hQ⟩, rfl⟩
  · rw [h] at hQ hb
    obtain ⟨ys, hR, hc⟩ := hf v (after b c xs)
    rw [Step.outcome_bind_ok hb, Step.outcome_bind_ok h, hc]
    exact ⟨xs ++ ys, .inr ⟨v, xs, ys, rfl, hQ, hR⟩, by rw [after_after, plain_after]⟩

/-- What is noted down in the course of a step that is followed by a change when it
stops. -/
def OnStop (Q : Except ε α → List Call → Prop) (R : List Call → Prop) (r : Except ε α)
    (calls : List Call) : Prop :=
  (∃ v, r = .ok v ∧ Q (.ok v) calls) ∨
    ∃ e xs ys, r = .error e ∧ calls = xs ++ ys ∧ Q (.error e) xs ∧ R ys

theorem Follows.onError {a' : Step ε (Bench (Observed ω)) α} {a : Step ε (Bench ω) α}
    {f' : Bench (Observed ω) → Bench (Observed ω)} {f : Bench ω → Bench ω}
    {Q : Except ε α → List Call → Prop} {R : List Call → Prop}
    (ha : Follows a' a Q) (hf : FollowsChange f' f R) :
    Follows (a'.onError f') (a.onError f) (OnStop Q R) := by
  intro b
  obtain ⟨xs, hQ, hb⟩ := ha b
  rw [Step.outcome_onError, Step.outcome_onError]
  rcases h : a.outcome (plain b) with ⟨e | v, c⟩
  · rw [h] at hQ hb
    obtain ⟨ys, hR, hc⟩ := hf (after b c xs)
    refine ⟨xs ++ ys, .inr ⟨e, xs, ys, rfl, rfl, hQ, hR⟩, ?_⟩
    simp only [hb, hc, plain_after, after_after]
  · rw [h] at hQ hb
    exact ⟨xs, .inl ⟨v, rfl, hQ⟩, by simp only [hb]⟩

/-! ## The processors of a stage -/

theorem log_observed (env : Environment ω) (severity : Severity) (code : Nat)
    (detail : Json.Value) (b : Bench (Observed ω)) :
    env.observed.log severity code detail b =
      after b (env.log severity code detail (plain b)) [] := by
  have same : env.observed.loggerOrDefault = env.loggerOrDefault := rfl
  unfold Environment.log
  rw [same]
  cases env.loggerOrDefault.record? severity code detail with
  | none => simp [after, plain]
  | some r => simp [after, plain, Environment.observed, Services.observed, Lens.modify, worldLens]

theorem watched_ok {callee : Callee} {run : Step Stop (Bench ω) Unit} {b : Bench (Observed ω)}
    {c : Bench ω} (h : run.outcome (plain b) = (.ok (), c)) :
    (watched callee run).outcome b = (.ok (), after b c [{ callee }]) := by
  have focused : (run.focus plainLens).outcome b = (.ok (), plainLens.set c b) := by
    rw [Step.outcome_focus]
    exact congrArg (fun x => (x.1, plainLens.set x.2 b)) h
  simp only [watched, noted, Step.outcome_ofFunction, focused]
  rfl

theorem watched_error {callee : Callee} {run : Step Stop (Bench ω) Unit}
    {b : Bench (Observed ω)} {c : Bench ω} {stop : Stop}
    (h : run.outcome (plain b) = (.error stop, c)) :
    (watched callee run).outcome b =
      (.error stop, after b c [{ callee, stop? := some stop }]) := by
  have focused : (run.focus plainLens).outcome b = (.error stop, plainLens.set c b) := by
    rw [Step.outcome_focus]
    exact congrArg (fun x => (x.1, plainLens.set x.2 b)) h
  simp only [watched, noted, Step.outcome_ofFunction, focused]
  rfl

/-- The end of a stage, as its failure, after the calls of its places. -/
def Ran (callee : Nat → Callee) (n : Nat) (r : Except Failure Unit) (calls : List Call) : Prop :=
  ∃ stop?, Call.InOrder callee n calls stop? ∧
    r = match stop? with | none => .ok () | some stop => .error stop.failure

theorem runOne_follows (env : Environment ω) (name : String)
    (more : List (String × Json.Value)) (callee : Callee) (run : Step Stop (Bench ω) Unit) :
    Follows (Dispatch.runOne env.observed name more (watched callee run))
      (Dispatch.runOne env name more run) (Ran (fun _ => callee) 1) := by
  intro b
  simp only [Dispatch.runOne, Step.outcome_ofFunction]
  rcases h : run.outcome (plain b) with ⟨stop | v, c⟩
  · refine ⟨[{ callee, stop? := some stop }], ⟨some stop, ⟨0, by decide, rfl⟩, rfl⟩, ?_⟩
    simp only [watched_error h, Environment.logStopped, log_observed, plain_after, after_after,
      List.append_nil]
  · refine ⟨[{ callee }], ⟨none, rfl, rfl⟩, ?_⟩
    simp only [watched_ok h, Environment.logHandled, log_observed, plain_after, after_after,
      List.append_nil]

theorem ended_succ (callee : Nat → Callee) (n : Nat) :
    Call.ended callee (n + 1) =
      { callee := callee 0 } :: Call.ended (fun i => callee (i + 1)) n := by
  simp [Call.ended, List.range_succ_eq_map, Function.comp_def]

/-- The calls of the first place and of the places after it are those of all places. -/
theorem Ran.cons {callee : Nat → Callee} {n : Nat} {r : Except Failure Unit} {calls : List Call}
    (h : Then (Ran (fun _ => callee 0) 1) (Ran (fun i => callee (i + 1)) n) r calls) :
    Ran callee (n + 1) r calls := by
  rcases h with ⟨e, rfl, stop?, hcalls, he⟩ | ⟨v, xs, ys, rfl, ⟨stop?, hxs, hv⟩, tail?, hys, rfl⟩
  · cases stop? with
    | none => cases he
    | some stop =>
      obtain ⟨k, hk, rfl⟩ := hcalls
      obtain rfl : k = 0 := by omega
      exact ⟨some stop, ⟨0, by omega, rfl⟩, he⟩
  · cases stop? with
    | some stop => cases hv
    | none =>
      refine ⟨tail?, ?_, rfl⟩
      obtain rfl : xs = [{ callee := callee 0 }] := hxs
      cases tail? with
      | none =>
        obtain rfl : ys = _ := hys
        exact (ended_succ callee n).symm
      | some stop =>
        -- The place counted from the second one on is one less than that in the whole stage.
        obtain ⟨k, hk, rfl⟩ := hys
        exact ⟨k + 1, by omega, by rw [ended_succ]; rfl⟩

theorem runMain_follows (env : Environment ω) (e : Event) (ps : List (Wired (MainRun ω)))
    (callee : Nat → Callee) :
    Follows
      (Dispatch.runMain env.observed e (ps.mapIdx fun i w =>
        { id := w.id, name := w.name, run := fun _ e => watched (callee i) (w.run env e) }))
      (Dispatch.runMain env e ps) (Ran callee ps.length) := by
  induction ps generalizing callee with
  | nil => exact fun b => ⟨[], ⟨none, rfl, rfl⟩, by simp [Dispatch.runMain, after, plain]⟩
  | cons p rest ih =>
    rw [List.mapIdx_cons]
    exact ((runOne_follows env _ _ _ _).bind fun _ => ih fun i => callee (i + 1)).mono
      fun _ _ => Ran.cons

theorem runFinal_follows (env : Environment ω) (ps : List (Wired (FinalRun ω)))
    (callee : Nat → Callee) :
    Follows
      (Dispatch.runFinal env.observed (ps.mapIdx fun i w =>
        { id := w.id, name := w.name
          run := fun _ _ => watched (callee i) (w.run env.services env.providers) }))
      (Dispatch.runFinal env ps) (Ran callee ps.length) := by
  induction ps generalizing callee with
  | nil => exact fun b => ⟨[], ⟨none, rfl, rfl⟩, by simp [Dispatch.runFinal, after, plain]⟩
  | cons p rest ih =>
    rw [List.mapIdx_cons]
    exact ((runOne_follows env _ _ _ _).bind fun _ => ih fun i => callee (i + 1)).mono
      fun _ _ => Ran.cons

/-! ## The managers around the main stage -/

/-- A manager was asked for a step of its unit of work. -/
def Asked (callee : Callee) (r : Except Failure Unit) (calls : List Call) : Prop :=
  (r = .ok () ∧ calls = [{ callee }]) ∨
    ∃ g, r = .error (Dispatch.processingFailure g) ∧
      calls = [{ callee, stop? := some (.failed g) }]

theorem managed_follows (callee : Callee) (a : Act ω Unit) :
    Follows (Dispatch.managed (noted callsLens callee .failed (a.focus worldLens)))
      (Dispatch.managed a) (Asked callee) := by
  intro b
  simp only [Dispatch.managed, Bench.onWorld, Step.outcome_mapError, Step.outcome_focus]
  rcases h : a.outcome b.world.world with ⟨g | v, w⟩
  · have same : a.outcome (Bench.worldLens.get (plain b)) = (.error g, w) := h
    have noted : (noted callsLens callee .failed (a.focus worldLens)).outcome b.world =
        (.error g,
          { world := w, calls := b.world.calls ++ [{ callee, stop? := some (.failed g) }] }) := by
      simp [Observed.noted, worldLens, callsLens, Lens.modify, h]
    refine ⟨[{ callee, stop? := some (.failed g) }], .inr ⟨g, by rw [same]; rfl, rfl⟩, ?_⟩
    rw [show Bench.worldLens.get b = b.world from rfl, noted, same]
    rfl
  · have same : a.outcome (Bench.worldLens.get (plain b)) = (.ok v, w) := h
    have noted : (noted callsLens callee .failed (a.focus worldLens)).outcome b.world =
        (.ok v, { world := w, calls := b.world.calls ++ [{ callee }] }) := by
      simp [Observed.noted, worldLens, callsLens, Lens.modify, h]
    refine ⟨[{ callee }], .inl ⟨by rw [same]; rfl, rfl⟩, ?_⟩
    rw [show Bench.worldLens.get b = b.world from rfl, noted, same]
    rfl

/-- Managers were asked to roll back, one after the other. -/
def RolledBack : List Party → List Call → Prop
  | [], calls => calls = []
  | party :: rest, calls =>
    ∃ stop? ys, calls = { callee := .unit .rollback party, stop? } :: ys ∧ RolledBack rest ys

theorem undo_follows (party : Party) (m : Manager ω) :
    FollowsChange (Dispatch.undo (m.observed party)) (Dispatch.undo m) (RolledBack [party]) := by
  intro b
  simp only [Dispatch.undo, Bench.onWorld, Step.outcome_focus]
  rcases h : m.rollback.outcome b.world.world with ⟨g | v, w⟩
  · refine ⟨_, ⟨some (.failed g), [], rfl, rfl⟩, ?_⟩
    simp [Manager.observed, noted, Bench.worldLens, worldLens, callsLens, Lens.modify, h, after,
      plain]
  · refine ⟨_, ⟨none, [], rfl, rfl⟩, ?_⟩
    simp [Manager.observed, noted, Bench.worldLens, worldLens, callsLens, Lens.modify, h, after,
      plain]

theorem undoBoth_follows (first second : Party) (m m' : Manager ω) :
    FollowsChange (Dispatch.undoBoth (m.observed first) (m'.observed second))
      (Dispatch.undoBoth m m') (RolledBack [first, second]) := by
  intro b
  obtain ⟨xs, ⟨stop?, ys, rfl, rfl⟩, hx⟩ := undo_follows first m b
  obtain ⟨zs, hz, hy⟩ := undo_follows second m' (Dispatch.undo (m.observed first) b)
  refine ⟨_, ⟨stop?, zs, rfl, hz⟩, ?_⟩
  simp only [Dispatch.undoBoth, hy]
  rw [hx, plain_after, after_after]
  rfl

end Observed

/-- The paths through the units of work around `n` main processors: the calls on
each, and how it ends. -/
inductive UnitCourse (n : Nat) : Except Failure Unit → List Call → Prop
  | databaseClosed (g : Failure) :
      UnitCourse n (.error (Dispatch.processingFailure g))
        [{ callee := .unit .begin .database, stop? := some (.failed g) }]
  | ledgerClosed (g : Failure) {undone : List Call} : Observed.RolledBack [.database] undone →
      UnitCourse n (.error (Dispatch.processingFailure g))
        ([{ callee := .unit .begin .database },
          { callee := .unit .begin .ledger, stop? := some (.failed g) }] ++ undone)
  | stopped {stop : Stop} {calls undone : List Call} : Call.InOrder .main n calls (some stop) →
      Observed.RolledBack [.database, .ledger] undone →
      UnitCourse n (.error stop.failure)
        ([{ callee := .unit .begin .database }, { callee := .unit .begin .ledger }] ++ calls ++
          undone)
  | databaseRefused (g : Failure) {undone : List Call} :
      Observed.RolledBack [.database, .ledger] undone →
      UnitCourse n (.error (Dispatch.processingFailure g))
        ([{ callee := .unit .begin .database }, { callee := .unit .begin .ledger }] ++
          Call.ended .main n ++
          [{ callee := .unit .commit .database, stop? := some (.failed g) }] ++ undone)
  | ledgerRefused (g : Failure) {undone : List Call} : Observed.RolledBack [.ledger] undone →
      UnitCourse n (.error (Dispatch.processingFailure g))
        ([{ callee := .unit .begin .database }, { callee := .unit .begin .ledger }] ++
          Call.ended .main n ++
          [{ callee := .unit .commit .database },
            { callee := .unit .commit .ledger, stop? := some (.failed g) }] ++ undone)
  | committed :
      UnitCourse n (.ok ())
        ([{ callee := .unit .begin .database }, { callee := .unit .begin .ledger }] ++
          Call.ended .main n ++
          [{ callee := .unit .commit .database }, { callee := .unit .commit .ledger }])

namespace Observed

theorem OnStop.asked {callee : Callee} {R : List Call → Prop} {r : Except Failure Unit}
    {calls : List Call} (h : OnStop (Asked callee) R r calls) :
    (r = .ok () ∧ calls = [{ callee }]) ∨
      ∃ g undone, r = .error (Dispatch.processingFailure g) ∧
        calls = [{ callee, stop? := some (.failed g) }] ++ undone ∧ R undone := by
  rcases h with ⟨v, rfl, ⟨-, rfl⟩ | ⟨g, hg, -⟩⟩ | ⟨e, xs, ys, rfl, rfl, ⟨he, -⟩ | ⟨g, he, rfl⟩, hR⟩
  · exact .inl ⟨rfl, rfl⟩
  · cases hg
  · cases he
  · cases he
    exact .inr ⟨g, ys, rfl, rfl, hR⟩

theorem OnStop.ran {n : Nat} {R : List Call → Prop} {r : Except Failure Unit}
    {calls : List Call} (h : OnStop (Ran .main n) R r calls) :
    (r = .ok () ∧ calls = Call.ended .main n) ∨
      ∃ stop xs undone, r = .error stop.failure ∧ calls = xs ++ undone ∧
        Call.InOrder .main n xs (some stop) ∧ R undone := by
  rcases h with ⟨v, rfl, stop?, hcalls, hv⟩ | ⟨e, xs, ys, rfl, rfl, ⟨stop?, hcalls, he⟩, hR⟩
  · cases stop? with
    | none => exact .inl ⟨rfl, hcalls⟩
    | some stop => cases hv
  · cases stop? with
    | none => cases he
    | some stop =>
      cases he
      exact .inr ⟨stop, xs, ys, rfl, rfl, hcalls, hR⟩

/-- The first of two steps ended, and the second one goes on, or it stopped, and that
is the end. -/
theorem Then.cases {Q R : Except Failure Unit → List Call → Prop} {r : Except Failure Unit}
    {calls : List Call} (h : Then Q R r calls) :
    (∃ e, r = .error e ∧ Q r calls) ∨ ∃ xs ys, calls = xs ++ ys ∧ Q (.ok ()) xs ∧ R r ys := by
  rcases h with ⟨e, rfl, hQ⟩ | ⟨v, xs, ys, rfl, hQ, hR⟩
  · exact .inl ⟨e, rfl, hQ⟩
  · exact .inr ⟨xs, ys, rfl, hQ, hR⟩

theorem unitCourse_of_commits {n : Nat} {r : Except Failure Unit} {calls : List Call}
    (h : Then (OnStop (Asked (.unit .commit .database)) (RolledBack [.database, .ledger]))
      (OnStop (Asked (.unit .commit .ledger)) (RolledBack [.ledger])) r calls) :
    UnitCourse n r
      ([{ callee := .unit .begin .database }, { callee := .unit .begin .ledger }] ++
        Call.ended .main n ++ calls) := by
  rcases h.cases with ⟨e, rfl, kept⟩ | ⟨xs, ys, rfl, kept, rest⟩
  · obtain ⟨he, -⟩ | ⟨g, undone, he, rfl, hR⟩ := kept.asked
    · cases he
    · cases he
      simpa using UnitCourse.databaseRefused g hR
  · obtain ⟨-, rfl⟩ | ⟨g, undone, he, -⟩ := kept.asked
    · obtain ⟨rfl, rfl⟩ | ⟨g, undone, rfl, rfl, hR⟩ := rest.asked
      · simpa using UnitCourse.committed
      · simpa using UnitCourse.ledgerRefused g hR
    · cases he

theorem unitCourse_of_processors {n : Nat} {r : Except Failure Unit} {calls : List Call}
    (h : Then (OnStop (Ran .main n) (RolledBack [.database, .ledger]))
      (Then (OnStop (Asked (.unit .commit .database)) (RolledBack [.database, .ledger]))
        (OnStop (Asked (.unit .commit .ledger)) (RolledBack [.ledger]))) r calls) :
    UnitCourse n r
      ([{ callee := .unit .begin .database }, { callee := .unit .begin .ledger }] ++ calls) := by
  rcases h.cases with ⟨e, rfl, ran⟩ | ⟨xs, ys, rfl, ran, rest⟩
  · obtain ⟨he, -⟩ | ⟨stop, xs, undone, he, rfl, hxs, hR⟩ := ran.ran
    · cases he
    · cases he
      simpa using UnitCourse.stopped hxs hR
  · obtain ⟨-, rfl⟩ | ⟨stop, xs, undone, he, -⟩ := ran.ran
    · simpa using unitCourse_of_commits rest
    · cases he

theorem inUnits_follows (db ledger : Manager ω) {body' : Act (Bench (Observed ω)) Unit}
    {body : Act (Bench ω) Unit} {n : Nat} (h : Follows body' body (Ran .main n)) :
    Follows (Dispatch.inUnits (db.observed .database) (ledger.observed .ledger) body')
      (Dispatch.inUnits db ledger body) (UnitCourse n) := by
  unfold Dispatch.inUnits
  refine ((managed_follows _ _).bind fun _ =>
    ((managed_follows _ _).onError (undo_follows _ _)).bind fun _ =>
    (h.onError (undoBoth_follows _ _ _ _)).bind fun _ =>
    ((managed_follows _ _).onError (undoBoth_follows _ _ _ _)).bind fun _ =>
    (managed_follows _ _).onError (undo_follows _ _)).mono ?_
  intro r calls course
  -- The database first: refused, or begun. Neither can end as the other does.
  rcases course.cases with
    ⟨e, rfl, ⟨he, -⟩ | ⟨g, he, rfl⟩⟩ | ⟨_, _, rfl, ⟨-, rfl⟩ | ⟨g, he, -⟩, more⟩
  · cases he
  · cases he
    exact .databaseClosed g
  · rcases more.cases with ⟨e, rfl, begun⟩ | ⟨_, _, rfl, begun, rest⟩
    · obtain ⟨he, -⟩ | ⟨g, undone, he, rfl, hR⟩ := begun.asked
      · cases he
      · cases he
        exact .ledgerClosed g hR
    · obtain ⟨-, rfl⟩ | ⟨g, undone, he, -⟩ := begun.asked
      · exact unitCourse_of_processors rest
      · cases he
  · cases he

/-! ## The whole message -/

theorem cleared_observed (env : Environment ω) (p : Pipeline ω) (e : Event)
    (b : Bench (Observed ω)) :
    Dispatch.cleared env.observed (p.observed env) e b =
      after b (Dispatch.cleared env p e (plain b)) [] := by
  have length : (p.observed env).main.length = p.main.length := by simp [Pipeline.observed]
  rw [Dispatch.cleared, length, log_observed]
  rfl

theorem mainStage_follows (env : Environment ω) (p : Pipeline ω) (e : Event)
    {db : Database ω} {ledger : Manager ω} (hdb : env.database? = some db)
    (hledger : env.ledger? = some ledger) :
    Follows (Dispatch.mainStage env.observed (p.observed env) e) (Dispatch.mainStage env p e)
      (UnitCourse p.main.length) := by
  intro b
  have hdb' : env.observed.database? = some db.observed := congrArg (Option.map _) hdb
  have hledger' : env.observed.ledger? = some (ledger.observed .ledger) :=
    congrArg (Option.map _) hledger
  rw [Dispatch.mainStage_outcome hdb' hledger', Dispatch.mainStage_outcome hdb hledger,
    cleared_observed]
  obtain ⟨calls, course, h⟩ :=
    inUnits_follows db.toManager ledger (runMain_follows env e p.main .main)
      (after b (Dispatch.cleared env p e (plain b)) [])
  rw [after_after, plain_after] at h
  exact ⟨calls, course, h⟩

theorem finalStage_follows (env : Environment ω) (p : Pipeline ω) :
    Follows (Dispatch.finalStage env.observed (p.observed env)) (Dispatch.finalStage env p)
      (Ran .final p.final.length) :=
  runFinal_follows env p.final .final

/-! ## What is written -/

theorem writeOne_observed (d : Dispatcher ω) (destination : String) (e : Event)
    (b : Bench (Observed ω)) :
    d.observed.writeOne destination e b =
      ((d.writeOne destination e (plain b)).1,
        after b (d.writeOne destination e (plain b)).2 []) := by
  simp only [Dispatcher.writeOne, show d.observed.env = d.env.observed from rfl, log_observed]
  generalize d.env.log .debug Code.logToSend
    (.object [("to", .str destination), ("event", .str e.render)]) (plain b) = c
  simp only [Bench.outcome_onWorld, Dispatcher.observed, Output.observed, Step.outcome_focus]
  rw [show worldLens.get (after b c []).world = c.world from rfl]
  rcases (d.output.write { destination, payload := e.render }).outcome c.world with ⟨_ | _, w⟩
  · rfl
  · rfl

theorem writeAll_observed (d : Dispatcher ω) (waiting : List (String × Event))
    (b : Bench (Observed ω)) :
    d.observed.writeAll waiting b =
      ((d.writeAll waiting (plain b)).1, after b (d.writeAll waiting (plain b)).2 []) := by
  induction waiting generalizing b with
  | nil => simp [Dispatcher.writeAll, after, plain]
  | cons entry rest ih =>
    obtain ⟨destination, e⟩ := entry
    simp only [Dispatcher.writeAll, writeOne_observed, ih, plain_after, after_after,
      List.append_nil]

theorem notify_observed (d : Dispatcher ω) (b : Bench (Observed ω)) :
    d.observed.notify b = ((d.notify (plain b)).1, after b (d.notify (plain b)).2 []) := by
  simp only [Dispatcher.notify, writeAll_observed]
  rfl

theorem replaceEvents_observed (key : String) (h : Header) (f : Failure) (source : ErrorSource)
    (b : Bench (Observed ω)) (c : Bench ω) (calls : List Call) :
    Dispatcher.replaceEvents key h f source (after b c calls) =
      after b (Dispatcher.replaceEvents key h f source c) calls := by
  unfold Dispatcher.replaceEvents
  cases f.notifiable <;> rfl

/-! ## Both stages -/

/-- The failure that a step ended with. -/
def failure? (r : Except Failure Unit) : Option Failure :=
  match r with
  | .ok _ => none
  | .error f => some f

/-- What is noted down in the course of the main stage is all that is noted down when it is
run and its failure is told. -/
theorem runMain_of_mainStage {d : Dispatcher ω} {p : Pipeline ω} {e : Event}
    {b : Bench (Observed ω)} {calls : List Call}
    (h : (Dispatch.mainStage d.env.observed (p.observed d.env) e).outcome b =
      (((Dispatch.mainStage d.env p e).outcome (plain b)).1,
        after b ((Dispatch.mainStage d.env p e).outcome (plain b)).2 calls)) :
    d.observed.runMain (p.observed d.env) e b =
      ((d.runMain p e (plain b)).1, after b (d.runMain p e (plain b)).2 calls) := by
  simp only [Dispatcher.runMain, Dispatcher.observed, h]
  rcases (Dispatch.mainStage d.env p e).outcome (plain b) with ⟨f | v, c⟩
  · simp only [replaceEvents_observed]
  · rfl

theorem runMain_observed (d : Dispatcher ω) (p : Pipeline ω) (e : Event) {db : Database ω}
    {ledger : Manager ω} (hdb : d.env.database? = some db) (hledger : d.env.ledger? = some ledger)
    (b : Bench (Observed ω)) :
    ∃ r calls, UnitCourse p.main.length r calls ∧ (d.runMain p e (plain b)).1 = failure? r ∧
      d.observed.runMain (p.observed d.env) e b =
        ((d.runMain p e (plain b)).1, after b (d.runMain p e (plain b)).2 calls) := by
  obtain ⟨calls, course, h⟩ := mainStage_follows d.env p e hdb hledger b
  refine ⟨_, calls, course, ?_, runMain_of_mainStage h⟩
  unfold Dispatcher.runMain
  rcases (Dispatch.mainStage d.env p e).outcome (plain b) with ⟨f | v, c⟩ <;> rfl

theorem runFinal_observed (d : Dispatcher ω) (p : Pipeline ω) (e : Event)
    (b : Bench (Observed ω)) :
    ∃ r calls, Ran .final p.final.length r calls ∧ (d.runFinal p e (plain b)).1 = failure? r ∧
      d.observed.runFinal (p.observed d.env) e b =
        (failure? r, after b (d.runFinal p e (plain b)).2 calls) := by
  obtain ⟨calls, course, h⟩ := finalStage_follows d.env p b
  refine ⟨_, calls, course, ?_⟩
  simp only [Dispatcher.runFinal, Dispatcher.observed, h]
  rcases (Dispatch.finalStage d.env p).outcome (plain b) with ⟨f | v, c⟩
  · exact ⟨rfl, by simp only [replaceEvents_observed, failure?]⟩
  · exact ⟨rfl, rfl⟩

theorem get?_observed (d : Dispatcher ω) (label : String) :
    d.observed.table.get? label = (d.table.get? label).map (Pipeline.observed d.env) := by
  exact Keyed.find?_map _ _ _

/-- An observed dispatcher handles a routed message as the dispatcher itself does, if it runs
the main stage so, and notes down a run of the final processors at last. -/
theorem handle_of_runMain {d : Dispatcher ω} {raw : String} {e : Event} {p : Pipeline ω}
    (valid : validate raw = .ok e) (routed : d.table.get? e.label = some p)
    {b : Bench (Observed ω)} {c : Bench ω} {calls : List Call}
    (logged : d.env.log .debug Code.logNewEvent e.toValue (plain b) = c)
    (hmain : d.observed.runMain (p.observed d.env) e (after b c []) =
      ((d.runMain p e c).1, after b (d.runMain p e c).2 calls)) :
    ∃ final tail, Ran .final p.final.length final tail ∧
      (d.runFinal p e (d.runMain p e c).2).1 = failure? final ∧
      d.observed.handle raw b =
        ((d.handle raw (plain b)).1, after b (d.handle raw (plain b)).2 (calls ++ tail)) := by
  have routed' : d.observed.table.get? e.label = some (p.observed d.env) := by
    rw [get?_observed, routed]; rfl
  rw [Dispatcher.handle_routed valid routed, Dispatcher.handle_routed valid routed']
  unfold Dispatcher.stages
  rw [show d.observed.env = d.env.observed from rfl, log_observed, logged]
  obtain ⟨final, tail, ran, hfinal, hfinal'⟩ :=
    runFinal_observed d p e (after b (d.runMain p e c).2 calls)
  rw [plain_after] at hfinal hfinal'
  rw [after_after] at hfinal'
  refine ⟨final, tail, ran, hfinal, ?_⟩
  simp only [hmain, hfinal', notify_observed, hfinal, plain_after, after_after, List.append_nil]

/-- An observed dispatcher handles a routed message as the dispatcher itself does, and
notes down a course of the units and then a run of the final processors. -/
theorem handle_follows {d : Dispatcher ω} {raw : String} {e : Event} {p : Pipeline ω}
    {db : Database ω} {ledger : Manager ω} (valid : validate raw = .ok e)
    (routed : d.table.get? e.label = some p) (hdb : d.env.database? = some db)
    (hledger : d.env.ledger? = some ledger) (b : Bench (Observed ω)) :
    ∃ main final calls tail, UnitCourse p.main.length main calls ∧
      Ran .final p.final.length final tail ∧
      (d.handle raw (plain b)).1.outcome = .handled e.label (failure? main) (failure? final) ∧
      d.observed.handle raw b =
        ((d.handle raw (plain b)).1, after b (d.handle raw (plain b)).2 (calls ++ tail)) := by
  generalize logged : d.env.log .debug Code.logNewEvent e.toValue (plain b) = c
  obtain ⟨main, calls, course, hmain, hmain'⟩ :=
    runMain_observed d p e hdb hledger (after b c [])
  rw [plain_after] at hmain hmain'
  rw [after_after, List.nil_append] at hmain'
  obtain ⟨final, tail, ran, hfinal, handled⟩ := handle_of_runMain valid routed logged hmain'
  refine ⟨main, final, calls, tail, course, ran, ?_, handled⟩
  rw [Dispatcher.handle_routed valid routed, Dispatcher.stages, logged, ← hmain, ← hfinal]

end Observed

end EventWorker
