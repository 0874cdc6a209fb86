import EventWorker.Proofs.Dispatch.Routed
import EventWorker.Proofs.Store.Units
import EventWorker.Store.Manager

/-!
# Steps over a store

The store and the ledger are parts of surroundings, beside a clock, a log, an output and
whatever else there is. What a step does to the store is a sequence of turns of the thread
it runs on.

Results:
1. `Host.Undoable.bind`, `Host.undoable_reading`, `Host.undoable_writing`: steps whose turns
   are writes, put together from the steps of the database.
2. `Host.managed_change`, `Host.managed_call`: what the managers do to the store.
3. `Host.Equips.does_runOne`: logging changes nothing about the turns of a processor.
-/

namespace EventWorker

@[simp] theorem Failure.code_causedBy (f cause : Failure) : (f.causedBy cause).code = f.code := rfl

/-- A store and a ledger in surroundings, apart from each other. -/
structure Host (ω : Type) where
  store : Lens ω Store
  ledger : Lens ω Ledger
  store_lawful : store.Lawful
  ledger_lawful : ledger.Lawful
  store_apart : ∀ g w, store.get (ledger.set g w) = store.get w
  ledger_apart : ∀ s w, ledger.get (store.set s w) = ledger.get w

namespace Host

variable {ω : Type} (h : Host ω) (thread : String)

/-- A change of the surroundings leaves the store and the ledger alone. -/
def Spares (f : ω → ω) : Prop :=
  ∀ w, h.store.get (f w) = h.store.get w ∧ h.ledger.get (f w) = h.ledger.get w

/-- An environment has the store and the ledger as its managers, and a clock, entropy and a
log that leave both alone. -/
structure Equips (env : Environment ω) : Prop where
  database : env.database? = some (Store.database h.store thread)
  ledger : env.ledger? = some (Ledger.manager h.ledger)
  now : h.Spares fun w => (env.services.now w).2
  draw : h.Spares fun w => (env.services.draw w).2
  record : ∀ r, h.Spares (env.services.record r)

/-- What a step does to the store is a sequence of turns, and `P` holds of the bench it is
made on, its end and the turns. The ledger stays as it is. -/
def Does {α : Type} (a : Act (Bench ω) α)
    (P : Bench ω → Except Failure α → List Turn → Prop) : Prop :=
  ∀ b, ∃ turns, P b (a.outcome b).1 turns ∧
    h.store.get (a.outcome b).2.world = (h.store.get b.world).run turns ∧
    h.ledger.get (a.outcome b).2.world = h.ledger.get b.world

/-- A step leaves the store and the ledger alone. -/
def Quiet {ε α : Type} (a : Step ε (Bench ω) α) : Prop :=
  ∀ b, h.store.get (a.outcome b).2.world = h.store.get b.world ∧
    h.ledger.get (a.outcome b).2.world = h.ledger.get b.world

/-- The turns of a step are writes, and it does not fail for an expired session. -/
def Undone {α : Type} (r : Except Failure α) (turns : List Turn) : Prop :=
  (∃ ws, turns = Write.turns thread ws) ∧ ∀ f, r = .error f → f.code ≠ Code.sessionExpired.id

/-- Whatever a step does to the store can be rolled back. -/
def Undoable {α : Type} (a : Act (Bench ω) α) : Prop :=
  h.Does a fun _ => Undone thread

variable {h thread} {α β : Type}

theorem Does.mono {a : Act (Bench ω) α} {P Q : Bench ω → Except Failure α → List Turn → Prop}
    (ha : h.Does a P) (hPQ : ∀ b r turns, P b r turns → Q b r turns) : h.Does a Q := by
  intro b
  obtain ⟨turns, hP, rest⟩ := ha b
  exact ⟨turns, hPQ _ _ _ hP, rest⟩

namespace Quiet

/-- A step that leaves the surroundings alone. -/
theorem of_world {ε : Type} {a : Step ε (Bench ω) α} (ha : ∀ b, (a.outcome b).2.world = b.world) :
    h.Quiet a :=
  fun b => by rw [ha b]; exact ⟨rfl, rfl⟩

theorem bind {ε : Type} {a : Step ε (Bench ω) α} {f : α → Step ε (Bench ω) β} (ha : h.Quiet a)
    (hf : ∀ v, h.Quiet (f v)) : h.Quiet (a >>= f) := by
  intro b
  have first := ha b
  rw [Step.outcome_bind]
  rcases houtcome : a.outcome b with ⟨_ | v, c⟩
  · rw [houtcome] at first
    exact first
  · rw [houtcome] at first
    exact ⟨(hf v c).1.trans first.1, (hf v c).2.trans first.2⟩

theorem mapError {ε δ : Type} {a : Step ε (Bench ω) α} (ha : h.Quiet a) (g : ε → δ) :
    h.Quiet (a.mapError g) :=
  fun b => by rw [Step.outcome_mapError]; exact ha b

end Quiet

theorem Undone.append {xs ys : List Turn} {v : α} {r : Except Failure β}
    (hx : Undone thread (.ok v : Except Failure α) xs) (hy : Undone thread r ys) :
    Undone thread r (xs ++ ys) := by
  obtain ⟨⟨ws, rfl⟩, -⟩ := hx
  obtain ⟨⟨ws', rfl⟩, code⟩ := hy
  exact ⟨⟨ws ++ ws', (Write.turns_append thread ws ws').symm⟩, code⟩

namespace Undoable

/-- A step that leaves the store and the ledger alone. -/
theorem of_quiet {a : Act (Bench ω) α} (quiet : h.Quiet a)
    (code : ∀ b f, (a.outcome b).1 = .error f → f.code ≠ Code.sessionExpired.id) :
    h.Undoable thread a :=
  fun b => ⟨[], ⟨⟨[], rfl⟩, code b⟩, quiet b⟩

theorem pure (v : α) : h.Undoable thread (pure v) :=
  of_quiet (fun _ => ⟨rfl, rfl⟩) fun _ _ hf => nomatch hf

theorem throw {f : Failure} (hf : f.code ≠ Code.sessionExpired.id) :
    h.Undoable thread (throw f : Act (Bench ω) α) :=
  of_quiet (fun _ => ⟨rfl, rfl⟩) fun _ _ he => Except.error.inj he ▸ hf

/-- Nothing follows a failure. -/
theorem throw_bind {f : Failure} (hf : f.code ≠ Code.sessionExpired.id)
    (rest : α → Act (Bench ω) β) : h.Undoable thread (MonadExcept.throw f >>= rest) :=
  of_quiet (fun _ => ⟨rfl, rfl⟩) fun _ _ he => Except.error.inj he ▸ hf

theorem ofResult {r : Except Failure α}
    (code : ∀ f, r = .error f → f.code ≠ Code.sessionExpired.id) :
    h.Undoable thread (Step.ofResult r : Act (Bench ω) α) :=
  of_quiet (fun _ => ⟨rfl, rfl⟩) fun _ => code

/-- A change of the memories. -/
theorem change {f : Bench ω → Bench ω} (hf : ∀ b, (f b).world = b.world) :
    h.Undoable thread (Bench.change f) :=
  of_quiet (fun b => by rw [Bench.outcome_change, hf]; exact ⟨rfl, rfl⟩)
    fun _ _ he => nomatch he

theorem bind {a : Act (Bench ω) α} {f : α → Act (Bench ω) β} (ha : h.Undoable thread a)
    (hf : ∀ v, h.Undoable thread (f v)) : h.Undoable thread (a >>= f) := by
  intro b
  obtain ⟨xs, hx, hstore, hledger⟩ := ha b
  rw [Step.outcome_bind]
  rcases houtcome : a.outcome b with ⟨r, c⟩
  rw [houtcome] at hx hstore hledger
  -- The first step fails and its turns are all there are, or those of the second follow.
  cases r with
  | error e =>
    refine ⟨xs, ⟨hx.1, fun f he => ?_⟩, hstore, hledger⟩
    cases he
    exact hx.2 e rfl
  | ok v =>
    obtain ⟨ys, hy, hstore', hledger'⟩ := hf v c
    refine ⟨xs ++ ys, hx.append hy, ?_, hledger'.trans hledger⟩
    rw [Store.run_append]
    exact hstore'.trans (congrArg (Store.run · ys) hstore)

end Undoable

/-! ## Steps of the database -/

theorem outcome_now (services : Services ω) (b : Bench ω) :
    (Bench.onWorld (Step.ofState services.now) : Act (Bench ω) Int).outcome b =
      (.ok (services.now b.world).1, { b with world := (services.now b.world).2 }) := rfl

theorem outcome_reading {l : Lens ω Store} {b : Bench ω}
    (available : (l.get b.world).unavailable = false) (f : Tables → α) :
    (Bench.onWorld (Store.reading l f)).outcome b = (.ok (f (l.get b.world).tables), b) := by
  rw [Bench.outcome_onWorld, Store.reading, Step.outcome_ofFunction, Store.query, available]
  rfl

theorem outcome_reading_mapError {l : Lens ω Store} {b : Bench ω}
    (available : (l.get b.world).unavailable = false) (f : Tables → α) (g : Failure → Failure) :
    (Bench.onWorld ((Store.reading l f).mapError g)).outcome b =
      (.ok (f (l.get b.world).tables), b) := by
  rw [Bench.outcome_onWorld, Step.outcome_mapError, Store.reading, Step.outcome_ofFunction,
    Store.query, available]
  rfl

theorem outcome_reading_unavailable {l : Lens ω Store} {b : Bench ω}
    (unavailable : (l.get b.world).unavailable = true) (f : Tables → α) (g : Failure → Failure) :
    (Bench.onWorld ((Store.reading l f).mapError g)).outcome b =
      (.error (g Store.unavailableFailure), b) := by
  rw [Bench.outcome_onWorld, Step.outcome_mapError, Store.reading, Step.outcome_ofFunction,
    Store.query, unavailable]
  rfl

/-- A query leaves everything alone. -/
theorem reading_idle (l : Lens ω Store) (f : Tables → α) (g : Failure → Failure) (b : Bench ω) :
    ((Bench.onWorld ((Store.reading l f).mapError g)).outcome b).2 = b := by
  rw [Bench.outcome_onWorld, Step.outcome_mapError]
  rfl

theorem outcome_delete {l : Lens ω Store} {b : Bench ω}
    (available : (l.get b.world).unavailable = false) (thread : String) (id : Nat) :
    (Bench.onWorld (Store.writing l fun s => s.delete id)).outcome b =
      (.ok (), { b with
        world := l.set ((l.get b.world).perform { thread, op := .delete id }) b.world }) := by
  rw [Bench.outcome_onWorld, Store.writing, Step.outcome_ofFunction,
    Store.delete_available available thread]

/-- A query, with a failure in place of that of a store that is not available. -/
theorem undoable_reading (f : Tables → α) {g : Failure → Failure}
    (hg : (g Store.unavailableFailure).code ≠ Code.sessionExpired.id) :
    h.Undoable thread (Bench.onWorld ((Store.reading h.store f).mapError g)) := by
  refine Undoable.of_quiet (fun b => ?_) fun b e he => ?_
  · rw [Bench.outcome_onWorld, Step.outcome_mapError]
    exact ⟨rfl, rfl⟩
  · rw [Bench.outcome_onWorld, Step.outcome_mapError] at he
    change ((h.store.get b.world).query f).mapError g = .error e at he
    unfold Store.query at he
    split at he
    · exact Except.error.inj he ▸ hg
    · cases he

/-- A write to the store is a turn of the thread, whether it is refused or not. -/
theorem store_writing {w : Write} {f : Store → Except Failure (α × Store)}
    (hf : ∀ s : Store, s.after (f s) = s.perform { thread, op := .write w })
    (g : Failure → Failure) (b : Bench ω) :
    let c := ((Bench.onWorld ((Store.writing h.store f).mapError g)).outcome b).2
    h.store.get c.world = (h.store.get b.world).perform { thread, op := .write w } ∧
      h.ledger.get c.world = h.ledger.get b.world := by
  dsimp only
  rw [Bench.outcome_onWorld, Step.outcome_mapError, ← hf, Store.writing, Step.outcome_ofFunction]
  cases f (h.store.get b.world) with
  | error e => exact ⟨rfl, rfl⟩
  | ok v => exact ⟨h.store_lawful.get_set _ _, h.ledger_apart _ _⟩

/-- A write, whose failure becomes the cause of another. -/
theorem undoable_writing (w : Write) {f : Store → Except Failure (α × Store)}
    (hf : ∀ s : Store, s.after (f s) = s.perform { thread, op := .write w })
    {failure : Failure} (hcode : failure.code ≠ Code.sessionExpired.id) :
    h.Undoable thread (Bench.onWorld ((Store.writing h.store f).mapError failure.causedBy)) := by
  intro b
  refine ⟨Write.turns thread [w], ⟨⟨[w], rfl⟩, fun e he => ?_⟩, store_writing hf _ b⟩
  rw [Bench.outcome_onWorld, Step.outcome_mapError] at he
  cases hr : ((Store.writing h.store f).outcome b.world).1 with
  | ok v =>
    rw [hr] at he
    cases he
  | error e' =>
    rw [hr] at he
    rw [← Except.error.inj he, Failure.code_causedBy]
    exact hcode

/-! ## Steps of the managers -/

/-- A step of the database changes the store and cannot fail. -/
theorem managed_change {f : Store → Store} {b b' : Bench ω} {r : Except Failure Unit}
    (done : (Dispatch.managed (Store.change h.store f)).outcome b = (r, b')) :
    r = .ok () ∧ h.store.get b'.world = f (h.store.get b.world) ∧
      h.ledger.get b'.world = h.ledger.get b.world := by
  cases done
  exact ⟨rfl, h.store_lawful.get_set _ _, h.ledger_apart _ _⟩

theorem failing_call (l : Ledger) (step : UnitStep) : (l.call step).2.failing = l.failing := by
  unfold Ledger.call
  dsimp only
  split
  · split <;> rfl
  · rfl

theorem call_error {l : Ledger} {step : UnitStep} {g : Failure} (hg : (l.call step).1 = .error g) :
    l.failing = some (step, g) := by
  unfold Ledger.call at hg
  cases hf : l.failing with
  | none =>
    rw [hf] at hg
    cases hg
  | some v =>
    obtain ⟨failing, f⟩ := v
    rw [hf] at hg
    dsimp only at hg
    split at hg
    · next hs =>
      cases hg
      rw [hs]
    · cases hg

/-- A step of the ledger leaves the store alone and fails as the script of the ledger says,
which stays the same. -/
theorem managed_call {step : UnitStep} {b b' : Bench ω} {r : Except Failure Unit}
    (done : (Dispatch.managed (Ledger.manager.step h.ledger step)).outcome b = (r, b')) :
    h.store.get b'.world = h.store.get b.world ∧
      (h.ledger.get b'.world).failing = (h.ledger.get b.world).failing ∧
      ∀ f, r = .error f → ∃ g, (h.ledger.get b.world).failing = some (step, g) ∧
        f = Dispatch.processingFailure g := by
  rw [Dispatch.managed, Step.outcome_mapError, Bench.outcome_onWorld] at done
  change (((h.ledger.get b.world).call step).1.mapError Dispatch.processingFailure,
    { b with world := h.ledger.set ((h.ledger.get b.world).call step).2 b.world }) = (r, b') at done
  cases done
  refine ⟨h.store_apart _ _, ?_, fun f hf => ?_⟩
  · exact (congrArg Ledger.failing (h.ledger_lawful.get_set _ _)).trans (failing_call _ step)
  · cases hr : ((h.ledger.get b.world).call step).1 with
    | error g =>
      rw [hr] at hf
      exact ⟨g, call_error hr, (Except.error.inj hf).symm⟩
    | ok v =>
      rw [hr] at hf
      cases hf

/-- A step of the ledger fails when the script says so. -/
theorem managed_refused {step : UnitStep} {b : Bench ω} {g : Failure}
    (failing : (h.ledger.get b.world).failing = some (step, g)) :
    ((Dispatch.managed (Ledger.manager.step h.ledger step)).outcome b).1 =
      .error (Dispatch.processingFailure g) := by
  rw [Dispatch.managed, Step.outcome_mapError, Bench.outcome_onWorld]
  show ((h.ledger.get b.world).call step).1.mapError Dispatch.processingFailure = _
  rw [Ledger.call, failing]
  dsimp only
  rw [if_pos rfl]
  rfl

/-- A rollback of the ledger does not touch the store. -/
theorem store_undo_ledger (b : Bench ω) :
    h.store.get (Dispatch.undo (Ledger.manager h.ledger) b).world = h.store.get b.world :=
  h.store_apart _ _

theorem store_undo_database (b : Bench ω) :
    h.store.get (Dispatch.undo (Store.database h.store thread).toManager b).world =
      (h.store.get b.world).rollback thread :=
  h.store_lawful.get_set _ _

/-! ## Steps of the environment -/

variable {env : Environment ω}

namespace Equips

theorem database_eq (henv : h.Equips thread env) :
    env.database = .ok (Store.database h.store thread) := by
  rw [Environment.database, henv.database]
  rfl

theorem log (henv : h.Equips thread env) (severity : Severity) (code : Nat) (detail : Json.Value)
    (b : Bench ω) :
    h.store.get (env.log severity code detail b).world = h.store.get b.world ∧
      h.ledger.get (env.log severity code detail b).world = h.ledger.get b.world := by
  unfold Environment.log
  split
  · exact henv.record _ _
  · exact ⟨rfl, rfl⟩

theorem store_runOne (henv : h.Equips thread env) (name : String)
    (more : List (String × Json.Value)) (run : Step Stop (Bench ω) Unit) (b : Bench ω) :
    h.store.get ((Dispatch.runOne env name more run).outcome b).2.world =
      h.store.get (run.outcome b).2.world := by
  rw [Dispatch.runOne, Step.outcome_ofFunction]
  rcases run.outcome b with ⟨_ | _, c⟩
  · exact (henv.log _ _ _ c).1
  · exact (henv.log _ _ _ c).1

theorem quiet_draw (henv : h.Equips thread env) :
    h.Quiet (Bench.onWorld (Step.ofState env.services.draw) : Act (Bench ω) (Nat → Bytes)) :=
  fun b => henv.draw b.world

theorem undoable_now (henv : h.Equips thread env) :
    h.Undoable thread (Bench.onWorld (Step.ofState env.services.now)) :=
  Undoable.of_quiet (fun b => henv.now b.world) fun _ _ he => nomatch he

/-- The database is there, so what follows may count on it. -/
theorem undoable_database (henv : h.Equips thread env) {f : Database ω → Act (Bench ω) α}
    (hf : h.Undoable thread (f (Store.database h.store thread))) :
    h.Undoable thread (Step.ofResult env.database >>= f) := by
  rw [henv.database_eq]
  exact hf

/-- Logging changes nothing about the turns of a processor that cannot break down. -/
theorem does_runOne (henv : h.Equips thread env) {run : Environment ω → Event → Act (Bench ω) Unit}
    {e : Event} {P : Bench ω → Except Failure Unit → List Turn → Prop} (hrun : h.Does (run env e) P)
    (name : String) (more : List (String × Json.Value)) :
    h.Does (Dispatch.runOne env name more (MainRun.ofAct run env e)) P := by
  intro b
  obtain ⟨turns, hP, hstore, hledger⟩ := hrun b
  refine ⟨turns, ?_⟩
  rw [Dispatch.runOne, Step.outcome_ofFunction, MainRun.ofAct, Step.outcome_mapError]
  rcases houtcome : (run env e).outcome b with ⟨r, c⟩
  rw [houtcome] at hP hstore hledger
  cases r with
  | ok v =>
    obtain ⟨hs, hl⟩ :=
      henv.log .debug Code.logHandled (.object (("processor", .str name) :: more)) c
    exact ⟨hP, hs.trans hstore, hl.trans hledger⟩
  | error f =>
    obtain ⟨hs, hl⟩ := henv.log .error f.code
      (.object [("processor", .str name), ("msg", .str f.message), ("perr", .nat f.causeCode)]) c
    exact ⟨hP, hs.trans hstore, hl.trans hledger⟩

end Equips

end Host

end EventWorker
