import EventWorker.Proofs.Dispatch.Writes

/-!
# Messages one after the other

One bench serves for all messages. Every stage begins on memories that it has emptied
itself or that were emptied before, so that nothing is left of a message but its traces
in the surroundings.

Results:
1. `Dispatcher.handle_fresh`: memories without events make no difference to a message.
2. `Dispatcher.handle_leaves_nothing`: no event is left after a message.
3. `handleEach_fresh`: handling messages on one bench is handling each on a new one.
4. `Recorded.handleEach_recorded`: what a recorded dispatcher notes down over many messages.
-/

namespace EventWorker

variable {ω : Type}

/-- A message, and what happens to the surroundings before it comes. -/
structure Round (ω : Type) where
  before : ω → ω := id
  raw : String

namespace Dispatcher

/-- Handles messages one after the other on one bench. -/
def handleEach (d : Dispatcher ω) : List (Round ω) → Bench ω → List Report × Bench ω
  | [], b => ([], b)
  | r :: rest, b =>
    let (report, b) := d.handle r.raw { b with world := r.before b.world }
    let (reports, b) := d.handleEach rest b
    (report :: reports, b)

/-- Handles messages one after the other, each on a new bench. -/
def handleApart (d : Dispatcher ω) : List (Round ω) → ω → List Report × ω
  | [], w => ([], w)
  | r :: rest, w =>
    let (report, b) := d.handle r.raw { world := r.before w }
    let (reports, w) := d.handleApart rest b.world
    (report :: reports, w)

/-! ## What depends on the surroundings only -/

theorem log_eq (env : Environment ω) (severity : Severity) (code : Nat) (detail : Json.Value)
    (b : Bench ω) :
    env.log severity code detail b =
      { b with world := (env.log severity code detail { world := b.world }).world } := by
  unfold Environment.log
  cases env.loggerOrDefault.record? severity code detail with
  | none => rfl
  | some r => rfl

theorem writeOne_eq (d : Dispatcher ω) (destination : String) (e : Event) (b : Bench ω) :
    d.writeOne destination e b =
      ((d.writeOne destination e { world := b.world }).1,
        { b with world := (d.writeOne destination e { world := b.world }).2.world }) := by
  unfold writeOne
  dsimp only
  rw [log_eq d.env _ _ _ b]
  generalize (d.env.log .debug Code.logToSend
    (.object [("to", .str destination), ("event", .str e.render)]) { world := b.world }) = c
  rw [Bench.outcome_onWorld, Bench.outcome_onWorld]
  dsimp only
  rcases (d.output.write { destination, payload := e.render }).outcome c.world with ⟨f | v, w⟩
  · rfl
  · rfl

theorem writeAll_eq (d : Dispatcher ω) (waiting : List (String × Event)) (b : Bench ω) :
    d.writeAll waiting b =
      ((d.writeAll waiting { world := b.world }).1,
        { b with world := (d.writeAll waiting { world := b.world }).2.world }) := by
  induction waiting generalizing b with
  | nil => rfl
  | cons entry rest ih =>
    obtain ⟨destination, e⟩ := entry
    rw [writeAll, writeAll, writeOne_eq d destination e b]
    rcases d.writeOne destination e { world := b.world } with ⟨accepted, c⟩
    dsimp only
    rw [ih { b with world := c.world }, ih c]

theorem mainStage_fresh (env : Environment ω) (p : Pipeline ω) (e : Event) (b : Bench ω) :
    (Dispatch.mainStage env p e).outcome b =
      (Dispatch.mainStage env p e).outcome { world := b.world } := by
  unfold Dispatch.mainStage
  rw [Step.outcome_bind_ok (Bench.outcome_change _ b),
    Step.outcome_bind_ok (Bench.outcome_change _ { world := b.world })]

/-! ## One message -/

/-- Two benches with the same surroundings and the same events waiting. -/
def Alike (b c : Bench ω) : Prop :=
  b.world = c.world ∧ b.events.drain.1 = c.events.drain.1

theorem runMain_fresh (d : Dispatcher ω) (p : Pipeline ω) (e : Event) (b : Bench ω) :
    d.runMain p e b = d.runMain p e { world := b.world } := by
  unfold runMain
  rw [mainStage_fresh]

theorem route_alike (d : Dispatcher ω) (e : Event) {b : Bench ω} (clear : b.events.drain.1 = []) :
    (d.route e b).1 = (d.route e { world := b.world }).1 ∧
      Alike (d.route e b).2 (d.route e { world := b.world }).2 := by
  unfold route
  cases d.table.get? e.label with
  | none =>
    dsimp only
    rw [log_eq d.env _ _ _ b]
    refine ⟨rfl, rfl, ?_⟩
    rw [(d.env.log_memories _ _ _ { world := b.world }).1]
    exact clear
  | some p =>
    dsimp only
    rw [runMain_fresh]
    exact ⟨rfl, rfl, rfl⟩

theorem settle_alike (d : Dispatcher ω) (raw : String) {b : Bench ω}
    (clear : b.events.drain.1 = []) :
    (d.settle raw b).1 = (d.settle raw { world := b.world }).1 ∧
      Alike (d.settle raw b).2 (d.settle raw { world := b.world }).2 := by
  unfold settle
  cases validate raw with
  | error r =>
    refine ⟨rfl, ?_⟩
    dsimp only [reject]
    rw [log_eq d.env _ _ _ b]
    cases r.header? with
    | none => exact ⟨rfl, rfl⟩
    | some h =>
      dsimp only [replaceEvents]
      cases r.failure.notifiable <;> exact ⟨rfl, rfl⟩
  | ok e =>
    dsimp only
    rw [log_eq d.env _ _ _ b, log_eq d.env _ _ _ { world := b.world }]
    exact route_alike d e clear

/-- What is left in the memories makes no difference to a message, as long as no event is waiting
there. -/
theorem handle_fresh (d : Dispatcher ω) (raw : String) {b : Bench ω}
    (clear : b.events.drain.1 = []) :
    (d.handle raw b).1 = (d.handle raw { world := b.world }).1 ∧
      (d.handle raw b).2.world = (d.handle raw { world := b.world }).2.world ∧
      d.writes raw b = d.writes raw { world := b.world } := by
  obtain ⟨outcome, world, waiting⟩ := settle_alike d raw clear
  rw [handle_writes, handle_writes]
  unfold writes
  generalize d.settle raw b = s at outcome world waiting ⊢
  generalize d.settle raw { world := b.world } = s' at outcome world waiting ⊢
  obtain ⟨r, c⟩ := s
  obtain ⟨r', c'⟩ := s'
  dsimp only at outcome world waiting ⊢
  subst outcome
  rw [waiting, writeAll_eq d _ { c with events := _ }, writeAll_eq d _ { c' with events := _ }]
  dsimp only
  rw [world]
  exact ⟨rfl, rfl, rfl⟩

/-- No event is waiting after a message, whatever was waiting before. -/
theorem handle_leaves_nothing (d : Dispatcher ω) (raw : String) (b : Bench ω) :
    (d.handle raw b).2.events.drain.1 = [] := by
  rw [handle_writes]
  rcases d.settle raw b with ⟨r, c⟩
  dsimp only
  rw [writeAll_eq]
  exact Memory.drain_drain c.events

/-! ## Many messages -/

theorem handleEach_apart (d : Dispatcher ω) (rounds : List (Round ω)) {b : Bench ω}
    (clear : b.events.drain.1 = []) :
    (d.handleEach rounds b).1 = (d.handleApart rounds b.world).1 ∧
      (d.handleEach rounds b).2.world = (d.handleApart rounds b.world).2 ∧
      (d.handleEach rounds b).2.events.drain.1 = [] := by
  induction rounds generalizing b with
  | nil => exact ⟨rfl, rfl, clear⟩
  | cons r rest ih =>
    let start : Bench ω := { b with world := r.before b.world }
    obtain ⟨report, world, -⟩ := d.handle_fresh r.raw (b := start) clear
    obtain ⟨reports, worlds, clear'⟩ := ih (d.handle_leaves_nothing r.raw start)
    rw [world] at reports worlds
    refine ⟨?_, worlds, clear'⟩
    show (d.handle r.raw start).1 :: (d.handleEach rest (d.handle r.raw start).2).1 = _
    rw [report, reports]
    rfl

end Dispatcher

/-- A dispatcher that has handled any messages handles the next one as a new dispatcher does in
the same surroundings: with the same report, the same writes, accepted or refused, and the same
calls of the managers, and with the same surroundings left. After every message no event is
waiting. -/
theorem handleEach_fresh (d : Dispatcher ω) (rounds : List (Round ω)) (w : ω) (raw : String) :
    let c := (d.handleEach rounds { world := w }).2
    let new : Bench ω := { world := c.world }
    (d.handleEach rounds { world := w }).1 = (d.handleApart rounds w).1 ∧
    c.world = (d.handleApart rounds w).2 ∧
    c.events.values = [] ∧
    (d.handle raw c).1 = (d.handle raw new).1 ∧
    (d.handle raw c).2.world = (d.handle raw new).2.world ∧
    (d.recorded.handle raw c.recorded).2.world = (d.recorded.handle raw new.recorded).2.world ∧
    (d.observed.handle raw c.observed).2.world = (d.observed.handle raw new.observed).2.world := by
  obtain ⟨reports, world, clear⟩ := d.handleEach_apart rounds (b := { world := w }) rfl
  dsimp only
  refine ⟨reports, world, ?_, ?_⟩
  · rw [Memory.values_eq, clear]
    rfl
  obtain ⟨report, world', -⟩ := d.handle_fresh raw clear
  exact ⟨report, world', (d.recorded.handle_fresh raw clear).2.1,
    (d.observed.handle_fresh raw clear).2.1⟩

/-! ## Notes of many messages -/

/-- The messages that are given to the output while rounds are handled, in order. -/
def Dispatcher.writesEach (d : Dispatcher ω) : List (Round ω) → Bench ω → List Outbound
  | [], _ => []
  | r :: rest, b =>
    let b : Bench ω := { b with world := r.before b.world }
    (d.writes r.raw b).map outbound ++ d.writesEach rest (d.handle r.raw b).2

/-- A round in surroundings with notes. -/
def Round.recorded (r : Round ω) : Round (Recorded ω) where
  before w := { w with world := r.before w.world }
  raw := r.raw

namespace Recorded

/-- A recorded dispatcher handles rounds as the dispatcher itself does, and notes down all that is
written, message by message. -/
theorem handleEach_recorded (d : Dispatcher ω) (rounds : List (Round ω)) (b : Bench (Recorded ω)) :
    ∃ attempts, attempts.map Attempt.message = d.writesEach rounds (plain b) ∧
      d.recorded.handleEach (rounds.map Round.recorded) b =
        ((d.handleEach rounds (plain b)).1,
          after b (d.handleEach rounds (plain b)).2 attempts) := by
  induction rounds generalizing b with
  | nil =>
    refine ⟨[], rfl, ?_⟩
    rw [← set_eq_after]
    rfl
  | cons r rest ih =>
    -- What happens before the round leaves the notes alone.
    let start : Bench ω := { plain b with world := r.before b.world.world }
    obtain ⟨first, messages, -, handled⟩ :=
      handle_recorded d r.raw { b with world := r.recorded.before b.world }
    have handled : d.recorded.handle r.recorded.raw
        { b with world := r.recorded.before b.world } =
        ((d.handle r.raw start).1, after b (d.handle r.raw start).2 first) := handled
    obtain ⟨others, messages', handled'⟩ := ih (after b (d.handle r.raw start).2 first)
    rw [plain_after] at messages' handled'
    rw [after_after] at handled'
    refine ⟨first ++ others, ?_, ?_⟩
    · rw [List.map_append, messages, messages']
      rfl
    · rw [List.map_cons, Dispatcher.handleEach, handled]
      dsimp only
      rw [handled']
      rfl

end Recorded

end EventWorker
