import EventWorker.Proofs.Dispatch.Discipline
import EventWorker.Proofs.Dispatch.Lifted
import EventWorker.Proofs.MemoryHistory

/-!
# What is written for a message

A recorded dispatcher has an output that notes down every message it is given, and
whether it took it. The notes are kept beside the surroundings, where no provider and
no processor can reach them.

Results:
1. `Recorded.handle_recorded`: a recorded dispatcher handles a message as the dispatcher itself
   does, and tries one write for every waiting event, whatever is refused.
2. `routed_writes`: which events those are after both stages of a routed message.
-/

namespace EventWorker

/-! ## Notes of writes -/

/-- A write that was tried, and whether the output took the message. -/
structure Attempt where
  message : Outbound
  accepted : Bool
  deriving DecidableEq, Repr

/-- Surroundings with the writes that were tried there, oldest first. -/
structure Recorded (ω : Type) where
  world : ω
  attempts : List Attempt := []

/-- The message that carries a waiting event. -/
def outbound (waiting : String × Event) : Outbound :=
  { destination := waiting.1, payload := waiting.2.render }

variable {ω : Type}

namespace Recorded

/-- The surroundings without the notes. -/
def worldLens : Lens (Recorded ω) ω :=
  ⟨Recorded.world, fun w r => { r with world := w }⟩

theorem worldLens_lawful : (worldLens : Lens (Recorded ω) ω).Lawful where
  get_set _ _ := rfl
  set_get _ := rfl
  set_set _ _ _ := rfl

/-- The bench without the notes. -/
def plain (b : Bench (Recorded ω)) : Bench ω :=
  { b with world := b.world.world }

/-- The bench `c` with more notes than on `b`. -/
def after (b : Bench (Recorded ω)) (c : Bench ω) (attempts : List Attempt) :
    Bench (Recorded ω) :=
  { c with world := { world := c.world, attempts := b.world.attempts ++ attempts } }

@[simp] theorem plain_after (b : Bench (Recorded ω)) (c : Bench ω) (attempts : List Attempt) :
    plain (after b c attempts) = c := rfl

theorem after_after (b : Bench (Recorded ω)) (c c' : Bench ω) (xs ys : List Attempt) :
    after (after b c xs) c' ys = after b c' (xs ++ ys) := by
  unfold after
  rw [List.append_assoc]

theorem set_eq_after (b : Bench (Recorded ω)) (c : Bench ω) :
    (Bench.within worldLens).set c b = after b c [] := by
  unfold after
  rw [List.append_nil]
  rfl

end Recorded

/-- An output that notes down what it is given. -/
def Output.recorded (o : Output ω) : Output (Recorded ω) where
  toLifeCycle := o.toLifeCycle.within Recorded.worldLens
  write m := Step.ofFunction fun r =>
    match (o.write m).outcome r.world with
    | (.ok (), world) => (.ok (), { world, attempts := r.attempts ++ [⟨m, true⟩] })
    | (.error f, world) => (.error f, { world, attempts := r.attempts ++ [⟨m, false⟩] })
  retry r := o.retry r.world

/-- A dispatcher whose writes are noted down. -/
def Dispatcher.recorded (d : Dispatcher ω) : Dispatcher (Recorded ω) :=
  d.within Recorded.worldLens d.output.recorded

/-- A bench on which no write was noted down yet. -/
def Bench.recorded (b : Bench ω) : Bench (Recorded ω) :=
  { b with world := { world := b.world } }

namespace Recorded

theorem log_recorded (d : Dispatcher ω) (severity : Severity) (code : Nat) (detail : Json.Value)
    (b : Bench (Recorded ω)) :
    d.recorded.env.log severity code detail b =
      after b (d.env.log severity code detail (plain b)) [] := by
  rw [← set_eq_after]
  exact Dispatch.log_within worldLens_lawful ..

theorem settle_recorded (d : Dispatcher ω) (raw : String) (b : Bench (Recorded ω)) :
    d.recorded.settle raw b =
      ((d.settle raw (plain b)).1, after b (d.settle raw (plain b)).2 []) := by
  rw [← set_eq_after]
  exact Dispatcher.settle_within worldLens_lawful raw b

theorem writeOne_recorded (d : Dispatcher ω) (destination : String) (e : Event)
    (b : Bench (Recorded ω)) :
    d.recorded.writeOne destination e b =
      ((d.writeOne destination e (plain b)).1,
        after b (d.writeOne destination e (plain b)).2
          [⟨outbound (destination, e), (d.writeOne destination e (plain b)).1⟩]) := by
  unfold Dispatcher.writeOne
  dsimp only
  rw [log_recorded]
  generalize d.env.log .debug Code.logToSend
    (.object [("to", .str destination), ("event", .str e.render)]) (plain b) = c
  rw [Bench.outcome_onWorld, Bench.outcome_onWorld]
  have write : (d.recorded.output.write { destination, payload := e.render }).outcome
      { world := c.world, attempts := b.world.attempts } =
      match (d.output.write { destination, payload := e.render }).outcome c.world with
      | (.ok (), world) =>
        (.ok (), { world, attempts := b.world.attempts ++ [⟨outbound (destination, e), true⟩] })
      | (.error f, world) =>
        (.error f,
          { world, attempts := b.world.attempts ++ [⟨outbound (destination, e), false⟩] }) :=
    rfl
  have logged : (after b c []).world = { world := c.world, attempts := b.world.attempts } :=
    congrArg (Recorded.mk c.world) (List.append_nil _)
  rw [logged, write]
  rcases (d.output.write { destination, payload := e.render }).outcome c.world with ⟨f | v, w⟩
  · rfl
  · rfl

/-- Every waiting event is tried once and in its turn, and what is counted is what was taken. -/
theorem writeAll_recorded (d : Dispatcher ω) (waiting : List (String × Event))
    (b : Bench (Recorded ω)) :
    ∃ attempts, attempts.map Attempt.message = waiting.map outbound ∧
      (d.writeAll waiting (plain b)).1 = attempts.countP Attempt.accepted ∧
      d.recorded.writeAll waiting b =
        ((d.writeAll waiting (plain b)).1, after b (d.writeAll waiting (plain b)).2 attempts) := by
  induction waiting generalizing b with
  | nil =>
    refine ⟨[], rfl, rfl, ?_⟩
    rw [Dispatcher.writeAll, Dispatcher.writeAll, ← set_eq_after]
    rfl
  | cons entry rest ih =>
    obtain ⟨destination, e⟩ := entry
    have first := writeOne_recorded d destination e b
    rcases hone : d.writeOne destination e (plain b) with ⟨accepted, c⟩
    rw [hone] at first
    obtain ⟨attempts, messages, sent, more⟩ :=
      ih (after b c [⟨outbound (destination, e), accepted⟩])
    rw [plain_after] at sent more
    rw [after_after] at more
    refine ⟨⟨outbound (destination, e), accepted⟩ :: attempts, ?_, ?_, ?_⟩
    · rw [List.map_cons, List.map_cons, messages]
    · rw [Dispatcher.writeAll, hone, List.countP_cons, ← sent]
      cases accepted <;> rfl
    · simp only [Dispatcher.writeAll, hone, first, more]
      rfl

/-- A recorded dispatcher handles a message as the dispatcher itself does, and tries one write
for every event that is waiting when the message has been settled. -/
theorem handle_recorded (d : Dispatcher ω) (raw : String) (b : Bench (Recorded ω)) :
    ∃ attempts, attempts.map Attempt.message = (d.writes raw (plain b)).map outbound ∧
      (d.handle raw (plain b)).1.sent = attempts.countP Attempt.accepted ∧
      d.recorded.handle raw b =
        ((d.handle raw (plain b)).1, after b (d.handle raw (plain b)).2 attempts) := by
  have settled := settle_recorded d raw b
  have waiting : d.recorded.writes raw b = d.writes raw (plain b) := by
    unfold Dispatcher.writes
    rw [settled]
    rfl
  rcases hsettle : d.settle raw (plain b) with ⟨outcome, c⟩
  rw [hsettle] at settled
  obtain ⟨attempts, messages, sent, written⟩ := writeAll_recorded d (d.writes raw (plain b))
    (after b { c with events := c.events.drain.2 } [])
  rw [plain_after] at sent written
  rw [after_after, List.nil_append] at written
  have plainly : d.handle raw (plain b) =
      ({ outcome, sent := (d.writeAll (d.writes raw (plain b))
            { c with events := c.events.drain.2 }).1 },
        (d.writeAll (d.writes raw (plain b)) { c with events := c.events.drain.2 }).2) := by
    rw [Dispatcher.handle_writes, hsettle]
  refine ⟨attempts, messages, ?_, ?_⟩
  · rw [plainly]
    exact sent
  · rw [plainly, Dispatcher.handle_writes, waiting, settled]
    exact congrArg (fun out => (({ outcome, sent := out.1 } : Report), out.2)) written

/-- When the output takes all that it is given, what was tried is what was taken. -/
theorem attempts_accepted (d : Dispatcher ω) (raw : String) (b : Bench ω)
    (accepts : ∀ a ∈ (d.recorded.handle raw b.recorded).2.world.attempts, a.accepted = true) :
    (d.recorded.handle raw b.recorded).2.world.attempts =
      (d.writes raw b).map fun waiting => ⟨outbound waiting, true⟩ := by
  obtain ⟨attempts, messages, -, handled⟩ := handle_recorded d raw b.recorded
  have noted : (d.recorded.handle raw b.recorded).2.world.attempts = attempts := by
    rw [handled]
    exact List.nil_append attempts
  rw [noted] at accepts ⊢
  have taken (a : Attempt) (ha : a ∈ attempts) : (⟨a.message, true⟩ : Attempt) = a := by
    rw [← accepts a ha]
  calc attempts = attempts.map fun a => ⟨a.message, true⟩ :=
        ((List.map_congr_left taken).trans (List.map_id attempts)).symm
    _ = (attempts.map Attempt.message).map fun m => ⟨m, true⟩ := by
        rw [List.map_map]
        rfl
    _ = (d.writes raw b).map fun waiting => ⟨outbound waiting, true⟩ := by
        rw [messages, List.map_map]
        rfl

end Recorded

/-! ## Both stages -/

/-- The events after a failure: one that tells of it under a key, if the client is to be told. -/
def told (key : String) (e : Event) (f : Failure) : Memory Event :=
  if f.notifiable then
    Memory.push {} key (errorEvent e.header f (inputLabel e.label) .pipeline)
  else {}

theorem replaceEvents_eq (key : String) (e : Event) (f : Failure) (b : Bench ω) :
    Dispatcher.replaceEvents key e.header f .pipeline b = { b with events := told key e f } := by
  unfold Dispatcher.replaceEvents told
  cases f.notifiable <;> rfl

/-- The bench on which the arrival of an event was logged. -/
def Dispatcher.arrived (d : Dispatcher ω) (e : Event) (b : Bench ω) : Bench ω :=
  d.env.log .debug Code.logNewEvent e.toValue b

/-- How the stages of a routed message end: the main stage with `main?`, the final stage from
`start` on with `final?`, leaving `left`; and the messages that are written then. -/
structure Course (d : Dispatcher ω) (p : Pipeline ω) (e : Event) (b : Bench ω)
    (main? final? : Option Failure) (start left : Bench ω) (written : List Outbound) : Prop where
  main_ended : main? = none →
    (Dispatch.mainStage d.env p e).outcome (d.arrived e b) = (.ok (), start)
  /-- Nothing that a failed main stage pushed is there when the final stage starts. -/
  main_failed : ∀ f, main? = some f → ∃ mid,
    (Dispatch.mainStage d.env p e).outcome (d.arrived e b) = (.error f, mid) ∧
      start = { mid with events := told errorLabel e f }
  final_ended : final? = none →
    (Dispatch.finalStage d.env p).outcome start = (.ok (), left) ∧
      written = left.events.drain.1.map outbound
  /-- Nothing but an error event is written after a failed final stage. -/
  final_failed : ∀ f, final? = some f →
    (Dispatch.finalStage d.env p).outcome start = (.error f, left) ∧
      written =
        if f.notifiable then
          [{ destination := e.header.session
             payload := (errorEvent e.header f (inputLabel e.label) .pipeline).render }]
        else []

namespace Course

variable {d : Dispatcher ω} {p : Pipeline ω} {e : Event} {b start left : Bench ω}
  {main? final? : Option Failure} {written : List Outbound}

/-- The order of the writes is that in which the keys first appeared, and under one key that of
the pushes. -/
theorem in_order (h : Course d p e b main? none start left written)
    {history : List (Memory.Op Event)} (hleft : left.events = Memory.run {} history) :
    written = (Memory.appeared history).flatMap fun k =>
      (Memory.pushed k history).map fun x => outbound (k, x) := by
  rw [(h.final_ended rfl).2, hleft, Memory.drain_run, List.map_flatMap]
  simp only [List.map_map]
  rfl

end Course

theorem drain_told (key : String) (e : Event) (f : Failure) :
    (told key e f).drain.1 =
      if f.notifiable then [(key, errorEvent e.header f (inputLabel e.label) .pipeline)]
      else [] := by
  unfold told
  cases f.notifiable with
  | true => exact Memory.drain_pushAll_empty key _
  | false => rfl

theorem runMain_ended {d : Dispatcher ω} {p : Pipeline ω} {e : Event} {b c : Bench ω}
    (h : d.runMain p e b = (none, c)) : (Dispatch.mainStage d.env p e).outcome b = (.ok (), c) := by
  unfold Dispatcher.runMain at h
  rcases hmain : (Dispatch.mainStage d.env p e).outcome b with ⟨f | v, mid⟩
  · rw [hmain] at h
    cases h
  · rw [hmain] at h
    cases h
    rfl

theorem runMain_failing {d : Dispatcher ω} {p : Pipeline ω} {e : Event} {b c : Bench ω}
    {f : Failure} (h : d.runMain p e b = (some f, c)) :
    ∃ mid, (Dispatch.mainStage d.env p e).outcome b = (.error f, mid) ∧
      c = { mid with events := told errorLabel e f } := by
  unfold Dispatcher.runMain at h
  rcases hmain : (Dispatch.mainStage d.env p e).outcome b with ⟨g | v, mid⟩
  · rw [hmain] at h
    cases h
    exact ⟨mid, rfl, replaceEvents_eq ..⟩
  · rw [hmain] at h
    cases h

theorem runFinal_ended {d : Dispatcher ω} {p : Pipeline ω} {e : Event} {b c : Bench ω}
    (h : d.runFinal p e b = (none, c)) : (Dispatch.finalStage d.env p).outcome b = (.ok (), c) := by
  unfold Dispatcher.runFinal at h
  rcases hfinal : (Dispatch.finalStage d.env p).outcome b with ⟨f | v, left⟩
  · rw [hfinal] at h
    cases h
  · rw [hfinal] at h
    cases h
    rfl

theorem runFinal_failing {d : Dispatcher ω} {p : Pipeline ω} {e : Event} {b c : Bench ω}
    {f : Failure} (h : d.runFinal p e b = (some f, c)) :
    ∃ left, (Dispatch.finalStage d.env p).outcome b = (.error f, left) ∧
      c = { left with events := told e.header.session e f } := by
  unfold Dispatcher.runFinal at h
  rcases hfinal : (Dispatch.finalStage d.env p).outcome b with ⟨g | v, left⟩
  · rw [hfinal] at h
    cases h
    exact ⟨left, rfl, replaceEvents_eq ..⟩
  · rw [hfinal] at h
    cases h

/-- What becomes of a routed message, and what is written for it, once both stages are over. -/
theorem handled_stages {d : Dispatcher ω} {raw : String} {e : Event} {p : Pipeline ω}
    (valid : validate raw = .ok e) (routed : d.table.get? e.label = some p) {b start left : Bench ω}
    {main? final? : Option Failure} (hmain : d.runMain p e (d.arrived e b) = (main?, start))
    (hfinal : d.runFinal p e start = (final?, left)) :
    (d.handle raw b).1.outcome = .handled e.label main? final? ∧
      d.writes raw b = left.events.drain.1 := by
  have stages : d.stages p e b = (main?, final?, left) := by
    unfold Dispatcher.stages
    rw [← Dispatcher.arrived, hmain]
    dsimp only
    rw [hfinal]
  constructor
  · rw [Dispatcher.handle_writes, Dispatcher.settle_routed valid routed, stages]
  · unfold Dispatcher.writes
    rw [Dispatcher.settle_routed valid routed, stages]

/-- The stages of a routed message, and the messages for what is waiting after them. -/
theorem exists_course {d : Dispatcher ω} {raw : String} {e : Event} {p : Pipeline ω}
    (valid : validate raw = .ok e) (routed : d.table.get? e.label = some p) (b : Bench ω) :
    ∃ main? final? start left,
      (d.handle raw b).1.outcome = .handled e.label main? final? ∧
        Course d p e b main? final? start left ((d.writes raw b).map outbound) := by
  rcases hmain : d.runMain p e (d.arrived e b) with ⟨main?, start⟩
  rcases hfinal : d.runFinal p e start with ⟨final?, c⟩
  obtain ⟨outcome, waiting⟩ := handled_stages valid routed hmain hfinal
  have main_ended (hnone : main? = none) :
      (Dispatch.mainStage d.env p e).outcome (d.arrived e b) = (.ok (), start) :=
    runMain_ended (hnone ▸ hmain)
  have main_failed (f : Failure) (hsome : main? = some f) :
      ∃ mid, (Dispatch.mainStage d.env p e).outcome (d.arrived e b) = (.error f, mid) ∧
        start = { mid with events := told errorLabel e f } :=
    runMain_failing (hsome ▸ hmain)
  rw [waiting]
  cases final? with
  | none =>
    refine ⟨main?, none, start, c, outcome, ?_⟩
    exact
      { main_ended, main_failed
        final_ended := fun _ => ⟨runFinal_ended hfinal, rfl⟩
        final_failed := fun f hf => nomatch hf }
  | some f =>
    obtain ⟨left, hleft, rfl⟩ := runFinal_failing hfinal
    refine ⟨main?, some f, start, left, outcome, ?_⟩
    exact
      { main_ended, main_failed
        final_ended := fun hnone => nomatch hnone
        final_failed := by
          intro g hg
          cases hg
          refine ⟨hleft, ?_⟩
          rw [drain_told]
          cases f.notifiable <;> rfl }

/-- Every event that both stages of a routed message leave waiting is written once, and nothing
else is: after a final stage that ended these are the events it left, in the order in which they
were pushed, and after one that failed an error event for the session at most. What the output
refuses is not counted and keeps nothing else from being written. -/
theorem routed_writes (d : Dispatcher ω) {raw : String} {e : Event} {p : Pipeline ω}
    (valid : validate raw = .ok e) (routed : d.table.get? e.label = some p) (b : Bench ω) :
    let out := d.recorded.handle raw b.recorded
    out.1 = (d.handle raw b).1 ∧ Recorded.plain out.2 = (d.handle raw b).2 ∧
    out.1.sent = out.2.world.attempts.countP Attempt.accepted ∧
    ∃ main? final? start left, out.1.outcome = .handled e.label main? final? ∧
      Course d p e b main? final? start left (out.2.world.attempts.map Attempt.message) ∧
      (final? = none → ∀ history, left.events = Memory.run {} history →
        out.2.world.attempts.map Attempt.message = (Memory.appeared history).flatMap fun k =>
          (Memory.pushed k history).map fun x => outbound (k, x)) := by
  obtain ⟨attempts, messages, sent, handled⟩ := Recorded.handle_recorded d raw b.recorded
  obtain ⟨main?, final?, start, left, outcome, course⟩ := exists_course valid routed b
  have plainly : Recorded.plain b.recorded = b := rfl
  rw [plainly] at messages sent handled
  have noted : (d.recorded.handle raw b.recorded).2.world.attempts = attempts := by
    rw [handled]
    exact List.nil_append attempts
  dsimp only
  rw [noted, messages, handled]
  refine ⟨rfl, rfl, sent, main?, final?, start, left, outcome, course, ?_⟩
  rintro rfl history hleft
  exact course.in_order hleft

/-- A processor of each stage. The first pushes under the key of errors and fails, the second
moves what is there to two destinations. -/
def divertingPipeline : Pipeline Site where
  main :=
    [⟨0, "push", fun _ e => do
      Bench.change fun b => (b.pushEvent errorLabel e).pushEvent "bb02" e
      throw (.failed Code.server.failure)⟩]
  final :=
    [⟨1, "divert", fun _ _ => Bench.change fun b =>
      let (waiting, events) := b.events.pop errorLabel
      waiting.foldl (fun b x => (b.pushEvent "bb02" x).pushEvent "aa01" x) { b with events }⟩]

/-- The output of a site that refuses `bb02`, and a dispatcher that writes there. -/
def divertingDispatcher : Dispatcher Site :=
  { brokenDispatcher with table := { pipelines := [("login", divertingPipeline)] } }

/-- The bench at a site whose output refuses `bb02`. -/
def refusingBench : Bench Site :=
  { freshBench with world := { freshBench.world with kept := { refused := ["bb02"] } } }

/-- Of what the main stage pushed nothing is written. The error event goes to both destinations,
and the first of them refuses it. -/
theorem routed_writes_refused :
    validate loginMessage =
      .ok { header := Header.plain "aa01" notAvailable "login", payload := [] } ∧
    divertingDispatcher.table.get? "login" = some divertingPipeline ∧
    (∃ main? final? start left,
      (divertingDispatcher.recorded.handle loginMessage refusingBench.recorded).1.outcome =
        .handled "login" main? final? ∧
      Course divertingDispatcher divertingPipeline
        { header := Header.plain "aa01" notAvailable "login", payload := [] } refusingBench
        main? final? start left
        ((divertingDispatcher.recorded.handle loginMessage
          refusingBench.recorded).2.world.attempts.map Attempt.message)) ∧
    (divertingDispatcher.recorded.handle loginMessage refusingBench.recorded).1.sent = 1 ∧
    (divertingDispatcher.recorded.handle loginMessage refusingBench.recorded).2.world.attempts.map
      (fun a => (a.message.destination, a.accepted)) = [("bb02", false), ("aa01", true)] := by
  have valid : validate loginMessage =
      .ok { header := Header.plain "aa01" notAvailable "login", payload := [] } := rfl
  have routed : divertingDispatcher.table.get? "login" = some divertingPipeline := rfl
  obtain ⟨-, -, -, main?, final?, start, left, outcome, course, -⟩ :=
    routed_writes divertingDispatcher valid routed refusingBench
  exact ⟨valid, routed, ⟨main?, final?, start, left, outcome, course⟩, by decide +kernel,
    by decide +kernel⟩

end EventWorker
