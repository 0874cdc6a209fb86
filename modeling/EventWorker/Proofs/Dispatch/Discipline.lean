import EventWorker.Proofs.Dispatch.Observed
import EventWorker.Worker.Site

/-!
# The discipline of the units of work

What the calls of a main stage have in common, whichever path they take
(`Disciplined`): in which order the managers are begun, asked to commit and rolled
back, which processors run, and which of the calls decides how the stage ends.

Results:
1. `UnitCourse.disciplined`: every path keeps the discipline.
2. `handle_disciplined`: so does the main stage of every routed message, and the
   final stage starts after it on every path.
-/

namespace EventWorker

namespace Call

/-- A main processor was called. -/
def isMain (c : Call) : Bool :=
  match c.callee with
  | .main _ => true
  | _ => false

/-- `xs` was called before some call of `callee`. -/
def Before (callee : Callee) (calls xs : List Call) : Prop :=
  ∃ c ys, calls = xs ++ c :: ys ∧ c.callee = callee

/-- Both managers have begun. -/
def Begun (calls : List Call) : Prop :=
  ∀ party, { callee := .unit .begin party } ∈ calls

end Call

namespace Call

/-- What a stage that makes a call fails with: the failure of a processor that stopped,
the wrapped failure of a manager that refused. How a rollback ends is of no account. -/
def failure? (c : Call) : Option Failure :=
  match c.callee, c.stop? with
  | .unit .rollback _, _ => none
  | .unit _ _, some (.failed g) => some (Dispatch.processingFailure g)
  | .main _, some stop => some stop.failure
  | _, _ => none

end Call

/-- The discipline of a main stage of `n` processors that ended with `main?`. -/
structure Disciplined (n : Nat) (main? : Option Failure) (calls : List Call) : Prop where
  /-- The unit of the database is begun first. -/
  database_first : ∃ c rest, calls = c :: rest ∧ c.callee = .unit .begin .database
  /-- That of the ledger is begun next, and only if the database has begun. -/
  ledger_next : ∀ xs, Call.Before (.unit .begin .ledger) calls xs →
    xs = [{ callee := .unit .begin .database }]
  /-- The processors run in order up to the first that stops. -/
  processors : Call.Begun calls → ∃ stop?, Call.InOrder .main n (calls.filter Call.isMain) stop?
  /-- No processor runs unless both managers have begun. -/
  no_processors : ¬ Call.Begun calls → calls.filter Call.isMain = []
  /-- A commit is attempted only after every processor has ended. -/
  commit_after_processors : ∀ party xs, Call.Before (.unit .commit party) calls xs →
    Call.Begun xs ∧ xs.filter Call.isMain = Call.ended .main n
  /-- That of the ledger is attempted only after the database has committed. -/
  ledger_commits_last : ∀ xs, Call.Before (.unit .commit .ledger) calls xs →
    { callee := .unit .commit .database } ∈ xs
  /-- What has begun and has not committed is rolled back once, and nothing else is. -/
  rollbacks : ∀ party, calls.countP (fun c => c.callee = .unit .rollback party) =
    if { callee := .unit .begin party } ∈ calls ∧ { callee := .unit .commit party } ∉ calls then 1
    else 0
  /-- The stage succeeds if and only if both managers have committed. -/
  succeeds : main? = none ↔ ∀ party, { callee := .unit .commit party } ∈ calls
  /-- The first call that stopped decides how the stage ends. -/
  ends : main? = calls.findSome? Call.failure?

namespace Call

@[simp] theorem before_nil (callee : Callee) (xs : List Call) : ¬ Before callee [] xs := by
  rintro ⟨c, ys, h, -⟩
  simp at h

@[simp] theorem before_cons (callee : Callee) (c : Call) (calls xs : List Call) :
    Before callee (c :: calls) xs ↔
      (c.callee = callee ∧ xs = []) ∨ ∃ rest, xs = c :: rest ∧ Before callee calls rest := by
  constructor
  · rintro ⟨d, ys, h, hd⟩
    cases xs with
    | nil =>
      obtain ⟨rfl, rfl⟩ := List.cons.inj h
      exact .inl ⟨hd, rfl⟩
    | cons x rest =>
      obtain ⟨rfl, rfl⟩ := List.cons.inj h
      exact .inr ⟨rest, rfl, d, ys, rfl, hd⟩
  · rintro (⟨hc, rfl⟩ | ⟨rest, rfl, d, ys, rfl, hd⟩)
    · exact ⟨c, calls, rfl, hc⟩
    · exact ⟨d, ys, rfl, hd⟩

theorem mem_ended {callee : Nat → Callee} {n : Nat} {c : Call} :
    c ∈ ended callee n ↔ ∃ i < n, c = { callee := callee i } := by
  simp [ended, eq_comm]

/-- The main processors are called before the manager whose call follows theirs. -/
@[simp] theorem before_ended_append (n : Nat) (step : UnitStep) (party : Party)
    (calls xs : List Call) :
    Before (.unit step party) (ended .main n ++ calls) xs ↔
      ∃ rest, xs = ended .main n ++ rest ∧ Before (.unit step party) calls rest := by
  have main : ∀ c ∈ ended .main n, c.callee ≠ .unit step party := by
    intro c hc
    obtain ⟨i, -, rfl⟩ := mem_ended.mp hc
    simp
  -- All that matters of the calls in between is that none of them is the manager's.
  generalize ended .main n = mid at main
  induction mid generalizing xs with
  | nil => simp
  | cons c mid ih =>
    have other : c.callee ≠ .unit step party := main c List.mem_cons_self
    rw [List.cons_append, before_cons]
    simp only [other, false_and, false_or, ih _ fun d hd => main d (List.mem_cons_of_mem c hd)]
    constructor
    · rintro ⟨_, rfl, rest, rfl, h⟩
      exact ⟨rest, rfl, h⟩
    · rintro ⟨rest, rfl, h⟩
      exact ⟨mid ++ rest, rfl, rest, rfl, h⟩

@[simp] theorem unit_not_mem_ended (n : Nat) (step : UnitStep) (party : Party)
    (stop? : Option Stop) : { callee := .unit step party, stop? } ∉ ended .main n := by
  intro h
  obtain ⟨i, -, hi⟩ := mem_ended.mp h
  simp at hi

@[simp] theorem filter_isMain_ended (n : Nat) : (ended .main n).filter isMain = ended .main n := by
  rw [List.filter_eq_self]
  intro c hc
  obtain ⟨i, -, rfl⟩ := mem_ended.mp hc
  rfl

@[simp] theorem countP_rollback_ended (n : Nat) (party : Party) :
    (ended .main n).countP (fun c => c.callee = .unit .rollback party) = 0 := by
  rw [List.countP_eq_zero]
  intro c hc
  obtain ⟨i, -, rfl⟩ := mem_ended.mp hc
  simp

@[simp] theorem findSome?_ended (n : Nat) : (ended .main n).findSome? failure? = none := by
  rw [List.findSome?_eq_none_iff]
  intro c hc
  obtain ⟨i, -, rfl⟩ := mem_ended.mp hc
  rfl

theorem begun_iff {calls : List Call} :
    Begun calls ↔ { callee := .unit .begin .database } ∈ calls ∧
      { callee := .unit .begin .ledger } ∈ calls := by
  constructor
  · intro h
    exact ⟨h .database, h .ledger⟩
  · rintro ⟨hdb, hledger⟩ party
    cases party with
    | database => exact hdb
    | ledger => exact hledger

/-- A failure goes with a manager that has not committed. -/
theorem fails_without {calls : List Call} (party : Party)
    (missing : { callee := .unit .commit party } ∉ calls) {f : Failure} :
    some f = none ↔ ∀ party, { callee := .unit .commit party } ∈ calls := by
  constructor
  · intro h
    cases h
  · intro all
    exact absurd (all party) missing

end Call

attribute [local simp] Call.begun_iff Call.isMain Call.failure? List.filter_cons
  List.findSome?_cons List.findSome?_append

/-- Every path through the units of work keeps their discipline. -/
theorem UnitCourse.disciplined {n : Nat} {r : Except Failure Unit} {calls : List Call}
    (h : UnitCourse n r calls) : Disciplined n (Observed.failure? r) calls := by
  cases h with
  | databaseClosed g =>
    exact
      { database_first := ⟨_, _, rfl, rfl⟩
        ledger_next := by simp
        processors := by simp
        no_processors := by simp
        commit_after_processors := by simp
        ledger_commits_last := by simp
        rollbacks := by simp
        succeeds := Call.fails_without .database (by simp)
        ends := by simp [Observed.failure?] }
  | ledgerClosed g undone =>
    obtain ⟨u, _, rfl, rfl⟩ := undone
    exact
      { database_first := ⟨_, _, rfl, rfl⟩
        ledger_next := by simp
        processors := by simp
        no_processors := by simp
        commit_after_processors := by simp
        ledger_commits_last := by simp
        rollbacks := by intro party; cases party <;> simp
        succeeds := Call.fails_without .database (by simp)
        ends := by simp [Observed.failure?] }
  | @stopped stop mid _ ran undone =>
    obtain ⟨k, hk, rfl⟩ := ran
    obtain ⟨u, _, rfl, v, _, rfl, rfl⟩ := undone
    exact
      { database_first := ⟨_, _, rfl, rfl⟩
        ledger_next := by simp
        processors := fun _ => ⟨some stop, k, hk, by simp⟩
        no_processors := by simp
        commit_after_processors := by simp
        ledger_commits_last := by simp
        rollbacks := by intro party; cases party <;> simp
        succeeds := Call.fails_without .database (by simp)
        ends := by simp [Observed.failure?] }
  | databaseRefused g undone =>
    obtain ⟨u, _, rfl, v, _, rfl, rfl⟩ := undone
    exact
      { database_first := ⟨_, _, rfl, rfl⟩
        ledger_next := by simp
        processors := fun _ => ⟨none, by simp [Call.InOrder]⟩
        no_processors := by simp
        commit_after_processors := by
          intro party xs h
          cases party with
          | database =>
            simp at h
            simp [h]
          | ledger => simp at h
        ledger_commits_last := by simp
        rollbacks := by intro party; cases party <;> simp
        succeeds := Call.fails_without .database (by simp)
        ends := by simp [Observed.failure?] }
  | ledgerRefused g undone =>
    obtain ⟨v, _, rfl, rfl⟩ := undone
    exact
      { database_first := ⟨_, _, rfl, rfl⟩
        ledger_next := by simp
        processors := fun _ => ⟨none, by simp [Call.InOrder]⟩
        no_processors := by simp
        commit_after_processors := by
          intro party xs h
          cases party <;> simp at h <;> simp [h]
        ledger_commits_last := by simp
        rollbacks := by intro party; cases party <;> simp
        succeeds := Call.fails_without .ledger (by simp)
        ends := by simp [Observed.failure?] }
  | committed =>
    exact
      { database_first := ⟨_, _, rfl, rfl⟩
        ledger_next := by simp
        processors := fun _ => ⟨none, by simp [Call.InOrder]⟩
        no_processors := by simp
        commit_after_processors := by
          intro party xs h
          cases party <;> simp at h <;> simp [h]
        ledger_commits_last := by simp
        rollbacks := by intro party; cases party <;> simp
        succeeds := by
          refine ⟨fun _ party => ?_, fun _ => rfl⟩
          cases party with
          | database => simp
          | ledger => simp
        ends := by simp [Observed.failure?] }

/-! ## Every routed message -/

/-- The units of work of every routed message keep their discipline, whatever the two
managers and the processors do, and the final stage starts after them on every path.
The calls are those that an observed dispatcher notes down, which handles the message
as the dispatcher itself does. A breakdown counts as the failure 818, and so does the
refusal of a manager, which is its cause. -/
theorem handle_disciplined {ω : Type} (d : Dispatcher ω) {raw : String} {e : Event}
    {p : Pipeline ω} {db : Database ω} {ledger : Manager ω} (valid : validate raw = .ok e)
    (routed : d.table.get? e.label = some p) (hdb : d.env.database? = some db)
    (hledger : d.env.ledger? = some ledger) (b : Bench ω) :
    (d.observed.handle raw b.observed).1 = (d.handle raw b).1 ∧
    Observed.plain (d.observed.handle raw b.observed).2 = (d.handle raw b).2 ∧
    (∃ main? stop? calls tail,
      (d.handle raw b).1.outcome = .handled e.label main? (stop?.map Stop.failure) ∧
      (d.observed.handle raw b.observed).2.world.calls = calls ++ tail ∧
      Disciplined p.main.length main? calls ∧
      Call.InOrder .final p.final.length tail stop?) ∧
    (∀ message, (Stop.panicked message).failure.code = 818) ∧
    ∀ g, (Dispatch.processingFailure g).code = 818 ∧
      (Dispatch.processingFailure g).cause? = some g := by
  obtain ⟨main, final, calls, tail, course, ⟨stop?, ran, hfinal⟩, houtcome, h⟩ :=
    Observed.handle_follows valid routed hdb hledger b.observed
  have hplain : Observed.plain b.observed = b := rfl
  rw [hplain] at houtcome h
  refine ⟨by rw [h], by rw [h, Observed.plain_after], ?_, fun _ => rfl, fun _ => ⟨rfl, rfl⟩⟩
  refine ⟨Observed.failure? main, stop?, calls, tail, ?_, by rw [h]; rfl, course.disciplined, ran⟩
  rw [houtcome, hfinal]
  cases stop? <;> rfl

/-- A pipeline of three main processors, of which the second breaks down, and a final
one. -/
def brokenPipeline : Pipeline Site where
  main :=
    [⟨0, "first", fun _ _ => pure ()⟩,
      ⟨1, "second", fun _ _ => throw (.panicked (some "out of order"))⟩,
      ⟨2, "third", fun _ _ => pure ()⟩]
  final := [⟨3, "last", fun _ _ => pure ()⟩]

/-- A dispatcher at a site that takes logins through `brokenPipeline`. -/
def brokenDispatcher : Dispatcher Site where
  output := (Site.supply Lens.whole Site.thread).output .memory
  table := { pipelines := [("login", brokenPipeline)] }
  env :=
    { services := (Site.supply Lens.whole Site.thread).services
      database? := some ((Site.supply Lens.whole Site.thread).database .memory)
      ledger? := some ((Site.supply Lens.whole Site.thread).ledger .null) }

/-- A login for the session `aa01`. -/
def loginMessage : String := "\x7b\"session\":\"aa01\",\"event\":\"login\"\x7d"

/-- The bench at a site where nothing has happened. -/
def freshBench : Bench Site :=
  { world := { entropy := { key := [] } } }

/-- The breakdown of the second processor keeps the third from running and both managers
from committing, and the final processor runs after the rollbacks. -/
theorem handle_disciplined_broken :
    validate loginMessage =
      .ok { header := Header.plain "aa01" notAvailable "login", payload := [] } ∧
    brokenDispatcher.table.get? "login" = some brokenPipeline ∧
    (∃ main? stop? calls tail,
      (brokenDispatcher.handle loginMessage freshBench).1.outcome =
        .handled "login" main? (stop?.map Stop.failure) ∧
      (brokenDispatcher.observed.handle loginMessage freshBench.observed).2.world.calls =
        calls ++ tail ∧
      Disciplined 3 main? calls ∧ Call.InOrder .final 1 tail stop?) ∧
    (brokenDispatcher.observed.handle loginMessage freshBench.observed).2.world.calls =
      [{ callee := .unit .begin .database }, { callee := .unit .begin .ledger },
        { callee := .main 0 },
        { callee := .main 1, stop? := some (.panicked (some "out of order")) },
        { callee := .unit .rollback .database }, { callee := .unit .rollback .ledger },
        { callee := .final 0 }] := by
  have valid : validate loginMessage =
      .ok { header := Header.plain "aa01" notAvailable "login", payload := [] } := rfl
  have routed : brokenDispatcher.table.get? "login" = some brokenPipeline := rfl
  exact ⟨valid, routed, (handle_disciplined brokenDispatcher valid routed rfl rfl freshBench).2.2.1,
    by decide +kernel⟩

end EventWorker
