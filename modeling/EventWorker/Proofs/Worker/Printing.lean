import EventWorker.Proofs.Dispatch.Printing
import EventWorker.Proofs.Pipeline.Origin
import EventWorker.Proofs.Worker.Lifetime

/-!
# What a worker prints

The output of a worker may be a line output. Whoever reads what it has printed finds every message
that the worker has written, with its destination, in order.

Results:
1. `Plan.table_from`: the pipelines of a worker are those of its configuration, of processors that
   its registry has created.
2. `Worker.printed_reads_back`: what is printed for any sequence of messages is read as the
   messages that were written.
-/

namespace EventWorker

variable {ω : Type} {h : Host ω} {thread : String} {printed : Lens ω LineOutput}

/-- The pipelines of a worker that has been started are under labels of its configuration, and
their processors were created by its registry. -/
theorem Plan.table_from {p : Plan ω} {k : Worker ω} {w w' : ω}
    (started : p.start.outcome w = (.ok k, w')) {label : String} {pipeline : Pipeline ω}
    (routed : k.dispatcher.table.get? label = some pipeline) :
    label ∈ Keyed.keys p.config.pipelines ∧ pipeline.From p.registry := by
  have built : ∃ u u', p.table.outcome u = (.ok k.dispatcher.table, u') := by
    cases Plan.started started with
    | intro _ _ _ _ _ _ _ _ _ _ built => exact ⟨_, _, built⟩
  obtain ⟨u, u', built⟩ := built
  rcases wired : p.wire.outcome (p.wiring u) with ⟨r, s⟩
  rw [Plan.outcome_table, wired] at built
  cases built
  obtain ⟨_, t, resolved, filled⟩ := Step.bind_ended wired
  have fresh : Wiring.Stocked p.registry (p.wiring u) := ⟨rfl, fun _ _ found => (nomatch found)⟩
  have supplied := PipelineTable.build_supplied (Wiring.stocked_resolve fresh resolved) filled
  rcases supplied _ (Keyed.mem_of_find? routed) with before | supplied
  · cases before
  · exact supplied

/-- A worker that has been started with built-in processors is a dispatcher that prints, if its
output is a line output apart from its store and its ledger, and no configured label has a space or
a line feed in it. -/
theorem Worker.printing {p : Plan ω} {k : Worker ω} {w w' : ω}
    (started : p.start.outcome w = (.ok k, w')) (builtin : p.registry = .builtin)
    (labels : ∀ label ∈ Keyed.keys p.config.pipelines, Unbroken label)
    (equips : h.Equips thread k.dispatcher.env) (prints : h.Prints printed)
    (spare : k.dispatcher.env.services.Spare printed.get)
    (output : k.dispatcher.output = LineOutput.output printed) :
    Printing h thread printed k.dispatcher where
  builtin :=
    { equips
      write := by
        intro m w
        rw [output]
        exact prints.spares _ w
      main := fun label pipeline routed => builtin ▸ (Plan.table_from started routed).2.main
      final := fun label pipeline routed => builtin ▸ (Plan.table_from started routed).2.final }
  prints
  spare
  output
  labels := fun label pipeline routed => labels label (Plan.table_from started routed).1

/-- A worker is started with built-in processors and labels without a space and a line feed. Its
output is a line output, and there is no session in its store. Then it handles any sequence of
messages. The bytes that it prints, cut at the line feeds and each line at its first space, are
the messages that it has written, each with its destination, in order. -/
theorem Worker.printed_reads_back {p : Plan ω} {k : Worker ω} {w w' : ω}
    (started : p.start.outcome w = (.ok k, w')) (builtin : p.registry = .builtin)
    (labels : ∀ label ∈ Keyed.keys p.config.pipelines, Unbroken label)
    (equips : h.Equips thread k.dispatcher.env) (prints : h.Prints printed)
    (spare : k.dispatcher.env.services.Spare printed.get)
    (output : k.dispatcher.output = LineOutput.output printed)
    {rounds : List (Round ω)} (undisturbed : h.Undisturbed rounds)
    (silent : ∀ r ∈ rounds, ∀ u, printed.get (r.before u) = printed.get u)
    {u : ω} (sessionless : (h.store.get u).tables.sessions = []) :
    let b : Bench ω := { world := u }
    let run := k.dispatcher.handleEach rounds b
    let noted := k.dispatcher.recorded.handleEach (rounds.map Round.recorded) b.recorded
    noted.1 = run.1 ∧ noted.2.world.world = run.2.world ∧
      ∃ text, (printed.get run.2.world).text = (printed.get u).text ++ text ∧
        Outbound.ofLines? (LineOutput.bytes text) =
          some (noted.2.world.attempts.map Attempt.message) := by
  intro b run noted
  have printing := Worker.printing started builtin labels equips prints spare output
  have start : Left h Unbroken printed.get (printed.get u) b := by
    refine ⟨⟨nofun, fun _ _ hrow => (nomatch hrow), rfl⟩, fun row hrow => ?_⟩
    rw [show (h.store.get b.world).tables.sessions = [] from sessionless] at hrow
    cases hrow
  obtain ⟨text, legible⟩ := printing.handleEach undisturbed silent start
  obtain ⟨attempts, messages, handled⟩ :=
    Recorded.handleEach_recorded k.dispatcher rounds b.recorded
  have handled : noted = (run.1, Recorded.after b.recorded run.2 attempts) := handled
  rw [handled]
  refine ⟨rfl, rfl, _, text, ?_⟩
  show _ = some (([] ++ attempts).map Attempt.message)
  rw [List.nil_append, messages]
  exact Outbound.ofLines?_lines legible

/-- A plan of two logins, of which one is answered under its label. -/
def printingPlan : Plan Site where
  config :=
    { fragments := []
      pipelines :=
        [("encryption_login", { main := [.processor ⟨"start_session", ""⟩] }),
          ("login",
            { main := [.processor ⟨"start_session", ""⟩]
              final := [.processor ⟨"event_type_to_session", ""⟩] })]
      input := ⟨"channel", ""⟩
      output := ⟨"stdout", ""⟩
      database := ⟨"memory", ""⟩
      ledger := ⟨"null", ""⟩
      logging := ⟨"tracing", ""⟩
      ciphers := []
      integrity := ⟨"default", ""⟩
      encoding := ⟨"default", ""⟩ }
  supply := Site.supply Lens.whole Site.thread

/-- The processors of the plan. -/
def printingTable : PipelineTable Site where
  pipelines :=
    [("encryption_login",
        { main := [⟨0, "start_session", MainRun.ofAct Processor.startSession⟩] }),
      ("login",
        { main := [⟨1, "start_session", MainRun.ofAct Processor.startSession⟩]
          final := [⟨2, "event_type_to_session",
            FinalRun.ofAct fun _ _ => Processor.rekeyBySession⟩] })]
  distinct :=
    [⟨0, { name := "start_session", stage := .main (MainRun.ofAct Processor.startSession) }⟩,
      ⟨1, { name := "start_session", stage := .main (MainRun.ofAct Processor.startSession) }⟩,
      ⟨2, { name := "event_type_to_session"
            stage := .final (FinalRun.ofAct fun _ _ => Processor.rekeyBySession) }⟩]

/-- The worker of the plan. -/
def printingWorker : Worker Site where
  dispatcher :=
    { output := LineOutput.output Site.printedLens
      table := printingTable
      env := Site.environment Site.thread
        { ciphers? := some [], logger? := some {}
          integrities? := some IntegrityFunction.named?, codecs? := some Codec.named? } }
  input := QueueInput.input Site.queueLens
  database := Store.database Site.storeLens Site.thread
  ledger := Ledger.manager Site.ledgerLens
  hasQueue := true

theorem printingPlan_started :
    ∃ w', printingPlan.start.outcome newcomerBench.world = (.ok printingWorker, w') := by
  have built (site : Site) : printingPlan.table.outcome site = (.ok printingTable, site) := rfl
  exact ⟨_, Plan.Started.start (.intro rfl rfl rfl rfl rfl rfl rfl rfl rfl rfl (built _) rfl rfl rfl
    rfl rfl rfl rfl rfl)⟩

theorem Site.host_prints : Site.host.Prints Site.printedLens where
  lawful := ⟨fun _ _ => rfl, fun _ => rfl, fun _ _ _ => rfl⟩
  beside := ⟨fun _ _ => rfl, fun _ _ => rfl⟩
  spares _ _ := ⟨rfl, rfl⟩

/-- A login whose task has a line feed and a space in it, one that is answered under its label, the
same once more, which fails, one without a token, a label without a pipeline and what is no
message. -/
def printingRounds : List (Round Site) :=
  [{ raw := "\x7b\"session\":\"aa01\",\"event\":\"login\",\"task\":\"a\\nb c\"," ++
        "\"params\":\x7b\"auth_token\":\"b1\",\"subject\":\"alice\"\x7d\x7d" },
    { before := fun s => { s with clock := 5 }, raw := aliceMessage "encryption_login" "aa02" },
    { raw := aliceMessage "encryption_login" "aa02" },
    { raw := "\x7b\"session\":\"aa-03\",\"event\":\"use\",\"params\":\x7b\x7d\x7d" },
    { raw := aliceMessage "no route" "aa04" },
    { raw := "no message" }]

/-- What is written for the rounds: one message to a session, one to a label, one to the key of
errors, and one to the session of a message that was rejected. -/
def printingWrites : List Outbound :=
  [⟨"aa01", "\x7b\"event\":\"login\",\"params\":\x7b\"err\":0,\"msg\":\"New session created\"," ++
      "\"msg_id\":14\x7d,\"task\":\"a\\nb c\"\x7d"⟩,
    ⟨"encryption_login", "\x7b\"event\":\"encryption_login\",\"params\":\x7b\"err\":0," ++
      "\"msg\":\"New session created\",\"msg_id\":14\x7d,\"session\":\"aa02\"," ++
      "\"task\":\"n/a\"\x7d"⟩,
    ⟨"error", "\x7b\"event\":\"error\",\"params\":\x7b\"err\":504," ++
      "\"input_event\":\"encryption_login\",\"msg\":\"Session not created\",\"perr\":504," ++
      "\"werr\":0\x7d,\"session\":\"aa02\",\"task\":\"n/a\"\x7d"⟩,
    ⟨"aa-03", "\x7b\"event\":\"error\",\"params\":\x7b\"err\":0,\"input_event\":\"use\"," ++
      "\"msg\":\"Authentication required\",\"perr\":0,\"werr\":825\x7d," ++
      "\"session\":\"aa-03\",\"task\":\"n/a\"\x7d"⟩]

theorem printingRounds_written :
    (printingWorker.dispatcher.recorded.handleEach (printingRounds.map Round.recorded)
      ({ world := newcomerBench.world } : Bench Site).recorded).2.world.attempts.map
        Attempt.message = printingWrites := by
  decide +kernel

theorem Worker.printed_reads_back_newcomer :
    let run := printingWorker.dispatcher.handleEach printingRounds { world := newcomerBench.world }
    (∃ w', printingPlan.start.outcome newcomerBench.world = (.ok printingWorker, w')) ∧
      Outbound.ofLines? (LineOutput.bytes (Site.printedLens.get run.2.world).text) =
        some printingWrites := by
  obtain ⟨w', started⟩ := printingPlan_started
  have undisturbed : Site.host.Undisturbed printingRounds := by
    intro r hr w
    simp only [printingRounds, List.mem_cons, List.not_mem_nil, or_false] at hr
    rcases hr with rfl | rfl | rfl | rfl | rfl | rfl <;> exact ⟨rfl, rfl⟩
  have silent : ∀ r ∈ printingRounds, ∀ u,
      Site.printedLens.get (r.before u) = Site.printedLens.get u := by
    intro r hr u
    simp only [printingRounds, List.mem_cons, List.not_mem_nil, or_false] at hr
    rcases hr with rfl | rfl | rfl | rfl | rfl | rfl <;> rfl
  obtain ⟨-, -, text, printed, read⟩ := Worker.printed_reads_back started rfl (by decide)
    (Site.host_equips Site.thread _) Site.host_prints
    ⟨fun _ => rfl, fun _ => rfl, fun _ _ => rfl⟩ rfl undisturbed silent (u := newcomerBench.world)
    rfl
  have blank : (Site.printedLens.get newcomerBench.world).text = [] := rfl
  rw [blank, List.nil_append] at printed
  rw [printingRounds_written] at read
  dsimp only
  rw [printed]
  exact ⟨⟨w', started⟩, read⟩

end EventWorker
