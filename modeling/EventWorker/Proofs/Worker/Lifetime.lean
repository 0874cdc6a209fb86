import EventWorker.Proofs.Worker.Noted
import EventWorker.Proofs.Worker.Started
import EventWorker.Worker.Site

/-!
# The lifetime of a worker's processors

A start sets up every processor that it is handed, connects each that a pipeline uses once, and
then the providers; a stop disconnects each of them once, whatever the others did.

Results:
1. `Plan.table_noted`: the table of a plan has each processor in use once, and its processors are
   the first thing that is noted down after the set-ups of the providers.
2. `Plan.start_noted`: what a start notes down.
3. `Worker.shutdown_noted`: what a stop notes down and returns.
4. `Plan.connected_disconnected_once`: the whole lifetime.
-/

namespace EventWorker

open Noted (worldLens)

variable {ω : Type}

/-! ## Starting -/

/-- The connections of instances, each once and without a failure. -/
def connections (instances : List (Instance ω)) : List Note :=
  instances.map fun i => { part := .processor i.id, moment := .connect }

/-- Attempts to connect, of which the last one succeeds. -/
def attempts (part : Part) (failures : List Failure) : List Note :=
  failures.map (fun f => { part, moment := .connect, failure? := some f }) ++
    [{ part, moment := .connect }]

/-- The set-ups of the providers. -/
def providerSetUps : List Note :=
  [.output, .input, .database, .ledger].map fun part => { part, moment := .setUp }

theorem retrying_noted (part : Part) {a : Act ω Unit} {retries : Nat} {n : Noted ω} {w : ω}
    (h : (a.retrying retries).outcome n.world = (.ok (), w)) :
    ∃ failures, ((Noted.step part .connect a).retrying retries).outcome n =
      (.ok (), { n with world := w, notes := n.notes ++ attempts part failures }) := by
  -- A failed attempt leaves its note and its surroundings to the next one, hence for all `n`.
  induction retries generalizing n with
  | zero =>
    refine ⟨[], ?_⟩
    have ended := Step.mapError_ended h
    rw [Step.retrying, Step.outcome_mapError, Noted.step_ok ended]
    rfl
  | succ retries ih =>
    rw [Step.retrying, Step.outcome_ofFunction] at h ⊢
    rcases first : a.outcome n.world with ⟨f | v, u⟩
    · rw [first] at h
      dsimp only at h
      rw [Noted.step_error first]
      dsimp only
      split at h
      · next recoverable =>
        rw [if_pos recoverable]
        obtain ⟨failures, ended⟩ := ih
          (n := { n with
            world := u, notes := n.notes ++ [{ part, moment := .connect, failure? := some f }] }) h
        refine ⟨f :: failures, ended.trans ?_⟩
        simp [attempts]
      · cases h
    · rw [first] at h
      cases h
      exact ⟨[], by rw [Noted.step_ok first]; rfl⟩

theorem Plan.connectAll_noted (env : Environment ω) {instances : List (Instance ω)}
    {n : Noted ω} {w : ω} (h : (connectAll instances).outcome n.world = (.ok (), w)) :
    (connectAll (instances.map (Instance.noted env))).outcome n =
      (.ok (), { n with world := w, notes := n.notes ++ connections instances }) := by
  induction instances generalizing n with
  | nil =>
    cases h
    simp [connectAll, connections]
  | cons i rest ih =>
    obtain ⟨_, u, first, others⟩ := Step.bind_ended h
    have here : ((i.noted env).processor.connect).outcome n = _ :=
      Noted.step_ok (under_ended first)
    rw [List.map_cons, connectAll, Step.outcome_bind_ok (under_ok here)]
    rw [ih (n := { n with
      world := u, notes := n.notes ++ [{ part := .processor i.id, moment := .connect }] }) others]
    simp [connections]

namespace Plan

variable {p : Plan ω} {w w' : ω}

/-- The wiring of a plan before anything has been made. -/
def wiring (p : Plan ω) (w : ω) : Wiring ω :=
  { resolver := { registry := p.registry }, world := w }

/-- Resolves the fragments of a plan and builds its pipelines. -/
def wire (p : Plan ω) : Act (Wiring ω) (PipelineTable ω) := do
  Wiring.resolve p.config.fragments
  PipelineTable.build {} p.config.pipelines

theorem outcome_table (p : Plan ω) (w : ω) : p.table.outcome w =
    ((p.wire.outcome (p.wiring w)).1, (p.wire.outcome (p.wiring w)).2.world) := rfl

theorem wire_lifts (p : Plan ω) (env : Environment ω) (earlier : List Note) :
    Step.Lifts (Wiring.noted env earlier) (PipelineTable.noted env) p.wire (p.noted env).wire :=
  (Wiring.resolve_lifts _).bind fun _ => PipelineTable.build_lifts {} _

theorem wiring_noted (p : Plan ω) (env : Environment ω) (earlier : List Note) (w : ω) :
    Wiring.noted env earlier (p.wiring w) =
      (p.noted env).wiring { world := w, notes := earlier } := by
  simp [Wiring.noted, Resolver.noted, Resolver.next, setUps, wiring, Plan.noted]

/-- The table has each processor in use once, and all processors are set up when it is there. -/
theorem table_noted {table : PipelineTable ω} (h : p.table.outcome w = (.ok table, w'))
    (labels : Keyed.Ascending p.config.pipelines) :
    table.Listed ∧ Keyed.keys table.pipelines = Keyed.keys p.config.pipelines ∧
      ∃ made, p.registry.HandedOut made ∧ table.distinct ⊆ made ∧
        ∀ (env : Environment ω) (earlier : List Note),
          (p.noted env).table.outcome { world := w, notes := earlier } = (.ok (table.noted env),
            { world := w', made := made.length, notes := earlier ++ setUps made }) := by
  rcases wired : p.wire.outcome (p.wiring w) with ⟨r, s⟩
  rw [outcome_table, wired] at h
  cases h
  obtain ⟨_, u, resolved, filled⟩ := Step.bind_ended wired
  have stocked := (Wiring.Inventory.start p.registry w).resolved resolved
  have empty : ({} : PipelineTable ω).Listed := ⟨rfl, nofun⟩
  obtain ⟨inventory, own, listed, keys⟩ :=
    PipelineTable.build_listed empty stocked (List.nil_subset _) labels nofun filled
  refine ⟨listed, keys, s.resolver.made, inventory.handedOut, own, ?_⟩
  intro env earlier
  have ended := p.wire_lifts env earlier _ _ _ wired
  rw [wiring_noted] at ended
  rw [outcome_table, ended]
  rfl

theorem choose_map {κ α β : Type} {given? : Option α} {load : String → Except Failure κ}
    {make : κ → α} {name : String} {v : α} (f : α → β)
    (h : choose given? load make name = .ok v) :
    choose (given?.map f) load (fun kind => f (make kind)) name = .ok (f v) := by
  cases given? with
  | some given =>
    cases h
    rfl
  | none =>
    obtain ⟨kind, loaded, made⟩ := exists_of_map_ok h
    show (load name).map _ = _
    rw [loaded, ← made]
    rfl

/-- A start in noted surroundings goes as the start itself. The processors are set up after the
providers; then each in use is connected once, and the providers are connected after all of
them. -/
theorem start_noted {k : Worker ω} (labels : Keyed.Ascending p.config.pipelines)
    (h : p.start.outcome w = (.ok k, w')) (env : Environment ω) :
    ∃ made outputs inputs databases ledgers,
      p.registry.HandedOut made ∧ k.dispatcher.table.distinct ⊆ made ∧
      (p.noted env).start.outcome { world := w } = (.ok (k.noted env),
        { world := w', made := made.length
          notes := providerSetUps ++ setUps made ++ connections k.dispatcher.table.distinct ++
            attempts .output outputs ++ attempts .input inputs ++ attempts .database databases ++
            attempts .ledger ledgers }) := by
  cases started h with
  | intro valid logs output' outputUp input' inputUp database' databaseUp ledger' ledgerUp built
      ciphers' integrities' codecs' connected outputOn inputOn databaseOn ledgerOn =>
    obtain ⟨-, -, made, handedOut, within, built'⟩ := table_noted built labels
    -- Each step of the start in noted surroundings, from the notes that those before it left.
    have connected' := connectAll_noted env
      (n := { world := _, made := made.length, notes := providerSetUps ++ setUps made }) connected
    obtain ⟨outputs, outputOn'⟩ := retrying_noted .output (n := Noted.mk _ made.length _) outputOn
    obtain ⟨inputs, inputOn'⟩ := retrying_noted .input (n := Noted.mk _ made.length _) inputOn
    obtain ⟨databases, databaseOn'⟩ :=
      retrying_noted .database (n := Noted.mk _ made.length _) databaseOn
    obtain ⟨ledgers, ledgerOn'⟩ :=
      retrying_noted .ledger (n := Noted.mk _ made.length _) ledgerOn
    have queue : (p.noted env).hasQueue = p.hasQueue := by
      simp [hasQueue, Plan.noted]
    have ended : Started (p.noted env) { world := w } _ _ :=
      .intro valid logs (choose_map Output.noted output') (Noted.step_ok outputUp)
        (choose_map Input.noted input') (Noted.step_ok inputUp)
        (choose_map Database.noted database') (Noted.step_ok databaseUp)
        (choose_map (Manager.noted .ledger) ledger') (Noted.step_ok ledgerUp)
        (built' env providerSetUps) ciphers' integrities' codecs' connected' outputOn' inputOn'
        databaseOn' ledgerOn'
    rw [queue] at ended
    exact ⟨made, outputs, inputs, databases, ledgers, handedOut, within, ended.start⟩

end Plan

/-! ## Stopping -/

/-- The code of a failure to disconnect a part. -/
def Part.disconnectCode : Part → Code
  | .input => Code.disconnectInput
  | .output => Code.disconnectOutput
  | .processor _ => Code.disconnectProcessor
  | .database => Code.disconnectDatabase
  | .ledger => Code.disconnectLedger

/-- The failure that a stop gives for a disconnection that was noted down. -/
def Note.disconnectFailure? (e : Note) : Option Failure :=
  e.failure?.map e.part.disconnectCode.failure.causedBy

/-- The bench `c` in the surroundings of `b`, with more notes. -/
def Bench.noting (b : Bench (Noted ω)) (c : Bench ω) (notes : List Note) : Bench (Noted ω) :=
  { c with world := { b.world with world := c.world, notes := b.world.notes ++ notes } }

/-- The bench without the notes. -/
def Bench.unnoted (b : Bench (Noted ω)) : Bench ω :=
  (Bench.within Noted.worldLens).get b

theorem Bench.unnoted_noting (b : Bench (Noted ω)) (c : Bench ω) (notes : List Note) :
    (b.noting c notes).unnoted = c := rfl

theorem Bench.noting_noting (b : Bench (Noted ω)) (c c' : Bench ω) (notes notes' : List Note) :
    (b.noting c notes).noting c' notes' = b.noting c' (notes ++ notes') := by
  simp [Bench.noting]

/-- Parts are disconnected in noted surroundings, which ends with `r'`, as they are in the
surroundings themselves, which ends with `r`. Each is noted down once, in order, and each failure
among the notes is returned with the code of its part. -/
structure Disconnects (b : Bench (Noted ω)) (parts : List Part) (r : List Failure × Bench ω)
    (r' : List Failure × Bench (Noted ω)) (notes : List Note) : Prop where
  parts : notes.map Note.part = parts
  moments : ∀ e ∈ notes, e.moment = .disconnect
  failures : r.1 = notes.filterMap Note.disconnectFailure?
  same : r' = (r.1, b.noting r.2 notes)

namespace Worker

/-- The parts of a worker in the order in which they are disconnected. -/
def parts (k : Worker ω) : List Part :=
  [.input, .output] ++ k.dispatcher.table.distinct.map (fun i => .processor i.id) ++
    [.database, .ledger]

/-- What is disconnected by a stop: each part with its name in the log. -/
def closings (k : Worker ω) : List (Part × String × Act ω Unit) :=
  [(.input, "input", k.input.disconnect), (.output, "output", k.dispatcher.output.disconnect)] ++
  k.dispatcher.table.distinct.map (fun i =>
    (.processor i.id, i.processor.name, i.processor.disconnect)) ++
  [(.database, "database", k.database.disconnect), (.ledger, "blockchain", k.ledger.disconnect)]

theorem parts_closings (k : Worker ω) : k.closings.map (·.1) = k.parts := by
  simp [closings, parts, Function.comp_def]

theorem disconnections_eq (k : Worker ω) :
    k.disconnections = k.closings.map fun c => (c.1.disconnectCode, c.2.1, c.2.2) := by
  simp [disconnections, closings, Part.disconnectCode, Function.comp_def]

theorem disconnections_noted (k : Worker ω) (env : Environment ω) :
    (k.noted env).disconnections = k.closings.map fun c =>
      (c.1.disconnectCode, c.2.1, Noted.step c.1 .disconnect c.2.2) := by
  simp [disconnections, closings, Part.disconnectCode, Function.comp_def, Worker.noted,
    PipelineTable.noted, Instance.noted, Processor.noted, Input.noted, Output.noted,
    Database.noted, Manager.noted, LifeCycle.noted]

theorem log_noted (k : Worker ω) (env : Environment ω) (severity : Severity) (code : Nat)
    (detail : Json.Value) (b : Bench (Noted ω)) :
    (k.noted env).dispatcher.env.log severity code detail b =
      b.noting (k.dispatcher.env.log severity code detail b.unnoted) [] := by
  have same : (k.noted env).dispatcher.env.log severity code detail b =
      (k.dispatcher.env.within worldLens).log severity code detail b := rfl
  rw [same, Dispatch.log_within Noted.worldLens_lawful]
  simp [Bench.noting, Bench.unnoted, Lens.modify, Bench.within, worldLens]

theorem disconnectOne_noted (k : Worker ω) (env : Environment ω) (part : Part) (what : String)
    (a : Act ω Unit) (b : Bench (Noted ω)) : ∃ notes, Disconnects b [part]
      (k.disconnectOne part.disconnectCode what a b.unnoted)
      ((k.noted env).disconnectOne part.disconnectCode what (Noted.step part .disconnect a) b)
      notes := by
  rcases ends : a.outcome b.world.world with ⟨f | v, w⟩
  · have plain : (Bench.onWorld a).outcome b.unnoted = (.error f, { b.unnoted with world := w }) :=
      congrArg (fun r => (r.1, { b.unnoted with world := r.2 })) ends
    have noted' : (Bench.onWorld (Noted.step part .disconnect a)).outcome b =
        (.error f, b.noting { b.unnoted with world := w }
          [{ part, moment := .disconnect, failure? := some f }]) :=
      congrArg (fun r => (r.1, { b with world := r.2 })) (Noted.step_error ends)
    refine ⟨[{ part, moment := .disconnect, failure? := some f }], rfl, ?_, ?_, ?_⟩
    · simp
    · rw [disconnectOne, plain]
      simp [Note.disconnectFailure?]
    · rw [disconnectOne, disconnectOne, plain, noted']
      simp only [log_noted, Bench.unnoted_noting, Bench.noting_noting, List.append_nil]
  · have plain : (Bench.onWorld a).outcome b.unnoted = (.ok (), { b.unnoted with world := w }) :=
      congrArg (fun r => (r.1, { b.unnoted with world := r.2 })) ends
    have noted' : (Bench.onWorld (Noted.step part .disconnect a)).outcome b =
        (.ok (), b.noting { b.unnoted with world := w } [{ part, moment := .disconnect }]) :=
      congrArg (fun r => (r.1, { b with world := r.2 })) (Noted.step_ok ends)
    refine ⟨[{ part, moment := .disconnect }], rfl, ?_, ?_, ?_⟩
    · simp
    · rw [disconnectOne, plain]
      simp [Note.disconnectFailure?]
    · rw [disconnectOne, disconnectOne, plain, noted']

theorem disconnectAll_cons (k : Worker ω) (code : Code) (what : String) (a : Act ω Unit)
    (rest : List (Code × String × Act ω Unit)) (b : Bench ω) :
    k.disconnectAll ((code, what, a) :: rest) b =
      ((k.disconnectOne code what a b).1 ++
          (k.disconnectAll rest (k.disconnectOne code what a b).2).1,
        (k.disconnectAll rest (k.disconnectOne code what a b).2).2) := rfl

theorem disconnectAll_noted (k : Worker ω) (env : Environment ω)
    (closings : List (Part × String × Act ω Unit)) (b : Bench (Noted ω)) :
    ∃ notes, Disconnects b (closings.map (·.1))
      (k.disconnectAll (closings.map fun c => (c.1.disconnectCode, c.2.1, c.2.2)) b.unnoted)
      ((k.noted env).disconnectAll (closings.map fun c =>
        (c.1.disconnectCode, c.2.1, Noted.step c.1 .disconnect c.2.2)) b) notes := by
  induction closings generalizing b with
  | nil => exact ⟨[], rfl, nofun, rfl, by simp [disconnectAll, Bench.noting, Bench.unnoted,
      Bench.within, worldLens]⟩
  | cons c rest ih =>
    obtain ⟨part, what, a⟩ := c
    obtain ⟨one, first⟩ := disconnectOne_noted k env part what a b
    have others := ih (b.noting (k.disconnectOne part.disconnectCode what a b.unnoted).2 one)
    obtain ⟨more, others⟩ := others
    rw [Bench.unnoted_noting] at others
    refine ⟨one ++ more, ?_, ?_, ?_, ?_⟩
    · rw [List.map_append, first.parts, others.parts]
      rfl
    · intro e he
      rcases List.mem_append.mp he with he | he
      · exact first.moments e he
      · exact others.moments e he
    · rw [List.filterMap_append, ← first.failures, ← others.failures]
      rfl
    · rw [List.map_cons, List.map_cons, disconnectAll_cons, disconnectAll_cons, first.same,
        others.same, Bench.noting_noting]

/-- A stop disconnects every part once, whatever becomes of the others. -/
theorem shutdown_noted (k : Worker ω) (env : Environment ω) (b : Bench (Noted ω)) :
    ∃ notes, Disconnects b k.parts (k.shutdown b.unnoted) ((k.noted env).shutdown b) notes := by
  rw [shutdown, shutdown, disconnections_noted, disconnections_eq, ← parts_closings]
  exact disconnectAll_noted k env k.closings b

end Worker

/-- The lifetime of the processors of a worker that has been started, however the fragments and
the pipelines share them and whether the registry makes them or keeps them. The list of distinct
processors has each that is used in a pipeline once, in the order of first use. In noted
surroundings the start ends as it does. It notes down the set-ups of all processors in the order in
which they were handed out, and then one connection of each distinct one, in the order of the list
and before the providers are connected. A stop disconnects each of them once, in this order between
the transports and the managers, and returns the failures of all disconnections. -/
theorem Plan.connected_disconnected_once {p : Plan ω} {w w' : ω} {k : Worker ω}
    (labels : Keyed.Ascending p.config.pipelines) (h : p.start.outcome w = (.ok k, w'))
    (env : Environment ω) :
    k.dispatcher.table.Listed ∧ (k.dispatcher.table.distinct.map Instance.id).Nodup ∧
    Keyed.keys k.dispatcher.table.pipelines = Keyed.keys p.config.pipelines ∧
    (∃ made outputs inputs databases ledgers,
      p.registry.HandedOut made ∧ k.dispatcher.table.distinct ⊆ made ∧
      (p.noted env).start.outcome { world := w } = (.ok (k.noted env),
        { world := w', made := made.length
          notes := providerSetUps ++ setUps made ++ connections k.dispatcher.table.distinct ++
            attempts .output outputs ++ attempts .input inputs ++ attempts .database databases ++
            attempts .ledger ledgers })) ∧
    ∀ b : Bench (Noted ω), ∃ notes,
      Disconnects b k.parts (k.shutdown b.unnoted) ((k.noted env).shutdown b) notes := by
  have listed : k.dispatcher.table.Listed ∧
      Keyed.keys k.dispatcher.table.pipelines = Keyed.keys p.config.pipelines := by
    cases Plan.started h with
    | intro _ _ _ _ _ _ _ _ _ _ built =>
      obtain ⟨listed, keys, -⟩ := Plan.table_noted built labels
      exact ⟨listed, keys⟩
  refine ⟨listed.1, ?_, listed.2, Plan.start_noted labels h env, k.shutdown_noted env⟩
  rw [listed.1.order]
  exact nodup_eraseDups _

/-- A processor that does nothing. -/
def stamp : Processor Site :=
  { name := "stamp", stage := .main fun _ _ => pure () }

/-- Some of the built-in processors, and one that is kept and handed out whenever it is asked
for. -/
def stampRegistry : Registry Site where
  factories :=
    [Registry.mainFactory "client_ready" Processor.offerSuites,
      Registry.stateless "event_type_to_session" fun _ =>
        .final (FinalRun.ofAct fun _ _ => Processor.rekeyBySession),
      ("stamp", fun w => (.kept 0 fun _ => pure (), w)),
      Registry.mainFactory "update_session" Processor.touchSession]
  kept _ := stamp

/-- A plan of two pipelines that share the processor of a fragment, one of them twice, and a
processor that the registry keeps. -/
def sharingPlan : Plan Site where
  config :=
    { fragments := [("READY", [.processor ⟨"client_ready", ""⟩])]
      pipelines :=
        [("a", { main := [.reference "$READY", .reference "$READY", .processor ⟨"stamp", ""⟩]
                 final := [.processor ⟨"event_type_to_session", ""⟩] }),
          ("b", { main := [.processor ⟨"update_session", ""⟩, .processor ⟨"stamp", ""⟩,
                    .reference "$READY"] })]
      input := ⟨"channel", ""⟩
      output := ⟨"memory", ""⟩
      database := ⟨"memory", ""⟩
      ledger := ⟨"null", ""⟩
      logging := ⟨"tracing", ""⟩
      ciphers := [("none", ⟨"none", ""⟩)]
      integrity := ⟨"default", ""⟩
      encoding := ⟨"default", ""⟩ }
  supply := Site.supply Lens.whole Site.thread
  registry := stampRegistry

/-- The processor of the fragment. -/
def sharedReady : Instance Site :=
  { id := 0
    processor :=
      { name := "client_ready", stage := .main (MainRun.ofAct Processor.offerSuites) } }

/-- The processor that the registry keeps. -/
def sharedStamp : Instance Site :=
  { id := .kept 0, processor := stamp }

/-- The final processor of the first pipeline. -/
def ownRekeying : Instance Site :=
  { id := 2
    processor :=
      { name := "event_type_to_session"
        stage := .final (FinalRun.ofAct fun _ _ => Processor.rekeyBySession) } }

/-- The first processor of the second pipeline. -/
def ownTouching : Instance Site :=
  { id := 3
    processor :=
      { name := "update_session", stage := .main (MainRun.ofAct Processor.touchSession) } }

/-- The pipelines of the plan, with its processors in the order of first use. -/
def sharingTable : PipelineTable Site where
  pipelines :=
    [("a",
        { main :=
            [⟨0, "client_ready", MainRun.ofAct Processor.offerSuites⟩,
              ⟨0, "client_ready", MainRun.ofAct Processor.offerSuites⟩,
              ⟨.kept 0, "stamp", fun _ _ => pure ()⟩]
          final :=
            [⟨2, "event_type_to_session",
              FinalRun.ofAct fun _ _ => Processor.rekeyBySession⟩] }),
      ("b",
        { main :=
            [⟨3, "update_session", MainRun.ofAct Processor.touchSession⟩,
              ⟨.kept 0, "stamp", fun _ _ => pure ()⟩,
              ⟨0, "client_ready", MainRun.ofAct Processor.offerSuites⟩] })]
  distinct := [sharedReady, sharedStamp, ownRekeying, ownTouching]

/-- The wiring after the fragments of the plan were resolved. -/
def sharingWiring (site : Site) : Wiring Site where
  resolver :=
    { registry := stampRegistry, loaded := [("READY", [sharedReady])], made := [sharedReady] }
  world := site

theorem sharingPlan_resolved (site : Site) : (Wiring.resolve sharingPlan.config.fragments).outcome
      { resolver := { registry := stampRegistry }, world := site } = (.ok (), sharingWiring site) := by
  have loaded : (Wiring.load sharingPlan.config.fragments 1 "READY").outcome
      { resolver := { registry := stampRegistry }, world := site } =
        (.ok [sharedReady], sharingWiring site) := by
    unfold Wiring.load
    rfl
  have keys : Keyed.keys sharingPlan.config.fragments = ["READY"] := rfl
  have all : (Wiring.loadAll sharingPlan.config.fragments ["READY"]).outcome
      { resolver := { registry := stampRegistry }, world := site } = (.ok (), sharingWiring site) :=
    Step.outcome_bind_ok loaded
  rw [Wiring.resolve_eq rfl, keys, all]

theorem sharingPlan_table (site : Site) :
    sharingPlan.table.outcome site = (.ok sharingTable, site) := by
  -- One pipeline after the other, as the second one starts where the first one left the wiring.
  have first : (PipelineTable.buildOne "a" sharingPlan.config.pipelines[0].2).outcome
      (sharingWiring site) =
        (.ok (sharingTable.pipelines[0].2, [sharedReady, sharedReady, sharedStamp, ownRekeying]),
          (sharingWiring site).adding [sharedStamp, ownRekeying] site) := rfl
  have second : (PipelineTable.buildOne "b" sharingPlan.config.pipelines[1].2).outcome
      ((sharingWiring site).adding [sharedStamp, ownRekeying] site) =
        (.ok (sharingTable.pipelines[1].2, [ownTouching, sharedStamp, sharedReady]),
          (sharingWiring site).adding [sharedStamp, ownRekeying, ownTouching, sharedStamp] site) :=
    rfl
  have built : (PipelineTable.build {} sharingPlan.config.pipelines).outcome (sharingWiring site) =
      (.ok sharingTable, _) :=
    (Step.outcome_bind_ok first).trans (Step.outcome_bind_ok second)
  have wired : sharingPlan.wire.outcome (sharingPlan.wiring site) = (.ok sharingTable, _) :=
    (Step.outcome_bind_ok (sharingPlan_resolved site)).trans built
  rw [Plan.outcome_table, wired]
  rfl

/-- A site where nothing has happened. -/
def bareSite : Site :=
  { entropy := { key := [] } }

theorem sharingPlan_started : ∃ k w', sharingPlan.start.outcome bareSite = (.ok k, w') ∧
    k.dispatcher.table.distinct.map Instance.id = [0, .kept 0, 2, 3] :=
  ⟨_, _, Plan.Started.start (.intro rfl rfl rfl rfl rfl rfl rfl rfl rfl rfl
    (sharingPlan_table bareSite) rfl rfl rfl rfl rfl rfl rfl rfl), rfl⟩

theorem Plan.connected_disconnected_once_sharing :
    Keyed.Ascending sharingPlan.config.pipelines ∧
      ∃ k w', sharingPlan.start.outcome bareSite = (.ok k, w') ∧
        k.dispatcher.table.distinct.map Instance.id = [0, .kept 0, 2, 3] ∧
        k.dispatcher.table.Listed ∧
        ∃ (made : List (Instance Site)) (outputs inputs databases ledgers : List Failure),
          (sharingPlan.noted k.dispatcher.env).start.outcome { world := bareSite } =
            (.ok (k.noted k.dispatcher.env),
              { world := w', made := made.length
                notes := providerSetUps ++ setUps made ++
                  [⟨.processor 0, .connect, none⟩, ⟨.processor (.kept 0), .connect, none⟩,
                    ⟨.processor 2, .connect, none⟩, ⟨.processor 3, .connect, none⟩] ++
                  attempts .output outputs ++ attempts .input inputs ++
                  attempts .database databases ++ attempts .ledger ledgers }) := by
  have labels : Keyed.Ascending sharingPlan.config.pipelines := by
    unfold Keyed.Ascending
    decide
  obtain ⟨k, w', started, ids⟩ := sharingPlan_started
  obtain ⟨listed, -, -, ⟨made, outputs, inputs, databases, ledgers, -, -, noted⟩, -⟩ :=
    Plan.connected_disconnected_once labels started k.dispatcher.env
  have each : connections k.dispatcher.table.distinct =
      [⟨.processor 0, .connect, none⟩, ⟨.processor (.kept 0), .connect, none⟩,
        ⟨.processor 2, .connect, none⟩, ⟨.processor 3, .connect, none⟩] := by
    have same : connections k.dispatcher.table.distinct =
        (k.dispatcher.table.distinct.map Instance.id).map fun id =>
          { part := .processor id, moment := .connect } := by
      simp [connections, Function.comp_def]
    rw [same, ids]
    rfl
  rw [each] at noted
  exact ⟨labels, k, w', started, ids, listed, made, outputs, inputs, databases, ledgers, noted⟩

end EventWorker
