import EventWorker.Proofs.Dispatch.Lifted
import EventWorker.Proofs.Pipeline.Table
import EventWorker.Worker.Run

/-!
# Workers whose life cycles are noted down

In noted surroundings every set-up, connection and disconnection is noted down when it is over,
with its failure if it failed, and fresh processors are numbered as they are handed out. The notes
are kept beside the surroundings, where no provider and no processor can reach them.

Results:
1. `Registry.handOut_noted`: a processor that is handed out is set up, under its own identity.
2. `Wiring.resolve_lifts`, `PipelineTable.build_lifts`: fragments and pipelines in noted
   surroundings are those in the surroundings themselves, and the identity that a processor is
   noted down with is that of its instance.
-/

namespace EventWorker

/-- A provider of a worker, or one of its processors. -/
inductive Part
  | input
  | output
  | database
  | ledger
  | processor (id : Identity)
  deriving DecidableEq, Repr

/-- The moments in the life of a part that are noted down. -/
inductive Moment
  | setUp
  | connect
  | disconnect
  deriving DecidableEq, Repr

/-- What was noted down, with the failure if there was one. -/
structure Note where
  part : Part
  moment : Moment
  failure? : Option Failure := none
  deriving DecidableEq, Repr

/-- Surroundings with the number of processors handed out in them and the notes, oldest first. -/
structure Noted (ω : Type) where
  world : ω
  made : Nat := 0
  notes : List Note := []

variable {ω α β : Type}

namespace Noted

/-- The surroundings without the notes. -/
def worldLens : Lens (Noted ω) ω :=
  ⟨Noted.world, fun w n => { n with world := w }⟩

theorem worldLens_lawful : (worldLens : Lens (Noted ω) ω).Lawful where
  get_set _ _ := rfl
  set_get _ := rfl
  set_set _ _ _ := rfl

/-- A step that is noted down when it is over. -/
def step (part : Part) (moment : Moment) (a : Act ω α) : Act (Noted ω) α :=
  Step.ofFunction fun n =>
    match a.outcome n.world with
    | (.ok v, w) => (.ok v, { n with world := w, notes := n.notes ++ [{ part, moment }] })
    | (.error f, w) =>
      (.error f, { n with world := w, notes := n.notes ++ [{ part, moment, failure? := some f }] })

variable {part : Part} {moment : Moment} {a : Act ω α} {n : Noted ω} {w : ω}

theorem step_ok {v : α} (h : a.outcome n.world = (.ok v, w)) : (step part moment a).outcome n =
    (.ok v, { n with world := w, notes := n.notes ++ [{ part, moment }] }) := by
  rw [step, Step.outcome_ofFunction, h]

theorem step_error {f : Failure} (h : a.outcome n.world = (.error f, w)) :
    (step part moment a).outcome n = (.error f,
      { n with world := w, notes := n.notes ++ [{ part, moment, failure? := some f }] }) := by
  rw [step, Step.outcome_ofFunction, h]

end Noted

open Noted (worldLens)

/-- A life cycle that is noted down. -/
def LifeCycle.noted (part : Part) (c : LifeCycle ω) : LifeCycle (Noted ω) where
  setUp line := Noted.step part .setUp (c.setUp line)
  connect := Noted.step part .connect c.connect
  disconnect := Noted.step part .disconnect c.disconnect

/-- An input in noted surroundings. -/
def Input.noted (i : Input ω) : Input (Noted ω) where
  toLifeCycle := i.toLifeCycle.noted .input
  receive n := ((i.receive n.world).1, { n with world := (i.receive n.world).2 })
  retry n := i.retry n.world

/-- An output in noted surroundings. -/
def Output.noted (o : Output ω) : Output (Noted ω) where
  toLifeCycle := o.toLifeCycle.noted .output
  write m := (o.write m).focus worldLens
  retry n := o.retry n.world

/-- A manager in noted surroundings. -/
def Manager.noted (part : Part) (m : Manager ω) : Manager (Noted ω) :=
  { m.within worldLens with toLifeCycle := m.toLifeCycle.noted part }

/-- A database in noted surroundings. -/
def Database.noted (d : Database ω) : Database (Noted ω) :=
  { d.within worldLens with toManager := d.toManager.noted .database }

/-- An environment in noted surroundings. -/
def Environment.noted (env : Environment ω) : Environment (Noted ω) where
  services := env.services.within worldLens
  database? := env.database?.map Database.noted
  ledger? := env.ledger?.map (Manager.noted .ledger)
  providers := env.providers

/-- A stage in larger surroundings, with the environment that it works with there. -/
def Stage.within {ω' : Type} (l : Lens ω' ω) (env : Environment ω) : Stage ω → Stage ω'
  | .main run => .main fun _ e => (run env e).focus (Bench.within l)
  | .final run => .final fun _ _ => (run env.services env.providers).focus (Bench.within l)

/-- A processor in noted surroundings. -/
def Processor.noted (env : Environment ω) (id : Identity) (p : Processor ω) :
    Processor (Noted ω) where
  name := p.name
  stage := p.stage.within worldLens env
  connect := Noted.step (.processor id) .connect p.connect
  disconnect := Noted.step (.processor id) .disconnect p.disconnect

/-- What is handed out when `made` processors have been, in noted surroundings. -/
def Handout.noted (env : Environment ω) (made : Nat) : Handout ω → Handout (Noted ω)
  | .fresh setUp => .fresh fun line => do
    let p ← Noted.step (.processor (.fresh made)) .setUp (setUp line)
    return p.noted env (.fresh made)
  | .kept number setUp => .kept number fun line =>
    Noted.step (.processor (.kept number)) .setUp (setUp line)

/-- A factory that numbers the processors it hands out. -/
def Factory.noted (env : Environment ω) (factory : Factory ω) : Factory (Noted ω) := fun n =>
  ((factory n.world).1.noted env n.made,
    { n with world := (factory n.world).2, made := n.made + 1 })

/-- A registry in noted surroundings. -/
def Registry.noted (env : Environment ω) (r : Registry ω) : Registry (Noted ω) where
  factories := r.factories.map fun entry => (entry.1, Factory.noted env entry.2)
  kept number := (r.kept number).noted env (.kept number)

/-- An instance in noted surroundings, where it keeps its id. -/
def Instance.noted (env : Environment ω) (i : Instance ω) : Instance (Noted ω) where
  id := i.id
  processor := i.processor.noted env i.id

/-- A table in noted surroundings. -/
def PipelineTable.noted (env : Environment ω) (t : PipelineTable ω) :
    PipelineTable (Noted ω) where
  pipelines := t.pipelines.map fun entry => (entry.1, entry.2.within worldLens env)
  distinct := t.distinct.map (Instance.noted env)

/-- A supply in noted surroundings. -/
def Supply.noted (s : Supply ω) : Supply (Noted ω) where
  services := s.services.within worldLens
  input kind := (s.input kind).noted
  output kind := (s.output kind).noted
  database kind := (s.database kind).noted
  ledger kind := (s.ledger kind).noted .ledger

/-- A plan in noted surroundings. -/
def Plan.noted (env : Environment ω) (p : Plan ω) : Plan (Noted ω) where
  config := p.config
  supply := p.supply.noted
  registry := p.registry.noted env
  input? := p.input?.map Input.noted
  output? := p.output?.map Output.noted
  database? := p.database?.map Database.noted
  ledger? := p.ledger?.map (Manager.noted .ledger)

/-- A worker in noted surroundings. -/
def Worker.noted (env : Environment ω) (k : Worker ω) : Worker (Noted ω) where
  dispatcher :=
    { output := k.dispatcher.output.noted
      table := k.dispatcher.table.noted env
      env := k.dispatcher.env.noted }
  input := k.input.noted
  database := k.database.noted
  ledger := k.ledger.noted .ledger
  hasQueue := k.hasQueue
  stopping := k.stopping

section Registry

variable {r : Registry ω} {number? : Option Nat} {p : Processor ω} {w w' : ω}

theorem Registry.setUp_noted {line : String} {handout : Handout ω}
    (h : (r.setUp line handout).outcome w = (.ok (number?, p), w')) (env : Environment ω)
    (made made' : Nat) (notes : List Note) :
    ((r.noted env).setUp line (handout.noted env made)).outcome
        { world := w, made := made', notes } =
      (.ok (number?, p.noted env (.after made number?)),
        { world := w'
          made := made'
          notes := notes ++ [{ part := .processor (.after made number?), moment := .setUp }] }) := by
  cases handout with
  | fresh setUp =>
    obtain ⟨q, u, ended, last⟩ := Step.bind_ended h
    cases last
    refine Step.outcome_bind_ok (v := p.noted env (.fresh made)) ?_
    exact Step.outcome_bind_ok (Noted.step_ok ended)
  | kept number setUp =>
    obtain ⟨_, u, ended, last⟩ := Step.bind_ended h
    cases last
    exact Step.outcome_bind_ok (Noted.step_ok ended)

theorem Registry.handOut_noted {spec : ProcessorSpec}
    (h : (r.handOut spec).outcome w = (.ok (number?, p), w')) (env : Environment ω) (made : Nat)
    (notes : List Note) : ((r.noted env).handOut spec).outcome { world := w, made, notes } =
      (.ok (number?, p.noted env (.after made number?)),
        { world := w'
          made := made + 1
          notes := notes ++ [{ part := .processor (.after made number?), moment := .setUp }] }) := by
  obtain ⟨factory, named, ended⟩ := handOut_ended h
  have named' : Keyed.find? spec.name (r.noted env).factories = some (Factory.noted env factory) :=
    (Keyed.find?_map _ _ _).trans (congrArg _ named)
  rw [handOut, named']
  refine (Step.outcome_bind_ok (Step.outcome_ofState _ _)).trans ?_
  rw [Step.outcome_mapError, Factory.noted, setUp_noted ended]
  rfl

end Registry

/-! ## Fragments and pipelines -/

/-- The set-ups of instances. -/
def setUps (made : List (Instance ω)) : List Note :=
  made.map fun i => { part := .processor i.id, moment := .setUp }

/-- A resolver in noted surroundings. -/
def Resolver.noted (env : Environment ω) (r : Resolver ω) : Resolver (Noted ω) where
  registry := r.registry.noted env
  loaded := r.loaded.map fun entry => (entry.1, entry.2.map (Instance.noted env))
  made := r.made.map (Instance.noted env)

namespace Wiring

/-- The wiring in noted surroundings. Whatever it has made has been set up after all that was
noted earlier. -/
def noted (env : Environment ω) (earlier : List Note) (s : Wiring ω) : Wiring (Noted ω) where
  resolver := s.resolver.noted env
  world :=
    { world := s.world
      made := s.resolver.next
      notes := earlier ++ setUps s.resolver.made }

variable {env : Environment ω} {earlier : List Note}

theorem noted_adding (s : Wiring ω) (i : Instance ω) (w : ω) :
    noted env earlier (s.adding [i] w) = (noted env earlier s).adding [i.noted env]
      { world := w
        made := s.resolver.next + 1
        notes := earlier ++ setUps s.resolver.made ++
          [{ part := .processor i.id, moment := .setUp }] } := by
  simp [noted, adding, Resolver.noted, Resolver.next, setUps]

theorem create_lifts (spec : ProcessorSpec) : Step.Lifts (noted env earlier) (Instance.noted env)
    (create spec) (create spec) := by
  intro s i t ended
  rw [outcome_create] at ended ⊢
  rcases h : (s.resolver.registry.handOut spec).outcome s.world with ⟨f | ⟨number?, p⟩, w⟩
  · rw [h] at ended
    cases ended
  · rw [h] at ended
    cases ended
    have handed : ((noted env earlier s).resolver.registry.handOut spec).outcome
        (noted env earlier s).world = _ :=
      Registry.handOut_noted h env s.resolver.next (earlier ++ setUps s.resolver.made)
    have next : (noted env earlier s).resolver.next = s.resolver.next := List.length_map _
    rw [handed, noted_adding, next]
    rfl

theorem loaded?_lifts (name : String) : Step.Lifts (noted env earlier)
    (Option.map (List.map (Instance.noted env))) (loaded? name) (loaded? name) := by
  intro s found t ended
  cases ended
  have same : Keyed.find? name (noted env earlier s).resolver.loaded =
      (Keyed.find? name s.resolver.loaded).map (List.map (Instance.noted env)) :=
    Keyed.find?_map _ _ _
  rw [loaded?, Step.outcome_ofState, same]

theorem expand_lifts {f : Element → Act (Wiring ω) (List (Instance ω))}
    {f' : Element → Act (Wiring (Noted ω)) (List (Instance (Noted ω)))}
    (lifts : ∀ e, Step.Lifts (noted env earlier) (List.map (Instance.noted env)) (f e) (f' e))
    (elements : List Element) : Step.Lifts (noted env earlier) (List.map (Instance.noted env))
      (expand f elements) (expand f' elements) := by
  induction elements with
  | nil => exact .pure []
  | cons e rest ih =>
    refine (lifts e).bind fun first => ih.bind fun others => ?_
    rw [← List.map_append]
    exact .pure (first ++ others)

theorem contribution_lifts {fragments : Fragments} {fuel : Nat}
    (loads : ∀ t, Step.Lifts (noted env earlier) (List.map (Instance.noted env))
      (load fragments fuel t) (load fragments fuel t)) (name : String) (e : Element) :
    Step.Lifts (noted env earlier) (List.map (Instance.noted env))
      (contribution fragments fuel name e) (contribution fragments fuel name e) := by
  cases e with
  | processor spec => exact (create_lifts spec).bind fun i => .pure [i]
  | reference text =>
    refine Step.Lifts.bind (f := id) (.ofResult fun v h => h) fun found => ?_
    cases found with
    | none => exact .pure []
    | some t => exact loads t

theorem keep_lifts (name : String) (own : List (Instance ω)) :
    Step.Lifts (noted env earlier) (List.map (Instance.noted env)) (keep name own)
      (keep name (own.map (Instance.noted env))) := by
  intro s v t ended
  cases ended
  have same : Keyed.insert name (own.map (Instance.noted env))
      (noted env earlier s).resolver.loaded =
      (Keyed.insert name own s.resolver.loaded).map
        fun entry => (entry.1, entry.2.map (Instance.noted env)) :=
    (Keyed.map_insert_snd _ _ _ _).symm
  rw [keep, Step.outcome_ofState, same]
  rfl

theorem load_lifts (fragments : Fragments) (fuel : Nat) (name : String) :
    Step.Lifts (noted env earlier) (List.map (Instance.noted env)) (load fragments fuel name)
      (load fragments fuel name) := by
  induction fuel generalizing name with
  | zero =>
    unfold load
    refine (loaded?_lifts name).bind fun found => ?_
    cases found with
    | some own => exact .pure own
    | none => cases Keyed.find? name fragments <;> exact .failing _
  | succ fuel ih =>
    unfold load
    refine (loaded?_lifts name).bind fun found => ?_
    cases found with
    | some own => exact .pure own
    | none =>
      cases Keyed.find? name fragments with
      | none => exact .failing _
      | some elements =>
        exact (expand_lifts (contribution_lifts ih name) elements).bind fun own =>
          keep_lifts name own

theorem loadAll_lifts (fragments : Fragments) (names : List String) :
    Step.Lifts (noted env earlier) id (loadAll fragments names) (loadAll fragments names) := by
  induction names with
  | nil => exact .pure ()
  | cons name rest ih => exact (load_lifts fragments _ name).bind fun _ => ih

theorem resolve_lifts (fragments : Fragments) :
    Step.Lifts (noted env earlier) id (resolve fragments) (resolve fragments) := by
  -- Not from the parts of `resolve`: it catches a failure of `loadAll`, and only what ends is
  -- lifted.
  intro s v t ended
  obtain ⟨_, u, checked, -⟩ := Step.bind_ended ended
  have valid : fragments.check = .ok () := (Prod.mk.inj checked).1
  rw [resolve_eq valid] at ended ⊢
  rcases h : (loadAll fragments (Keyed.keys fragments)).outcome s with ⟨f | v, t⟩
  · rw [h] at ended
    cases ended
  · rw [h] at ended
    cases ended
    rw [loadAll_lifts fragments _ s v t h]

end Wiring

namespace PipelineTable

variable {ρ ρ' : Type} {env : Environment ω} {earlier : List Note}

theorem instances_lifts (label : String) (e : Element) :
    Step.Lifts (Wiring.noted env earlier) (List.map (Instance.noted env)) (instances label e)
      (instances label e) := by
  cases e with
  | processor spec => exact (Wiring.create_lifts spec).bind fun i => .pure [i]
  | reference text =>
    intro s own t ended
    rw [outcome_instances_reference] at ended ⊢
    cases target : (Element.reference text).target? with
    | none =>
      rw [target] at ended
      cases ended
    | some name =>
      rw [target] at ended
      have same : Keyed.find? name (Wiring.noted env earlier s).resolver.loaded =
          (Keyed.find? name s.resolver.loaded).map (List.map (Instance.noted env)) :=
        Keyed.find?_map _ _ _
      rw [Option.bind_some] at ended ⊢
      rw [same]
      cases found : Keyed.find? name s.resolver.loaded with
      | none =>
        rw [found] at ended
        cases ended
      | some instances =>
        rw [found] at ended
        cases ended
        rfl

/-- A main processor at its place, in noted surroundings. -/
def mainNoted (env : Environment ω) (w : Wired (MainRun ω)) : Wired (MainRun (Noted ω)) where
  id := w.id
  name := w.name
  run := fun _ e => (w.run env e).focus (Bench.within worldLens)

/-- A final processor at its place, in noted surroundings. -/
def finalNoted (env : Environment ω) (w : Wired (FinalRun ω)) : Wired (FinalRun (Noted ω)) where
  id := w.id
  name := w.name
  run := fun _ _ => (w.run env.services env.providers).focus (Bench.within worldLens)

theorem mainPlace_noted {label : String} {i : Instance ω} {x : Wired (MainRun ω)}
    (h : mainPlace label i = .ok x) : mainPlace label (i.noted env) = .ok (mainNoted env x) := by
  unfold mainPlace at h ⊢
  cases stage : i.processor.stage with
  | main run =>
    rw [stage] at h
    cases h
    simp [Instance.noted, Processor.noted, stage, Stage.within, mainNoted]
  | final run =>
    rw [stage] at h
    cases h

theorem finalPlace_noted {label : String} {i : Instance ω} {x : Wired (FinalRun ω)}
    (h : finalPlace label i = .ok x) : finalPlace label (i.noted env) = .ok (finalNoted env x) := by
  unfold finalPlace at h ⊢
  cases stage : i.processor.stage with
  | main run =>
    rw [stage] at h
    cases h
  | final run =>
    rw [stage] at h
    cases h
    simp [Instance.noted, Processor.noted, stage, Stage.within, finalNoted]

theorem mapM_noted {place : Instance ω → Except Failure (Wired ρ)}
    {place' : Instance (Noted ω) → Except Failure (Wired ρ')} {g : Wired ρ → Wired ρ'}
    (same : ∀ {i x}, place i = .ok x → place' (i.noted env) = .ok (g x))
    {own : List (Instance ω)} {xs : List (Wired ρ)} (h : own.mapM place = .ok xs) :
    (own.map (Instance.noted env)).mapM place' = .ok (xs.map g) := by
  induction own generalizing xs with
  | nil =>
    cases h
    rfl
  | cons i rest ih =>
    rw [List.mapM_cons] at h
    obtain ⟨x, first, h⟩ := exists_of_bind_ok h
    obtain ⟨others, after, h⟩ := exists_of_bind_ok h
    cases h
    rw [List.map_cons, List.mapM_cons, same first, ih after]
    rfl

theorem buildOne_lifts (label : String) (spec : PipelineSpec) :
    Step.Lifts (Wiring.noted env earlier)
      (Prod.map (Pipeline.within worldLens env) (List.map (Instance.noted env)))
      (buildOne label spec) (buildOne label spec) := by
  refine (Wiring.expand_lifts (instances_lifts label) spec.main).bind fun mains => ?_
  refine Step.Lifts.bind (f := List.map (mainNoted env))
    (.ofResult fun _ h => mapM_noted mainPlace_noted h) fun main => ?_
  refine (Wiring.expand_lifts (instances_lifts label) spec.final).bind fun finals => ?_
  refine Step.Lifts.bind (f := List.map (finalNoted env))
    (.ofResult fun _ h => mapM_noted finalPlace_noted h) fun final => ?_
  rw [← List.map_append]
  exact .pure (({ main, final } : Pipeline ω), mains ++ finals)

theorem track_noted (known used : List (Instance ω)) :
    track (known.map (Instance.noted env)) (used.map (Instance.noted env)) =
      (track known used).map (Instance.noted env) := by
  induction used generalizing known with
  | nil => rfl
  | cons i rest ih =>
    have same : ((known.map (Instance.noted env)).any fun j => j.id = (i.noted env).id) =
        known.any fun j => j.id = i.id := by
      rw [List.any_map]
      rfl
    rw [List.map_cons, track, List.foldl_cons, same, track, List.foldl_cons]
    split
    · exact ih known
    · rw [← List.map_singleton, ← List.map_append]
      exact ih (known ++ [i])

theorem build_lifts (table : PipelineTable ω) (pipelines : Pipelines) :
    Step.Lifts (Wiring.noted env earlier) (PipelineTable.noted env) (build table pipelines)
      (build (table.noted env) pipelines) := by
  induction pipelines generalizing table with
  | nil => exact .pure table
  | cons entry rest ih =>
    obtain ⟨label, spec⟩ := entry
    refine (buildOne_lifts label spec).bind fun built => ?_
    obtain ⟨p, used⟩ := built
    have next := ih
      { pipelines := Keyed.insert label p table.pipelines
        distinct := track table.distinct used }
    rw [PipelineTable.noted, Keyed.map_insert_snd, ← track_noted] at next
    exact next

end PipelineTable

end EventWorker
