import EventWorker.Proofs.Pipeline.Construction
import EventWorker.Proofs.Processor.Builtin

/-!
# Where the processors of a table come from

All instances that a wiring holds were created by its registry, whether for a fragment or for a
place in a pipeline. So are the processors of every pipeline that is built.

Results:
1. `Wiring.supplying`: the law that instances come from the registry. `Wiring.stocked_resolve`:
   resolving fragments obeys it.
2. `PipelineTable.build_supplied`: the pipelines of a table that has been built.
-/

namespace EventWorker

variable {ω : Type} {r : Registry ω}

/-- A registry has created the processor of an instance. -/
def Registry.Makes (r : Registry ω) (i : Instance ω) : Prop :=
  ∃ spec w w', (r.create spec).outcome w = (.ok i.processor, w')

namespace Wiring

variable {s t : Wiring ω} {own : List (Instance ω)}

/-- The wiring has a registry, and holds instances of that registry only. -/
structure Stocked (r : Registry ω) (s : Wiring ω) : Prop where
  registry : s.resolver.registry = r
  loaded : ∀ ⦃name own⦄, Keyed.find? name s.resolver.loaded = some own → ∀ i ∈ own, r.Makes i

/-- Instances come from the registry. -/
def supplying (r : Registry ω) : Law ω where
  Before := Stocked r
  After _ own t := Stocked r t ∧ ∀ i ∈ own, r.Makes i
  Failed _ := True
  failed _ := trivial
  before after := after.1
  nothing stocked := ⟨stocked, nofun⟩
  append first others := ⟨others.1, List.forall_mem_append.mpr ⟨first.2, others.2⟩⟩

theorem supplying_create (spec : ProcessorSpec) :
    (supplying r).Obeyed (create spec >>= fun i => pure [i]) where
  ended := by
    intro s own t stocked ended
    obtain ⟨i, u, created, last⟩ := Step.bind_ended ended
    cases last
    obtain ⟨w, handed, -, rfl⟩ := create_ended created
    have stocked : Stocked r s := stocked
    rw [stocked.registry] at handed
    refine ⟨⟨stocked.registry, stocked.loaded⟩, fun j hj => ?_⟩
    rw [List.mem_singleton.mp hj]
    exact ⟨spec, _, w, handed⟩
  failed _ _ := trivial

theorem stocked_loadAll {fragments : Fragments} {names : List String} (stocked : Stocked r s)
    {v : Unit} (ended : (loadAll fragments names).outcome s = (.ok v, t)) : Stocked r t := by
  refine Law.loadAll (L := supplying r) supplying_create (fun stocked found => ?_)
    (fun name after => ?_) stocked ended
  · exact ⟨stocked, stocked.loaded found⟩
  · obtain ⟨stocked, makes⟩ := after
    refine ⟨⟨stocked.registry, fun n shared found => ?_⟩, makes⟩
    rw [Keyed.find?_insert] at found
    split at found
    · cases found
      exact makes
    · exact stocked.loaded found

theorem stocked_resolve {fragments : Fragments} (stocked : Stocked r s)
    (ended : (resolve fragments).outcome s = (.ok (), t)) : Stocked r t := by
  obtain ⟨_, u, checked, -⟩ := Step.bind_ended ended
  rw [resolve_eq (Prod.mk.inj checked).1] at ended
  rcases loaded : (loadAll fragments (Keyed.keys fragments)).outcome s with ⟨f | v, t'⟩
  · rw [loaded] at ended
    cases ended
  · rw [loaded] at ended
    cases ended
    exact stocked_loadAll stocked loaded

end Wiring

/-- The processors of a pipeline were created by a registry. -/
structure Pipeline.From (r : Registry ω) (p : Pipeline ω) : Prop where
  main : ∀ x ∈ p.main, r.MakesMain x.run
  final : ∀ x ∈ p.final, r.MakesFinal x.run

namespace PipelineTable

open Wiring (Stocked supplying)

variable {s t : Wiring ω} {label : String}

theorem supplying_instances (label : String) (e : Element) :
    (supplying r).Obeyed (instances label e) := by
  cases e with
  | processor spec => exact Wiring.supplying_create spec
  | reference text =>
    refine ⟨fun stocked ended => ?_, fun _ _ => trivial⟩
    obtain ⟨name, -, found, rfl⟩ := instances_reference_iff.mp ended
    exact ⟨stocked, stocked.loaded found⟩

theorem buildOne_supplied {spec : PipelineSpec} {p : Pipeline ω} {used : List (Instance ω)}
    (stocked : Stocked r s) (ended : (buildOne label spec).outcome s = (.ok (p, used), t)) :
    Stocked r t ∧ p.From r := by
  obtain ⟨mains, u, expanded, ended⟩ := Step.bind_ended ended
  obtain ⟨main, placed, ended⟩ := Step.ofResult_bind_ended ended
  obtain ⟨finals, u', expanded', ended⟩ := Step.bind_ended ended
  obtain ⟨final, placed', ended⟩ := Step.ofResult_bind_ended ended
  cases ended
  have supplies := (supplying r).expand (supplying_instances label)
  obtain ⟨stocked, makes⟩ := (supplies spec.main).ended stocked expanded
  obtain ⟨stocked, makes'⟩ := (supplies spec.final).ended stocked expanded'
  refine ⟨stocked, fun x hx => ?_, fun x hx => ?_⟩
  · obtain ⟨i, hi, place⟩ := (mapM_place (fun h => (mainPlace_eq_ok.mp h).id) placed).2 x hx
    obtain ⟨spec, w, w', created⟩ := makes i hi
    exact ⟨spec, w, _, w', created, (mainPlace_eq_ok.mp place).run⟩
  · obtain ⟨i, hi, place⟩ := (mapM_place (fun h => (finalPlace_eq_ok.mp h).id) placed').2 x hx
    obtain ⟨spec, w, w', created⟩ := makes' i hi
    exact ⟨spec, w, _, w', created, (finalPlace_eq_ok.mp place).run⟩

/-- Every pipeline of a table was there before, or it is built under a label of the pipelines of
processors that the registry has created. -/
theorem build_supplied {pipelines : Pipelines} {table table' : PipelineTable ω}
    (stocked : Stocked r s) (ended : (build table pipelines).outcome s = (.ok table', t)) :
    ∀ entry ∈ table'.pipelines, entry ∈ table.pipelines ∨
      entry.1 ∈ Keyed.keys pipelines ∧ entry.2.From r := by
  induction pipelines generalizing table s with
  | nil =>
    cases ended
    exact fun entry hentry => .inl hentry
  | cons first rest ih =>
    obtain ⟨label, spec⟩ := first
    obtain ⟨⟨p, used⟩, u, one, ended⟩ := Step.bind_ended ended
    obtain ⟨stocked, supplied⟩ := buildOne_supplied stocked one
    intro entry hentry
    rcases ih stocked ended entry hentry with hentry | ⟨named, supplied'⟩
    · rcases Keyed.mem_of_mem_insert hentry with rfl | hentry
      · exact .inr ⟨List.mem_cons_self, supplied⟩
      · exact .inl hentry
    · exact .inr ⟨List.mem_cons_of_mem _ named, supplied'⟩

end PipelineTable

end EventWorker
