import EventWorker.Processor.Registry
import EventWorker.Proofs.Keyed
import EventWorker.Proofs.Steps

/-!
# What a registry hands out

Results:
1. `Registry.outcome_create`: a creation ends as the handing out does, without the number.
2. `Registry.handOut_kept`: a kept processor is the one that the registry keeps.
3. `Registry.Fresh.handOut`, `Registry.builtin_fresh`: registries that keep no processor, and that
   the built-in one is such a registry.
-/

namespace EventWorker.Registry

variable {ω : Type} {r : Registry ω} {spec : ProcessorSpec} {w w' : ω}

/-- Some factory hands out the processor that is kept under the number. -/
def Keeps (r : Registry ω) (number : Nat) : Prop :=
  ∃ name factory w setUp, Keyed.find? name r.factories = some factory ∧
    (factory w).1 = .kept number setUp

/-- All factories make a fresh processor whenever they are asked for one. -/
def Fresh (r : Registry ω) : Prop :=
  ∀ number, ¬ r.Keeps number

theorem outcome_create (r : Registry ω) (spec : ProcessorSpec) (w : ω) :
    (r.create spec).outcome w =
      (((r.handOut spec).outcome w).1.map Prod.snd, ((r.handOut spec).outcome w).2) := by
  rw [create, Step.outcome_bind]
  rcases (r.handOut spec).outcome w with ⟨f | v, u⟩ <;> rfl

/-- A processor is handed out by the factory with its name, and then set up. -/
theorem handOut_ended {found : Option Nat × Processor ω}
    (h : (r.handOut spec).outcome w = (.ok found, w')) :
    ∃ factory, Keyed.find? spec.name r.factories = some factory ∧
      (r.setUp spec.line (factory w).1).outcome (factory w).2 = (.ok found, w') := by
  rw [handOut] at h
  cases named : Keyed.find? spec.name r.factories with
  | none =>
    rw [named] at h
    cases h
  | some factory =>
    rw [named] at h
    obtain ⟨_, _, asked, ended⟩ := Step.bind_ended h
    cases asked
    exact ⟨factory, rfl, Step.mapError_ended ended⟩

theorem handOut_kept {number : Nat} {p : Processor ω}
    (h : (r.handOut spec).outcome w = (.ok (some number, p), w')) :
    r.Keeps number ∧ p = r.kept number := by
  obtain ⟨factory, named, ended⟩ := handOut_ended h
  cases handed : (factory w).1 with
  | fresh setUp =>
    rw [handed] at ended
    obtain ⟨q, u, -, last⟩ := Step.bind_ended ended
    cases last
  | kept number setUp =>
    rw [handed] at ended
    obtain ⟨_, u, -, last⟩ := Step.bind_ended ended
    cases last
    exact ⟨⟨spec.name, factory, w, setUp, named, handed⟩, rfl⟩

theorem Fresh.handOut (fresh : r.Fresh) {number? : Option Nat} {p : Processor ω}
    (h : (r.handOut spec).outcome w = (.ok (number?, p), w')) : number? = none := by
  cases number? with
  | none => rfl
  | some number => exact absurd (handOut_kept h).1 (fresh number)

theorem builtin_fresh : (builtin : Registry ω).Fresh := by
  rintro number ⟨name, factory, w, setUp, named, handed⟩
  have member := Keyed.mem_ofList (Keyed.mem_of_find? named)
  simp only [List.mem_cons, List.not_mem_nil, or_false] at member
  rcases member with m | m | m | m | m | m | m | m <;> cases m <;> cases handed

end EventWorker.Registry
