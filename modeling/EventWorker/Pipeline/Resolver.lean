import EventWorker.Pipeline.Fragment
import EventWorker.Processor.Registry

/-!
# Resolving fragments

A resolver turns fragments into lists of processors. Every processor named in a
fragment is created once; a reference contributes the very processors of the
fragment it names. When a creation fails the resolver holds nothing.

Processors are told apart by their identities. A fresh one is numbered by the
resolver, for no other creation gives it; a kept one is the same whenever it is
handed out.
-/

namespace EventWorker

variable {ω : Type}

/-- What tells a processor from all others: the number of creations before it was
created fresh, or the number under which the registry keeps it. -/
inductive Identity
  | fresh (number : Nat)
  | kept (number : Nat)
  deriving DecidableEq, Repr

namespace Identity

/-- A number alone is that of a fresh processor. -/
instance (number : Nat) : OfNat Identity number := ⟨.fresh number⟩

/-- The identity of a processor that is created when `made` others have been, given its
number if it is a kept one. -/
def after (made : Nat) : Option Nat → Identity
  | none => .fresh made
  | some number => .kept number

end Identity

/-- A created processor; two with one id are the same. -/
structure Instance (ω : Type) where
  id : Identity
  processor : Processor ω

/-- The resolved fragments, and all that was created in the order of creation. -/
structure Resolver (ω : Type) where
  registry : Registry ω
  loaded : List (String × List (Instance ω)) := []
  made : List (Instance ω) := []

/-- The number of the next processor if it is fresh. -/
def Resolver.next (r : Resolver ω) : Nat :=
  r.made.length

/-- A resolver at work in its surroundings. -/
structure Wiring (ω : Type) where
  resolver : Resolver ω
  world : ω

namespace Wiring

/-- The surroundings as a part of the wiring. -/
def worldLens : Lens (Wiring ω) ω :=
  ⟨Wiring.world, fun w s => { s with world := w }⟩

/-- Creates a processor. -/
def create (spec : ProcessorSpec) : Act (Wiring ω) (Instance ω) := do
  let registry ← Step.ofState fun s => (s.resolver.registry, s)
  let (number?, processor) ← (registry.handOut spec).focus worldLens
  Step.ofState fun s =>
    let i : Instance ω := { id := .after s.resolver.next number?, processor }
    (i, { s with resolver.made := s.resolver.made ++ [i] })

/-- The processors of a resolved fragment. -/
def loaded? (name : String) : Act (Wiring ω) (Option (List (Instance ω))) :=
  Step.ofState fun s => (Keyed.find? name s.resolver.loaded, s)

/-- Appends what each element gives, in order. -/
def expand (f : Element → Act (Wiring ω) (List (Instance ω))) :
    List Element → Act (Wiring ω) (List (Instance ω))
  | [] => return []
  | e :: rest => do
    let first ← f e
    let others ← expand f rest
    return first ++ others

/-- Resolves a fragment and all it refers to, unless that has been done. At most
`fuel` fragments may refer to each other in a chain. -/
def load (fragments : Fragments) : Nat → String → Act (Wiring ω) (List (Instance ω))
  | fuel, name => do
    match ← loaded? name with
    | some instances => return instances
    | none =>
      match Keyed.find? name fragments, fuel with
      | none, _ => throw (Fragments.undefined name)
      | some _, 0 => throw (Fragments.circular name)
      | some elements, fuel + 1 => do
        let instances ← expand (fun e => do
          match e with
          | .processor spec => return [← create spec]
          | .reference _ =>
            match ← Step.ofResult (Fragments.target name e) with
            | some t => load fragments fuel t
            | none => return []) elements
        Step.ofState fun s =>
          (instances, { s with
            resolver.loaded := Keyed.insert name instances s.resolver.loaded })

/-- Resolves fragments one after the other. -/
def loadAll (fragments : Fragments) : List String → Act (Wiring ω) Unit
  | [] => return
  | name :: rest => do
    let _ ← load fragments fragments.length name
    loadAll fragments rest

/-- Checks the fragments and then resolves all of them. A failed check creates
nothing; a failed creation leaves nothing resolved. -/
def resolve (fragments : Fragments) : Act (Wiring ω) Unit := do
  Step.ofResult fragments.check
  match ← (loadAll fragments (Keyed.keys fragments)).attempt with
  | .ok () => return
  | .error f =>
    Step.ofState fun s => ((), { s with resolver.loaded := [] })
    throw f

end Wiring

end EventWorker
