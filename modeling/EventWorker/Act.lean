import EventWorker.Failure

/-!
# Steps

A step acts on a state of type `σ`: it ends with a result or with an error, and
the state has moved on in both cases. A lens gives a step on a part of a state
its place in the whole.
-/

namespace EventWorker

/-- A step that ends with an `α` or an `ε` and changes a state either way. -/
abbrev Step (ε σ α : Type) := ExceptT ε (StateM σ) α

/-- A step that may fail. -/
abbrev Act (σ α : Type) := Step Failure σ α

/-- Access to a part of a state. -/
structure Lens (σ τ : Type) where
  get : σ → τ
  set : τ → σ → σ

namespace Lens

/-- The whole as a part of itself. -/
def whole {σ : Type} : Lens σ σ :=
  ⟨id, fun t _ => t⟩

/-- A part of a part. -/
def comp {ρ σ τ : Type} (outer : Lens ρ σ) (inner : Lens σ τ) : Lens ρ τ :=
  ⟨fun r => inner.get (outer.get r), fun t r => outer.set (inner.set t (outer.get r)) r⟩

/-- The whole with a part changed. -/
def modify {σ τ : Type} (l : Lens σ τ) (f : τ → τ) (s : σ) : σ :=
  l.set (f (l.get s)) s

end Lens

namespace Step

variable {ε δ σ τ α : Type}

/-- The end of a step and the state after it. -/
def outcome (a : Step ε σ α) (s : σ) : Except ε α × σ :=
  a.run.run s

/-- The step with the given ends and state changes. -/
def ofFunction (f : σ → Except ε α × σ) : Step ε σ α :=
  ExceptT.mk f

/-- The step that ends as given and changes nothing. -/
def ofResult (r : Except ε α) : Step ε σ α :=
  ofFunction fun s => (r, s)

/-- A change of the state that always ends with a result. -/
def ofState (f : σ → α × σ) : Step ε σ α :=
  ofFunction fun s => let (a, s) := f s; (.ok a, s)

/-- A step on a part of the state. -/
def focus (l : Lens σ τ) (a : Step ε τ α) : Step ε σ α :=
  ofFunction fun s => let (r, t) := a.outcome (l.get s); (r, l.set t s)

/-- The step with its errors mapped. -/
def mapError (f : ε → δ) (a : Step ε σ α) : Step δ σ α :=
  ofFunction fun s =>
    match a.outcome s with
    | (.ok v, s) => (.ok v, s)
    | (.error e, s) => (.error (f e), s)

/-- The step with its end as its result. -/
def attempt (a : Step ε σ α) : Step δ σ (Except ε α) :=
  ofFunction fun s => let (r, s) := a.outcome s; (.ok r, s)

/-- The step, with a change of the state after it in case it fails. The error
stays. -/
def onError (a : Step ε σ α) (f : σ → σ) : Step ε σ α :=
  ofFunction fun s =>
    match a.outcome s with
    | (.ok v, s) => (.ok v, s)
    | (.error e, s) => (.error e, f s)

end Step

end EventWorker
