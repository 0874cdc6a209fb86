import EventWorker.Act

/-!
# How steps end

How a step ends and what it leaves behind, read off its form. Proofs about steps
go through these laws and never open the monad.

Results:
1. `Step.outcome_bind`: the second step starts where the first one ended.
2. `Step.outcome_focus`, `Step.outcome_mapError`, `Step.outcome_onError`: what the
   other forms make of the end of a step.
3. `Step.bind_failed`: where a failure comes from.
4. `Step.focus_bind`, `Step.focus_onError`: a step on a part of the state is put together as
   the step itself is.
5. `Step.Maintains.bind`, `Step.Carries.bind`: steps that keep a property of the state, however
   they end or whenever they come to their end.
6. `Step.Lifts.bind`: a step that goes as another one does on other states.
-/

namespace EventWorker

/-- What was put into a part is what is found there, and nothing is left of what
was there before. -/
structure Lens.Lawful {σ τ : Type} (l : Lens σ τ) : Prop where
  get_set : ∀ t s, l.get (l.set t s) = t
  set_get : ∀ s, l.set (l.get s) s = s
  set_set : ∀ t u s, l.set t (l.set u s) = l.set t s

theorem ok_bind {ε α β : Type} (v : α) (f : α → Except ε β) : (.ok v : Except ε α) >>= f = f v :=
  rfl

/-- Two results in sequence are there when both are. -/
theorem exists_of_bind_ok {ε α β : Type} {x : Except ε α} {f : α → Except ε β} {w : β}
    (h : x >>= f = .ok w) : ∃ v, x = .ok v ∧ f v = .ok w := by
  cases x with
  | error e => cases h
  | ok v => exact ⟨v, rfl, h⟩

theorem exists_of_map_ok {ε α β : Type} {x : Except ε α} {f : α → β} {w : β}
    (h : x.map f = .ok w) : ∃ v, x = .ok v ∧ f v = w := by
  cases x with
  | error e => cases h
  | ok v => exact ⟨v, rfl, Except.ok.inj h⟩

theorem mapError_ok {ε δ α : Type} {x : Except ε α} {f : ε → δ} {v : α}
    (h : x.mapError f = .ok v) : x = .ok v := by
  cases x with
  | error e => cases h
  | ok w =>
    cases h
    rfl

namespace Step

variable {ε δ σ τ α β : Type}

@[simp] theorem outcome_pure (v : α) (s : σ) :
    outcome (pure v : Step ε σ α) s = (.ok v, s) := rfl

@[simp] theorem outcome_throw (e : ε) (s : σ) :
    outcome (throw e : Step ε σ α) s = (.error e, s) := rfl

theorem outcome_bind (a : Step ε σ α) (f : α → Step ε σ β) (s : σ) :
    (a >>= f).outcome s =
      match a.outcome s with
      | (.ok v, t) => (f v).outcome t
      | (.error e, t) => (.error e, t) := by
  simp only [outcome, ExceptT.run_bind, StateT.run_bind]
  rcases (ExceptT.run a).run s with ⟨_ | _, t⟩ <;> rfl

theorem outcome_bind_ok {a : Step ε σ α} {f : α → Step ε σ β} {s t : σ} {v : α}
    (h : a.outcome s = (.ok v, t)) : (a >>= f).outcome s = (f v).outcome t := by
  rw [outcome_bind, h]

theorem outcome_bind_error {a : Step ε σ α} {f : α → Step ε σ β} {s t : σ} {e : ε}
    (h : a.outcome s = (.error e, t)) : (a >>= f).outcome s = (.error e, t) := by
  rw [outcome_bind, h]

@[simp] theorem outcome_ofFunction (f : σ → Except ε α × σ) (s : σ) :
    (ofFunction f).outcome s = f s := rfl

@[simp] theorem outcome_ofResult (r : Except ε α) (s : σ) :
    (ofResult r : Step ε σ α).outcome s = (r, s) := rfl

@[simp] theorem outcome_ofState (f : σ → α × σ) (s : σ) :
    (ofState f : Step ε σ α).outcome s = (.ok (f s).1, (f s).2) := rfl

@[simp] theorem outcome_focus (l : Lens σ τ) (a : Step ε τ α) (s : σ) :
    (focus l a).outcome s = ((a.outcome (l.get s)).1, l.set (a.outcome (l.get s)).2 s) := rfl

theorem outcome_mapError (f : ε → δ) (a : Step ε σ α) (s : σ) :
    (a.mapError f).outcome s = ((a.outcome s).1.mapError f, (a.outcome s).2) := by
  show (match a.outcome s with | (.ok v, t) => _ | (.error e, t) => _) = _
  rcases a.outcome s with ⟨_ | _, t⟩ <;> rfl

theorem outcome_onError (a : Step ε σ α) (f : σ → σ) (s : σ) :
    (a.onError f).outcome s =
      match a.outcome s with
      | (.ok v, t) => (.ok v, t)
      | (.error e, t) => (.error e, f t) := rfl

/-- A failure of two steps is one of the first, or of the second after the first has ended. -/
theorem bind_failed {a : Step ε σ α} {f : α → Step ε σ β} {s t : σ} {e : ε}
    (h : (a >>= f).outcome s = (.error e, t)) :
    a.outcome s = (.error e, t) ∨
      ∃ v u, a.outcome s = (.ok v, u) ∧ (f v).outcome u = (.error e, t) := by
  rw [outcome_bind] at h
  rcases ha : a.outcome s with ⟨e' | v, u⟩
  · rw [ha] at h
    cases h
    exact .inl rfl
  · rw [ha] at h
    exact .inr ⟨v, u, rfl, h⟩

/-- Two steps end when the first one does and then the second one. -/
theorem bind_ended {a : Step ε σ α} {f : α → Step ε σ β} {s t : σ} {w : β}
    (h : (a >>= f).outcome s = (.ok w, t)) :
    ∃ v u, a.outcome s = (.ok v, u) ∧ (f v).outcome u = (.ok w, t) := by
  rw [outcome_bind] at h
  rcases ha : a.outcome s with ⟨e | v, u⟩
  · rw [ha] at h
    cases h
  · rw [ha] at h
    exact ⟨v, u, rfl, h⟩

/-- Two steps whose results are put together come to their end when both do. -/
theorem bind_pure_ok_iff {γ : Type} {a : Step ε σ α} {f : α → Step ε σ β} {g : α → β → γ}
    {s t : σ} {v : γ} :
    (a >>= fun x => f x >>= fun y => pure (g x y)).outcome s = (.ok v, t) ↔
      ∃ x u y, a.outcome s = (.ok x, u) ∧ (f x).outcome u = (.ok y, t) ∧ v = g x y := by
  constructor
  · intro ended
    obtain ⟨x, u, first, ended⟩ := bind_ended ended
    obtain ⟨y, u', second, last⟩ := bind_ended ended
    cases last
    exact ⟨x, u, y, first, second, rfl⟩
  · rintro ⟨x, u, y, first, second, rfl⟩
    rw [outcome_bind_ok first, outcome_bind_ok second, outcome_pure]

/-- A result in front of a step is there when the step is over. -/
theorem ofResult_bind_ended {r : Except ε α} {f : α → Step ε σ β} {s t : σ} {v : β}
    (h : (ofResult r >>= f).outcome s = (.ok v, t)) :
    ∃ u, r = .ok u ∧ (f u).outcome s = (.ok v, t) := by
  obtain ⟨u, s', first, after⟩ := bind_ended h
  obtain ⟨ok, rfl⟩ := Prod.mk.inj first
  exact ⟨u, ok, after⟩

theorem ofResult_bind_ok {r : Except ε α} {f : α → Step ε σ β} {s : σ} {u : α} (h : r = .ok u) :
    (ofResult r >>= f).outcome s = (f u).outcome s := by
  rw [outcome_bind_ok (v := u) (t := s)]
  rw [outcome_ofResult, h]

theorem onError_ended {a : Step ε σ α} {f : σ → σ} {s t : σ} {v : α}
    (h : (a.onError f).outcome s = (.ok v, t)) : a.outcome s = (.ok v, t) := by
  rw [outcome_onError] at h
  rcases ha : a.outcome s with ⟨e | w, u⟩
  · rw [ha] at h
    cases h
  · rw [ha] at h
    exact h

theorem mapError_ended {a : Step ε σ α} {f : ε → δ} {s t : σ} {v : α}
    (h : (a.mapError f).outcome s = (.ok v, t)) : a.outcome s = (.ok v, t) := by
  rw [outcome_mapError] at h
  rcases ha : a.outcome s with ⟨e | w, u⟩
  · rw [ha] at h
    cases h
  · rw [ha] at h
    cases h
    rfl

/-! ## Steps on a part -/

section Part

variable {l : Lens σ τ}

theorem ext {a a' : Step ε σ α} (h : ∀ s, a.outcome s = a'.outcome s) : a = a' :=
  funext h

theorem focus_pure (hl : l.Lawful) (v : α) : (pure v : Step ε τ α).focus l = pure v := by
  refine Step.ext fun s => ?_
  rw [outcome_focus, outcome_pure, outcome_pure, hl.set_get]

theorem focus_bind (hl : l.Lawful) (a : Step ε τ α) (f : α → Step ε τ β) :
    (a >>= f).focus l = a.focus l >>= fun v => (f v).focus l := by
  refine Step.ext fun s => ?_
  rw [outcome_focus, outcome_bind, outcome_bind, outcome_focus]
  rcases a.outcome (l.get s) with ⟨e | v, t⟩
  · rfl
  · dsimp only
    rw [outcome_focus, hl.get_set, hl.set_set]

theorem focus_onError (hl : l.Lawful) (a : Step ε τ α) (f : τ → τ) :
    (a.onError f).focus l = (a.focus l).onError (l.modify f) := by
  refine Step.ext fun s => ?_
  rw [outcome_focus, outcome_onError, outcome_onError, outcome_focus]
  rcases a.outcome (l.get s) with ⟨e | v, t⟩
  · dsimp only
    rw [Lens.modify, hl.get_set, hl.set_set]
  · rfl

theorem focus_mapError (a : Step ε τ α) (f : ε → δ) :
    (a.mapError f).focus l = (a.focus l).mapError f := by
  refine Step.ext fun s => ?_
  rw [outcome_focus, outcome_mapError, outcome_mapError, outcome_focus]

/-- A result that is there is handed on by both steps, and one that is not ends both. -/
theorem focus_ofResult_bind {γ : Type} (hl : l.Lawful) (r : Except ε α) {g : α → γ}
    {f : α → Step ε τ β} {f' : γ → Step ε σ β} (h : ∀ v, f' (g v) = (f v).focus l) :
    (ofResult (r.map g) >>= f') = (ofResult r >>= f).focus l := by
  rw [focus_bind hl]
  refine Step.ext fun s => ?_
  rw [outcome_bind, outcome_bind, outcome_ofResult, outcome_focus, outcome_ofResult]
  cases r with
  | error e => exact congrArg _ (hl.set_get s).symm
  | ok v =>
    show (f' (g v)).outcome s = ((f v).focus l).outcome (l.set (l.get s) s)
    rw [h, hl.set_get]

end Part

/-- A step keeps a property of the state, however it ends. -/
def Maintains (P : σ → Prop) (a : Step ε σ α) : Prop :=
  ∀ s, P s → P (a.outcome s).2

namespace Maintains

variable {P : σ → Prop} {a : Step ε σ α}

/-- A step that leaves the state alone. -/
theorem of_idle (idle : ∀ s, (a.outcome s).2 = s) : a.Maintains P :=
  fun s hs => (idle s).symm ▸ hs

theorem bind {f : α → Step ε σ β} (ha : a.Maintains P) (hf : ∀ v, (f v).Maintains P) :
    (a >>= f).Maintains P := by
  intro s hs
  have first := ha s hs
  rw [outcome_bind]
  rcases hout : a.outcome s with ⟨e | v, t⟩
  · rw [hout] at first
    exact first
  · rw [hout] at first
    exact hf v t first

/-- Nothing follows a step that always fails. -/
theorem bind_failing {f : α → Step ε σ β} (ha : a.Maintains P)
    (fails : ∀ s, P s → ∃ e, (a.outcome s).1 = .error e) : (a >>= f).Maintains P := by
  intro s hs
  have first := ha s hs
  obtain ⟨e, he⟩ := fails s hs
  rw [outcome_bind]
  rcases hout : a.outcome s with ⟨e | v, t⟩
  · rw [hout] at first
    exact first
  · rw [hout] at he
    cases he

/-- What follows a result is reached only if it is there. -/
theorem ofResult_bind {r : Except ε α} {f : α → Step ε σ β}
    (hf : ∀ v, r = .ok v → (f v).Maintains P) : (ofResult r >>= f).Maintains P := by
  intro s hs
  rw [outcome_bind, outcome_ofResult]
  cases r with
  | error e => exact hs
  | ok v => exact hf v rfl s hs

theorem mapError (ha : a.Maintains P) (f : ε → δ) : (a.mapError f).Maintains P := by
  intro s hs
  rw [outcome_mapError]
  exact ha s hs

theorem onError {f : σ → σ} (ha : a.Maintains P) (hf : ∀ s, P s → P (f s)) :
    (a.onError f).Maintains P := by
  intro s hs
  have first := ha s hs
  rw [outcome_onError]
  rcases hout : a.outcome s with ⟨e | v, t⟩
  · rw [hout] at first
    exact hf t first
  · rw [hout] at first
    exact first

end Maintains

/-- A step keeps a property of the state whenever it comes to its end. -/
def Carries (P : σ → Prop) (a : Step ε σ α) : Prop :=
  ∀ s, P s → ∀ v t, a.outcome s = (.ok v, t) → P t

namespace Carries

variable {P : σ → Prop} {a : Step ε σ α}

theorem of_idle (idle : ∀ s, (a.outcome s).2 = s) : a.Carries P := by
  intro s hs v t ended
  have same := idle s
  rw [ended] at same
  have same : t = s := same
  rw [same]
  exact hs

theorem bind {f : α → Step ε σ β} (ha : a.Carries P) (hf : ∀ v, (f v).Carries P) :
    (a >>= f).Carries P := by
  intro s hs w t ended
  obtain ⟨v, u, first, second⟩ := bind_ended ended
  exact hf v u (ha s hs v u first) w t second

end Carries

/-- Whenever `a` comes to its end, `a'` ends alike, with `f` of the result and `L` of the
state. -/
def Lifts {σ' α' : Type} (L : σ → σ') (f : α → α') (a : Step ε σ α)
    (a' : Step ε σ' α') : Prop :=
  ∀ s v t, a.outcome s = (.ok v, t) → a'.outcome (L s) = (.ok (f v), L t)

namespace Lifts

variable {σ' α' β' : Type} {L : σ → σ'} {f : α → α'} {h : β → β'} {a : Step ε σ α}
  {a' : Step ε σ' α'} {g : α → Step ε σ β} {g' : α' → Step ε σ' β'}

theorem bind (first : Lifts L f a a') (second : ∀ v, Lifts L h (g v) (g' (f v))) :
    Lifts L h (a >>= g) (a' >>= g') := by
  intro s w t ended
  obtain ⟨v, u, here, after⟩ := bind_ended ended
  rw [outcome_bind_ok (first s v u here)]
  exact second v u w t after

theorem pure (v : α) : Lifts L f (Pure.pure v : Step ε σ α) (Pure.pure (f v)) := by
  intro s w t ended
  cases ended
  rfl

theorem ofResult {r : Except ε α} {r' : Except ε α'} (same : ∀ v, r = .ok v → r' = .ok (f v)) :
    Lifts L f (Step.ofResult r) (Step.ofResult r') := by
  intro s v t ended
  rw [outcome_ofResult] at ended ⊢
  obtain ⟨ok, rfl⟩ := Prod.mk.inj ended
  rw [same v ok]

/-- A step that always fails has no end to follow. -/
theorem failing (e : ε) {a' : Step ε σ' α'} : Lifts L f (throw e : Step ε σ α) a' := by
  intro s v t ended
  cases ended

end Lifts

end Step

end EventWorker
