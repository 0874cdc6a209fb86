import EventWorker.Proofs.Pipeline.Sharing

/-!
# Laws of steps that give instances

Resolving gives the instances of new processors, of fragments that are held already, and of steps
one after the other, and then holds what it has given. A law that creating, looking up and holding
obey is obeyed by resolving any fragments, whether that comes to its end or fails.

Results:
1. `Law.expand`: the elements of a list, when each obeys the law.
2. `Law.load`, `Law.loadAll`, `Law.loadAll_failed`: fragments.
-/

namespace EventWorker.Wiring

variable {ω : Type} {s t : Wiring ω} {own : List (Instance ω)}

/-- What may be counted on before a step that gives instances, what is true of the wiring before
it, the instances and the wiring after it, and what is true of the wiring where it fails. -/
structure Law (ω : Type) where
  Before : Wiring ω → Prop
  After : Wiring ω → List (Instance ω) → Wiring ω → Prop
  Failed : Wiring ω → Prop
  failed : ∀ {s}, Before s → Failed s
  before : ∀ {s own t}, After s own t → Before t
  nothing : ∀ {s}, Before s → After s [] s
  append : ∀ {s own u others t}, After s own u → After u others t → After s (own ++ others) t

namespace Law

/-- The law is true of the step, however it ends. -/
structure Obeyed (L : Law ω) (a : Act (Wiring ω) (List (Instance ω))) : Prop where
  ended : ∀ {s own t}, L.Before s → a.outcome s = (.ok own, t) → L.After s own t
  failed : ∀ {s f t}, L.Before s → a.outcome s = (.error f, t) → L.Failed t

theorem expand (L : Law ω) {f : Element → Act (Wiring ω) (List (Instance ω))}
    (hf : ∀ e, L.Obeyed (f e)) (elements : List Element) : L.Obeyed (expand f elements) := by
  induction elements with
  | nil =>
    constructor
    · intro s own t before ended
      cases ended
      exact L.nothing before
    · intro s g t before failed
      cases failed
  | cons e rest ih =>
    constructor
    · intro s own t before ended
      obtain ⟨first, u, others, here, after, rfl⟩ := Step.bind_pure_ok_iff.mp ended
      have given := (hf e).ended before here
      exact L.append given (ih.ended (L.before given) after)
    · intro s g t before failed
      rcases Step.bind_failed failed with here | ⟨first, u, here, failed⟩
      · exact (hf e).failed before here
      · have given := (hf e).ended before here
        rcases Step.bind_failed failed with after | ⟨others, v, after, failed⟩
        · exact ih.failed (L.before given) after
        · cases failed

end Law

/-- Loading a fragment gives what is held already, fails at once, or resolves the elements. -/
theorem load_cases (fragments : Fragments) (fuel : Nat) (name : String) (s : Wiring ω) :
    (∃ own, Keyed.find? name s.resolver.loaded = some own ∧
      (load fragments fuel name).outcome s = (.ok own, s)) ∨
    (∃ f, (load fragments fuel name).outcome s = (.error f, s)) ∨
    ∃ room elements, fuel = room + 1 ∧ (load fragments fuel name).outcome s =
      (expand (contribution fragments room name) elements >>= keep name).outcome s := by
  cases done : Keyed.find? name s.resolver.loaded with
  | some own => exact .inl ⟨own, rfl, load_loaded done⟩
  | none =>
    have looked : (loaded? name : Act (Wiring ω) _).outcome s = (.ok none, s) := by
      rw [loaded?, Step.outcome_ofState, done]
    cases found : Keyed.find? name fragments with
    | none =>
      refine .inr (.inl ⟨Fragments.undefined name, ?_⟩)
      unfold load
      rw [Step.outcome_bind_ok looked]
      simp only [found]
      rfl
    | some elements =>
      cases fuel with
      | zero =>
        refine .inr (.inl ⟨Fragments.circular name, ?_⟩)
        unfold load
        rw [Step.outcome_bind_ok looked]
        simp only [found]
        rfl
      | succ room => exact .inr (.inr ⟨room, elements, rfl, load_new done found⟩)

namespace Law

section

variable {L : Law ω} (create : ∀ spec, L.Obeyed (create spec >>= fun i => pure [i]))
  (held : ∀ {s name own}, L.Before s → Keyed.find? name s.resolver.loaded = some own →
    L.After s own s)
  (keeps : ∀ {s own t} (name : String), L.After s own t →
    L.After s own { t with resolver.loaded := Keyed.insert name own t.resolver.loaded })

include create in
theorem contribution {fragments : Fragments} {fuel : Nat} {name : String}
    (loads : ∀ n, L.Obeyed (load fragments fuel n)) (e : Element) :
    L.Obeyed (contribution fragments fuel name e) := by
  cases e with
  | processor spec => exact create spec
  | reference text =>
    constructor
    · intro s own t before ended
      obtain ⟨target, -, ended⟩ := Step.ofResult_bind_ended ended
      cases target with
      | some n => exact (loads n).ended before ended
      | none =>
        cases ended
        exact L.nothing before
    · intro s f t before failed
      rcases Step.bind_failed failed with here | ⟨target, u, here, failed⟩
      · cases (Prod.mk.inj here).2
        exact L.failed before
      · cases (Prod.mk.inj here).2
        cases target with
        | some n => exact (loads n).failed before failed
        | none => cases failed

include create held keeps

theorem load (fragments : Fragments) (fuel : Nat) (name : String) :
    L.Obeyed (load fragments fuel name) := by
  -- A fragment is resolved with less fuel than what refers to it, whatever its elements are.
  induction fuel using Nat.strongRecOn generalizing name with
  | _ fuel ih =>
    have elements_obey {room : Nat} (less : fuel = room + 1) (elements : List Element) :
        L.Obeyed (Wiring.expand (Wiring.contribution fragments room name) elements) :=
      L.expand (contribution create (ih room (less ▸ Nat.lt_succ_self room))) elements
    constructor
    · intro s own t before ended
      rcases load_cases fragments fuel name s with
        ⟨own', found, gives⟩ | ⟨f, fails⟩ | ⟨room, elements, less, resolving⟩
      · cases gives.symm.trans ended
        exact held before found
      · cases fails.symm.trans ended
      · obtain ⟨own', u, expanded, kept⟩ := Step.bind_ended (resolving.symm.trans ended)
        cases kept
        exact keeps name ((elements_obey less elements).ended before expanded)
    · intro s f t before failed
      rcases load_cases fragments fuel name s with
        ⟨own', found, gives⟩ | ⟨g, fails⟩ | ⟨room, elements, less, resolving⟩
      · cases gives.symm.trans failed
      · cases fails.symm.trans failed
        exact L.failed before
      · rcases Step.bind_failed (resolving.symm.trans failed) with here | ⟨own', u, -, kept⟩
        · exact (elements_obey less elements).failed before here
        · cases kept

theorem loadAll {fragments : Fragments} {names : List String} (before : L.Before s) {v : Unit}
    (ended : (loadAll fragments names).outcome s = (.ok v, t)) : L.Before t := by
  induction names generalizing s with
  | nil =>
    cases ended
    exact before
  | cons name rest ih =>
    obtain ⟨own, u, loaded, ended⟩ := Step.bind_ended ended
    exact ih (L.before ((load create held keeps fragments _ name).ended before loaded)) ended

theorem loadAll_failed {fragments : Fragments} {names : List String} (before : L.Before s)
    {f : Failure} (failed : (Wiring.loadAll fragments names).outcome s = (.error f, t)) :
    L.Failed t := by
  induction names generalizing s with
  | nil => cases failed
  | cons name rest ih =>
    have obeys := load create held keeps fragments fragments.length name
    rcases Step.bind_failed failed with here | ⟨own, u, loaded, failed⟩
    · exact obeys.failed before here
    · exact ih (L.before (obeys.ended before loaded)) failed

end

end Law

end EventWorker.Wiring
