import EventWorker.Pipeline.Resolver
import EventWorker.Proofs.Pipeline.Flattening
import EventWorker.Proofs.Processor.Handout
import Mathlib.Data.List.Nodup

/-!
# Creating processors where they come up first

A step of resolving comes across occurrences of processors. It creates those that have no instance
yet, in order, and fails where the first creation among them does (`Makes`). Such steps are put
together without looking at how an instance comes about.

Results:
1. `Registry.HandedOut.eq_of_id`: the id of an instance tells it from all others that were made,
   whether the registry keeps processors or not.
2. `create_ok`, `create_error`: what a creation leaves behind.
3. `Gives.same_iff`: instances tell apart the occurrences that they were made for.
4. `Makes.create`: one processor is created.
5. `Makes.bind`: steps one after the other come across the occurrences of both.
-/

namespace EventWorker

/-! ## Instances in the order of their creation -/

namespace Registry

variable {ω : Type} {registry : Registry ω}

/-- What a registry can hand out when `k` instances have been made: a fresh processor, which gets
`k` as its number, or one that it keeps. -/
inductive Hands (registry : Registry ω) (k : Nat) : Instance ω → Prop
  | fresh (p : Processor ω) : registry.Hands k ⟨.fresh k, p⟩
  | kept {number : Nat} (keeps : registry.Keeps number) :
      registry.Hands k ⟨.kept number, registry.kept number⟩

/-- Instances as a registry hands them out one after the other. -/
def HandedOut (registry : Registry ω) (made : List (Instance ω)) : Prop :=
  ∀ k i, made[k]? = some i → registry.Hands k i

namespace HandedOut

variable {made : List (Instance ω)} {i j : Instance ω}

theorem nil : registry.HandedOut [] :=
  fun _ _ here => nomatch here

theorem concat (h : registry.HandedOut made) (last : registry.Hands made.length i) :
    registry.HandedOut (made ++ [i]) := by
  intro k j here
  rw [List.getElem?_append] at here
  split at here
  · exact h k j here
  · next beyond =>
    obtain ⟨inside, same⟩ := List.getElem?_eq_some_iff.mp here
    have place : k = made.length := by
      rw [List.length_singleton] at inside
      omega
    rw [List.getElem_singleton] at same
    rwa [place, ← same]

theorem hands (h : registry.HandedOut made) (hi : i ∈ made) :
    ∃ k, made[k]? = some i ∧ registry.Hands k i := by
  obtain ⟨k, here⟩ := List.mem_iff_getElem?.mp hi
  exact ⟨k, here, h k i here⟩

theorem eq_of_id (h : registry.HandedOut made) (hi : i ∈ made) (hj : j ∈ made)
    (same : i.id = j.id) : i = j := by
  obtain ⟨k, atK, handed⟩ := h.hands hi
  obtain ⟨l, atL, handed'⟩ := h.hands hj
  cases handed with
  | fresh p =>
    cases handed' with
    | fresh q =>
      -- Both have their number as their place.
      cases same
      exact Option.some.inj (atK.symm.trans atL)
    | kept keeps => cases same
  | kept keeps =>
    cases handed' with
    | fresh q => cases same
    | kept keeps' =>
      cases same
      rfl

theorem lt_of_fresh (h : registry.HandedOut made) {n : Nat} (hi : i ∈ made)
    (id : i.id = .fresh n) : n < made.length := by
  obtain ⟨k, here, handed⟩ := h.hands hi
  cases handed with
  | fresh p =>
    cases id
    exact (List.getElem?_eq_some_iff.mp here).1
  | kept keeps => cases id

/-- If all are fresh, each has its place as its number. -/
theorem id_eq (h : registry.HandedOut made) (fresh : registry.Fresh) {k : Nat}
    (here : made[k]? = some i) : i.id = .fresh k := by
  cases h k i here with
  | fresh p => rfl
  | kept keeps => exact absurd keeps (fresh _)

theorem eq_mapIdx (h : registry.HandedOut made) (fresh : registry.Fresh) :
    made = (made.map Instance.processor).mapIdx fun k p => ⟨.fresh k, p⟩ := by
  refine List.ext_getElem? fun k => ?_
  rw [List.getElem?_mapIdx, List.getElem?_map]
  cases here : made[k]? with
  | none => rfl
  | some i =>
    rw [Option.map_some, Option.map_some, ← h.id_eq fresh here]

theorem nodup (h : registry.HandedOut made) (fresh : registry.Fresh) :
    (made.map Instance.id).Nodup := by
  rw [List.Nodup, List.pairwise_map, List.pairwise_iff_getElem]
  intro k l hk hl lt same
  rw [h.id_eq fresh (List.getElem?_eq_getElem hk),
    h.id_eq fresh (List.getElem?_eq_getElem hl)] at same
  cases same
  exact Nat.lt_irrefl k lt

end HandedOut

end Registry

namespace Wiring

variable {ω β γ : Type} {fragments : Fragments} {registry : Registry ω}

/-- The wiring when more instances have been made, with the surroundings as that left them. -/
def adding (s : Wiring ω) (new : List (Instance ω)) (w : ω) : Wiring ω :=
  { resolver := { s.resolver with made := s.resolver.made ++ new }, world := w }

theorem adding_adding (s : Wiring ω) (new more : List (Instance ω)) (w w' : ω) :
    (s.adding new w).adding more w' = s.adding (new ++ more) w' := by
  unfold adding
  rw [List.append_assoc]

theorem next_adding (s : Wiring ω) (new : List (Instance ω)) (w : ω) :
    (s.adding new w).resolver.next = s.resolver.next + new.length :=
  List.length_append

theorem outcome_create (spec : ProcessorSpec) (s : Wiring ω) : (create spec).outcome s =
    match (s.resolver.registry.handOut spec).outcome s.world with
    | (.ok (number?, p), w) =>
      (.ok ⟨.after s.resolver.next number?, p⟩, s.adding [⟨.after s.resolver.next number?, p⟩] w)
    | (.error f, w) => (.error f, { s with world := w }) := by
  unfold create
  rw [Step.outcome_bind, Step.outcome_ofState]
  show (((s.resolver.registry.handOut spec).focus worldLens) >>= _).outcome s = _
  have here : worldLens.get s = s.world := rfl
  rw [Step.outcome_bind, Step.outcome_focus, here]
  rcases (s.resolver.registry.handOut spec).outcome s.world with ⟨f | ⟨number?, p⟩, w⟩ <;> rfl

section Create

variable {spec : ProcessorSpec} {s t : Wiring ω} {w : ω}

theorem create_error {f : Failure}
    (h : (s.resolver.registry.create spec).outcome s.world = (.error f, w)) :
    (create spec).outcome s = (.error f, { s with world := w }) := by
  rw [Registry.outcome_create] at h
  rw [outcome_create]
  rcases handed : (s.resolver.registry.handOut spec).outcome s.world with ⟨f' | found, u⟩
  · rw [handed] at h
    cases h
    rfl
  · rw [handed] at h
    cases h

theorem create_ok {p : Processor ω}
    (h : (s.resolver.registry.create spec).outcome s.world = (.ok p, w)) :
    ∃ i, i.processor = p ∧ s.resolver.registry.Hands s.resolver.next i ∧
      (create spec).outcome s = (.ok i, s.adding [i] w) := by
  rw [Registry.outcome_create] at h
  rcases handed : (s.resolver.registry.handOut spec).outcome s.world with ⟨f' | ⟨number?, q⟩, u⟩
  · rw [handed] at h
    cases h
  · rw [handed] at h
    cases h
    refine ⟨⟨.after s.resolver.next number?, q⟩, rfl, ?_, by rw [outcome_create, handed]⟩
    cases number? with
    | none => exact .fresh q
    | some number =>
      obtain ⟨keeps, rfl⟩ := Registry.handOut_kept handed
      exact .kept keeps

theorem create_ended {i : Instance ω} (ended : (create spec).outcome s = (.ok i, t)) :
    ∃ w, (s.resolver.registry.create spec).outcome s.world = (.ok i.processor, w) ∧
      s.resolver.registry.Hands s.resolver.next i ∧ t = s.adding [i] w := by
  rcases created : (s.resolver.registry.create spec).outcome s.world with ⟨f | p, w⟩
  · cases (create_error created).symm.trans ended
  · obtain ⟨j, rfl, hands, ended'⟩ := create_ok created
    cases ended'.symm.trans ended
    exact ⟨w, rfl, hands, rfl⟩

end Create

/-- Instances, each with the occurrence that it was made for. -/
abbrev Made (ω : Type) := List (Occurrence × Instance ω)

/-- The instances that were made for the occurrences are these. -/
def Gives (made : Made ω) (os : List Occurrence) (own : List (Instance ω)) : Prop :=
  os.map (Keyed.find? · made) = own.map some

namespace Gives

variable {made : Made ω} {os os' : List Occurrence} {own own' : List (Instance ω)}

theorem append (h : Gives made os own) (h' : Gives made os' own') :
    Gives made (os ++ os') (own ++ own') := by
  unfold Gives at *
  rw [List.map_append, List.map_append, h, h']

theorem found (h : Gives made os own) {o : Occurrence} (ho : o ∈ os) :
    ∃ i, Keyed.find? o made = some i := by
  have there : Keyed.find? o made ∈ own.map some := h ▸ List.mem_map_of_mem ho
  obtain ⟨i, -, same⟩ := List.mem_map.mp there
  exact ⟨i, same.symm⟩

theorem known (h : Gives made os own) : ∀ o ∈ os, o ∈ Keyed.keys made := by
  intro o ho
  obtain ⟨i, found⟩ := h.found ho
  exact Keyed.contains_iff_mem_keys.mp (Keyed.contains_of_find? found)

/-- More instances are no loss. -/
theorem more (h : Gives made os own) (new : Made ω) : Gives (made ++ new) os own := by
  refine Eq.trans (List.map_congr_left fun o ho => ?_) h
  obtain ⟨i, found⟩ := h.found ho
  rw [found]
  exact Keyed.find?_append_of_some found new

theorem at_position (h : Gives made os own) {i : Nat} {x : Instance ω} (hx : own[i]? = some x) :
    ∃ o, os[i]? = some o ∧ Keyed.find? o made = some x := by
  have there : (os.map (Keyed.find? · made))[i]? = some (some x) := by
    rw [h, List.getElem?_map, hx]
    rfl
  rw [List.getElem?_map, Option.map_eq_some_iff] at there
  exact there

/-- If no two instances have the same id, an instance tells its occurrence. -/
theorem same_iff (h : Gives made os own) (h' : Gives made os' own')
    (ids : (made.map (·.2.id)).Nodup) {i j : Nat} {x y : Instance ω} (hx : own[i]? = some x)
    (hy : own'[j]? = some y) : x.id = y.id ↔ os[i]? = os'[j]? := by
  obtain ⟨o, ho, foundX⟩ := h.at_position hx
  obtain ⟨o', ho', foundY⟩ := h'.at_position hy
  rw [ho, ho']
  constructor
  · intro same
    have pair := List.inj_on_of_nodup_map ids (Keyed.mem_of_find? foundX)
      (Keyed.mem_of_find? foundY) same
    cases pair
    rfl
  · intro same
    cases same
    rw [foundX] at foundY
    cases foundY
    rfl

end Gives

/-- Creates the processors at occurrences, in order and up to the first failure. -/
def createAll (fragments : Fragments) (registry : Registry ω) (os : List Occurrence) :
    Act ω (List (Processor ω)) :=
  (os.filterMap fragments.specAt?).mapM registry.create

theorem createAll_append (os os' : List Occurrence) :
    createAll fragments registry (os ++ os') = do
      let first ← createAll fragments registry os
      let others ← createAll fragments registry os'
      return first ++ others := by
  unfold createAll
  rw [List.filterMap_append, List.mapM_append]

/-! ## Steps that come across occurrences -/

/-- Coming across the occurrences `os` after `made`, the step creates the processors at those that
have no instance yet and nothing else. It fails where that fails, and else ends in `post` of all
instances made, its result and the state. -/
inductive Makes (fragments : Fragments) (registry : Registry ω) (made : Made ω)
    (os : List Occurrence) (a : Act (Wiring ω) β) (post : Made ω → β → Wiring ω → Prop)
    (s : Wiring ω) : Prop
  | ended (new : Made ω) {v : β} {t : Wiring ω} :
      (createAll fragments registry (firsts (Keyed.keys made) os)).outcome s.world =
        (.ok (new.map (·.2.processor)), t.world) →
      a.outcome s = (.ok v, t) → Keyed.keys new = firsts (Keyed.keys made) os →
      post (made ++ new) v t → Makes fragments registry made os a post s
  | failed {f : Failure} {t : Wiring ω} :
      (createAll fragments registry (firsts (Keyed.keys made) os)).outcome s.world =
        (.error f, t.world) →
      a.outcome s = (.error f, t) → Makes fragments registry made os a post s

namespace Makes

variable {made : Made ω} {os os' : List Occurrence} {a b : Act (Wiring ω) β}
  {f : β → Act (Wiring ω) γ} {post : Made ω → β → Wiring ω → Prop}
  {post' : Made ω → γ → Wiring ω → Prop} {s : Wiring ω}

theorem congr (h : Makes fragments registry made os b post s) (same : a.outcome s = b.outcome s) :
    Makes fragments registry made os a post s := by
  cases h with
  | ended new created ends keys holds => exact .ended new created (same.trans ends) keys holds
  | failed created fails => exact .failed created (same.trans fails)

/-- What is made is made for occurrences that the step comes across. -/
theorem grown (h : Makes fragments registry made os a post s) :
    Makes fragments registry made os a
      (fun m v t => post m v t ∧ ∃ new, m = made ++ new ∧ Keyed.keys new ⊆ os) s := by
  cases h with
  | failed created fails => exact .failed created fails
  | ended new created ends keys holds =>
    refine .ended new created ends keys ⟨holds, _, rfl, fun o ho => ?_⟩
    rw [keys] at ho
    exact (mem_firsts.mp ho).1

theorem mono {post' : Made ω → β → Wiring ω → Prop}
    (h : Makes fragments registry made os a post s)
    (weaker : ∀ m v t, post m v t → post' m v t) :
    Makes fragments registry made os a post' s := by
  cases h with
  | ended new created ends keys holds => exact .ended new created ends keys (weaker _ _ _ holds)
  | failed created fails => exact .failed created fails

theorem bind (first : Makes fragments registry made os a post s)
    (second : ∀ m v t, post m v t → Makes fragments registry m os' (f v) post' t) :
    Makes fragments registry made (os ++ os') (a >>= f) post' s := by
  cases first with
  | failed created fails =>
    refine .failed ?_ (Step.outcome_bind_error fails)
    rw [firsts_append, createAll_append]
    exact Step.outcome_bind_error created
  | ended new created ends keys holds =>
    -- What the first step made is known to the second, so `firsts_append` splits the creations.
    have all : Keyed.keys (made ++ new) = Keyed.keys made ++ firsts (Keyed.keys made) os := by
      rw [← keys, Keyed.keys, List.map_append]
      rfl
    cases second _ _ _ holds with
    | failed created' fails =>
      rw [all] at created'
      refine .failed ?_ ((Step.outcome_bind_ok ends).trans fails)
      rw [firsts_append, createAll_append, Step.outcome_bind_ok created]
      exact Step.outcome_bind_error created'
    | ended new' created' ends' keys' holds' =>
      rw [all] at created' keys'
      rw [List.append_assoc] at holds'
      refine .ended (new ++ new') ?_ ((Step.outcome_bind_ok ends).trans ends') ?_ holds'
      · rw [firsts_append, createAll_append, Step.outcome_bind_ok created,
          Step.outcome_bind_ok created', List.map_append]
        rfl
      · rw [firsts_append, ← keys', ← keys, Keyed.keys, List.map_append]
        rfl

/-- A step that comes across nothing new. -/
theorem idle (known : ∀ o ∈ os, o ∈ Keyed.keys made) {v : β} {t : Wiring ω}
    (ends : a.outcome s = (.ok v, t)) (same : t.world = s.world) (holds : post made v t) :
    Makes fragments registry made os a post s := by
  have nothing := firsts_of_known known
  refine .ended [] ?_ ends ?_ ?_
  · rw [nothing, same]
    rfl
  · rw [nothing]
    rfl
  · rwa [List.append_nil]

/-- Nothing is made at the end of a step. -/
theorem finish (first : Makes fragments registry made os a post s)
    (last : ∀ m v t, post m v t →
      ∃ w u, (f v).outcome t = (.ok w, u) ∧ u.world = t.world ∧ post' m w u) :
    Makes fragments registry made os (a >>= f) post' s := by
  rw [← List.append_nil os]
  refine first.bind fun m v t holds => ?_
  obtain ⟨w, u, ends, same, holds'⟩ := last m v t holds
  exact idle (fun o ho => absurd ho List.not_mem_nil) ends same holds'

/-- The processor at an occurrence without an instance is created. -/
theorem create {o : Occurrence} {spec : ProcessorSpec} (new : o ∉ Keyed.keys made)
    (written : fragments.specAt? o = some spec) (known : s.resolver.registry = registry) :
    Makes fragments registry made [o] (create spec) (fun m i t => m = made ++ [(o, i)] ∧
      registry.Hands s.resolver.next i ∧ ∃ w, t = s.adding [i] w) s := by
  subst known
  have one : firsts (Keyed.keys made) [o] = [o] := firsts_of_new new
  have created : createAll fragments s.resolver.registry [o] = do
      let p ← s.resolver.registry.create spec
      return [p] := by
    simp [createAll, written]
  rcases h : (s.resolver.registry.create spec).outcome s.world with ⟨f | p, w⟩
  · refine .failed (f := f) ?_ (create_error h)
    rw [one, created]
    exact Step.outcome_bind_error h
  · obtain ⟨i, rfl, hands, ended⟩ := create_ok h
    refine .ended [(o, i)] ?_ ended one.symm ⟨rfl, hands, w, rfl⟩
    rw [one, created, Step.outcome_bind_ok h]
    rfl

end Makes

end Wiring

end EventWorker
