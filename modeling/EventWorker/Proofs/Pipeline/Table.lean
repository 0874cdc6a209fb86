import EventWorker.Pipeline.Table
import EventWorker.Proofs.Pipeline.Laws

/-!
# Every processor of the table once

The table of pipelines is built together with the list of its distinct processors. Instances are
told apart by their ids, which no two instances share; so the list has every instance that is used
in some pipeline exactly once, where it is used first. A processor that the registry keeps is one
instance, however often it is handed out.

Results:
1. `Wiring.drawing`: the law that all instances are among those that were made.
   `Wiring.Inventory.resolved`: resolving fragments obeys it, also when it fails.
2. `track_ids`: the instances of one more pipeline, by their ids.
3. `build_listed`: the table and its list agree, however the instances are shared.
-/

namespace EventWorker

variable {ω ρ : Type}

/-- An instance in the list of a stage. -/
structure Instance.Placed (stage : ρ → Stage ω) (i : Instance ω) (x : Wired ρ) : Prop where
  id : x.id = i.id
  name : x.name = i.processor.name
  run : i.processor.stage = stage x.run

namespace Wiring

variable {r : Registry ω} {s t : Wiring ω}

/-- All that the wiring has made was handed out by its registry. -/
structure Accounted (r : Registry ω) (s : Wiring ω) : Prop where
  registry : s.resolver.registry = r
  handedOut : r.HandedOut s.resolver.made

/-- The wiring holds no instance that it has not made. -/
structure Inventory (r : Registry ω) (s : Wiring ω) : Prop extends Accounted r s where
  loaded : ∀ {name own}, Keyed.find? name s.resolver.loaded = some own → own ⊆ s.resolver.made

theorem Inventory.start (r : Registry ω) (w : ω) :
    Inventory r { resolver := { registry := r }, world := w } where
  registry := rfl
  handedOut := .nil
  loaded found := nomatch found

theorem Inventory.adding (h : Inventory r s) {i : Instance ω} (hands : r.Hands s.resolver.next i)
    (w : ω) : Inventory r (s.adding [i] w) where
  registry := h.registry
  handedOut := h.handedOut.concat hands
  loaded found := List.Subset.trans (h.loaded found) (List.subset_append_left _ _)

/-- Instances are drawn from all that were made, and nothing that was made is lost. -/
def drawing (r : Registry ω) : Law ω where
  Before := Inventory r
  After s own t := Inventory r t ∧ s.resolver.made ⊆ t.resolver.made ∧ own ⊆ t.resolver.made
  Failed := Accounted r
  failed := Inventory.toAccounted
  before after := after.1
  nothing inventory := ⟨inventory, List.Subset.refl _, List.nil_subset _⟩
  append := by
    rintro s own u others t ⟨-, kept, within⟩ ⟨inventory, kept', within'⟩
    exact ⟨inventory, List.Subset.trans kept kept',
      List.append_subset.mpr ⟨List.Subset.trans within kept', within'⟩⟩

theorem drawing_create (spec : ProcessorSpec) :
    (drawing r).Obeyed (create spec >>= fun i => pure [i]) where
  ended := by
    intro s own t (inventory : Inventory r s) ended
    obtain ⟨i, u, created, last⟩ := Step.bind_ended ended
    cases last
    obtain ⟨w, -, hands, rfl⟩ := create_ended created
    rw [inventory.registry] at hands
    exact ⟨inventory.adding hands w, List.subset_append_left _ _, List.subset_append_right _ _⟩
  failed := by
    intro s f t (inventory : Inventory r s) failed
    rcases Step.bind_failed failed with here | ⟨i, u, -, last⟩
    · rcases created : (s.resolver.registry.create spec).outcome s.world with ⟨g | p, w⟩
      · cases (create_error created).symm.trans here
        exact ⟨inventory.registry, inventory.handedOut⟩
      · obtain ⟨i, -, -, ended⟩ := create_ok created
        cases ended.symm.trans here
    · cases last

theorem drawing_held {name : String} {own : List (Instance ω)} (inventory : Inventory r s)
    (found : Keyed.find? name s.resolver.loaded = some own) : (drawing r).After s own s :=
  ⟨inventory, List.Subset.refl _, inventory.loaded found⟩

theorem drawing_keeps {own : List (Instance ω)} (name : String) (after : (drawing r).After s own t) :
    (drawing r).After s own
      { t with resolver.loaded := Keyed.insert name own t.resolver.loaded } := by
  obtain ⟨inventory, kept, within⟩ := after
  refine ⟨⟨⟨inventory.registry, inventory.handedOut⟩, fun {n shared} found => ?_⟩, kept, within⟩
  have found : Keyed.find? n (Keyed.insert name own t.resolver.loaded) = some shared := found
  rw [Keyed.find?_insert] at found
  split at found
  · cases found
    exact within
  · exact inventory.loaded found

/-- After a failure there is nothing that the wiring holds. -/
theorem Inventory.resolved (h : Inventory r s) {fragments : Fragments} {v : Except Failure Unit}
    (resolved : (resolve fragments).outcome s = (v, t)) : Inventory r t := by
  cases valid : fragments.check with
  | error f =>
    have failed : (resolve fragments).outcome s = (.error f, s) := by
      refine Step.outcome_bind_error ?_
      rw [Step.outcome_ofResult, valid]
    cases failed.symm.trans resolved
    exact h
  | ok u =>
    rw [resolve_eq valid] at resolved
    rcases loaded : (loadAll fragments (Keyed.keys fragments)).outcome s with ⟨f | v, t'⟩
    · rw [loaded] at resolved
      cases resolved
      obtain ⟨registry, handedOut⟩ := Law.loadAll_failed (L := drawing r) drawing_create
        drawing_held drawing_keeps h loaded
      exact ⟨⟨registry, handedOut⟩, fun found => nomatch found⟩
    · rw [loaded] at resolved
      cases resolved
      exact Law.loadAll (L := drawing r) drawing_create drawing_held drawing_keeps h loaded

end Wiring

/-- The ids of the instances of a pipeline, in the order of their use. -/
def Pipeline.uses (p : Pipeline ω) : List Identity :=
  p.main.map Wired.id ++ p.final.map Wired.id

namespace PipelineTable

open Wiring (Inventory drawing)

variable {r : Registry ω} {s t : Wiring ω} {label : String} {table : PipelineTable ω}

theorem outcome_instances_reference (label text : String) (s : Wiring ω) :
    (instances label (.reference text)).outcome s =
      match (Element.reference text).target?.bind (Keyed.find? · s.resolver.loaded) with
      | some own => (.ok own, s)
      | none => (.error (undefinedReference label text), s) := by
  unfold instances
  cases (Element.reference text).target? with
  | none => rfl
  | some name =>
    show ((Wiring.loaded? name) >>= _).outcome s =
      match Keyed.find? name s.resolver.loaded with | some _ => _ | none => _
    rw [Step.outcome_bind, Wiring.loaded?, Step.outcome_ofState]
    cases Keyed.find? name s.resolver.loaded <;> rfl

theorem drawing_instances (label : String) (e : Element) :
    (drawing r).Obeyed (instances label e) := by
  cases e with
  | processor spec => exact Wiring.drawing_create spec
  | reference text =>
    constructor
    · intro s own t inventory ended
      rw [outcome_instances_reference] at ended
      split at ended
      · next shared found =>
        cases ended
        obtain ⟨name, -, found⟩ := Option.bind_eq_some_iff.mp found
        exact Wiring.drawing_held inventory found
      · cases ended
    · intro s f t inventory failed
      rw [outcome_instances_reference] at failed
      split at failed
      · cases failed
      · cases failed
        exact (drawing r).failed inventory

/-! ## The list of distinct instances -/

theorem track_ids (known used : List (Instance ω)) : (track known used).map Instance.id =
    known.map Instance.id ++ firsts (known.map Instance.id) (used.map Instance.id) := by
  -- What is tracked first is known to the rest, on both sides of the equation.
  induction used generalizing known with
  | nil => simp [track, firsts, List.removeAll]
  | cons i rest ih =>
    have split : (i :: rest).map Instance.id = [i.id] ++ rest.map Instance.id := rfl
    rw [split, firsts_append]
    by_cases old : i.id ∈ known.map Instance.id
    · have there : (known.any fun j => j.id = i.id) = true := by
        obtain ⟨j, hj, same⟩ := List.mem_map.mp old
        exact List.any_eq_true.mpr ⟨j, hj, decide_eq_true same⟩
      have nothing : firsts (known.map Instance.id) [i.id] = [] :=
        firsts_of_known fun x hx => List.mem_singleton.mp hx ▸ old
      have step : track known (i :: rest) = track known rest := by
        rw [track, List.foldl_cons, if_pos there]
        rfl
      rw [step, ih, nothing, List.append_nil, List.nil_append]
    · have away : ¬ (known.any fun j => j.id = i.id) = true := by
        intro found
        obtain ⟨j, hj, same⟩ := List.any_eq_true.mp found
        exact old (List.mem_map.mpr ⟨j, hj, of_decide_eq_true same⟩)
      have step : track known (i :: rest) = track (known ++ [i]) rest := by
        rw [track, List.foldl_cons, if_neg away]
        rfl
      rw [step, ih, firsts_of_new old, List.map_append, List.append_assoc]
      rfl

theorem mem_track {known used : List (Instance ω)} {i : Instance ω} (h : i ∈ track known used) :
    i ∈ known ∨ i ∈ used := by
  induction used generalizing known with
  | nil => exact .inl h
  | cons j rest ih =>
    rw [track, List.foldl_cons] at h
    split at h
    · exact (ih h).imp_right (List.mem_cons_of_mem _)
    · rcases ih h with h | h
      · rcases List.mem_append.mp h with h | h
        · exact .inl h
        · exact .inr (List.mem_singleton.mp h ▸ List.mem_cons_self)
      · exact .inr (List.mem_cons_of_mem _ h)

/-- An instance that is used is in the list, and not only one with its id. -/
theorem mem_track_of_used {made known used : List (Instance ω)} (handedOut : r.HandedOut made)
    (hk : known ⊆ made) (hu : used ⊆ made) {i : Instance ω} (hi : i ∈ used) :
    i ∈ track known used := by
  have there : i.id ∈ (track known used).map Instance.id := by
    rw [track_ids, List.mem_append, mem_firsts]
    by_cases old : i.id ∈ known.map Instance.id
    · exact .inl old
    · exact .inr ⟨List.mem_map_of_mem hi, old⟩
  obtain ⟨j, hj, same⟩ := List.mem_map.mp there
  have made' : j ∈ made := (mem_track hj).elim (fun h => hk h) (fun h => hu h)
  rwa [← handedOut.eq_of_id made' (hu hi) same]

theorem subset_track (known used : List (Instance ω)) : known ⊆ track known used := by
  induction used generalizing known with
  | nil => exact fun i hi => hi
  | cons j rest ih =>
    intro i hi
    rw [track, List.foldl_cons]
    split
    · exact ih known hi
    · exact ih _ (List.mem_append_left _ hi)

/-! ## Building the table -/

theorem mapM_ok_iff {α β ε : Type} {f : α → Except ε β} {xs : List α} {ys : List β} :
    xs.mapM f = .ok ys ↔ List.Forall₂ (fun x y => f x = .ok y) xs ys := by
  induction xs generalizing ys with
  | nil =>
    rw [List.mapM_nil, List.forall₂_nil_left_iff]
    exact ⟨fun h => (Except.ok.inj h).symm, fun h => h ▸ rfl⟩
  | cons x rest ih =>
    rw [List.mapM_cons]
    constructor
    · intro ended
      obtain ⟨y, first, ended⟩ := exists_of_bind_ok ended
      obtain ⟨others, after, last⟩ := exists_of_bind_ok ended
      cases last
      exact .cons first (ih.mp after)
    · intro placed
      cases placed with
      | cons first after =>
        rw [first, ok_bind, ih.mpr after]
        rfl

theorem mainPlace_eq_ok {i : Instance ω} {x : Wired (MainRun ω)} :
    mainPlace label i = .ok x ↔ i.Placed .main x := by
  constructor
  · intro placed
    unfold mainPlace at placed
    split at placed
    · next run stage =>
      cases placed
      exact ⟨rfl, rfl, stage⟩
    · cases placed
  · rintro ⟨id, name, run⟩
    obtain ⟨_, _, _⟩ := x
    cases id
    cases name
    rw [mainPlace, run]

theorem finalPlace_eq_ok {i : Instance ω} {x : Wired (FinalRun ω)} :
    finalPlace label i = .ok x ↔ i.Placed .final x := by
  constructor
  · intro placed
    unfold finalPlace at placed
    split at placed
    · next run stage =>
      cases placed
      exact ⟨rfl, rfl, stage⟩
    · cases placed
  · rintro ⟨id, name, run⟩
    obtain ⟨_, _, _⟩ := x
    cases id
    cases name
    rw [finalPlace, run]

/-- Instances at their places are the same instances in the same order. -/
theorem mapM_place {place : Instance ω → Except Failure (Wired ρ)}
    (keeps : ∀ {i x}, place i = .ok x → x.id = i.id) {own : List (Instance ω)}
    {xs : List (Wired ρ)} (h : own.mapM place = .ok xs) :
    xs.map Wired.id = own.map Instance.id ∧ ∀ x ∈ xs, ∃ i ∈ own, place i = .ok x := by
  have placed := mapM_ok_iff.mp h
  clear h
  induction placed with
  | nil => exact ⟨rfl, nofun⟩
  | @cons i x rest others first _ ih =>
    obtain ⟨ids, placed⟩ := ih
    refine ⟨?_, fun y hy => ?_⟩
    · rw [List.map_cons, List.map_cons, ids, keeps first]
    · rcases List.mem_cons.mp hy with rfl | hy
      · exact ⟨i, List.mem_cons_self, first⟩
      · obtain ⟨j, hj, placed⟩ := placed y hy
        exact ⟨j, List.mem_cons_of_mem _ hj, placed⟩

/-- The processors of a pipeline are these instances, and `used` has them in order. -/
structure Wires (label : String) (p : Pipeline ω) (used : List (Instance ω)) : Prop where
  uses : p.uses = used.map Instance.id
  main : ∀ x ∈ p.main, ∃ i ∈ used, mainPlace label i = .ok x
  final : ∀ x ∈ p.final, ∃ i ∈ used, finalPlace label i = .ok x

theorem buildOne_wires {spec : PipelineSpec} {p : Pipeline ω} {used : List (Instance ω)}
    (inventory : Inventory r s) (ended : (buildOne label spec).outcome s = (.ok (p, used), t)) :
    (drawing r).After s used t ∧ Wires label p used := by
  obtain ⟨mains, s₁, expanded, ended⟩ := Step.bind_ended ended
  obtain ⟨main, s₂, placed, ended⟩ := Step.bind_ended ended
  obtain ⟨finals, s₃, expanded', ended⟩ := Step.bind_ended ended
  obtain ⟨final, s₄, placed', ended⟩ := Step.bind_ended ended
  rw [Step.outcome_ofResult] at placed placed'
  obtain ⟨mainPlaced, rfl⟩ := Prod.mk.inj placed
  obtain ⟨finalPlaced, rfl⟩ := Prod.mk.inj placed'
  cases ended
  have draws := (drawing r).expand (drawing_instances label)
  have first := (draws spec.main).ended inventory expanded
  have second := (draws spec.final).ended first.1 expanded'
  obtain ⟨ids, at'⟩ := mapM_place (fun placed => (mainPlace_eq_ok.mp placed).id) mainPlaced
  obtain ⟨ids', at''⟩ := mapM_place (fun placed => (finalPlace_eq_ok.mp placed).id) finalPlaced
  refine ⟨(drawing r).append first second, ?_, ?_, ?_⟩
  · rw [Pipeline.uses, ids, ids', List.map_append]
  · intro x hx
    obtain ⟨i, hi, place⟩ := at' x hx
    exact ⟨i, List.mem_append_left _ hi, place⟩
  · intro x hx
    obtain ⟨i, hi, place⟩ := at'' x hx
    exact ⟨i, List.mem_append_right _ hi, place⟩

/-- The list has each instance that is used in a pipeline once, in the order of their first
use. -/
structure Listed (table : PipelineTable ω) : Prop where
  order : table.distinct.map Instance.id = (table.pipelines.flatMap (·.2.uses)).eraseDups
  wires : ∀ {label p}, (label, p) ∈ table.pipelines → ∃ used, used ⊆ table.distinct ∧
    Wires label p used

theorem Listed.add {made : List (Instance ω)} (listed : Listed table)
    (handedOut : r.HandedOut made) (own : table.distinct ⊆ made) (last : ∀ entry ∈ table.pipelines, entry.1 < label)
    {p : Pipeline ω} {used : List (Instance ω)} (there : used ⊆ made) (wires : Wires label p used) :
    Listed
      { pipelines := Keyed.insert label p table.pipelines
        distinct := track table.distinct used } where
  order := by
    show (track table.distinct used).map Instance.id =
      ((Keyed.insert label p table.pipelines).flatMap (·.2.uses)).eraseDups
    rw [Keyed.Ascending.insert_of_gt last, List.flatMap_append, List.flatMap_singleton,
      track_ids, wires.uses, ← firsts_of_none, firsts_append, firsts_of_none, ← listed.order]
    rfl
  wires := by
    intro label' p' member
    have member : (label', p') ∈ Keyed.insert label p table.pipelines := member
    rw [Keyed.Ascending.insert_of_gt last, List.mem_append] at member
    rcases member with member | member
    · obtain ⟨used', within, wires'⟩ := listed.wires member
      exact ⟨used', fun i hi => subset_track _ _ (within hi), wires'⟩
    · cases List.mem_singleton.mp member
      exact ⟨used, fun i hi => mem_track_of_used handedOut own there hi, wires⟩

theorem build_listed {pipelines : Pipelines} {table' : PipelineTable ω} (listed : Listed table)
    (inventory : Inventory r s) (own : table.distinct ⊆ s.resolver.made)
    (labels : Keyed.Ascending pipelines)
    (later : ∀ entry ∈ table.pipelines, ∀ e ∈ pipelines, entry.1 < e.1)
    (ended : (build table pipelines).outcome s = (.ok table', t)) :
    Inventory r t ∧ table'.distinct ⊆ t.resolver.made ∧ Listed table' ∧
      Keyed.keys table'.pipelines = Keyed.keys table.pipelines ++ Keyed.keys pipelines := by
  induction pipelines generalizing table s with
  | nil =>
    cases ended
    exact ⟨inventory, own, listed, (List.append_nil _).symm⟩
  | cons entry rest ih =>
    obtain ⟨label, spec⟩ := entry
    obtain ⟨⟨p, used⟩, u, one, ended⟩ := Step.bind_ended ended
    obtain ⟨⟨inventory, kept, there⟩, wires⟩ := buildOne_wires inventory one
    have own := List.Subset.trans own kept
    have last : ∀ entry ∈ table.pipelines, entry.1 < label := fun entry he =>
      later entry he _ List.mem_cons_self
    have added := listed.add inventory.handedOut own last there wires
    have own' : track table.distinct used ⊆ u.resolver.made := fun i hi =>
      (mem_track hi).elim (fun h => own h) (fun h => there h)
    have later' : ∀ entry ∈ Keyed.insert label p table.pipelines, ∀ e ∈ rest, entry.1 < e.1 := by
      intro entry he e hrest
      rw [Keyed.Ascending.insert_of_gt last, List.mem_append] at he
      rcases he with he | he
      · exact later entry he e (List.mem_cons_of_mem _ hrest)
      · cases List.mem_singleton.mp he
        exact labels.head_lt hrest
    obtain ⟨inventory, own, listed, keys⟩ := ih added inventory own' labels.tail later' ended
    refine ⟨inventory, own, listed, ?_⟩
    rw [keys]
    show Keyed.keys (Keyed.insert label p table.pipelines) ++ Keyed.keys rest = _
    rw [Keyed.Ascending.insert_of_gt last]
    simp [Keyed.keys]

end PipelineTable

end EventWorker
