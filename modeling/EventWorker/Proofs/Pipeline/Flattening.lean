import EventWorker.Proofs.Firsts
import EventWorker.Proofs.Pipeline.Check

/-!
# Fragments flattened

A fragment stands for a list of processors: its own, and in place of each reference those of the
fragment it refers to. The flattening keeps apart where in the fragments a processor is written,
so that a processor that is met on several ways is one occurrence, and two processors written
alike are two.

Results:
1. `origins_eq`: the flattening of a fragment from those of the fragments it refers to.
2. `reach_of_mem_origins`: the processors of a fragment are written in it or in what it refers to.
3. `mem_loadOrder_iff`: the load order has every processor that is written.
-/

namespace EventWorker

/-- A place in the list of a fragment. -/
structure Occurrence where
  fragment : String
  place : Nat
  deriving DecidableEq, Repr

namespace Fragments

variable {α β : Type}

/-- What elements from the place `i` on give in order: `own` for a processor at its place, and for
a reference all that is `below` it. -/
def spread (own : Nat → α) (below : String → List α) : Nat → List Element → List α
  | _, [] => []
  | i, .processor _ :: rest => own i :: spread own below (i + 1) rest
  | i, .reference text :: rest =>
    ((Element.reference text).target?.map below).getD [] ++ spread own below (i + 1) rest

variable {own : Nat → α} {below : String → List α} {i : Nat} {elements rest : List Element}

theorem spread_reference {t : String} : spread own below i (.reference ("$" ++ t) :: rest) =
    below t ++ spread own below (i + 1) rest := by
  have written : (Element.reference ("$" ++ t)).target? = some t :=
    Element.target?_reference.mpr rfl
  rw [spread, written]
  rfl

theorem spread_cons (e : Element) : spread own below i (e :: rest) =
    spread own below i [e] ++ spread own below (i + 1) rest := by
  cases e <;> simp [spread]

theorem spread_congr {below' : String → List α}
    (same : ∀ e ∈ elements, ∀ t, e.target? = some t → below t = below' t) :
    spread own below i elements = spread own below' i elements := by
  induction elements generalizing i with
  | nil => rfl
  | cons e rest ih =>
    have others := ih (i := i + 1) fun e he => same e (List.mem_cons_of_mem _ he)
    cases e with
    | processor spec => rw [spread, spread, others]
    | reference text =>
      rw [spread, spread, others]
      cases written : (Element.reference text).target? with
      | none => rfl
      | some t =>
        have here := same _ List.mem_cons_self t written
        simp [here]

theorem map_spread (f : α → β) : (spread own below i elements).map f =
    spread (fun i => f (own i)) (fun t => (below t).map f) i elements := by
  induction elements generalizing i with
  | nil => rfl
  | cons e rest ih =>
    cases e with
    | processor spec => simp [spread, ih]
    | reference text => cases h : (Element.reference text).target? <;> simp [spread, ih, h]

theorem mem_spread {x : α} : x ∈ spread own below i elements ↔
    (∃ j spec, elements[j]? = some (.processor spec) ∧ x = own (i + j)) ∨
      ∃ e ∈ elements, ∃ t, e.target? = some t ∧ x ∈ below t := by
  induction elements generalizing i with
  | nil => simp [spread]
  | cons e rest ih =>
    have shift : (∃ j spec, (e :: rest)[j]? = some (.processor spec) ∧ x = own (i + j)) ↔
        (∃ spec, e = .processor spec ∧ x = own i) ∨
          ∃ j spec, rest[j]? = some (.processor spec) ∧ x = own (i + 1 + j) := by
      constructor
      · rintro ⟨j, spec, written, rfl⟩
        cases j with
        | zero => exact .inl ⟨spec, Option.some.inj written, rfl⟩
        | succ j => exact .inr ⟨j, spec, written, by rw [Nat.add_right_comm, Nat.add_assoc]⟩
      · rintro (⟨spec, rfl, rfl⟩ | ⟨j, spec, written, rfl⟩)
        · exact ⟨0, spec, rfl, rfl⟩
        · exact ⟨j + 1, spec, written, by rw [Nat.add_right_comm, Nat.add_assoc]⟩
    rw [shift]
    cases e with
    | processor spec =>
      have none : (Element.processor spec).target? = none := rfl
      simp [spread, ih, none, or_assoc]
    | reference text =>
      cases h : (Element.reference text).target? <;> simp [spread, ih, h, or_left_comm]

/-! ## The occurrences below a fragment -/

/-- The flattening of a fragment, with chains of fewer than `depth` references. -/
def flatten (fragments : Fragments) : Nat → String → List Occurrence
  | 0, _ => []
  | depth + 1, name =>
    match Keyed.find? name fragments with
    | none => []
    | some elements => spread (Occurrence.mk name) (flatten fragments depth) 0 elements

/-- The flattening of a fragment. -/
def origins (fragments : Fragments) (name : String) : List Occurrence :=
  fragments.flatten fragments.length name

/-- The processor at an occurrence. -/
def specAt? (fragments : Fragments) (o : Occurrence) : Option ProcessorSpec :=
  match (Keyed.find? o.fragment fragments).bind (·[o.place]?) with
  | some (.processor spec) => some spec
  | _ => none

/-- The order in which the fragments load their processors: that of their first use, with the
fragments in the order of their names. -/
def loadOrder (fragments : Fragments) : List Occurrence :=
  ((Keyed.keys fragments).flatMap fragments.origins).eraseDups

variable {fragments : Fragments} {path : List String} {name t : String} {o : Occurrence}
  {depth : Nat}

theorem flatten_succ (found : Keyed.find? name fragments = some elements) :
    fragments.flatten (depth + 1) name =
      spread (Occurrence.mk name) (fragments.flatten depth) 0 elements := by
  rw [flatten, found]

theorem Way.not_mem (way : fragments.Way path name) (sound : fragments.Sound) : name ∉ path :=
  fun again => sound.acyclic name (way.leads name again)

/-- The flattening with references enough for all fragments that are not on the path does not
depend on their number. -/
theorem flatten_deeper (sound : fragments.Sound) (way : fragments.Way path name)
    (enough : fragments.length ≤ depth + path.length) {more : Nat} (le : depth ≤ more) :
    fragments.flatten more name = fragments.flatten depth name := by
  induction depth generalizing path name more with
  | zero =>
    -- No fragment is left for a chain to go on with: they are all on the path.
    have longer := (way.toTrail.next (way.not_mem sound) (way.contains sound)).length_le
    rw [List.length_cons] at longer
    omega
  | succ depth ih =>
    obtain ⟨more, rfl⟩ : ∃ n, more = n + 1 := ⟨more - 1, by omega⟩
    have there := way.contains sound
    obtain ⟨elements, found⟩ := Keyed.exists_of_contains there
    rw [flatten_succ found, flatten_succ found]
    refine spread_congr fun e he t target => ?_
    have next := way.next (way.not_mem sound) there ⟨elements, found, e, he, target⟩
    refine ih next ?_ (by omega)
    rw [List.length_cons]
    omega

/-- A fragment is flattened by flattening what it refers to. -/
theorem origins_eq (sound : fragments.Sound) (found : Keyed.find? name fragments = some elements) :
    fragments.origins name = spread (Occurrence.mk name) fragments.origins 0 elements := by
  have way : fragments.Way [] name := .nil (Keyed.contains_of_find? found)
  have deeper : fragments.flatten (fragments.length + 1) name = fragments.origins name :=
    flatten_deeper sound way (Nat.le_add_right _ _) (Nat.le_succ _)
  rw [← deeper, flatten_succ found]
  rfl

theorem reach_of_mem_flatten (h : o ∈ fragments.flatten depth name) :
    Relation.ReflTransGen fragments.Refers name o.fragment := by
  induction depth generalizing name with
  | zero => cases h
  | succ depth ih =>
    cases found : Keyed.find? name fragments with
    | none => simp [flatten, found] at h
    | some elements =>
      rw [flatten_succ found, mem_spread] at h
      rcases h with ⟨j, spec, -, rfl⟩ | ⟨e, he, t, target, member⟩
      · exact .refl
      · exact .head ⟨elements, found, e, he, target⟩ (ih member)

/-- A processor of a fragment is written in it or in one that it refers to in some steps. -/
theorem reach_of_mem_origins (h : o ∈ fragments.origins name) :
    Relation.ReflTransGen fragments.Refers name o.fragment :=
  reach_of_mem_flatten h

theorem specAt?_eq_some {spec : ProcessorSpec} : fragments.specAt? o = some spec ↔
    ∃ elements, Keyed.find? o.fragment fragments = some elements ∧
      elements[o.place]? = some (.processor spec) := by
  unfold specAt?
  cases Keyed.find? o.fragment fragments with
  | none => simp
  | some elements =>
    cases h : elements[o.place]? with
    | none => simp [h]
    | some e => cases e <;> simp [h]

theorem specAt?_of_mem_flatten (h : o ∈ fragments.flatten depth name) :
    ∃ spec, fragments.specAt? o = some spec := by
  induction depth generalizing name with
  | zero => cases h
  | succ depth ih =>
    cases found : Keyed.find? name fragments with
    | none => simp [flatten, found] at h
    | some elements =>
      rw [flatten_succ found, mem_spread] at h
      rcases h with ⟨j, spec, written, rfl⟩ | ⟨e, he, t, target, member⟩
      · refine ⟨spec, specAt?_eq_some.mpr ⟨elements, found, ?_⟩⟩
        rw [← written]
        simp
      · exact ih member

/-- The load order has the occurrences of all processors and nothing else. -/
theorem mem_loadOrder_iff (sound : fragments.Sound) :
    o ∈ fragments.loadOrder ↔ ∃ spec, fragments.specAt? o = some spec := by
  rw [loadOrder, List.mem_eraseDups, List.mem_flatMap]
  constructor
  · rintro ⟨name, -, member⟩
    exact specAt?_of_mem_flatten member
  · rintro ⟨spec, written⟩
    obtain ⟨elements, found, at'⟩ := specAt?_eq_some.mp written
    refine ⟨o.fragment, Keyed.contains_iff_mem_keys.mp (Keyed.contains_of_find? found), ?_⟩
    rw [origins_eq sound found]
    exact mem_spread.mpr (.inl ⟨o.place, spec, at', by simp⟩)

theorem nodup_loadOrder (fragments : Fragments) : fragments.loadOrder.Nodup :=
  nodup_eraseDups _

end Fragments

end EventWorker
