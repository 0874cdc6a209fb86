import EventWorker.Keyed

/-!
# Pipeline memory

A memory holds lists of values under keys. The keys are kept in the order in which
they first appeared and, apart from it, each with its values in the order in which
they were pushed. Taking the values of a key leaves the key behind. A key that never
appeared reads as an empty list.
-/

namespace EventWorker

namespace Memory

/-- The order and the slots have the same keys, each once. -/
structure Aligned {α : Type} (order : List String) (slots : List (String × List α)) : Prop where
  once : order.Nodup
  ascending : Keyed.Ascending slots
  same : ∀ key, key ∈ order ↔ key ∈ Keyed.keys slots

namespace Aligned

variable {α : Type} {order : List String} {slots : List (String × List α)}

theorem empty : Aligned [] ([] : List (String × List α)) :=
  ⟨List.nodup_nil, List.Pairwise.nil, fun _ => Iff.rfl⟩

/-- A new key comes last. -/
theorem push (h : Aligned order slots) (key : String) (values : List α) :
    Aligned (if Keyed.contains key slots then order else order ++ [key])
      (Keyed.insert key values slots) := by
  have known : Keyed.contains key slots = true ↔ key ∈ order :=
    Keyed.contains_iff_mem_keys.trans (h.same key).symm
  refine ⟨?_, h.ascending.insert key values, fun k => ?_⟩
  · split
    · exact h.once
    · next new =>
      refine List.nodup_append.mpr ⟨h.once, List.pairwise_singleton _ key, ?_⟩
      rintro k here l last rfl
      exact new (known.mpr (List.mem_singleton.mp last ▸ here))
  · rw [Keyed.mem_keys_insert, ← h.same]
    split
    · next old => exact ⟨.inr, fun h => h.elim (fun same => same ▸ known.mp old) id⟩
    · rw [List.mem_append, List.mem_singleton, or_comm]

theorem replace (h : Aligned order slots) {key : String} (known : key ∈ order) (values : List α) :
    Aligned order (Keyed.insert key values slots) := by
  have old : Keyed.contains key slots = true :=
    Keyed.contains_iff_mem_keys.mpr ((h.same key).mp known)
  have pushed := h.push key values
  rwa [if_pos old] at pushed

theorem emptied (h : Aligned order slots) :
    Aligned order (slots.map fun slot => (slot.1, ([] : List α))) := by
  refine ⟨h.once, List.pairwise_map.mpr h.ascending, fun k => ?_⟩
  rw [Keyed.keys, List.map_map]
  exact h.same k

end Aligned

end Memory

/-- Lists of values under keys, keys in order of first appearance. -/
structure Memory (α : Type) where
  order : List String := []
  slots : List (String × List α) := []
  aligned : Memory.Aligned order slots := by exact Memory.Aligned.empty
  deriving DecidableEq, Repr

namespace Memory

variable {α : Type}

instance : Inhabited (Memory α) := ⟨{}⟩

/-- The values under `key`. -/
def get (m : Memory α) (key : String) : List α :=
  (Keyed.find? key m.slots).getD []

/-- Appends every one of `values` under `key`, which appears at the end if it is new. -/
def pushAll (m : Memory α) (key : String) (values : List α) : Memory α where
  order := if Keyed.contains key m.slots then m.order else m.order ++ [key]
  slots := Keyed.insert key (m.get key ++ values) m.slots
  aligned := m.aligned.push key _

/-- Appends one value under `key`. -/
def push (m : Memory α) (key : String) (value : α) : Memory α :=
  m.pushAll key [value]

/-- Makes `key` appear without a value. -/
def touch (m : Memory α) (key : String) : Memory α :=
  m.pushAll key []

/-- The values under `key`, and the memory without them. -/
def pop (m : Memory α) (key : String) : List α × Memory α :=
  (m.get key,
    if known : key ∈ m.order then
      { m with slots := Keyed.insert key [] m.slots, aligned := m.aligned.replace known [] }
    else m)

/-- The keys in order of first appearance. -/
def keys (m : Memory α) : List String :=
  m.order

/-- The keys in order, each with its values. -/
def items (m : Memory α) : List (String × List α) :=
  m.order.map fun key => (key, m.get key)

/-- All values, key by key. -/
def values (m : Memory α) : List α :=
  m.items.flatMap Prod.snd

/-- All values with their keys, key by key, and the memory without them; the keys
stay. -/
def drain (m : Memory α) : List (String × α) × Memory α :=
  (m.items.flatMap fun entry => entry.2.map fun v => (entry.1, v),
    { m with
      slots := m.slots.map fun slot => (slot.1, [])
      aligned := m.aligned.emptied })

/-- The number of values. -/
def size (m : Memory α) : Nat :=
  m.slots.foldr (fun slot n => slot.2.length + n) 0

/-- No value is held; keys may have appeared. -/
def isEmpty (m : Memory α) : Bool :=
  m.size = 0

end Memory

end EventWorker
