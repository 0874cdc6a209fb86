import EventWorker.Memory
import EventWorker.Proofs.Keyed

/-!
# Laws of pipeline memory

Results:
1. `get_pushAll`, `get_pop`, `get_drain`: what reading a key gives after a push and after values
   were taken, and `fst_pop`: what is taken.
2. `keys_pushAll`, `keys_pop`: the keys and their order.
3. `slots_perm`, `size_eq`: what is held apart from the order is what is held in order.
4. `entries_pushAll`, `mem_drain_pushAll`: a push adds the pushed values to what is taken, each
   once, and nothing else.
5. `filter_drain`: among all that is taken, the values of one key are in the order in which they
   were pushed.
6. `entries_refilled`, `get_refilled`: what is there after everything was taken and other values
   were pushed.
-/

namespace EventWorker.Memory

variable {α : Type} {m : Memory α}

/-- Pushes values one after the other, each under its own key. -/
def pushEach (m : Memory α) (entries : List (String × α)) : Memory α :=
  entries.foldl (fun m entry => m.push entry.1 entry.2) m

theorem pushEach_append (m : Memory α) (xs ys : List (String × α)) :
    m.pushEach (xs ++ ys) = (m.pushEach xs).pushEach ys :=
  List.foldl_append

/-! ## Reading a key -/

theorem get_pushAll (m : Memory α) (key : String) (values : List α) (k : String) :
    (m.pushAll key values).get k = if k = key then m.get k ++ values else m.get k := by
  rw [get, pushAll, Keyed.find?_insert]
  split
  · next same => rw [same, Option.getD_some]
  · rfl

theorem get_pushEach (m : Memory α) (entries : List (String × α)) (k : String) :
    (m.pushEach entries).get k =
      m.get k ++ (entries.filter fun entry => entry.1 = k).map Prod.snd := by
  induction entries generalizing m with
  | nil => exact (List.append_nil _).symm
  | cons entry rest ih =>
    rw [pushEach, List.foldl_cons, ← pushEach, ih, push, get_pushAll]
    by_cases hk : entry.1 = k
    · rw [if_pos hk.symm, List.filter_cons_of_pos (by simpa using hk), List.map_cons,
        List.append_assoc]
      rfl
    · rw [if_neg (Ne.symm hk), List.filter_cons_of_neg (by simpa using hk)]

theorem mem_keys {key : String} : key ∈ m.keys ↔ Keyed.contains key m.slots = true :=
  (m.aligned.same key).trans Keyed.contains_iff_mem_keys.symm

theorem get_of_notMem {key : String} (absent : key ∉ m.keys) : m.get key = [] := by
  have nothing : ¬ (Keyed.find? key m.slots).isSome = true := mt mem_keys.mpr absent
  rw [get, Option.not_isSome_iff_eq_none.mp nothing, Option.getD_none]

theorem fst_pop (m : Memory α) (key : String) : (m.pop key).1 = m.get key := rfl

theorem get_pop (m : Memory α) (key k : String) :
    (m.pop key).2.get k = if k = key then [] else m.get k := by
  by_cases known : key ∈ m.order
  · rw [pop, dif_pos known, get, Keyed.find?_insert]
    split
    · rfl
    · rfl
  · rw [pop, dif_neg known]
    split
    · next same => exact get_of_notMem fun here => known (same ▸ here)
    · rfl

theorem get_drain (m : Memory α) (k : String) : m.drain.2.get k = [] := by
  show (Keyed.find? k (m.slots.map fun slot => (slot.1, []))).getD [] = []
  rw [Keyed.find?_map fun _ => []]
  cases Keyed.find? k m.slots <;> rfl

/-! ## Keys -/

theorem keys_pushAll (m : Memory α) (key : String) (values : List α) :
    (m.pushAll key values).keys = if key ∈ m.keys then m.keys else m.keys ++ [key] := by
  simp only [mem_keys]
  rfl

theorem keys_pop (m : Memory α) (key : String) : (m.pop key).2.keys = m.keys := by
  rw [pop]
  split <;> rfl

/-! ## Both parts of a memory -/

/-- The slots are the keys in another order, each with its values. -/
theorem slots_perm (m : Memory α) : m.slots.Perm m.items := by
  have ascending := m.aligned.ascending
  have once : m.items.Nodup := m.aligned.once.map fun _ _ same => congrArg Prod.fst same
  refine (List.perm_ext_iff_of_nodup ascending.nodup once).mpr fun ⟨key, values⟩ => ?_
  have item : (key, values) ∈ m.items ↔ key ∈ m.keys ∧ m.get key = values := by
    simp [items, keys]
  rw [ascending.mem_iff, item, mem_keys]
  refine ⟨fun found => ⟨Keyed.contains_of_find? found, by rw [get, found, Option.getD_some]⟩, ?_⟩
  rintro ⟨known, rfl⟩
  obtain ⟨values, found⟩ := Keyed.exists_of_contains known
  rw [get, found, Option.getD_some]

theorem size_eq (m : Memory α) : m.size = m.values.length := by
  have total : m.size = (m.slots.map fun slot => slot.2.length).sum := List.foldr_map.symm
  rw [total, values, List.length_flatMap]
  exact (m.slots_perm.map _).sum_nat

/-! ## Taking everything -/

/-- The values with their keys: the keys in order of first appearance, the values of a key in the
order in which they were pushed. -/
def entries (m : Memory α) : List (String × α) :=
  m.items.flatMap fun item => item.2.map fun v => (item.1, v)

theorem drain_entries (m : Memory α) : m.drain.1 = m.entries :=
  rfl

/-- All that is taken, key by key. -/
theorem drain_eq (m : Memory α) :
    m.drain.1 = m.keys.flatMap fun k => (m.get k).map fun v => (k, v) :=
  List.flatMap_map _ _ m.keys

theorem drain_pushAll_empty (key : String) (values : List α) :
    (({} : Memory α).pushAll key values).drain.1 = values.map fun v => (key, v) := by
  have alone : (({} : Memory α).pushAll key values).keys = [key] := rfl
  rw [drain_eq, alone, List.flatMap_singleton, get_pushAll, if_pos rfl]
  rfl

/-- What comes at one of the keys comes among what was there. -/
theorem flatMap_push {β : Type} {order : List String} (once : order.Nodup) {key : String}
    (here : key ∈ order) {f g : String → List β} {more : List β} (there : g key = f key ++ more)
    (elsewhere : ∀ k, k ≠ key → g k = f k) : (order.flatMap g).Perm (order.flatMap f ++ more) := by
  obtain ⟨before, after, rfl⟩ := List.append_of_mem here
  have other : key ∉ before ++ after := (List.nodup_cons.mp (List.nodup_middle.mp once)).1
  rw [List.mem_append, not_or] at other
  have same : ∀ {ks : List String}, key ∉ ks → ks.flatMap g = ks.flatMap f := fun {ks} absent =>
    List.flatMap_congr fun k hk => elsewhere k fun same => absent (same ▸ hk)
  rw [List.flatMap_append, List.flatMap_append, List.flatMap_cons, List.flatMap_cons, there,
    same other.1, same other.2, List.append_assoc, List.append_assoc, List.append_assoc]
  exact (List.perm_append_comm.append_left _).append_left _

theorem entries_pushAll (m : Memory α) (key : String) (values : List α) :
    (m.pushAll key values).entries.Perm (m.entries ++ values.map fun v => (key, v)) := by
  have there : ((m.pushAll key values).get key).map (fun v => (key, v)) =
      (m.get key).map (fun v => (key, v)) ++ values.map fun v => (key, v) := by
    rw [get_pushAll, if_pos rfl, List.map_append]
  have elsewhere : ∀ k, k ≠ key → ((m.pushAll key values).get k).map (fun v => (k, v)) =
      (m.get k).map fun v => (k, v) := fun k other => by rw [get_pushAll, if_neg other]
  rw [← drain_entries, ← drain_entries, drain_eq, drain_eq, keys_pushAll]
  by_cases known : key ∈ m.keys
  · rw [if_pos known]
    exact flatMap_push m.aligned.once known there elsewhere
  · rw [if_neg known, List.flatMap_append, List.flatMap_singleton, there, get_of_notMem known,
      List.flatMap_congr fun k hk => elsewhere k fun same => known (same ▸ hk)]
    rfl

theorem entries_pushEach (m : Memory α) (entries : List (String × α)) :
    (m.pushEach entries).entries.Perm (m.entries ++ entries) := by
  induction entries generalizing m with
  | nil => rw [List.append_nil]; rfl
  | cons entry rest ih =>
    have first := (m.entries_pushAll entry.1 [entry.2]).append_right rest
    rw [List.append_assoc] at first
    exact (ih _).trans first

theorem mem_drain_pushAll {key : String} {values : List α} {entry : String × α} :
    entry ∈ (m.pushAll key values).drain.1 ↔
      entry ∈ m.drain.1 ∨ (entry.1 = key ∧ entry.2 ∈ values) := by
  obtain ⟨k, v⟩ := entry
  rw [drain_entries, drain_entries, (m.entries_pushAll key values).mem_iff, List.mem_append,
    List.mem_map]
  grind

/-- Nothing is left to be taken. -/
theorem drain_drain (m : Memory α) : m.drain.2.drain.1 = [] := by
  simp [drain_eq, get_drain]

theorem values_eq (m : Memory α) : m.values = m.drain.1.map Prod.snd := by
  simp [values, drain, List.map_flatMap, Function.comp_def]

/-- Of what stands under keys that are all different, the part of one key. -/
theorem filter_flatMap {order : List String} (once : order.Nodup) {f : String → List α}
    {k : String} (absent : k ∉ order → f k = []) :
    ((order.flatMap fun k => (f k).map fun v => (k, v)).filter fun entry => entry.1 = k).map
      Prod.snd = f k := by
  induction order with
  | nil => exact (absent List.not_mem_nil).symm
  | cons l rest ih =>
    obtain ⟨fresh, once⟩ := List.nodup_cons.mp once
    rw [List.flatMap_cons, List.filter_append, List.map_append]
    by_cases hl : l = k
    · -- No later key is the same, so the first one has all the values.
      subst hl
      have later : (rest.flatMap fun k => (f k).map fun v => (k, v)).filter
          (fun entry => entry.1 = l) = [] := by
        simp only [List.filter_eq_nil_iff, List.mem_flatMap, List.mem_map, decide_eq_true_eq]
        rintro _ ⟨k, hk, v, -, rfl⟩ rfl
        exact fresh hk
      rw [later, List.map_nil, List.append_nil, List.filter_eq_self.mpr (by simp), List.map_map]
      exact List.map_id' _
    · rw [ih once fun none => absent (List.not_mem_cons_of_ne_of_not_mem (Ne.symm hl) none),
        List.filter_eq_nil_iff.mpr (by simp [hl])]
      rfl

theorem filter_drain (m : Memory α) (k : String) :
    (m.drain.1.filter fun entry => entry.1 = k).map Prod.snd = m.get k := by
  rw [drain_eq]
  exact filter_flatMap m.aligned.once get_of_notMem

/-! ## Taking everything and pushing again -/

theorem entries_refilled (m : Memory α) (entries : List (String × α)) :
    (m.drain.2.pushEach entries).entries.Perm entries := by
  have taken : m.drain.2.entries = [] := m.drain_drain
  simpa only [taken, List.nil_append] using m.drain.2.entries_pushEach entries

theorem get_refilled (m : Memory α) (entries : List (String × α)) (k : String) :
    (m.drain.2.pushEach entries).get k =
      (entries.filter fun entry => entry.1 = k).map Prod.snd := by
  rw [get_pushEach, get_drain, List.nil_append]

theorem mem_drain_refilled {entries : List (String × α)} {entry : String × α} :
    entry ∈ (m.drain.2.pushEach entries).drain.1 ↔ entry ∈ entries :=
  (m.entries_refilled entries).mem_iff

theorem filter_drain_refilled (m : Memory α) (entries : List (String × α)) (k : String) :
    ((m.drain.2.pushEach entries).drain.1.filter fun entry => entry.1 = k).map Prod.snd =
      (entries.filter fun entry => entry.1 = k).map Prod.snd := by
  rw [filter_drain, get_refilled]

end EventWorker.Memory
