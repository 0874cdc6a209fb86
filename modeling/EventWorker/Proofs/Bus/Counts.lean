import EventWorker.Proofs.Bus.Window
import Mathlib.Data.List.Nodup

/-!
# Counts of subscriptions

A bus keeps its numbers of subscriptions apart from the subscriptions themselves: one is counted in
when it is made and counted out when it ends.

Results:
1. `getD_find?_countIn`, `getD_find?_countOut`: what one subscription does to every count.
2. `Counted.subscribe`, `Counted.unsubscribe`: the counts stay those of the live subscriptions.
-/

namespace EventWorker.Broadcast

theorem getD_find?_countIn (key key' : String) (counts : List (String × Nat)) :
    (Keyed.find? key' (countIn key counts)).getD 0 =
      (Keyed.find? key' counts).getD 0 + if key = key' then 1 else 0 := by
  rw [countIn, Keyed.find?_insert]
  by_cases same : key = key'
  · rw [same, if_pos rfl, if_pos rfl, Option.getD_some]
  · rw [if_neg (Ne.symm same), if_neg same, Nat.add_zero]

theorem getD_find?_countOut (key key' : String) (counts : List (String × Nat)) :
    (Keyed.find? key' (countOut key counts)).getD 0 =
      (Keyed.find? key' counts).getD 0 - if key = key' then 1 else 0 := by
  by_cases same : key = key'
  · subst same
    rw [countOut, if_pos rfl]
    split
    · next unknown => rw [unknown, Option.getD_none]
    · next n known =>
      rw [known, Option.getD_some]
      split
      · next last => rw [Keyed.find?_erase, if_pos rfl, last, Option.getD_none]
      · rw [Keyed.find?_insert, if_pos rfl, Option.getD_some]
  · rw [countOut, if_neg same, Nat.sub_zero]
    split
    · rfl
    · split
      · rw [Keyed.find?_erase, if_neg (Ne.symm same)]
      · rw [Keyed.find?_insert, if_neg (Ne.symm same)]

/-- The counts of a bus are those of its subscriptions, which have ids of their own. -/
structure Counted (b : Broadcast) : Prop where
  distinct : (b.subscriptions.map Subscription.id).Nodup
  below : ∀ s ∈ b.subscriptions, s.id < b.nextId
  count : ∀ key, b.subscriptionsFor key = b.subscriptions.countP fun s => s.key = key

variable {b b' : Broadcast}

theorem Counted.fresh (capacity : Nat) : Counted { capacity } :=
  ⟨List.nodup_nil, fun _ none => absurd none List.not_mem_nil, fun _ => rfl⟩

/-- Only ids and destinations are counted. -/
theorem Counted.same (h : b.Counted) {f : Subscription → Subscription}
    (subscriptions : b'.subscriptions = b.subscriptions.map f) (counts : b'.counts = b.counts)
    (nextId : b'.nextId = b.nextId)
    (kept : ∀ s, (f s).id = s.id ∧ (f s).destination = s.destination) : b'.Counted := by
  refine ⟨?_, ?_, fun key => ?_⟩
  · rw [subscriptions, List.map_map]
    exact (List.map_congr_left fun s _ => (kept s).1) ▸ h.distinct
  · rw [subscriptions, nextId]
    intro s here
    obtain ⟨t, there, rfl⟩ := List.mem_map.mp here
    rw [(kept t).1]
    exact h.below t there
  · rw [subscriptionsFor, counts, subscriptions, List.countP_map]
    refine (h.count key).trans (List.countP_congr fun s _ => ?_)
    have same : (f s).key = s.key := congrArg (·.getD wildcard) (kept s).2
    rw [Function.comp_apply, same]

theorem Counted.subscribe (h : b.Counted) (destination : Option String) :
    (b.subscribe destination).2.Counted := by
  refine ⟨?_, fun s here => ?_, fun key => ?_⟩
  · rw [Broadcast.subscribe, List.map_append]
    refine List.nodup_append_comm.mp (List.nodup_cons.mpr ⟨fun there => ?_, h.distinct⟩)
    obtain ⟨s, here, same⟩ := List.mem_map.mp there
    exact absurd same (Nat.ne_of_lt (h.below s here))
  · rcases List.mem_append.mp here with old | new
    · exact Nat.lt_succ_of_lt (h.below s old)
    · rw [List.mem_singleton.mp new]
      exact Nat.lt_succ_self b.nextId
  · rw [subscriptionsFor, Broadcast.subscribe, getD_find?_countIn, List.countP_append]
    refine congrArg₂ (· + ·) (h.count key) ?_
    simp only [List.countP_singleton, decide_eq_true_eq]

theorem unsubscribe_eq (h : b.Counted) {s : Subscription} (here : s ∈ b.subscriptions) :
    b.unsubscribe s.id =
      { b with
        subscriptions := b.subscriptions.filter fun t => decide (t.id ≠ s.id)
        counts := countOut s.key b.counts } := by
  obtain ⟨t, found⟩ := exists_find?_id here
  have same : t.id = s.id := by simpa using List.find?_some found
  obtain rfl : t = s :=
    List.inj_on_of_nodup_map h.distinct (List.mem_of_find?_eq_some found) here same
  rw [Broadcast.unsubscribe, found]

/-- Of subscriptions with ids of their own one ends at a time. -/
theorem filter_id_ne {before after : List Subscription} {s : Subscription}
    (distinct : ((before ++ s :: after).map Subscription.id).Nodup) :
    ((before ++ s :: after).filter fun t => decide (t.id ≠ s.id)) = before ++ after := by
  rw [List.map_append, List.map_cons, List.nodup_middle, ← List.map_append,
    List.nodup_cons] at distinct
  have other : ∀ t ∈ before ++ after, decide (t.id ≠ s.id) = true := fun t here =>
    decide_eq_true fun same => distinct.1 (List.mem_map.mpr ⟨t, here, same⟩)
  rw [List.filter_append, List.filter_cons_of_neg (by simp), ← List.filter_append,
    List.filter_eq_self.mpr other]

theorem Counted.unsubscribe (h : b.Counted) {s : Subscription} (here : s ∈ b.subscriptions) :
    (b.unsubscribe s.id).Counted := by
  rw [unsubscribe_eq h here]
  refine ⟨h.distinct.sublist (List.filter_sublist.map _),
    fun t there => h.below t (List.mem_filter.mp there).1, fun key => ?_⟩
  obtain ⟨before, after, all⟩ := List.append_of_mem here
  have counted := h.count key
  rw [all, List.countP_append, List.countP_cons, ← Nat.add_assoc, ← List.countP_append,
    subscriptionsFor] at counted
  rw [subscriptionsFor, getD_find?_countOut, counted, all, filter_id_ne (all ▸ h.distinct)]
  simp only [decide_eq_true_eq, Nat.add_sub_cancel]

end EventWorker.Broadcast
