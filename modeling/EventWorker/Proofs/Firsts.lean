/-!
# First uses

What a list of uses adds to the items already known: every new item once, where it comes up first.

Results:
1. `mem_firsts`: what is added.
2. `nodup_eraseDups`: nothing is left twice when the repetitions are taken out.
3. `firsts_append`: uses one after the other add what the first ones add, and then what is still
   new among the second ones.
-/

namespace EventWorker

variable {α : Type} [DecidableEq α]

/-- The items of `xs` that are not known, each where it comes up first. -/
def firsts (known xs : List α) : List α :=
  (xs.removeAll known).eraseDups

theorem firsts_of_none (xs : List α) : firsts [] xs = xs.eraseDups := by
  have all : xs.removeAll [] = xs := List.filter_eq_self.mpr fun _ _ => rfl
  rw [firsts, all]

theorem mem_firsts {known xs : List α} {x : α} : x ∈ firsts known xs ↔ x ∈ xs ∧ x ∉ known := by
  simp [firsts, List.removeAll]

theorem nodup_eraseDups (xs : List α) : xs.eraseDups.Nodup := by
  cases xs with
  | nil => simp
  | cons x rest =>
    rw [List.eraseDups_cons, List.nodup_cons]
    constructor
    · simp
    · exact nodup_eraseDups (rest.filter fun y => !y == x)
termination_by xs.length
decreasing_by exact Nat.lt_succ_of_le (List.length_filter_le _ _)

theorem firsts_append (known xs ys : List α) :
    firsts known (xs ++ ys) = firsts known xs ++ firsts (known ++ firsts known xs) ys := by
  have second : (ys.removeAll known).removeAll (xs.removeAll known) =
      ys.removeAll (known ++ firsts known xs) := by
    simp only [List.removeAll, List.filter_filter]
    refine List.filter_congr fun y _ => ?_
    by_cases hy : y ∈ known <;> simp [hy, mem_firsts]
  have whole : (xs ++ ys).removeAll known = xs.removeAll known ++ ys.removeAll known := by
    simp [List.removeAll]
  rw [firsts, whole, List.eraseDups_append, second]
  rfl

/-- Uses of what is known add nothing. -/
theorem firsts_of_known {known xs : List α} (h : ∀ x ∈ xs, x ∈ known) : firsts known xs = [] := by
  rw [List.eq_nil_iff_forall_not_mem]
  intro x hx
  obtain ⟨used, new⟩ := mem_firsts.mp hx
  exact new (h x used)

theorem firsts_of_new {known : List α} {x : α} (new : x ∉ known) : firsts known [x] = [x] := by
  simp [firsts, List.removeAll, new, List.eraseDups_cons]

end EventWorker
