/-!
# Keyed lists

A keyed list is a list of key-value pairs. `insert` keeps the keys in ascending
order and each key once, so two keyed lists built from the same last writes are
equal whatever the order of the writes.

Results:
1. `find?_insert`, `find?_erase`: what one write does to every lookup.
2. `mem_keys_insert`: a write adds its own key and no other.
3. `Ascending.insert`: a write keeps the keys in order.
-/

namespace EventWorker.Keyed

variable {κ α : Type} [DecidableEq κ]

/-- The value of the first pair with key `k`. -/
def find? (k : κ) : List (κ × α) → Option α
  | [] => none
  | (k', v) :: rest => if k = k' then some v else find? k rest

/-- Writes `v` under `k`: in place of an older value, else before the first
greater key. -/
def insert [LT κ] [DecidableLT κ] (k : κ) (v : α) : List (κ × α) → List (κ × α)
  | [] => [(k, v)]
  | (k', v') :: rest =>
    if k = k' then (k, v) :: rest
    else if k < k' then (k, v) :: (k', v') :: rest
    else (k', v') :: insert k v rest

/-- Removes every pair with key `k`. -/
def erase (k : κ) (xs : List (κ × α)) : List (κ × α) :=
  xs.filter fun entry => decide (entry.1 ≠ k)

/-- Whether some pair has key `k`. -/
def contains (k : κ) (xs : List (κ × α)) : Bool :=
  (find? k xs).isSome

/-- The keys, in list order. -/
def keys (xs : List (κ × α)) : List κ :=
  xs.map Prod.fst

/-- The pairs of `xs` written one after the other, a later write of a key
replacing an earlier one. -/
def ofList [LT κ] [DecidableLT κ] (xs : List (κ × α)) : List (κ × α) :=
  xs.foldl (fun acc entry => insert entry.1 entry.2 acc) []

/-- All writes of `ys` on top of `xs`. -/
def union [LT κ] [DecidableLT κ] (xs ys : List (κ × α)) : List (κ × α) :=
  ys.foldl (fun acc entry => insert entry.1 entry.2 acc) xs

@[simp] theorem find?_nil (k : κ) : find? k ([] : List (κ × α)) = none := rfl

theorem find?_cons (k k' : κ) (v : α) (xs : List (κ × α)) :
    find? k ((k', v) :: xs) = if k = k' then some v else find? k xs := rfl

/-- A write is what the next lookup of its key gives, and other lookups do not
see it. -/
theorem find?_insert [LT κ] [DecidableLT κ] (k k' : κ) (v : α) (xs : List (κ × α)) :
    find? k' (insert k v xs) = if k' = k then some v else find? k' xs := by
  induction xs with
  | nil => simp [insert, find?]
  | cons entry rest ih =>
    obtain ⟨l, w⟩ := entry
    by_cases hl : k = l
    · subst hl
      by_cases hk : k' = k <;> simp [insert, find?, hk]
    · by_cases hlt : k < l
      · by_cases hk : k' = k <;> simp [insert, find?, hl, hlt, hk]
      · by_cases hk : k' = l
        · subst hk
          have : ¬ k' = k := fun h => hl h.symm
          simp [insert, find?, hl, hlt, this]
        · simp [insert, find?, hl, hlt, hk, ih]

/-- After `erase k` the key `k` is gone and no other lookup has changed. -/
theorem find?_erase (k k' : κ) (xs : List (κ × α)) :
    find? k' (erase k xs) = if k' = k then none else find? k' xs := by
  induction xs with
  | nil => simp [erase]
  | cons entry rest ih =>
    obtain ⟨l, w⟩ := entry
    simp only [erase] at ih
    by_cases hl : l = k
    · subst hl
      by_cases hk : k' = l <;> simpa [erase, find?, hk] using ih
    · by_cases hk : k' = l
      · subst hk
        simp [erase, find?, hl]
      · simpa [erase, find?, hl, hk] using ih

/-- A lookup among changed values. -/
theorem find?_map {β : Type} (f : α → β) (k : κ) (xs : List (κ × α)) :
    find? k (xs.map fun entry => (entry.1, f entry.2)) = (find? k xs).map f := by
  induction xs with
  | nil => rfl
  | cons entry rest ih =>
    obtain ⟨l, w⟩ := entry
    by_cases hk : k = l
    · simp [find?, hk]
    · simpa [find?, hk] using ih

/-- A write adds its own key and no other. -/
theorem mem_keys_insert [LT κ] [DecidableLT κ] (k k' : κ) (v : α) (xs : List (κ × α)) :
    k' ∈ keys (insert k v xs) ↔ k' = k ∨ k' ∈ keys xs := by
  induction xs with
  | nil => simp [insert, keys]
  | cons entry rest ih =>
    obtain ⟨l, w⟩ := entry
    simp only [keys] at ih
    by_cases hl : k = l
    · subst hl
      simp [insert, keys]
    · by_cases hlt : k < l
      · simp [insert, keys, hl, hlt]
      · simp only [insert, keys, hl, hlt, if_false, List.map_cons, List.mem_cons, ih]
        grind

theorem contains_iff_mem_keys {k : κ} {xs : List (κ × α)} :
    contains k xs = true ↔ k ∈ keys xs := by
  induction xs with
  | nil => exact ⟨(fun h => nomatch h), fun h => nomatch h⟩
  | cons y rest ih =>
    obtain ⟨l, w⟩ := y
    unfold contains at ih ⊢
    rw [find?_cons, keys, List.map_cons, List.mem_cons]
    split
    · next hkl => exact ⟨fun _ => .inl hkl, fun _ => rfl⟩
    · next hkl => exact ih.trans (or_iff_right hkl).symm

/-- A written pair is the only new one. -/
theorem mem_of_mem_insert [LT κ] [DecidableLT κ] {k : κ} {v : α} {xs : List (κ × α)}
    {x : κ × α} (h : x ∈ Keyed.insert k v xs) : x = (k, v) ∨ x ∈ xs := by
  induction xs with
  | nil => exact .inl (List.mem_singleton.mp h)
  | cons y rest ih =>
    obtain ⟨l, w⟩ := y
    rw [Keyed.insert] at h
    split at h
    · rcases List.mem_cons.mp h with h | h
      · exact .inl h
      · exact .inr (List.mem_cons_of_mem _ h)
    · split at h
      · exact List.mem_cons.mp h
      · rcases List.mem_cons.mp h with h | h
        · exact .inr (h ▸ List.mem_cons_self)
        · exact (ih h).imp_right (List.mem_cons_of_mem _)

/-- Every key is less than those after it. -/
def Ascending [LT κ] (xs : List (κ × α)) : Prop :=
  xs.Pairwise fun x y => x.1 < y.1

theorem Ascending.insert [LT κ] [DecidableLT κ] [Trans (α := κ) (· < ·) (· < ·) (· < ·)]
    [Std.Trichotomous (α := κ) (· < ·)] {xs : List (κ × α)} (h : Ascending xs) (k : κ) (v : α) :
    Ascending (Keyed.insert k v xs) := by
  induction xs with
  | nil => exact List.pairwise_singleton _ _
  | cons y rest ih =>
    obtain ⟨l, w⟩ := y
    rw [Keyed.insert]
    split
    · next hkl =>
      subst hkl
      exact List.pairwise_cons.mpr ⟨fun x hx => List.rel_of_pairwise_cons h hx, List.Pairwise.of_cons h⟩
    · next hkl =>
      split
      · next hlt =>
        refine List.pairwise_cons.mpr ⟨fun x hx => ?_, h⟩
        rcases List.mem_cons.mp hx with rfl | hx
        · exact hlt
        · exact Trans.trans hlt (List.rel_of_pairwise_cons h hx)
      · next hlt =>
        have hgt : l < k := by
          rcases Std.Trichotomous.rel_or_eq_or_rel_swap (r := (· < ·)) (a := k) (b := l) with
            hk | hk | hk
          · exact absurd hk hlt
          · exact absurd hk hkl
          · exact hk
        refine List.pairwise_cons.mpr ⟨fun x hx => ?_, ih (List.Pairwise.of_cons h)⟩
        rcases mem_of_mem_insert hx with rfl | hx
        · exact hgt
        · exact List.rel_of_pairwise_cons h hx

end EventWorker.Keyed
