import EventWorker.Keyed
import Mathlib.Data.List.Nodup

/-!
# Ascending keyed lists

`Keyed.insert` and `Keyed.erase` keep the keys of a keyed list in strictly ascending
order. Such a list is determined by its lookups.

Results:
1. `Ascending.erase`, `Ascending.union`: more writes that keep the order.
2. `Ascending.mem_iff`: a pair is in the list if its key is looked up as its value.
3. `find?_union`: what many writes do to every lookup.
4. `Ascending.ofList_eq`, `Ascending.ofList_perm`: what is there when pairs are written anew.
5. `Ascending.ext`: equal lookups make equal lists.
-/

namespace EventWorker.Keyed

variable {κ α : Type}

theorem mem_of_find? [DecidableEq κ] {k : κ} {v : α} {xs : List (κ × α)} (h : find? k xs = some v) :
    (k, v) ∈ xs := by
  induction xs with
  | nil => cases h
  | cons y rest ih =>
    obtain ⟨l, w⟩ := y
    rw [find?_cons] at h
    split at h
    · next hkl =>
      cases h
      rw [hkl]
      exact List.mem_cons_self
    · exact List.mem_cons_of_mem _ (ih h)

theorem contains_of_find? [DecidableEq κ] {k : κ} {v : α} {xs : List (κ × α)}
    (h : find? k xs = some v) : contains k xs = true := by
  rw [contains, h]
  rfl

theorem exists_of_contains [DecidableEq κ] {k : κ} {xs : List (κ × α)}
    (h : contains k xs = true) : ∃ v, find? k xs = some v :=
  Option.isSome_iff_exists.mp h

/-- A key that is found is found under more pairs. -/
theorem find?_append_of_some [DecidableEq κ] {k : κ} {v : α} {xs : List (κ × α)}
    (h : find? k xs = some v) (ys : List (κ × α)) :
    find? k (xs ++ ys) = some v := by
  induction xs with
  | nil => cases h
  | cons x rest ih =>
    obtain ⟨l, w⟩ := x
    rw [List.cons_append, find?_cons]
    rw [find?_cons] at h
    split
    · next same => rwa [if_pos same] at h
    · next other =>
      rw [if_neg other] at h
      exact ih h

/-- A new key is found where it is added. -/
theorem find?_concat [DecidableEq κ] {k : κ} {xs : List (κ × α)} (new : k ∉ keys xs) (v : α) :
    find? k (xs ++ [(k, v)]) = some v := by
  induction xs with
  | nil => simp [find?_cons]
  | cons x rest ih =>
    obtain ⟨l, w⟩ := x
    rw [keys, List.map_cons, List.mem_cons, not_or] at new
    rw [List.cons_append, find?_cons, if_neg new.1]
    exact ih new.2

variable [LT κ]

/-- A write among changed values. -/
theorem map_insert_snd [DecidableEq κ] [DecidableLT κ] {β : Type} (f : α → β) (k : κ)
    (v : α) (xs : List (κ × α)) : (Keyed.insert k v xs).map (fun entry => (entry.1, f entry.2)) =
      Keyed.insert k (f v) (xs.map fun entry => (entry.1, f entry.2)) := by
  induction xs with
  | nil => rfl
  | cons x rest ih =>
    obtain ⟨l, w⟩ := x
    by_cases same : k = l
    · simp [Keyed.insert, same]
    · by_cases less : k < l
      · simp [Keyed.insert, same, less]
      · simp [Keyed.insert, same, less, ih]

theorem exists_find?_union [DecidableEq κ] [DecidableLT κ] {k : κ} {v : α} {xs acc : List (κ × α)}
    (h : (∃ w, find? k acc = some w) ∨ (k, v) ∈ xs) : ∃ w, find? k (union acc xs) = some w := by
  induction xs generalizing acc with
  | nil => exact h.resolve_right List.not_mem_nil
  | cons x rest ih =>
    refine ih ?_
    rw [find?_insert]
    rcases h with ⟨w, found⟩ | h
    · split
      · exact .inl ⟨_, rfl⟩
      · exact .inl ⟨w, found⟩
    · rcases List.mem_cons.mp h with rfl | h
      · exact .inl ⟨v, if_pos rfl⟩
      · exact .inr h

/-- Each key that is written is there in the end. -/
theorem exists_find?_ofList [DecidableEq κ] [DecidableLT κ] {k : κ} {v : α} {xs : List (κ × α)}
    (h : (k, v) ∈ xs) : ∃ w, find? k (ofList xs) = some w :=
  exists_find?_union (.inr h)

/-- After many writes a key has the value that was last written, else the one it had. -/
theorem find?_union [DecidableEq κ] [DecidableLT κ] (k : κ) (acc xs : List (κ × α)) :
    find? k (union acc xs) = (find? k (ofList xs)).or (find? k acc) := by
  induction xs generalizing acc with
  | nil => rfl
  | cons x rest ih =>
    have written : find? k (union acc (x :: rest)) =
        (find? k (ofList rest)).or (find? k (Keyed.insert x.1 x.2 acc)) := ih _
    have alone : find? k (ofList (x :: rest)) =
        (find? k (ofList rest)).or (find? k (Keyed.insert x.1 x.2 [])) := ih _
    rw [written, alone, find?_insert, find?_insert, Option.or_assoc]
    split
    · rfl
    · rfl

theorem mem_union [DecidableEq κ] [DecidableLT κ] {xs ys : List (κ × α)} {x : κ × α}
    (h : x ∈ union xs ys) : x ∈ xs ∨ x ∈ ys := by
  induction ys generalizing xs with
  | nil => exact .inl h
  | cons y rest ih =>
    rcases ih h with h | h
    · rcases mem_of_mem_insert h with rfl | h
      · exact .inr List.mem_cons_self
      · exact .inl h
    · exact .inr (List.mem_cons_of_mem _ h)

theorem mem_ofList [DecidableEq κ] [DecidableLT κ] {xs : List (κ × α)} {x : κ × α}
    (h : x ∈ ofList xs) : x ∈ xs := by
  have either : x ∈ [] ∨ x ∈ xs := mem_union h
  exact either.resolve_left List.not_mem_nil

namespace Ascending

theorem nil : Ascending ([] : List (κ × α)) :=
  List.Pairwise.nil

theorem head_lt {k : κ} {v : α} {xs : List (κ × α)} (h : Ascending ((k, v) :: xs))
    {x : κ × α} (hx : x ∈ xs) : k < x.1 :=
  List.rel_of_pairwise_cons h hx

theorem tail {x : κ × α} {xs : List (κ × α)} (h : Ascending (x :: xs)) : Ascending xs :=
  List.Pairwise.of_cons h

theorem nodup [Std.Asymm (α := κ) (· < ·)] {xs : List (κ × α)} (h : Ascending xs) : xs.Nodup :=
  h.imp fun {x y} less same => by
    rw [same] at less
    exact Std.Asymm.asymm (r := (· < ·)) _ _ less less

variable [DecidableEq κ]

theorem erase {xs : List (κ × α)} (h : Ascending xs) (k : κ) : Ascending (Keyed.erase k xs) :=
  List.Pairwise.filter _ h

protected theorem union [DecidableLT κ] [Trans (α := κ) (· < ·) (· < ·) (· < ·)]
    [Std.Trichotomous (α := κ) (· < ·)] {acc : List (κ × α)} (h : Ascending acc)
    (xs : List (κ × α)) : Ascending (Keyed.union acc xs) := by
  induction xs generalizing acc with
  | nil => exact h
  | cons x rest ih => exact ih (h.insert x.1 x.2)

theorem ofList [DecidableLT κ] [Trans (α := κ) (· < ·) (· < ·) (· < ·)]
    [Std.Trichotomous (α := κ) (· < ·)] (xs : List (κ × α)) : Ascending (Keyed.ofList xs) :=
  Ascending.union nil xs

variable [Std.Asymm (α := κ) (· < ·)]

/-- A key that is less than all others is not looked up. -/
theorem find?_of_lt {k : κ} {xs : List (κ × α)} (h : ∀ x ∈ xs, k < x.1) : find? k xs = none := by
  induction xs with
  | nil => rfl
  | cons y rest ih =>
    obtain ⟨l, w⟩ := y
    have hkl : k < l := h _ List.mem_cons_self
    have hne : k ≠ l := by
      rintro rfl
      exact Std.Asymm.asymm _ _ hkl hkl
    rw [find?_cons, if_neg hne]
    exact ih fun x hx => h x (List.mem_cons_of_mem _ hx)

theorem mem_iff {xs : List (κ × α)} (h : Ascending xs) {k : κ} {v : α} :
    (k, v) ∈ xs ↔ find? k xs = some v := by
  refine ⟨fun hmem => ?_, mem_of_find?⟩
  induction xs with
  | nil => cases hmem
  | cons y rest ih =>
    obtain ⟨l, w⟩ := y
    rw [find?_cons]
    rcases List.mem_cons.mp hmem with hmem | hmem
    · cases hmem
      rw [if_pos rfl]
    · have hlk : l < k := h.head_lt hmem
      have hne : k ≠ l := by
        rintro rfl
        exact Std.Asymm.asymm _ _ hlk hlk
      rw [if_neg hne]
      exact ih h.tail hmem

/-- A write under the greatest key comes last. -/
theorem insert_of_gt [DecidableLT κ] {k : κ} {v : α} {xs : List (κ × α)} (h : ∀ x ∈ xs, x.1 < k) :
    Keyed.insert k v xs = xs ++ [(k, v)] := by
  induction xs with
  | nil => rfl
  | cons y rest ih =>
    obtain ⟨l, w⟩ := y
    have hlk : l < k := h _ List.mem_cons_self
    have hne : k ≠ l := by
      rintro rfl
      exact Std.Asymm.asymm _ _ hlk hlk
    rw [Keyed.insert, if_neg hne, if_neg (Std.Asymm.asymm _ _ hlk),
      ih fun x hx => h x (List.mem_cons_of_mem _ hx), List.cons_append]

theorem union_eq [DecidableLT κ] {xs ys : List (κ × α)} (h : Ascending (xs ++ ys)) :
    union xs ys = xs ++ ys := by
  induction ys generalizing xs with
  | nil => exact (List.append_nil xs).symm
  | cons y rest ih =>
    have before : ∀ x ∈ xs, x.1 < y.1 := fun x hx =>
      (List.pairwise_append.mp h).2.2 x hx y List.mem_cons_self
    have last : Keyed.insert y.1 y.2 xs = xs ++ [y] := insert_of_gt before
    have all : xs ++ [y] ++ rest = xs ++ y :: rest := by simp
    have written : union (xs ++ [y]) rest = xs ++ y :: rest := by
      rw [ih (by rwa [all]), all]
    rw [← last] at written
    exact written

/-- Written one after the other the pairs of an ascending list make the list. -/
theorem ofList_eq [DecidableLT κ] {xs : List (κ × α)} (h : Ascending xs) : Keyed.ofList xs = xs :=
  show union [] xs = [] ++ xs from union_eq h

/-- A write in place of an older value changes nothing about a list but what the values
differ in. -/
theorem map_insert [DecidableLT κ] {β : Type} {xs : List (κ × α)} (h : Ascending xs) {k : κ}
    {v v' : α} (found : find? k xs = some v') {f : κ × α → β} (same : f (k, v) = f (k, v')) :
    (Keyed.insert k v xs).map f = xs.map f := by
  induction xs with
  | nil => cases found
  | cons y rest ih =>
    obtain ⟨l, w⟩ := y
    rw [find?_cons] at found
    rw [Keyed.insert]
    by_cases hkl : k = l
    · rw [if_pos hkl] at found
      cases found
      rw [if_pos hkl, List.map_cons, List.map_cons, same, hkl]
    · rw [if_neg hkl] at found
      have hlk : l < k := h.head_lt (mem_of_find? found)
      rw [if_neg hkl, if_neg (Std.Asymm.asymm _ _ hlk), List.map_cons, List.map_cons,
        ih h.tail found]

theorem ext [Std.Trichotomous (α := κ) (· < ·)] {xs ys : List (κ × α)} (hx : Ascending xs)
    (hy : Ascending ys) (h : ∀ k, find? k xs = find? k ys) : xs = ys := by
  induction xs generalizing ys with
  | nil =>
    cases ys with
    | nil => rfl
    | cons y rest =>
      have := h y.1
      rw [find?_nil, find?_cons, if_pos rfl] at this
      cases this
  | cons x xs ih =>
    obtain ⟨k, v⟩ := x
    cases ys with
    | nil =>
      have := h k
      rw [find?_nil, find?_cons, if_pos rfl] at this
      cases this
    | cons y ys =>
      obtain ⟨l, w⟩ := y
      -- Each head is in the other list, and the lesser of two heads is in one list only.
      have hk : (k, v) ∈ (l, w) :: ys := by
        rw [hy.mem_iff, ← h k, find?_cons, if_pos rfl]
      have hl : (l, w) ∈ (k, v) :: xs := by
        rw [hx.mem_iff, h l, find?_cons, if_pos rfl]
      have same : (k, v) = (l, w) := by
        rcases List.mem_cons.mp hk with hk | hk
        · exact hk
        · rcases List.mem_cons.mp hl with hl | hl
          · exact hl.symm
          · exact absurd (hy.head_lt hk) (Std.Asymm.asymm _ _ (hx.head_lt hl))
      cases same
      refine congrArg _ (ih hx.tail hy.tail fun m => ?_)
      by_cases hm : m = k
      · subst hm
        rw [find?_of_lt fun x => hx.head_lt, find?_of_lt fun x => hy.head_lt]
      · have := h m
        rwa [find?_cons, find?_cons, if_neg hm, if_neg hm] at this

/-- It makes no difference whether values are written as they come or in order. -/
theorem union_ofList [DecidableLT κ] [Trans (α := κ) (· < ·) (· < ·) (· < ·)]
    [Std.Trichotomous (α := κ) (· < ·)] {acc : List (κ × α)} (h : Ascending acc)
    (xs : List (κ × α)) : Keyed.union acc (Keyed.ofList xs) = Keyed.union acc xs := by
  refine (h.union _).ext (h.union _) fun k => ?_
  rw [find?_union, find?_union, (ofList xs).ofList_eq]

/-- Pairs that each have a key of their own are all there when they are written, and nothing
else is. -/
theorem ofList_perm [DecidableLT κ] [Trans (α := κ) (· < ·) (· < ·) (· < ·)]
    [Std.Trichotomous (α := κ) (· < ·)] {xs : List (κ × α)} (distinct : (keys xs).Nodup) :
    (Keyed.ofList xs).Perm xs := by
  refine (List.perm_ext_iff_of_nodup (ofList xs).nodup (.of_map _ distinct)).mpr
    fun ⟨k, v⟩ => ⟨mem_ofList, ?_⟩
  intro given
  obtain ⟨w, found⟩ := exists_find?_ofList given
  have written : (k, w) ∈ xs := mem_ofList (mem_of_find? found)
  have same : (k, v) = (k, w) := List.inj_on_of_nodup_map distinct given written rfl
  exact same ▸ mem_of_find? found

end Ascending

end EventWorker.Keyed
