import EventWorker.Retry
import EventWorker.Proofs.Steps
import Mathlib.Data.ENat.Lattice

/-!
# How often a connection is tried

What comes of a connection that is tried again is told from the ends of its attempts, one after
the other without a bound. The first end that is no recoverable failure stands, unless the
retries are used up before.

Results:
1. `attempts_following`: any sequence of ends is that of some act.
2. `le_firstSettled_iff`: where the first end that stands is.
3. `retrying_stops`: at which attempt the retries stop.
4. `retrying_bounded`: how many attempts are made and what is returned.
-/

namespace EventWorker

/-- The end of an attempt after which another one may be made. -/
def Retriable (r : Except Failure Unit) : Prop :=
  ∃ e, r = .error e ∧ e.recoverable = true

/-- The number of the first end that is no recoverable failure, infinite if there is none. -/
noncomputable def firstSettled (ends : ℕ → Except Failure Unit) : ℕ∞ :=
  sInf ((↑) '' {i : ℕ | ¬ Retriable (ends i)})

theorem firstSettled_le {ends : ℕ → Except Failure Unit} {i : ℕ} (settled : ¬ Retriable (ends i)) :
    firstSettled ends ≤ i :=
  sInf_le ⟨i, settled, rfl⟩

theorem le_firstSettled_iff {ends : ℕ → Except Failure Unit} {i : ℕ} :
    (i : ℕ∞) ≤ firstSettled ends ↔ ∀ j < i, Retriable (ends j) := by
  constructor
  · intro before j less
    by_contra settled
    have least : (i : ℕ∞) ≤ j := before.trans (firstSettled_le settled)
    exact absurd (Nat.cast_le.mp least) (Nat.not_le.mpr less)
  · intro retriable
    refine le_sInf ?_
    rintro _ ⟨j, settled, rfl⟩
    refine Nat.cast_le.mpr (Nat.le_of_not_lt fun less => settled (retriable j less))

namespace Step

variable {σ : Type} (a : Act σ Unit)

/-! ## Attempts -/

/-- The state after a number of attempts, whatever came of them. -/
def afterAttempts (s : σ) (i : ℕ) : σ :=
  (fun t => (a.outcome t).2)^[i] s

/-- The ends of the attempts that begin in a state, one after the other. -/
def attempts (s : σ) (i : ℕ) : Except Failure Unit :=
  (a.outcome (a.afterAttempts s i)).1

/-- The act, with a count of how often it is called. -/
def counted : Act (σ × ℕ) Unit :=
  ofFunction fun s => let (r, t) := a.outcome s.1; (r, t, s.2 + 1)

/-- The act whose attempts end as given; the state is the number of attempts made. -/
def following (ends : ℕ → Except Failure Unit) : Act ℕ Unit :=
  ofFunction fun i => (ends i, i + 1)

theorem attempts_following (ends : ℕ → Except Failure Unit) :
    (following ends).attempts 0 = ends := by
  funext i
  have made : (following ends).afterAttempts 0 i = i := Nat.succ_iterate 0 i |>.trans (zero_add i)
  rw [attempts, made]
  rfl

theorem counted_afterAttempts (s : σ) (n i : ℕ) :
    a.counted.afterAttempts (s, n) i = (a.afterAttempts s i, n + i) := by
  induction i generalizing s n with
  | zero => rfl
  | succ i ih =>
    refine (ih (a.outcome s).2 (n + 1)).trans ?_
    rw [Nat.add_right_comm]
    rfl

theorem counted_attempts (s : σ) (n : ℕ) : a.counted.attempts (s, n) = a.attempts s := by
  funext i
  rw [attempts, counted_afterAttempts]
  rfl

/-! ## Retries -/

/-- Without retries the first end is the last one. -/
theorem retrying_zero (s : σ) : (a.retrying 0).outcome s =
    ((a.attempts s 0).mapError Failure.terminal, a.afterAttempts s 1) :=
  outcome_mapError Failure.terminal a s

variable {a} in
/-- So is a first end that stands. -/
theorem retrying_of_settled {s : σ} (settled : ¬ Retriable (a.attempts s 0)) (retries : ℕ) :
    (a.retrying retries).outcome s =
      ((a.attempts s 0).mapError Failure.terminal, a.afterAttempts s 1) := by
  cases retries with
  | zero => exact a.retrying_zero s
  | succ retries =>
    rw [retrying, outcome_ofFunction]
    show _ = ((a.outcome s).1.mapError Failure.terminal, (a.outcome s).2)
    rcases first : a.outcome s with ⟨e | ⟨⟩, t⟩
    · have terminal : e.recoverable ≠ true := fun h => settled ⟨e, congrArg Prod.fst first, h⟩
      exact if_neg terminal
    · rfl

variable {a} in
/-- After a recoverable failure the attempts go on, with one retry less. -/
theorem retrying_of_retriable {s : σ} (retriable : Retriable (a.attempts s 0)) (retries : ℕ) :
    (a.retrying (retries + 1)).outcome s = (a.retrying retries).outcome (a.afterAttempts s 1) := by
  obtain ⟨e, failed, recoverable⟩ := retriable
  have first : a.outcome s = (.error e, a.afterAttempts s 1) := Prod.ext failed rfl
  rw [retrying, outcome_ofFunction, first]
  exact if_pos recoverable

/-- The last attempt is the first one whose end stands, or the one after the last retry. -/
theorem retrying_stops (s : σ) (retries : ℕ) :
    ∃ i ≤ retries, (∀ j < i, Retriable (a.attempts s j)) ∧
      (i = retries ∨ ¬ Retriable (a.attempts s i)) ∧
      (a.retrying retries).outcome s =
        ((a.attempts s i).mapError Failure.terminal, a.afterAttempts s (i + 1)) := by
  induction retries generalizing s with
  | zero => exact ⟨0, le_rfl, fun j none => absurd none j.not_lt_zero, .inl rfl, a.retrying_zero s⟩
  | succ retries ih =>
    by_cases retriable : Retriable (a.attempts s 0)
    · obtain ⟨i, bound, before, last, ended⟩ := ih (a.afterAttempts s 1)
      refine ⟨i + 1, Nat.succ_le_succ bound, fun j less => ?_, last.imp_left (congrArg Nat.succ),
        (retrying_of_retriable retriable retries).trans ended⟩
      cases j with
      | zero => exact retriable
      | succ j => exact before j (Nat.lt_of_succ_lt_succ less)
    · exact ⟨0, Nat.zero_le _, fun j none => absurd none j.not_lt_zero, .inr retriable,
        retrying_of_settled retriable _⟩

/-- The number of the last attempt is the lesser of the number of retries and the number of the
first end that stands. -/
theorem retrying_last (s : σ) (retries : ℕ) :
    ∃ i : ℕ, (i : ℕ∞) = min (firstSettled (a.attempts s)) retries ∧
      (a.retrying retries).outcome s =
        ((a.attempts s i).mapError Failure.terminal, a.afterAttempts s (i + 1)) := by
  obtain ⟨i, bound, before, last, ended⟩ := a.retrying_stops s retries
  have reached : (i : ℕ∞) ≤ firstSettled (a.attempts s) := le_firstSettled_iff.mpr before
  refine ⟨i, ?_, ended⟩
  rcases last with rfl | settled
  · exact (min_eq_right reached).symm
  · have first : (i : ℕ∞) = firstSettled (a.attempts s) :=
      reached.antisymm (firstSettled_le settled)
    rw [← first]
    exact (min_eq_left (Nat.cast_le.mpr bound)).symm

/-- An act is called once more than the lesser of the number of retries and the number of the
first end that is no recoverable failure. The result is `ok` if that end is reached and is `ok`;
else it is the last failure made terminal, with all else about it as it was. -/
theorem retrying_bounded (s : σ) (retries : ℕ) :
    ∃ r calls, (a.retrying retries).outcome s = (r, a.afterAttempts s calls) ∧
      (a.counted.retrying retries).outcome (s, 0) = (r, a.afterAttempts s calls, calls) ∧
      (calls : ℕ∞) = min (firstSettled (a.attempts s)) retries + 1 ∧
      (r = .ok () ↔ firstSettled (a.attempts s) ≤ retries ∧
        ∃ k : ℕ, firstSettled (a.attempts s) = k ∧ a.attempts s k = .ok ()) ∧
      (r ≠ .ok () → ∃ last f, a.attempts s (calls - 1) = .error last ∧ r = .error f ∧
        f.recoverable = false ∧ f.code = last.code ∧ f.message = last.message ∧
        f.notifiable = last.notifiable ∧ f.causes = last.causes) := by
  obtain ⟨i, least, ended⟩ := a.retrying_last s retries
  obtain ⟨i', least', counting⟩ := a.counted.retrying_last (s, 0) retries
  rw [counted_attempts] at least' counting
  rw [counted_afterAttempts, Nat.zero_add] at counting
  obtain rfl : i' = i := Nat.cast_injective (least'.trans least.symm)
  refine ⟨_, i' + 1, ended, counting, congrArg (· + 1) least, ⟨fun ok => ?_, ?_⟩, fun failed => ?_⟩
  · have connected : a.attempts s i' = .ok () := mapError_ok ok
    have settled : ¬ Retriable (a.attempts s i') := by
      rintro ⟨e, same, -⟩
      cases connected.symm.trans same
    have first : firstSettled (a.attempts s) = i' :=
      (firstSettled_le settled).antisymm (least.trans_le (min_le_left _ _))
    exact ⟨first.trans_le (least.trans_le (min_le_right _ _)), i', first, connected⟩
  · rintro ⟨reached, k, first, connected⟩
    rw [min_eq_left reached, first] at least
    rw [Nat.cast_injective least, connected]
    rfl
  · rcases end_ : a.attempts s i' with e | ⟨⟩
    · exact ⟨e, e.terminal, end_, rfl, rfl, rfl, rfl, rfl, rfl⟩
    · rw [end_] at failed
      exact absurd rfl failed

/-- A connection that is refused twice and then made takes three calls. -/
example : ((following fun i => if i < 2 then .error (.new 5 "refused") else .ok ()).retrying
    3).outcome 0 = (.ok (), 3) := by
  rfl

end Step

end EventWorker
