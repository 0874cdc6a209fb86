import EventWorker.Proofs.Memory
import Mathlib.Data.List.Induction

/-!
# Histories of a pipeline memory

What is held by a memory after values were pushed, keys were taken and everything was
dropped, in any order, told from that history alone.

Results:
1. `get_run`: under a key is what was pushed there and not taken since.
2. `keys_run`: the keys are in the order of their first appearance.
3. `drain_run`: all that is taken at last.
-/

namespace EventWorker.Memory

variable {α : Type} {m : Memory α}

/-! ## Operations -/

/-- What can be done to a memory. -/
inductive Op (α : Type)
  | append (key : String) (values : List α)
  | pop (key : String)
  | clear
  deriving DecidableEq, Repr

namespace Op

/-- The key that appears. -/
def appears? : Op α → Option String
  | .append key _ => some key
  | _ => none

/-- The values that come under a key. -/
def valuesUnder (k : String) : Op α → List α
  | .append key values => if k = key then values else []
  | _ => []

/-- Nothing is left under a key. -/
def takes (k : String) : Op α → Bool
  | .append _ _ => false
  | .pop key => k = key
  | .clear => true

/-- Nothing is left, not even a key. -/
def clears : Op α → Bool
  | .clear => true
  | _ => false

end Op

/-- The memory after one operation. -/
def apply (m : Memory α) : Op α → Memory α
  | .append key values => m.pushAll key values
  | .pop key => (m.pop key).2
  | .clear => {}

/-- The memory after a history. -/
def run (m : Memory α) (history : List (Op α)) : Memory α :=
  history.foldl apply m

/-- The operations after the last one that `stop` accepts. -/
def since (stop : Op α → Bool) (history : List (Op α)) : List (Op α) :=
  (history.reverse.takeWhile fun o => !stop o).reverse

/-- The keys that appeared and were not cleared, each at the place of its first appearance. -/
def appeared (history : List (Op α)) : List String :=
  ((since Op.clears history).filterMap Op.appears?).eraseDups

/-- The values that were pushed under a key and not taken since, in order. -/
def pushed (k : String) (history : List (Op α)) : List α :=
  (since (Op.takes k) history).flatMap (Op.valuesUnder k)

/-! ## One more operation -/

theorem run_concat (m : Memory α) (history : List (Op α)) (o : Op α) :
    m.run (history ++ [o]) = (m.run history).apply o := by
  rw [run, List.foldl_append]
  rfl

theorem since_concat (stop : Op α → Bool) (history : List (Op α)) (o : Op α) :
    since stop (history ++ [o]) = if stop o then [] else since stop history ++ [o] := by
  unfold since
  rw [List.reverse_append, List.reverse_singleton, List.singleton_append]
  cases h : stop o with
  | true => simp [h]
  | false => simp [h]

theorem eraseDups_concat (keys : List String) (key : String) :
    (keys ++ [key]).eraseDups =
      if key ∈ keys.eraseDups then keys.eraseDups else keys.eraseDups ++ [key] := by
  rw [List.eraseDups_append]
  by_cases known : key ∈ keys
  · have old : [key].removeAll keys = [] := by
      rw [List.removeAll, List.filter_eq_nil_iff]
      simpa using known
    rw [if_pos (List.mem_eraseDups.mpr known), old, List.eraseDups_nil, List.append_nil]
  · have new : [key].removeAll keys = [key] := by
      rw [List.removeAll, List.filter_eq_self]
      simpa using known
    have single : [key].eraseDups = [key] := by rw [List.eraseDups_cons]; rfl
    rw [if_neg (mt List.mem_eraseDups.mp known), new, single]

theorem appeared_append (history : List (Op α)) (key : String) (values : List α) :
    appeared (history ++ [.append key values]) =
      if key ∈ appeared history then appeared history else appeared history ++ [key] := by
  unfold appeared
  rw [since_concat]
  show ((since Op.clears history ++ [Op.append key values]).filterMap _).eraseDups = _
  rw [List.filterMap_append]
  exact eraseDups_concat _ key

theorem appeared_pop (history : List (Op α)) (key : String) :
    appeared (history ++ [.pop key]) = appeared history := by
  unfold appeared
  rw [since_concat]
  show ((since Op.clears history ++ [Op.pop key]).filterMap _).eraseDups = _
  rw [List.filterMap_append]
  exact congrArg List.eraseDups (List.append_nil _)

theorem appeared_clear (history : List (Op α)) : appeared (history ++ [.clear]) = [] := by
  unfold appeared
  rw [since_concat]
  rfl

theorem pushed_concat (k : String) (history : List (Op α)) (o : Op α) :
    pushed k (history ++ [o]) =
      if o.takes k then [] else pushed k history ++ o.valuesUnder k := by
  unfold pushed
  rw [since_concat]
  split
  · rfl
  · rw [List.flatMap_append, List.flatMap_singleton]

theorem get_apply (m : Memory α) (o : Op α) (k : String) :
    (m.apply o).get k = if o.takes k then [] else m.get k ++ o.valuesUnder k := by
  cases o with
  | append key values =>
    rw [apply, get_pushAll]
    show _ = m.get k ++ if k = key then values else []
    split
    · rfl
    · rw [List.append_nil]
  | pop key =>
    rw [apply, get_pop]
    simp [Op.takes, Op.valuesUnder]
  | clear => rfl

/-! ## The whole history -/

/-- What is read under a key is what was pushed there and not taken since. -/
theorem get_run (history : List (Op α)) (k : String) :
    (run {} history).get k = pushed k history := by
  induction history using List.reverseRecOn with
  | nil => rfl
  | append_singleton history o ih => rw [run_concat, get_apply, pushed_concat, ih]

/-- The keys are those that appeared, in order of first appearance. -/
theorem keys_run (history : List (Op α)) : (run {} history).keys = appeared history := by
  induction history using List.reverseRecOn with
  | nil => rfl
  | append_singleton history o ih =>
    rw [run_concat]
    cases o with
    | append key values => rw [appeared_append, ← ih, apply, keys_pushAll]
    | pop key => rw [appeared_pop, ← ih, apply, keys_pop]
    | clear => rw [appeared_clear]; rfl

/-- After a history all that is taken is what was pushed and not taken since, the keys in
order of first appearance and the values of a key in the order in which they were pushed. -/
theorem drain_run (history : List (Op α)) :
    (run {} history).drain.1 =
      (appeared history).flatMap fun k => (pushed k history).map fun v => (k, v) := by
  rw [drain_eq, keys_run]
  simp only [get_run]

end EventWorker.Memory
