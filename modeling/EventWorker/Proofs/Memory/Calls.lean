import EventWorker.Proofs.MemoryHistory

/-!
# What a memory holds

After any calls a memory is told from the calls alone: the keys that appeared since it was
emptied, each with what was pushed under it and not taken since.

Result: `called_holds`.
-/

namespace EventWorker.Memory

variable {α : Type}

/-- The calls that change a memory. -/
inductive Call (α : Type)
  | push (key : String) (value : α)
  | pushAll (key : String) (values : List α)
  | touch (key : String)
  | pop (key : String)
  | empty
  deriving DecidableEq, Repr

/-- What a call does: a single push and a touch append one value and none. -/
def Call.op : Call α → Op α
  | .push key value => .append key [value]
  | .pushAll key values => .append key values
  | .touch key => .append key []
  | .pop key => .pop key
  | .empty => .clear

/-- The memory after a call. -/
def call (m : Memory α) : Call α → Memory α
  | .push key value => m.push key value
  | .pushAll key values => m.pushAll key values
  | .touch key => m.touch key
  | .pop key => (m.pop key).2
  | .empty => {}

/-- The memory after calls on an empty one. -/
def called (calls : List (Call α)) : Memory α :=
  calls.foldl call {}

theorem call_eq (m : Memory α) (c : Call α) : m.call c = m.apply c.op := by
  cases c <;> rfl

theorem called_eq (calls : List (Call α)) : called calls = run {} (calls.map Call.op) := by
  have same : call = fun (m : Memory α) c => m.apply c.op := funext fun m => funext m.call_eq
  rw [called, run, List.foldl_map, same]

/-- After any calls the keys are those that were pushed to or touched since the memory was last
emptied, each once, in order of first appearance, and taking the values of a key changes none of
them. Under a key is what was pushed there since it was last taken, in order, and this is what
taking gives. The pairs, the values and their number are told from the keys and what is under
them. -/
theorem called_holds (calls : List (Call α)) :
    (called calls).keys = appeared (calls.map Call.op) ∧ (called calls).keys.Nodup ∧
      (∀ key, (called (calls ++ [.pop key])).keys = (called calls).keys) ∧
      (∀ key, (called calls).get key = pushed key (calls.map Call.op)) ∧
      (∀ key, ((called calls).pop key).1 = pushed key (calls.map Call.op)) ∧
      (called calls).items = (called calls).keys.map (fun key => (key, (called calls).get key)) ∧
      (called calls).values = (called calls).keys.flatMap (called calls).get ∧
      (called calls).size = (called calls).values.length ∧
      ((called calls).isEmpty = true ↔ (called calls).values = []) := by
  refine ⟨?_, (called calls).aligned.once, fun key => ?_, fun key => ?_, fun key => ?_, rfl,
    List.flatMap_map _ _ _, (called calls).size_eq, ?_⟩
  · rw [called_eq, keys_run]
  · rw [called, List.foldl_append]
    exact keys_pop _ key
  · rw [called_eq, get_run]
  · rw [fst_pop, called_eq, get_run]
  · rw [isEmpty, size_eq, decide_eq_true_eq, List.length_eq_zero_iff]

/-- Taking the values of a key leaves it at its place, also for what is pushed there later. -/
example : (called [.push "b" 1, .push "a" 2, .pop "b", .touch "c", .pushAll "b" [3, 4]]).items =
    [("b", [3, 4]), ("a", [2]), ("c", [])] := by
  decide

end EventWorker.Memory
