import EventWorker.Bus.Broadcast
import Mathlib.Data.List.Basic

/-!
# Histories of a bus

What happens on a bus, step by step, and what is told from it: the messages published, the
subscriptions that are live, and what a subscription finds at each of its calls.

Results:
1. `concat_eq_append_cons`: the places in a list that is one longer.
2. `publications_concat`, `finds_concat`: what one more occurrence adds.
-/

namespace EventWorker.Broadcast

/-! ## Histories -/

/-- What happens on a bus. -/
inductive Occurrence
  | subscribed (id : Nat) (destination : Option String)
  | published (m : Outbound)
  | received (id : Nat) (found : Delivery)
  | unsubscribed (id : Nat)
  | closed
  deriving DecidableEq, Repr

/-- A step of a bus. Nobody subscribes or publishes when the publishing side is gone, and only live
subscriptions are read or end. -/
inductive Happens : Broadcast → Occurrence → Broadcast → Prop
  | subscribed {b : Broadcast} (destination : Option String) : b.closed = false →
      Happens b (.subscribed (b.subscribe destination).1 destination) (b.subscribe destination).2
  | published {b : Broadcast} (m : Outbound) : b.closed = false →
      Happens b (.published m) (b.publish m)
  | received {b b' : Broadcast} {id : Nat} {found : Delivery} :
      b.receive id = some (found, b') → Happens b (.received id found) b'
  | unsubscribed {b : Broadcast} {s : Subscription} : s ∈ b.subscriptions →
      Happens b (.unsubscribed s.id) (b.unsubscribe s.id)
  | closed {b : Broadcast} : b.closed = false → Happens b .closed b.close

/-- What happened on a new bus of some capacity, and the bus after it. -/
inductive History (capacity : Nat) : List Occurrence → Broadcast → Prop
  | start : History capacity [] { capacity }
  | next {history : List Occurrence} {b b' : Broadcast} {o : Occurrence} :
      History capacity history b → Happens b o b' → History capacity (history ++ [o]) b'

/-- The message that is published. -/
def Occurrence.message? : Occurrence → Option Outbound
  | .published m => some m
  | _ => none

/-- The subscription that is made. -/
def Occurrence.subscription? : Occurrence → Option (Nat × Option String)
  | .subscribed id destination => some (id, destination)
  | _ => none

/-- The id of the subscription that is made or ends. -/
def Occurrence.names? : Occurrence → Option Nat
  | .subscribed id _ => some id
  | .unsubscribed id => some id
  | _ => none

/-- The messages published, in order. -/
def publications (history : List Occurrence) : List Outbound :=
  history.filterMap Occurrence.message?

/-- The subscriptions that were made and have not ended, with their destinations. -/
def live (history : List Occurrence) : List (Nat × Option String) :=
  (history.filterMap Occurrence.subscription?).filter fun s => .unsubscribed s.1 ∉ history

/-- A call of a subscription finds something when `earlier` has happened. -/
def Finds (id : Nat) (history earlier : List Occurrence) (found : Delivery) : Prop :=
  ∃ later, history = earlier ++ .received id found :: later

/-! ## One more occurrence -/

theorem concat_eq_append_cons {α : Type} {xs ys zs : List α} {x y : α} :
    xs ++ [x] = ys ++ y :: zs ↔
      (zs = [] ∧ ys = xs ∧ y = x) ∨ ∃ zs', zs = zs' ++ [x] ∧ xs = ys ++ y :: zs' := by
  constructor
  · intro same
    rcases List.eq_nil_or_concat zs with rfl | ⟨zs', z, rfl⟩
    · obtain ⟨rfl, last⟩ := List.append_inj' same rfl
      exact .inl ⟨rfl, rfl, (List.singleton_inj.mp last).symm⟩
    · rw [List.concat_eq_append, ← List.cons_append, ← List.append_assoc] at same
      obtain ⟨rfl, last⟩ := List.append_inj' same rfl
      rw [List.singleton_inj.mp last]
      exact .inr ⟨zs', List.concat_eq_append, rfl⟩
  · rintro (⟨rfl, rfl, rfl⟩ | ⟨zs', rfl, rfl⟩)
    · rfl
    · simp

theorem publications_concat (history : List Occurrence) (o : Occurrence) :
    publications (history ++ [o]) = publications history ++ o.message?.toList := by
  rw [publications, List.filterMap_append]
  cases h : o.message? <;> simp [publications, h]

/-- What is no publication adds none. -/
theorem publications_idle {o : Occurrence} (unpublished : o.message? = none)
    (history : List Occurrence) : publications (history ++ [o]) = publications history := by
  rw [publications_concat, unpublished]
  exact List.append_nil _

/-! ## Live subscriptions -/

section Live

variable {history : List Occurrence} {o : Occurrence} {id : Nat} {destination : Option String}

theorem live_idle (idle : o.names? = none) : live (history ++ [o]) = live history := by
  have unmade : o.subscription? = none := by
    cases o <;> first | rfl | cases idle
  have unended : ∀ id, .unsubscribed id ≠ o := by
    rintro id rfl
    cases idle
  rw [live, List.filterMap_append, List.filterMap_cons_none unmade]
  refine (congrArg _ (List.append_nil _)).trans (List.filter_congr fun s _ => ?_)
  simp [unended s.1]

theorem live_subscribed (new : .unsubscribed id ∉ history) :
    live (history ++ [.subscribed id destination]) = live history ++ [(id, destination)] := by
  have same : ∀ id', (.unsubscribed id' ∉ history ++ [.subscribed id destination]) ↔
      .unsubscribed id' ∉ history := by simp
  rw [live, List.filterMap_append]
  simp only [same]
  rw [List.filter_append]
  exact congrArg _ (List.filter_cons_of_pos (decide_eq_true new))

theorem live_unsubscribed : live (history ++ [.unsubscribed id]) =
    (live history).filter fun s => s.1 ≠ id := by
  have fewer : ∀ id', (.unsubscribed id' ∉ history ++ [.unsubscribed id]) ↔
      id' ≠ id ∧ .unsubscribed id' ∉ history := by simp [and_comm]
  rw [live, live, List.filterMap_append, List.filter_filter]
  refine (congrArg _ (List.append_nil _)).trans (List.filter_congr fun s _ => ?_)
  simp only [fewer, Bool.decide_and]

end Live

/-! ## Calls -/

section Finds

variable {id : Nat} {history earlier : List Occurrence} {found : Delivery} {o : Occurrence}

theorem finds_concat : Finds id (history ++ [o]) earlier found ↔
    Finds id history earlier found ∨ (earlier = history ∧ o = .received id found) := by
  constructor
  · rintro ⟨later, same⟩
    rcases concat_eq_append_cons.mp same with ⟨-, rfl, rfl⟩ | ⟨later', -, same⟩
    · exact .inr ⟨rfl, rfl⟩
    · exact .inl ⟨later', same⟩
  · rintro (⟨later, rfl⟩ | ⟨rfl, rfl⟩)
    · exact ⟨later ++ [o], by simp⟩
    · exact ⟨[], rfl⟩

theorem finds_concat_of_ne (other : ∀ found, o ≠ .received id found) :
    Finds id (history ++ [o]) earlier found ↔ Finds id history earlier found := by
  rw [finds_concat]
  exact or_iff_left fun h => other found h.2

theorem Finds.length_lt (h : Finds id history earlier found) : earlier.length < history.length := by
  obtain ⟨later, rfl⟩ := h
  rw [List.length_append, List.length_cons]
  omega

theorem Finds.publications_prefix (h : Finds id history earlier found) :
    publications earlier <+: publications history := by
  obtain ⟨later, rfl⟩ := h
  rw [publications, publications, List.filterMap_append]
  exact List.prefix_append _ _

end Finds

end EventWorker.Broadcast
