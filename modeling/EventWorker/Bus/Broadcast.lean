import EventWorker.Bus.Input
import EventWorker.Keyed

/-!
# The broadcast bus

Every message goes to all subscriptions that exist when it is published. The bus
retains the last messages only, as many as its capacity rounded up to a power of
two. A subscription reads the retained messages in order from where it stands,
continues with the oldest retained one when it has fallen behind, and passes over
messages for other destinations. Subscriptions are counted by destination as they come and go.
-/

namespace EventWorker

/-- A reader of a bus. -/
structure Subscription where
  id : Nat
  /-- `none` takes every message. -/
  destination : Option String
  /-- The number of messages published before the next one to read. -/
  position : Nat
  deriving DecidableEq, Repr

/-- A bus with its subscriptions. -/
structure Broadcast where
  capacity : Nat := defaultCapacity
  /-- The retained messages, oldest first. -/
  window : List Outbound := []
  /-- The number of messages that went into the window so far. -/
  total : Nat := 0
  /-- The number of writes, those that nobody could read included. -/
  published : Nat := 0
  subscriptions : List Subscription := []
  /-- The numbers of subscriptions by the name under which they are counted. -/
  counts : List (String × Nat) := []
  nextId : Nat := 0
  /-- The publishing side is gone. -/
  closed : Bool := false
  settings : Settings := {}
  deriving DecidableEq, Repr, Inhabited

/-- What one look at a bus shows a reader. -/
inductive Glance
  | message (m : Outbound)
  | empty
  | closed
  /-- Messages were pushed out of the window before the reader saw them. -/
  | lagged (lost : Nat)
  deriving DecidableEq, Repr

/-- What a reader of a bus finds. -/
inductive Delivery
  | message (m : Outbound)
  | empty
  | closed
  deriving DecidableEq, Repr

/-- The name under which wildcard subscriptions are counted. -/
def wildcard : String := "*"

namespace Subscription

/-- The subscription takes the message. -/
def takes (s : Subscription) (m : Outbound) : Bool :=
  match s.destination with
  | none => true
  | some d => d = m.destination

/-- The name under which the subscription is counted. -/
def key (s : Subscription) : String :=
  s.destination.getD wildcard

end Subscription

namespace Broadcast

/-- The number of messages retained. -/
def retained (b : Broadcast) : Nat :=
  (max 1 b.capacity).nextPowerOfTwo

/-- Counts one more under a name. -/
def countIn (key : String) (counts : List (String × Nat)) : List (String × Nat) :=
  Keyed.insert key ((Keyed.find? key counts).getD 0 + 1) counts

/-- Counts one less under a name, which goes with the last one. -/
def countOut (key : String) (counts : List (String × Nat)) : List (String × Nat) :=
  match Keyed.find? key counts with
  | none => counts
  | some n => if n - 1 = 0 then Keyed.erase key counts else Keyed.insert key (n - 1) counts

/-- Adds a subscription, which starts after the messages published so far, and
gives its id. -/
def subscribe (b : Broadcast) (destination : Option String) : Nat × Broadcast :=
  let s : Subscription := { id := b.nextId, destination, position := b.total }
  (b.nextId, { b with
    subscriptions := b.subscriptions ++ [s]
    counts := countIn s.key b.counts
    nextId := b.nextId + 1 })

/-- Removes a subscription. -/
def unsubscribe (b : Broadcast) (id : Nat) : Broadcast :=
  match b.subscriptions.find? fun s => s.id = id with
  | none => b
  | some s =>
    { b with
      subscriptions := b.subscriptions.filter fun s => decide (s.id ≠ id)
      counts := countOut s.key b.counts }

/-- Publishes a message. Without subscriptions it is only counted. -/
def publish (b : Broadcast) (m : Outbound) : Broadcast :=
  let b := { b with published := b.published + 1 }
  if b.subscriptions.isEmpty then b
  else
    let window := b.window ++ [m]
    { b with window := window.drop (window.length - b.retained), total := b.total + 1 }

/-- The number of live subscriptions counted under a name. -/
def subscriptionsFor (b : Broadcast) (key : String) : Nat :=
  (Keyed.find? key b.counts).getD 0

/-- The number of messages that were pushed out of the window. -/
def dropped (b : Broadcast) : Nat :=
  b.total - b.window.length

/-- Looks at the next message for a reader at a position, and moves the reader past it, or
to the oldest retained message when it has fallen behind. The end is shown only after all
retained messages. -/
def look (b : Broadcast) (position : Nat) : Glance × Nat :=
  if position < b.dropped then (.lagged (b.dropped - position), b.dropped)
  else
    match b.window[position - b.dropped]? with
    | some m => (.message m, position + 1)
    | none => (if b.closed then .closed else .empty, position)

/-- A reader that does not stop gets on, but not past the window. -/
theorem look_moves {b : Broadcast} {position next : Nat} {g : Glance}
    (h : b.look position = (g, next)) (on : (∃ m, g = .message m) ∨ ∃ lost, g = .lagged lost) :
    position < next ∧ next ≤ b.dropped + b.window.length := by
  rw [look] at h
  split at h
  · next behind =>
    cases h
    exact ⟨behind, Nat.le_add_right _ _⟩
  · next current =>
    split at h
    · next m there =>
      cases h
      have inside := (List.getElem?_eq_some_iff.mp there).1
      omega
    · cases h
      split at on <;> simp at on

/-- Reads on until there is a message that the subscription takes, or none. -/
def read (b : Broadcast) (s : Subscription) (position : Nat) : Delivery × Nat :=
  match shown : b.look position with
  | (.message m, next) =>
    have _ := look_moves shown (.inl ⟨m, rfl⟩)
    if s.takes m then (.message m, next) else b.read s next
  | (.lagged lost, next) =>
    have _ := look_moves shown (.inr ⟨lost, rfl⟩)
    b.read s next
  | (.empty, next) => (.empty, next)
  | (.closed, next) => (.closed, next)
termination_by b.dropped + b.window.length - position

/-- Reads the next message that a subscription takes. -/
def receive (b : Broadcast) (id : Nat) : Option (Delivery × Broadcast) :=
  (b.subscriptions.find? fun s => s.id = id).map fun s =>
    let (found, position) := b.read s s.position
    (found, { b with subscriptions := b.subscriptions.map fun t =>
        if t.id = id then { t with position } else t })

/-- Lets go of the publishing side. -/
def close (b : Broadcast) : Broadcast :=
  { b with closed := true }

end Broadcast

end EventWorker
