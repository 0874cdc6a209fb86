import EventWorker.Processor.Delivery
import EventWorker.Proofs.Event
import EventWorker.Proofs.Memory
import Mathlib.Data.List.Forall2

/-!
# Moving events to their sessions

`rekeyBySession` takes the waiting events out and pushes them again, each under its own session.
A session may be the label under which others wait, or the session of others that wait elsewhere.

Results:
1. `readdressed_lands`: what becomes of one event and its key.
2. `rekeyBySession_stable`: no event is lost, doubled or overtaken by another one for the same key.
-/

namespace EventWorker.Processor

variable {ω : Type}

/-- An event with a session comes under that session and loses it, and nothing else of it is
changed. An event without one stays under its key as it is. -/
def Lands (waiting moved : String × Event) : Prop :=
  let session := waiting.2.header.session
  if session = "" ∨ session = notAvailable then moved = waiting
  else moved = (session, { waiting.2 with header := { waiting.2.header with session := "" } })

theorem readdressed_lands (waiting : String × Event) : Lands waiting (readdressed waiting) := by
  unfold Lands readdressed
  by_cases sessionless : waiting.2.header.session = "" ∨ waiting.2.header.session = notAvailable
  · rw [if_pos sessionless, if_neg (mt Header.hasSession_iff.mp (not_not.mpr sessionless))]
  · rw [if_neg sessionless, if_pos (Header.hasSession_iff.mpr sessionless)]
    rfl

/-- The waiting events are taken out and pushed again. -/
theorem outcome_rekeyBySession (b : Bench ω) :
    (rekeyBySession : Act (Bench ω) Unit).outcome b =
      (.ok (), { b with
        events := b.events.drain.2.pushEach (b.events.entries.map readdressed) }) :=
  rfl

/-- `rekeyBySession` always ends and leaves the scratch data and the surroundings alone. The same
events wait afterwards, each once. Under a key wait those that land there, in the order in which all
of them waited before. -/
theorem rekeyBySession_stable (b : Bench ω) :
    ∃ c moved, (rekeyBySession : Act (Bench ω) Unit).outcome b = (.ok (), c) ∧
      List.Forall₂ Lands b.events.entries moved ∧ c.events.entries.Perm moved ∧
      (∀ k, c.events.get k = (moved.filter fun entry => entry.1 = k).map Prod.snd) ∧
      c.data = b.data ∧ c.world = b.world := by
  have lands : List.Forall₂ Lands b.events.entries (b.events.entries.map readdressed) := by
    rw [List.forall₂_map_right_iff]
    exact List.forall₂_same.mpr fun waiting _ => readdressed_lands waiting
  exact ⟨_, _, outcome_rekeyBySession b, lands, Memory.entries_refilled _ _,
    Memory.get_refilled _ _, rfl, rfl⟩

/-- Two events change places with the keys under which they wait, one has no session, and one
waits under its session already. -/
example :
    let e (session task : String) : Event := ⟨Header.plain session task "note", []⟩
    let b : Bench Unit :=
      { events := Memory.pushEach {} [("note", e "aa01" "1"), ("note", e "" "2"),
          ("aa01", e "note" "3"), ("aa01", e "aa01" "4")]
        world := () }
    let left := ((rekeyBySession : Act (Bench Unit) Unit).outcome b).2.events
    left.entries.map (fun entry => (entry.1, entry.2.header.task)) =
      [("note", "2"), ("note", "3"), ("aa01", "1"), ("aa01", "4")] := by
  decide +kernel

end EventWorker.Processor
