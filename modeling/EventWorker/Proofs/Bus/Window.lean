import EventWorker.Bus.Broadcast

/-!
# The window of a bus

What a bus retains, told from all the messages that were ever sent through it, and what a reader
at a place among them finds there.

Results:
1. `Holds.publish`: a message that is sent comes last in the window and may push out the first.
2. `Holds.unread`: what a reader has still to see.
3. `firstTaken?_eq_some`, `firstTaken?_eq_none`: the first message for a reader.
4. `read_eq`: a reader stops at that message, however often it looks before.
5. `receive_eq_some`: what a call finds, and where it leaves the reader.
-/

namespace EventWorker.Broadcast

/-- The window has the last of the messages sent, as many as the bus retains. -/
structure Holds (b : Broadcast) (sent : List Outbound) : Prop where
  total : b.total = sent.length
  window : b.window = sent.drop (sent.length - b.retained)

theorem Holds.fresh (capacity : Nat) : Holds { capacity } [] :=
  ⟨rfl, List.drop_nil.symm⟩

/-- Of a window to which a message is added the last ones are kept. -/
theorem drop_window (sent : List Outbound) (m : Outbound) (size : Nat) :
    let window := sent.drop (sent.length - size) ++ [m]
    window.drop (window.length - size) = (sent ++ [m]).drop ((sent ++ [m]).length - size) := by
  intro window
  have whole : window = (sent ++ [m]).drop (sent.length - size) :=
    (List.drop_append_of_le_length (Nat.sub_le _ _)).symm
  rw [whole, List.drop_drop, List.length_drop, List.length_append, List.length_singleton]
  congr 1
  omega

variable {b : Broadcast} {sent : List Outbound}

/-- A message without subscriptions is only counted. -/
theorem publish_unheard (unheard : b.subscriptions = []) (m : Outbound) :
    b.publish m = { b with published := b.published + 1 } := by
  rw [Broadcast.publish]
  exact if_pos (List.isEmpty_iff.mpr unheard)

theorem publish_heard (heard : b.subscriptions ≠ []) (m : Outbound) :
    b.publish m =
      { b with
        window := (b.window ++ [m]).drop ((b.window ++ [m]).length - b.retained)
        total := b.total + 1
        published := b.published + 1 } := by
  rw [Broadcast.publish]
  exact if_neg (mt List.isEmpty_iff.mp heard)

theorem Holds.publish (h : b.Holds sent) (heard : b.subscriptions ≠ []) (m : Outbound) :
    (b.publish m).Holds (sent ++ [m]) := by
  have kept := drop_window sent m b.retained
  rw [← h.window] at kept
  rw [publish_heard heard]
  have longer : (sent ++ [m]).length = sent.length + 1 := List.length_append
  exact ⟨(congrArg (· + 1) h.total).trans longer.symm, kept⟩

/-- The messages that a reader at a position has still to see, oldest first. -/
def unread (b : Broadcast) (position : Nat) : List Outbound :=
  b.window.drop (position - b.dropped)

/-- A reader continues where it stands, or with the oldest message retained if that is later. The
place is counted from the messages after some earlier ones. -/
theorem Holds.unread {early late : List Outbound} (h : b.Holds (early ++ late)) (next : Nat) :
    b.unread (early.length + next) = late.drop (max next (late.length - b.retained)) := by
  rw [Broadcast.unread, dropped, h.window, h.total, List.drop_drop, List.length_drop,
    List.length_append]
  have place : early.length + late.length - b.retained +
      (early.length + next - (early.length + late.length -
        (early.length + late.length - (early.length + late.length - b.retained)))) =
      early.length + max next (late.length - b.retained) := by
    omega
  rw [place, List.drop_append, List.drop_eq_nil_of_le (Nat.le_add_right _ _), List.nil_append,
    Nat.add_sub_cancel_left]

theorem Holds.window_le (h : b.Holds sent) : b.window.length ≤ b.total := by
  rw [h.window, h.total, List.length_drop]
  exact Nat.sub_le _ _

/-! ## The message at which a reader stops -/

variable {s : Subscription} {m : Outbound}

/-- The first message that a subscription takes, with those after it. -/
def firstTaken? (s : Subscription) : List Outbound → Option (Outbound × List Outbound)
  | [] => none
  | m :: rest => if s.takes m then some (m, rest) else firstTaken? s rest

theorem firstTaken?_eq_some {xs rest : List Outbound} (h : firstTaken? s xs = some (m, rest)) :
    ∃ i, xs[i]? = some m ∧ rest = xs.drop (i + 1) ∧ s.takes m = true ∧
      ∀ k < i, ∀ other, xs[k]? = some other → s.takes other = false := by
  induction xs with
  | nil => cases h
  | cons x xs ih =>
    rw [firstTaken?] at h
    split at h
    · next taken =>
      cases h
      exact ⟨0, rfl, rfl, taken, fun k none => absurd none k.not_lt_zero⟩
    · next refused =>
      obtain ⟨i, here, after, taken, before⟩ := ih h
      refine ⟨i + 1, here, after, taken, fun k less other there => ?_⟩
      cases k with
      | zero =>
        cases there
        exact Bool.eq_false_iff.mpr refused
      | succ k => exact before k (Nat.lt_of_succ_lt_succ less) other there

theorem firstTaken?_eq_none {xs : List Outbound} (h : firstTaken? s xs = none) :
    ∀ other ∈ xs, s.takes other = false := by
  induction xs with
  | nil => exact fun _ none => absurd none List.not_mem_nil
  | cons x xs ih =>
    rw [firstTaken?] at h
    split at h
    · cases h
    · next refused => exact List.forall_mem_cons.mpr ⟨Bool.eq_false_iff.mpr refused, ih h⟩

/-! ## Looks -/

section Look

variable {position next : Nat}

theorem look_eq_message (h : b.look position = (.message m, next)) :
    b.dropped < next ∧ next ≤ b.dropped + b.window.length ∧
      b.unread position = m :: b.unread next := by
  obtain ⟨-, inside⟩ := look_moves h (.inl ⟨m, rfl⟩)
  rw [look] at h
  split at h
  · cases h
  · next current =>
    split at h
    · next there =>
      cases h
      obtain ⟨bound, here⟩ := List.getElem?_eq_some_iff.mp there
      have after : position + 1 - b.dropped = position - b.dropped + 1 := by omega
      refine ⟨by omega, inside, ?_⟩
      rw [unread, unread, after, ← here, List.drop_eq_getElem_cons bound]
    · split at h <;> cases h

/-- A reader that has fallen behind has the whole window before it. -/
theorem look_eq_lagged {lost : Nat} (h : b.look position = (.lagged lost, next)) :
    next = b.dropped ∧ b.unread position = b.unread next := by
  rw [look] at h
  split at h
  · next behind =>
    cases h
    exact ⟨rfl, by rw [unread, unread, Nat.sub_eq_zero_of_le (Nat.le_of_lt behind), Nat.sub_self]⟩
  · split at h
    · cases h
    · split at h <;> cases h

/-- Without a message there is none to be seen. -/
theorem look_eq_end {g : Glance} (h : b.look position = (g, next))
    (ended : g = .empty ∨ g = .closed) :
    next = position ∧ b.dropped + b.window.length ≤ position ∧ b.unread position = [] ∧
      (g = .closed ↔ b.closed = true) := by
  rw [look] at h
  split at h
  · cases h
    rcases ended with ended | ended <;> cases ended
  · next current =>
    split at h
    · cases h
      rcases ended with ended | ended <;> cases ended
    · next none =>
      have passed := List.getElem?_eq_none_iff.mp none
      cases h
      refine ⟨rfl, by omega, List.drop_eq_nil_of_le passed, ?_⟩
      cases b.closed <;> simp

/-- However often a reader looks, it stops after the first message for it that it has not seen, or
at the end. -/
theorem read_eq (s : Subscription) (full : b.window.length ≤ b.total) (behind : position ≤ b.total) :
    b.read s position =
      match firstTaken? s (b.unread position) with
      | some (m, rest) => (.message m, b.total - rest.length)
      | none => (if b.closed then .closed else .empty, b.total) := by
  have total : b.total = b.dropped + b.window.length := (Nat.sub_add_cancel full).symm
  fun_induction b.read s position with
  | case1 position m next shown moves taken =>
    obtain ⟨beyond, inside, unread⟩ := look_eq_message shown
    have rest : (b.unread next).length = b.window.length - (next - b.dropped) := List.length_drop
    rw [unread, firstTaken?, if_pos taken]
    show (Delivery.message m, next) = (.message m, b.total - (b.unread next).length)
    congr 1
    omega
  | case2 position m next shown moves refused ih =>
    obtain ⟨-, inside, unread⟩ := look_eq_message shown
    rw [unread, firstTaken?, if_neg refused]
    exact ih (total ▸ inside)
  | case3 position lost next shown moves ih =>
    obtain ⟨oldest, same⟩ := look_eq_lagged shown
    rw [same]
    exact ih (oldest ▸ Nat.sub_le _ _)
  | case4 position next shown =>
    obtain ⟨rfl, passed, none, ended⟩ := look_eq_end shown (.inl rfl)
    rw [none, firstTaken?, if_neg (mt ended.mpr nofun), total, Nat.le_antisymm passed (total ▸ behind)]
  | case5 position next shown =>
    obtain ⟨rfl, passed, none, ended⟩ := look_eq_end shown (.inr rfl)
    rw [none, firstTaken?, if_pos (ended.mp rfl), total, Nat.le_antisymm passed (total ▸ behind)]

/-- The end is found only when the publishing side is gone. -/
theorem closed_of_read {s : Subscription} (h : (b.read s position).1 = .closed) :
    b.closed = true := by
  fun_induction b.read s position with
  | case1 => cases h
  | case2 _ _ _ _ _ _ ih => exact ih h
  | case3 _ _ _ _ _ ih => exact ih h
  | case4 => cases h
  | case5 position next shown => exact (look_eq_end shown (.inr rfl)).2.2.2.mp rfl

end Look

/-! ## Calls -/

/-- The bus with the readers of an id at another place. -/
def moved (b : Broadcast) (id position : Nat) : Broadcast :=
  { b with subscriptions := b.subscriptions.map fun t =>
      if t.id = id then { t with position } else t }

theorem receive_eq_some {b' : Broadcast} {id : Nat} {found : Delivery}
    (h : b.receive id = some (found, b')) :
    ∃ s ∈ b.subscriptions, s.id = id ∧ ∃ position,
      b.read s s.position = (found, position) ∧ b' = b.moved id position := by
  obtain ⟨s, here, answered⟩ := Option.map_eq_some_iff.mp h
  have named : s.id = id := by simpa using List.find?_some here
  refine ⟨s, List.mem_of_find?_eq_some here, named, (b.read s s.position).2, ?_⟩
  cases answered
  exact ⟨rfl, rfl⟩

theorem closed_of_receive {b' : Broadcast} {id : Nat} (h : b.receive id = some (.closed, b')) :
    b.closed = true := by
  obtain ⟨s, -, -, position, ended, -⟩ := receive_eq_some h
  exact closed_of_read (congrArg Prod.fst ended)

theorem exists_find?_id {s : Subscription} {xs : List Subscription} (h : s ∈ xs) :
    ∃ t, (xs.find? fun t => t.id = s.id) = some t :=
  Option.isSome_iff_exists.mp (List.find?_isSome.mpr ⟨s, h, by simp⟩)

/-- A reader of the bus always finds something. -/
theorem exists_receive (b : Broadcast) {s : Subscription} (h : s ∈ b.subscriptions) :
    ∃ found b', b.receive s.id = some (found, b') := by
  obtain ⟨t, here⟩ := exists_find?_id h
  rw [receive, here]
  exact ⟨_, _, rfl⟩

end EventWorker.Broadcast
