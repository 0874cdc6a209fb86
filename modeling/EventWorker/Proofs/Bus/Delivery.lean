import EventWorker.Proofs.Bus.Counts
import EventWorker.Proofs.Bus.Reader

/-!
# What subscriptions receive

A bus moves its readers as they are to be moved and counts them as they are to be counted, from
step to step and so in every history.

Results:
1. `stops_at`, `stops_at_end`: a call stops where a reader is to stop.
2. `Served.receive`: what a call gives to the subscription that is read.
3. `Happens.told`: what one more step on the bus leaves of the invariant `Told`.
4. `History.delivers`: what was received, what was missed and what is counted after any history.
-/

namespace EventWorker.Broadcast

variable {size : Nat} {destination : Option String} {id : Nat} {before after : List Occurrence}
  {next : Nat} {o : Occurrence}

/-! ## Calls -/

theorem takes_iff {s : Subscription} {m : Outbound} :
    s.takes m = true ↔ Wants s.destination m := by
  rw [Subscription.takes, Wants]
  cases s.destination with
  | none => simp
  | some d => simp

/-- A call stops after the first message in the window that is for the reader. -/
theorem stops_at {s : Subscription} {pubs rest : List Outbound} {m : Outbound}
    (first : firstTaken? s (pubs.drop (max next (pubs.length - size))) = some (m, rest)) :
    ∃ place < pubs.length, rest = pubs.drop (place + 1) ∧
      Stops size s.destination pubs next (.message m) place (place + 1) := by
  obtain ⟨i, there, rfl, taken, refused⟩ := firstTaken?_eq_some first
  rw [List.getElem?_drop] at there
  have inside := (List.getElem?_eq_some_iff.mp there).1
  refine ⟨max next (pubs.length - size) + i, inside, ?_, by omega, inside, ?_, ?_, ?_⟩
  · rw [List.drop_drop, Nat.add_assoc]
  · rintro _ ⟨⟩
    exact ⟨there, takes_iff.mp taken, by omega, rfl⟩
  · exact fun without => absurd rfl (without m)
  · intro j m' onward less kept here wants
    refine ⟨⟨m, rfl⟩, ?_⟩
    -- A message before the place is none that the reader takes.
    by_contra other
    obtain ⟨k, rfl⟩ : ∃ k, j = max next (pubs.length - size) + k :=
      Nat.exists_eq_add_of_le (by omega)
    have refuses := refused k (by omega) m' (by rw [List.getElem?_drop]; exact here)
    rw [takes_iff.mpr wants] at refuses
    cases refuses

/-- Without such a message it stops at the end. -/
theorem stops_at_end {s : Subscription} {pubs : List Outbound} {found : Delivery}
    (behind : next ≤ pubs.length) (without : ∀ m, found ≠ .message m)
    (first : firstTaken? s (pubs.drop (max next (pubs.length - size))) = none) :
    Stops size s.destination pubs next found 0 pubs.length := by
  refine ⟨behind, Nat.le_refl _, fun message => absurd message (without _), fun _ => rfl, ?_⟩
  intro j m onward less kept here wants
  obtain ⟨k, rfl⟩ : ∃ k, j = max next (pubs.length - size) + k :=
    Nat.exists_eq_add_of_le (by omega)
  have unread : m ∈ pubs.drop (max next (pubs.length - size)) :=
    List.mem_of_getElem? (List.getElem?_drop.trans here)
  have refuses := firstTaken?_eq_none first m unread
  rw [takes_iff.mpr wants] at refuses
  cases refuses

/-- What a call finds is where a reader is to stop, and there the subscription stands afterwards. -/
theorem Holds.receive {b b' : Broadcast} {found : Delivery} {sent : List Outbound}
    (h : b.Holds sent) (answer : b.receive id = some (found, b')) :
    ∃ s ∈ b.subscriptions, s.id = id ∧ ∀ early pubs next, sent = early ++ pubs →
      s.position = early.length + next → next ≤ pubs.length →
      ∃ place next', b' = b.moved id (early.length + next') ∧
        Stops b.retained s.destination pubs next found place next' := by
  obtain ⟨s, live, named, position, ended, rfl⟩ := receive_eq_some answer
  refine ⟨s, live, named, ?_⟩
  rintro early pubs next rfl stands behind
  have total : b.total = early.length + pubs.length := h.total.trans List.length_append
  have reached : early.length + next ≤ b.total := total ▸ Nat.add_le_add_left behind _
  rw [stands, read_eq s h.window_le reached, h.unread next, total] at ended
  cases first : firstTaken? s (pubs.drop (max next (pubs.length - b.retained))) with
  | some taken =>
    obtain ⟨m, rest⟩ := taken
    rw [first] at ended
    cases ended
    obtain ⟨place, inside, rfl, stops⟩ := stops_at first
    refine ⟨place, place + 1, ?_, stops⟩
    rw [List.length_drop]
    congr 1
    omega
  | none =>
    rw [first] at ended
    cases ended
    refine ⟨0, pubs.length, rfl, stops_at_end behind (fun m message => ?_) first⟩
    split at message <;> cases message

/-- A live subscription stands where its reader does, counted from the messages that were sent
before it was made. -/
def Stands (size : Nat) (sent : List Outbound) (destination : Option String) (id : Nat)
    (after : List Occurrence) (number : List Occurrence → Nat) (s : Subscription) : Prop :=
  s.destination = destination ∧ ∃ early next, sent = early ++ publications after ∧
    s.position = early.length + next ∧ Reader size destination id after number next

/-- A subscription was given what it is to be given, and stands where it is to stand if it is
live. -/
def Served (size : Nat) (b : Broadcast) (sent : List Outbound) (destination : Option String)
    (id : Nat) (before after : List Occurrence) : Prop :=
  ∃ number, Delivered size destination id before after number ∧
    ∀ s ∈ b.subscriptions, s.id = id → Stands size sent destination id after number s

section Served

variable {b b' : Broadcast} {sent sent' : List Outbound}

theorem Served.start (live : ∀ s ∈ b.subscriptions, s.id = id → s.destination = destination ∧
      s.position = sent.length) :
    Served size b sent destination id before [] := by
  refine ⟨fun _ => 0, .start size destination id before _, fun s here named => ?_⟩
  obtain ⟨same, stands⟩ := live s here named
  exact ⟨same, sent, 0, (List.append_nil _).symm, stands, .start size destination id _⟩

/-- What is no call of the subscription leaves it where it is. -/
theorem Served.other (h : Served size b sent destination id before after)
    (other : ∀ found, o ≠ .received id found)
    (kept : ∀ s ∈ b'.subscriptions, s.id = id → s ∈ b.subscriptions ∧
      sent' = sent ++ o.message?.toList) :
    Served size b' sent' destination id before (after ++ [o]) := by
  obtain ⟨number, delivered, stands⟩ := h
  refine ⟨number, delivered.other other, fun s here named => ?_⟩
  obtain ⟨here, rfl⟩ := kept s here named
  obtain ⟨same, early, next, rfl, place, reader⟩ := stands s here named
  refine ⟨same, early, next, ?_, place, reader.other other⟩
  rw [publications_concat, List.append_assoc]

/-- A call gives a subscription what it is to be given next. -/
theorem Served.receive {found : Delivery} (h : Served b.retained b sent destination id before after)
    (holds : b.Holds sent) (answer : b.receive id = some (found, b'))
    (gone : b.closed = true → .closed ∈ before ++ after) :
    Served b.retained b' sent destination id before (after ++ [.received id found]) := by
  obtain ⟨number, delivered, stands⟩ := h
  obtain ⟨s, here, named, call⟩ := holds.receive answer
  obtain ⟨same, early, next, rfl, position, reader⟩ := stands s here named
  obtain ⟨place, next', rfl, stops⟩ := call early (publications after) next rfl position reader.behind
  rw [same] at stops
  have earlier_same : ∀ {earlier m}, Finds id after earlier (.message m) →
      (if earlier = after then place else number earlier) = number earlier := fun finds =>
    if_neg fun all => absurd (all ▸ finds.length_lt) (Nat.lt_irrefl _)
  have ended : found = .closed → .closed ∈ before ++ after := by
    rintro rfl
    exact gone (closed_of_receive answer)
  refine ⟨fun earlier => if earlier = after then place else number earlier,
    delivered.receive reader stops ended earlier_same (if_pos rfl), fun s' here' named' => ?_⟩
  obtain ⟨t, there, rfl⟩ := List.mem_map.mp here'
  by_cases mine : t.id = id
  · rw [if_pos mine]
    refine ⟨(stands t there mine).1, early, next', ?_, rfl,
      reader.receive stops earlier_same (if_pos rfl)⟩
    rw [publications_idle rfl]
  · rw [if_neg mine] at named'
    exact absurd named' mine

end Served

/-- What a history tells about a bus. -/
structure Told (size : Nat) (history : List Occurrence) (b : Broadcast) (sent : List Outbound) :
    Prop where
  retained : b.retained = size
  holds : b.Holds sent
  closed : b.closed = true → .closed ∈ history
  counted : b.Counted
  live : b.subscriptions.map (fun s => (s.id, s.destination)) = live history
  below : ∀ o ∈ history, ∀ id, o.names? = some id → id < b.nextId
  served : ∀ before id destination after,
    history = before ++ .subscribed id destination :: after →
      Served size b sent destination id before after

/-! ## Steps -/

section Steps

variable {b b' : Broadcast} {history : List Occurrence} {sent sent' : List Outbound}

/-- The subscriptions of a longer history: the one that it ends with, if any, and those made
before. -/
theorem served_concat
    (new : ∀ id destination, o = .subscribed id destination →
      Served size b' sent' destination id history [])
    (old : ∀ before id destination after,
      history = before ++ .subscribed id destination :: after →
        Served size b' sent' destination id before (after ++ [o])) :
    ∀ before id destination after,
      history ++ [o] = before ++ .subscribed id destination :: after →
        Served size b' sent' destination id before after := by
  intro before id destination after same
  rcases concat_eq_append_cons.mp same with ⟨rfl, rfl, rfl⟩ | ⟨after', rfl, shorter⟩
  · exact new id destination rfl
  · exact old before id destination after' shorter

theorem Told.start (capacity : Nat) :
    Told (max 1 capacity).nextPowerOfTwo [] { capacity } [] := by
  refine ⟨rfl, .fresh capacity, fun closed => absurd closed Bool.false_ne_true, .fresh capacity, rfl,
    fun _ none => absurd none List.not_mem_nil, ?_⟩
  intro before id destination after same
  exact absurd same.symm (List.append_ne_nil_of_right_ne_nil _ (List.cons_ne_nil _ _))

/-- A step with which no subscription is made or ends. -/
theorem Told.idle (h : Told size history b sent) (idle : o.names? = none)
    {f : Subscription → Subscription}
    (subscriptions : b'.subscriptions = b.subscriptions.map f) (counts : b'.counts = b.counts)
    (nextId : b'.nextId = b.nextId) (capacity : b'.capacity = b.capacity)
    (kept : ∀ s, (f s).id = s.id ∧ (f s).destination = s.destination)
    (holds : b'.Holds sent') (closed : b'.closed = true → .closed ∈ history ++ [o])
    (old : ∀ before id destination after,
      history = before ++ .subscribed id destination :: after →
        Served size b' sent' destination id before (after ++ [o])) :
    Told size (history ++ [o]) b' sent' := by
  refine ⟨?_, holds, closed, h.counted.same subscriptions counts nextId kept, ?_,
    List.forall_mem_append.mpr ⟨nextId ▸ h.below, List.forall_mem_singleton.mpr ?_⟩,
    served_concat ?_ old⟩
  · rw [Broadcast.retained, capacity]
    exact h.retained
  · rw [live_idle idle, ← h.live, subscriptions, List.map_map]
    refine List.map_congr_left fun s _ => ?_
    rw [Function.comp_apply, (kept s).1, (kept s).2]
  · intro id named
    cases idle.symm.trans named
  · rintro id destination rfl
    cases idle

theorem Told.subscribe (h : Told size history b sent) (destination : Option String) :
    Told size (history ++ [.subscribed b.nextId destination]) (b.subscribe destination).2 sent := by
  have unused : .unsubscribed b.nextId ∉ history := fun ended =>
    absurd (h.below _ ended _ rfl) (Nat.lt_irrefl _)
  refine ⟨h.retained, ⟨h.holds.total, h.holds.window⟩,
    fun closed => List.mem_append_left _ (h.closed closed), h.counted.subscribe destination, ?_,
    List.forall_mem_append.mpr ⟨fun o here id named => Nat.lt_succ_of_lt (h.below o here id named),
      List.forall_mem_singleton.mpr ?_⟩, served_concat ?_ ?_⟩
  · rw [live_subscribed unused, ← h.live, Broadcast.subscribe, List.map_append]
    rfl
  · rintro _ ⟨⟩
    exact Nat.lt_succ_self _
  · rintro _ _ ⟨⟩
    refine .start fun s here named => ?_
    rcases List.mem_append.mp here with old | new
    · exact absurd named (Nat.ne_of_lt (h.counted.below s old))
    · cases List.mem_singleton.mp new
      exact ⟨rfl, h.holds.total⟩
  · intro before id destination' after same
    refine (h.served before id destination' after same).other (by simp)
      fun s here named => ⟨?_, (List.append_nil _).symm⟩
    rcases List.mem_append.mp here with old | new
    · exact old
    · -- The new subscription has an id that no earlier one had.
      have earlier : id < b.nextId := h.below (.subscribed id destination') (by simp [same]) id rfl
      cases List.mem_singleton.mp new
      exact absurd named (Nat.ne_of_gt earlier)

theorem Told.publish (h : Told size history b sent) (m : Outbound) :
    ∃ sent', Told size (history ++ [.published m]) (b.publish m) sent' := by
  by_cases heard : b.subscriptions = []
  · rw [publish_unheard heard]
    refine ⟨sent, h.idle rfl (List.map_id _).symm rfl rfl rfl
      (fun _ => ⟨rfl, rfl⟩) ⟨h.holds.total, h.holds.window⟩
      (fun closed => List.mem_append_left _ (h.closed closed)) ?_⟩
    intro before id destination after same
    refine (h.served before id destination after same).other (by simp)
      fun s here _ => ?_
    rw [heard] at here
    cases here
  · have holds := h.holds.publish heard m
    rw [publish_heard heard] at holds ⊢
    refine ⟨sent ++ [m], h.idle rfl (List.map_id _).symm rfl rfl rfl
      (fun _ => ⟨rfl, rfl⟩) holds (fun closed => List.mem_append_left _ (h.closed closed)) ?_⟩
    intro before id destination after same
    exact (h.served before id destination after same).other (by simp)
      fun s here _ => ⟨here, rfl⟩

theorem Told.receive (h : Told size history b sent) {found : Delivery}
    (answer : b.receive id = some (found, b')) :
    Told size (history ++ [.received id found]) b' sent := by
  obtain rfl := h.retained
  obtain ⟨-, -, -, position, -, rfl⟩ := receive_eq_some answer
  refine h.idle rfl rfl rfl rfl rfl (fun s => ?_)
    ⟨h.holds.total, h.holds.window⟩ (fun closed => List.mem_append_left _ (h.closed closed)) ?_
  · split
    · exact ⟨rfl, rfl⟩
    · exact ⟨rfl, rfl⟩
  · intro before id' destination after same
    have served := h.served before id' destination after same
    by_cases mine : id = id'
    · subst mine
      refine served.receive h.holds answer fun closed => ?_
      have gone := h.closed closed
      simpa [same] using gone
    · refine served.other (fun _ other => mine ?_) fun s here named => ⟨?_, (List.append_nil _).symm⟩
      · cases other
        rfl
      · obtain ⟨t, there, rfl⟩ := List.mem_map.mp here
        split at named
        · next same_id => exact absurd (same_id.symm.trans named) mine
        · next other_id =>
          rw [if_neg other_id]
          exact there

theorem Told.unsubscribe (h : Told size history b sent) {s : Subscription}
    (here : s ∈ b.subscriptions) :
    Told size (history ++ [.unsubscribed s.id]) (b.unsubscribe s.id) sent := by
  have counted := h.counted.unsubscribe here
  rw [unsubscribe_eq h.counted here] at counted ⊢
  refine ⟨h.retained, ⟨h.holds.total, h.holds.window⟩,
    fun closed => List.mem_append_left _ (h.closed closed), counted, ?_,
    List.forall_mem_append.mpr ⟨h.below, List.forall_mem_singleton.mpr ?_⟩,
    served_concat (by simp) ?_⟩
  · rw [live_unsubscribed, ← h.live, List.filter_map]
    rfl
  · rintro _ ⟨⟩
    exact h.counted.below s here
  · intro before id destination after same
    exact (h.served before id destination after same).other (by simp)
      fun t there _ => ⟨(List.mem_filter.mp there).1, (List.append_nil _).symm⟩

theorem Told.close (h : Told size history b sent) :
    Told size (history ++ [.closed]) b.close sent := by
  refine h.idle rfl (List.map_id _).symm rfl rfl rfl
    (fun _ => ⟨rfl, rfl⟩) ⟨h.holds.total, h.holds.window⟩
    (fun _ => List.mem_append_right _ (List.mem_singleton_self _)) ?_
  intro before id destination after same
  exact (h.served before id destination after same).other (by simp)
    fun s here _ => ⟨here, (List.append_nil _).symm⟩

end Steps

theorem Happens.told {b b' : Broadcast} {history : List Occurrence} {sent : List Outbound}
    (happens : Happens b o b') (h : Told size history b sent) :
    ∃ sent', Told size (history ++ [o]) b' sent' := by
  cases happens with
  | subscribed destination => exact ⟨sent, h.subscribe destination⟩
  | published m => exact h.publish m
  | received answer => exact ⟨sent, h.receive answer⟩
  | unsubscribed here => exact ⟨sent, h.unsubscribe here⟩
  | closed => exact ⟨sent, h.close⟩

theorem History.told {capacity : Nat} {history : List Occurrence} {b : Broadcast}
    (h : History capacity history b) :
    ∃ sent, Told (max 1 capacity).nextPowerOfTwo history b sent := by
  induction h with
  | start => exact ⟨[], .start capacity⟩
  | next _ happens ih =>
    obtain ⟨sent, told⟩ := ih
    exact happens.told told

/-! ## The guarantee -/

/-- What readers of a bus rely on after a history, whatever the order in which they came, called and
left. -/
structure Delivers (capacity : Nat) (history : List Occurrence) (b : Broadcast) : Prop where
  given : ∀ before id destination after,
    history = before ++ .subscribed id destination :: after →
      ∃ number, Delivered (max 1 capacity).nextPowerOfTwo destination id before after number
  /-- Each call of a live subscription returns. -/
  answers : ∀ s ∈ live history, ∃ found b', b.receive s.1 = some (found, b')
  total : b.subscriptions.length = (live history).length
  counts : ∀ key, b.subscriptionsFor key = (live history).countP fun s => s.2.getD wildcard = key

theorem History.delivers {capacity : Nat} {history : List Occurrence} {b : Broadcast}
    (h : History capacity history b) : Delivers capacity history b := by
  obtain ⟨sent, told⟩ := h.told
  constructor
  case given =>
    intro before id destination after same
    obtain ⟨number, delivered, -⟩ := told.served before id destination after same
    exact ⟨number, delivered⟩
  case answers =>
    intro s here
    rw [← told.live] at here
    obtain ⟨t, there, rfl⟩ := List.mem_map.mp here
    exact exists_receive b there
  case total => rw [← told.live, List.length_map]
  case counts =>
    intro key
    rw [told.counted.count, ← told.live, List.countP_map]
    rfl

/-- A bus with room for two messages after three of them, with a reader. -/
def laggedBus (position : Nat) (closed : Bool) : Broadcast where
  capacity := 2
  window := [⟨"cafe", "2"⟩, ⟨"tea", "3"⟩]
  total := 3
  published := 3
  subscriptions := [⟨0, some "cafe", position⟩]
  counts := [("cafe", 1)]
  nextId := 1
  closed := closed

/-- The first of the three is gone at the first call, and the end is found after the last one that
is left. -/
theorem History.delivers_lagged :
    let history : List Occurrence :=
      [.subscribed 0 (some "cafe"), .published ⟨"cafe", "1"⟩, .published ⟨"cafe", "2"⟩,
        .published ⟨"tea", "3"⟩, .received 0 (.message ⟨"cafe", "2"⟩), .received 0 .empty, .closed,
        .received 0 .closed]
    History 2 history (laggedBus 3 true) ∧ Delivers 2 history (laggedBus 3 true) := by
  intro history
  have new : History 2 [] { capacity := 2 } := .start
  have sent :=
    (((new.next (.subscribed (some "cafe") rfl)).next (.published ⟨"cafe", "1"⟩ rfl)).next
      (.published ⟨"cafe", "2"⟩ rfl)).next (.published ⟨"tea", "3"⟩ rfl)
  have left : (((({ capacity := 2 : Broadcast }.subscribe (some "cafe")).2.publish
      ⟨"cafe", "1"⟩).publish ⟨"cafe", "2"⟩).publish ⟨"tea", "3"⟩) = laggedBus 0 false := by
    decide +kernel
  rw [left] at sent
  have found : (laggedBus 0 false).receive 0 =
      some (.message ⟨"cafe", "2"⟩, laggedBus 2 false) := by decide +kernel
  have empty : (laggedBus 2 false).receive 0 = some (.empty, laggedBus 3 false) := by
    decide +kernel
  have ended : (laggedBus 3 true).receive 0 = some (.closed, laggedBus 3 true) := by
    decide +kernel
  have happened : History 2 history (laggedBus 3 true) :=
    (((sent.next (.received found)).next (.received empty)).next (.closed rfl)).next
      (.received ended)
  exact ⟨happened, happened.delivers⟩

end EventWorker.Broadcast
