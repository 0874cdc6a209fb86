import EventWorker.Proofs.Bus.History

/-!
# What a subscription is given

The messages that a subscription is given are told from what happened since it was made. Messages
are numbered from there on as they are published. A reader is where it stands among them: a call
moves it on, past the messages that are not for it and those that are out of reach.

Results:
1. `Delivered.other`, `Reader.other`: what is no call of the subscription gives it nothing.
2. `Reader.receive`: what a reader has passed after one more call.
3. `Delivered.receive`: what one more call gives.
-/

namespace EventWorker.Broadcast

/-- A subscription to a destination, or to all of them, is meant to get a message. -/
def Wants (destination : Option String) (m : Outbound) : Prop :=
  destination = none ∨ destination = some m.destination

/-- What a subscription was given `after` it was made, on a bus that retains `size` messages:
`number` tells the number of the message that a call found. -/
structure Delivered (size : Nat) (destination : Option String) (id : Nat)
    (before after : List Occurrence) (number : List Occurrence → Nat) : Prop where
  /-- A message that was found had been published with its number and is for the subscription. -/
  published : ∀ {earlier m}, Finds id after earlier (.message m) →
    (publications earlier)[number earlier]? = some m ∧ Wants destination m
  /-- The messages are found in publish order, each at most once. -/
  inOrder : ∀ {earlier earlier' m m'}, Finds id after earlier (.message m) →
    Finds id after earlier' (.message m') → earlier.length < earlier'.length →
    number earlier < number earlier'
  /-- A message that a call passes over, and that no call finds, had left the window at some call
  up to that one. -/
  missed : ∀ {earlier found j m}, Finds id after earlier found →
    (publications earlier)[j]? = some m → Wants destination m →
    (∀ m', found = .message m' → j < number earlier) →
    (∀ earlier' m', Finds id after earlier' (.message m') → number earlier' ≠ j) →
    ∃ earlier' found', Finds id after earlier' found' ∧ earlier'.length ≤ earlier.length ∧
      j + size < (publications earlier').length
  /-- A call without a message is made when every message for the subscription that the window
  has was found before. -/
  nothing : ∀ {earlier found j m}, Finds id after earlier found → (∀ m', found ≠ .message m') →
    (publications earlier)[j]? = some m → Wants destination m →
    (publications earlier).length ≤ j + size →
    ∃ earlier' m', Finds id after earlier' (.message m') ∧ earlier'.length < earlier.length ∧
      number earlier' = j
  /-- The end is found after the publishing side is gone. -/
  ended : ∀ {earlier}, Finds id after earlier .closed → .closed ∈ before ++ earlier

/-! ## Where a reader stands -/

/-- A reader has passed the messages with numbers below `next`: those for it were found or had left
the window at some call. -/
structure Reader (size : Nat) (destination : Option String) (id : Nat) (after : List Occurrence)
    (number : List Occurrence → Nat) (next : Nat) : Prop where
  behind : next ≤ (publications after).length
  given : ∀ {earlier m}, Finds id after earlier (.message m) → number earlier < next
  passed : ∀ {j m}, j < next → (publications after)[j]? = some m → Wants destination m →
    (∃ earlier m', Finds id after earlier (.message m') ∧ number earlier = j) ∨
    ∃ earlier found, Finds id after earlier found ∧ j + size < (publications earlier).length

/-- A call moves a reader from `next` to `next'`, past messages that are not for it or have left the
window. It stops after a message for the reader, with the number `place`, or at the end. -/
structure Stops (size : Nat) (destination : Option String) (pubs : List Outbound) (next : Nat)
    (found : Delivery) (place next' : Nat) : Prop where
  onward : next ≤ next'
  within : next' ≤ pubs.length
  message : ∀ {m}, found = .message m →
    pubs[place]? = some m ∧ Wants destination m ∧ next ≤ place ∧ next' = place + 1
  nothing : (∀ m, found ≠ .message m) → next' = pubs.length
  between : ∀ {j m}, next ≤ j → j < next' → pubs.length ≤ j + size → pubs[j]? = some m →
    Wants destination m → (∃ m', found = .message m') ∧ place = j

variable {size : Nat} {destination : Option String} {id : Nat} {before after : List Occurrence}
  {number : List Occurrence → Nat} {next : Nat} {o : Occurrence}

theorem Delivered.start (size : Nat) (destination : Option String) (id : Nat)
    (before : List Occurrence) (number : List Occurrence → Nat) :
    Delivered size destination id before [] number := by
  have none : ∀ {earlier found}, ¬ Finds id [] earlier found := fun h =>
    absurd h.length_lt (Nat.not_lt_zero _)
  exact ⟨fun h => absurd h none, fun h => absurd h none, fun h => absurd h none,
    fun h => absurd h none, fun h => absurd h none⟩

theorem Reader.start (size : Nat) (destination : Option String) (id : Nat)
    (number : List Occurrence → Nat) : Reader size destination id [] number 0 :=
  ⟨Nat.zero_le _, fun h => absurd h.length_lt (Nat.not_lt_zero _),
    fun less => absurd less (Nat.not_lt_zero _)⟩

/-- What is no call of the subscription gives it nothing. -/
theorem Delivered.other (h : Delivered size destination id before after number)
    (other : ∀ found, o ≠ .received id found) :
    Delivered size destination id before (after ++ [o]) number := by
  obtain ⟨published, inOrder, missed, nothing, ended⟩ := h
  constructor <;> simp only [finds_concat_of_ne other] <;> assumption

theorem Reader.other (h : Reader size destination id after number next)
    (other : ∀ found, o ≠ .received id found) :
    Reader size destination id (after ++ [o]) number next := by
  refine ⟨?_, ?_, fun {j m} less there wants => ?_⟩
  · rw [publications_concat, List.length_append]
    exact Nat.le_add_right_of_le h.behind
  · simp only [finds_concat_of_ne other]
    exact h.given
  · simp only [finds_concat_of_ne other]
    rw [publications_concat, List.getElem?_append_left (Nat.lt_of_lt_of_le less h.behind)] at there
    exact h.passed less there wants

/-! ## One more call -/

section Call

variable {found : Delivery} {place next' : Nat} {number' : List Occurrence → Nat}

/-- A call that stops in the window leaves the messages before that place behind, those for the
reader found or out of the window. -/
theorem Reader.receive (h : Reader size destination id after number next)
    (stops : Stops size destination (publications after) next found place next')
    (same : ∀ {earlier m}, Finds id after earlier (.message m) → number' earlier = number earlier)
    (new : number' after = place) :
    Reader size destination id (after ++ [.received id found]) number' next' := by
  have publications_same : publications (after ++ [.received id found]) = publications after :=
    publications_idle rfl after
  refine ⟨?_, fun {earlier m} finds => ?_, fun {j m} less there wants => ?_⟩
  · rw [publications_same]
    exact stops.within
  · rcases finds_concat.mp finds with old | ⟨rfl, last⟩
    · rw [same old]
      exact Nat.lt_of_lt_of_le (h.given old) stops.onward
    · cases last
      obtain ⟨-, -, -, onward⟩ := stops.message rfl
      rw [new, onward]
      exact Nat.lt_succ_self _
  · rw [publications_same] at there
    by_cases old : j < next
    · rcases h.passed old there wants with ⟨earlier, m', finds, here⟩ | ⟨earlier, found', finds, left⟩
      · exact .inl ⟨earlier, m', finds_concat.mpr (.inl finds), (same finds).trans here⟩
      · exact .inr ⟨earlier, found', finds_concat.mpr (.inl finds), left⟩
    · by_cases kept : (publications after).length ≤ j + size
      · obtain ⟨⟨m', rfl⟩, here⟩ := stops.between (Nat.le_of_not_lt old) less kept there wants
        exact .inl ⟨after, m', finds_concat.mpr (.inr ⟨rfl, rfl⟩), new.trans here⟩
      · exact .inr ⟨after, found, finds_concat.mpr (.inr ⟨rfl, rfl⟩), Nat.lt_of_not_le kept⟩

theorem Delivered.receive (h : Delivered size destination id before after number)
    (reader : Reader size destination id after number next)
    (stops : Stops size destination (publications after) next found place next')
    (gone : found = .closed → .closed ∈ before ++ after)
    (same : ∀ {earlier m}, Finds id after earlier (.message m) → number' earlier = number earlier)
    (new : number' after = place) :
    Delivered size destination id before (after ++ [.received id found]) number' := by
  -- What the reader has passed by the end of the call decides what the call has passed over.
  have after_call := reader.receive stops same new
  have publications_same : publications (after ++ [.received id found]) = publications after :=
    publications_idle rfl after
  constructor
  case published =>
    intro earlier m finds
    rcases finds_concat.mp finds with old | ⟨rfl, last⟩
    · rw [same old]
      exact h.published old
    · cases last
      obtain ⟨there, wants, -, -⟩ := stops.message rfl
      rw [new]
      exact ⟨there, wants⟩
  case inOrder =>
    intro earlier earlier' m m' finds finds' less
    rcases finds_concat.mp finds with old | ⟨rfl, last⟩
    · rw [same old]
      rcases finds_concat.mp finds' with old' | ⟨rfl, last'⟩
      · rw [same old']
        exact h.inOrder old old' less
      · cases last'
        obtain ⟨-, -, onward, -⟩ := stops.message rfl
        rw [new]
        exact Nat.lt_of_lt_of_le (reader.given old) onward
    · have most := finds'.length_lt
      rw [List.length_append, List.length_singleton] at most
      omega
  case missed =>
    intro earlier found' j m finds there wants passes unfound
    rcases finds_concat.mp finds with old | ⟨rfl, last⟩
    · obtain ⟨earlier', found'', finds', less, left⟩ := h.missed old there wants
        (fun m' last => Nat.lt_of_lt_of_eq (passes m' last) (same (last ▸ old)))
        (fun earlier' m' finds' => (same finds') ▸
          unfound earlier' m' (finds_concat.mpr (.inl finds')))
      exact ⟨earlier', found'', finds_concat.mpr (.inl finds'), less, left⟩
    · cases last
      have less : j < next' := by
        by_cases message : ∃ m', found = .message m'
        · obtain ⟨m', rfl⟩ := message
          obtain ⟨-, -, -, onward⟩ := stops.message rfl
          have before_place := passes m' rfl
          omega
        · rw [stops.nothing (not_exists.mp message)]
          exact (List.getElem?_eq_some_iff.mp there).1
      rcases after_call.passed less (publications_same ▸ there) wants with
        ⟨earlier', m', finds', here⟩ | ⟨earlier', found', finds', left⟩
      · exact absurd here (unfound earlier' m' finds')
      · have most := finds'.length_lt
        rw [List.length_append, List.length_singleton] at most
        exact ⟨earlier', found', finds', Nat.le_of_lt_succ most, left⟩
  case nothing =>
    intro earlier found' j m finds without there wants kept
    rcases finds_concat.mp finds with old | ⟨rfl, last⟩
    · obtain ⟨earlier', m', finds', less, here⟩ := h.nothing old without there wants kept
      exact ⟨earlier', m', finds_concat.mpr (.inl finds'), less, (same finds').trans here⟩
    · cases last
      have less : j < next' := by
        rw [stops.nothing without]
        exact (List.getElem?_eq_some_iff.mp there).1
      have passed : j < next := by
        refine Nat.lt_of_not_le fun onward => ?_
        obtain ⟨⟨m', message⟩, -⟩ := stops.between onward less kept there wants
        exact without m' message
      rcases reader.passed passed there wants with
        ⟨earlier', m', finds', here⟩ | ⟨earlier', found', finds', left⟩
      · exact ⟨earlier', m', finds_concat.mpr (.inl finds'), finds'.length_lt,
          (same finds').trans here⟩
      · have fewer := finds'.publications_prefix.length_le
        omega
  case ended =>
    intro earlier finds
    rcases finds_concat.mp finds with old | ⟨rfl, last⟩
    · exact h.ended old
    · cases last
      exact gone rfl

end Call

end EventWorker.Broadcast
