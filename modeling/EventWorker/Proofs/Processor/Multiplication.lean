import EventWorker.Proofs.Processor.Delivery

/-!
# One copy for each row

`multiply` goes through the waiting events and, for each, through the scratch values under its
session. All these rows are read before the first of them gets its copy. Here the work is a list of
duties, and the first one that cannot be done decides how the run ends. The copies are pushed into
the memory that the events were taken from, so what is found under a destination is read off the
list and not off the keys, which may be those of the events or of each other.

Results:
1. `sealAll_eq`: sealing goes through the duties in order.
2. `discharge_cases`: a run of duties ends when all are done, with an entry for each, and else with
   the failure of the first that is not.
3. `multiply_cases`: the same for `multiply`, with the copies found under each destination.
4. `multiply_delivers`: what goes to each destination, when the run fails, and with which code.
-/

namespace EventWorker.Processor

open Json (Value)

variable {ω : Type}

/-- The recipients among the scratch values under the session of an event. -/
def rowsOf (data : Memory Value) (e : Event) : List Recipient :=
  (data.get e.header.session).filterMap Recipient.ofValue?

/-- All scratch values under the session of an event are recipients. -/
abbrev Readable (data : Memory Value) (e : Event) : Prop :=
  ∀ row ∈ data.get e.header.session, (Recipient.ofValue? row).isSome

/-- Something to do for a waiting event. -/
inductive Duty
  /-- A copy for one of its rows. -/
  | copy (e : Event) (r : Recipient)
  /-- To give up, since not every row can be read. -/
  | unreadable (e : Event)

namespace Duty

/-- What a duty pushes and where, given the bytes of a draw. -/
def result (toolkit : Toolkit) (draw : Nat → Bytes) : Duty → Except Failure (String × Event)
  | copy e r =>
    ((e.sealUnder r.state toolkit draw).mapError sealFailure).map fun y => (r.value, y)
  | unreadable _ => .error (Code.encapsulation.failure.because notRecipientText)

/-- The duty fails, given the bytes of a draw. -/
def Fails (toolkit : Toolkit) (draw : Nat → Bytes) (d : Duty) : Prop :=
  ∃ f, d.result toolkit draw = .error f

/-- The duty is a copy whose key state names an unknown integrity function. -/
def LacksIntegrity (toolkit : Toolkit) (draw : Nat → Bytes) (d : Duty) : Prop :=
  ∃ e r name, d = copy e r ∧ e.sealUnder r.state toolkit draw = .error (.unknownIntegrity name)

end Duty

/-- What there is to do for an event. -/
def dutiesOf (data : Memory Value) (e : Event) : List Duty :=
  if Readable data e then (rowsOf data e).map (.copy e) else [.unreadable e]

/-- What there is to do for the waiting events, in order. -/
abbrev dutiesFor (data : Memory Value) (waiting : List Event) : List Duty :=
  waiting.flatMap (dutiesOf data)

/-- The waiting events with their rows, in order. -/
abbrev pairings (data : Memory Value) (waiting : List Event) : List (Event × Recipient) :=
  waiting.flatMap fun e => (rowsOf data e).map fun r => (e, r)

/-- The bytes of a draw, counted from the state of the surroundings. -/
def drawAt (services : Services ω) (w : ω) : Nat → Nat → Bytes
  | 0 => (services.draw w).1
  | k + 1 => drawAt services (services.draw w).2 k

/-- The duty in a place fails with the bytes of the draw that comes to it, if none fails before. -/
def FailsAt (services : Services ω) (toolkit : Toolkit) (w : ω) (ds : List Duty) (k : Nat) : Prop :=
  ∃ d, ds[k]? = some d ∧ d.Fails toolkit (drawAt services w k)

/-- Goes through duties, up to the first that fails. -/
def discharge (services : Services ω) (toolkit : Toolkit) : List Duty → Act (Bench ω) Unit
  | [] => pure ()
  | .unreadable _ :: _ => throw (Code.encapsulation.failure.because notRecipientText)
  | .copy e r :: rest => do
    let draw ← Bench.onWorld (Step.ofState services.draw)
    let copy ← Step.ofResult ((e.sealUnder r.state toolkit draw).mapError sealFailure)
    Bench.change fun b => b.pushEvent r.value copy
    discharge services toolkit rest

variable {services : Services ω} {toolkit : Toolkit} {b c : Bench ω} {data : Memory Value}

/-! ## Duties -/

theorem mapM_rows (data : Memory Value) (e : Event) :
    (data.get e.header.session).mapM Recipient.ofValue? =
      if Readable data e then some (rowsOf data e) else none := by
  unfold Readable rowsOf
  induction data.get e.header.session with
  | nil => rfl
  | cons row rest ih =>
    rw [List.mapM_cons, ih]
    cases read : Recipient.ofValue? row with
    | none => simp [read]
    | some r =>
      simp only [List.forall_mem_cons, read, Option.isSome_some, true_and]
      split
      · rw [List.filterMap_cons_some read]
        rfl
      · rfl

theorem dutiesFor_readable {waiting : List Event} (readable : ∀ e ∈ waiting, Readable data e) :
    dutiesFor data waiting = (pairings data waiting).map fun pair => .copy pair.1 pair.2 := by
  rw [List.map_flatMap]
  refine List.flatMap_congr fun e he => ?_
  rw [dutiesOf, if_pos (readable e he), List.map_map]
  rfl

theorem unreadable_mem {waiting : List Event} {e : Event} (he : e ∈ waiting)
    (unreadable : ¬ Readable data e) : .unreadable e ∈ dutiesFor data waiting := by
  refine List.mem_flatMap.mpr ⟨e, he, ?_⟩
  rw [dutiesOf, if_neg unreadable]
  exact List.mem_singleton_self _

/-- All rows of a waiting event without a failing duty are recipients. -/
theorem readable_of_done {waiting : List Event} {w : ω}
    (done : ∀ k, ¬ FailsAt services toolkit w (dutiesFor data waiting) k) :
    ∀ e ∈ waiting, Readable data e := by
  intro e he
  by_contra unreadable
  obtain ⟨k, at_k⟩ := List.mem_iff_getElem?.mp (unreadable_mem he unreadable)
  exact done k ⟨_, at_k, _, rfl⟩

/-! ## Going through them -/

theorem sealFor_then (e : Event) (rs : List Recipient) (rest : List Duty) :
    discharge services toolkit (rs.map (.copy e) ++ rest) =
      sealFor services toolkit e rs >>= fun _ => discharge services toolkit rest := by
  induction rs with
  | nil => rfl
  | cons r others ih =>
    rw [List.map_cons, List.cons_append, discharge, sealFor, ih]
    simp only [bind_assoc]

/-- Sealing goes through the duties of the scratch data, which it does not change. -/
theorem sealAll_eq (es : List Event) (b : Bench ω) :
    (sealAll services toolkit es).outcome b =
      (discharge services toolkit (dutiesFor b.data es)).outcome b := by
  induction es generalizing b with
  | nil => rfl
  | cons e rest ih =>
    have read : (Step.ofState fun b : Bench ω => (b.data.get e.header.session, b)).outcome b =
        ((.ok (b.data.get e.header.session), b) : Except Failure _ × _) := rfl
    rw [sealAll, Step.outcome_bind_ok read, mapM_rows, dutiesFor, List.flatMap_cons, dutiesOf]
    by_cases readable : Readable b.data e
    · rw [if_pos readable, if_pos readable, sealFor_then, Step.outcome_bind, Step.outcome_bind]
      rcases ended : (sealFor services toolkit e (rowsOf b.data e)).outcome b with ⟨f | _, mid⟩
      · rfl
      · -- Pushing copies leaves the data alone, so the rows to come are those of the start.
        exact (ih mid).trans (by rw [(sealFor_ended ended).1])
    · rw [if_neg readable, if_neg readable]
      rfl

theorem outcome_drawn :
    (Bench.onWorld (Step.ofState services.draw) : Act (Bench ω) _).outcome b =
      (.ok (services.draw b.world).1, { b with world := (services.draw b.world).2 }) :=
  rfl

theorem discharge_step {d : Duty} {rest : List Duty} {entry : String × Event}
    (done : d.result toolkit (services.draw b.world).1 = .ok entry) :
    (discharge services toolkit (d :: rest)).outcome b =
      (discharge services toolkit rest).outcome
        (Bench.pushEvent { b with world := (services.draw b.world).2 } entry.1 entry.2) := by
  cases d with
  | unreadable e => cases done
  | copy e r =>
    obtain ⟨y, sealed, rfl⟩ := exists_of_map_ok done
    rw [discharge, Step.outcome_bind_ok outcome_drawn, sealed]
    rfl

theorem discharge_stop {d : Duty} {rest : List Duty} {f : Failure}
    (fails : d.result toolkit (services.draw b.world).1 = .error f) :
    ((discharge services toolkit (d :: rest)).outcome b).1 = .error f := by
  cases d with
  | unreadable e =>
    cases fails
    rfl
  | copy e r =>
    rw [discharge, Step.outcome_bind_ok outcome_drawn]
    cases sealed : e.sealUnder r.state toolkit (services.draw b.world).1 with
    | ok y =>
      rw [Duty.result, sealed] at fails
      cases fails
    | error err =>
      rw [Duty.result, sealed] at fails
      cases fails
      rfl

/-- A run of duties ends with an entry for each, or fails as the first one that fails. -/
theorem discharge_cases (services : Services ω) (toolkit : Toolkit) (ds : List Duty)
    (b : Bench ω) :
    ((∀ k, ¬ FailsAt services toolkit b.world ds k) ∧
      ∃ c entries, (discharge services toolkit ds).outcome b = (.ok (), c) ∧ c.data = b.data ∧
        List.Forall₂ (fun d entry => ∃ draw, Duty.result toolkit draw d = .ok entry) ds entries ∧
        c.events = b.events.pushEach entries) ∨
    ∃ k d f, ds[k]? = some d ∧ d.result toolkit (drawAt services b.world k) = .error f ∧
      (∀ j < k, ¬ FailsAt services toolkit b.world ds j) ∧
      ((discharge services toolkit ds).outcome b).1 = .error f := by
  induction ds generalizing b with
  | nil =>
    refine .inl ⟨?_, b, [], rfl, rfl, .nil, rfl⟩
    rintro k ⟨d, none, -⟩
    cases none
  | cons d rest ih =>
    cases first : d.result toolkit (services.draw b.world).1 with
    | error f =>
      exact .inr ⟨0, d, f, rfl, first, fun j hj => absurd hj (Nat.not_lt_zero j),
        discharge_stop first⟩
    | ok entry =>
      have fine : ¬ FailsAt services toolkit b.world (d :: rest) 0 := by
        rintro ⟨d', here, f, fails⟩
        obtain rfl : d = d' := Option.some.inj here
        cases first.symm.trans fails
      have later :=
        ih (Bench.pushEvent { b with world := (services.draw b.world).2 } entry.1 entry.2)
      rw [discharge_step first]
      rcases later with ⟨done, c, entries, ended, data, all, events⟩ |
        ⟨k, d', f, at_k, fails, before, failed⟩
      · refine .inl ⟨?_, c, entry :: entries, ended, data, .cons ⟨_, first⟩ all, events⟩
        rintro (_ | k)
        · exact fine
        · exact done k
      · refine .inr ⟨k + 1, d', f, at_k, fails, ?_, failed⟩
        rintro (_ | j) hj
        · exact fine
        · exact before j (Nat.lt_of_succ_lt_succ hj)

/-! ## Codes -/

theorem sealFailure_code (err : SealError) :
    ((sealFailure err).code = 24765 ∨ (sealFailure err).code = 24766) ∧
      ((sealFailure err).code = 24765 ↔ ∃ name, err = .unknownIntegrity name) := by
  cases err with
  | unknownIntegrity name => exact ⟨.inl rfl, fun _ => ⟨name, rfl⟩, fun _ => rfl⟩
  | _ =>
    have other : (24766 : Nat) ≠ 24765 := by decide
    refine ⟨.inr rfl, fun code => absurd code other, ?_⟩
    rintro ⟨name, same⟩
    cases same

theorem Duty.code_of_error {d : Duty} {draw : Nat → Bytes} {f : Failure}
    (fails : d.result toolkit draw = .error f) :
    (f.code = 24765 ∨ f.code = 24766) ∧ (f.code = 24765 ↔ d.LacksIntegrity toolkit draw) := by
  cases d with
  | unreadable e =>
    cases fails
    refine ⟨.inr rfl, ⟨fun code => absurd code (by decide), ?_⟩⟩
    rintro ⟨e', r, name, other, -⟩
    cases other
  | copy e r =>
    cases sealed : e.sealUnder r.state toolkit draw with
    | ok y =>
      rw [result, sealed] at fails
      cases fails
    | error err =>
      rw [result, sealed] at fails
      cases fails
      obtain ⟨codes, lacking⟩ := sealFailure_code err
      refine ⟨codes, lacking.trans ⟨?_, ?_⟩⟩
      · rintro ⟨name, rfl⟩
        exact ⟨e, r, name, rfl, sealed⟩
      · rintro ⟨e', r', name, same, sealed'⟩
        cases same
        exact ⟨name, Except.error.inj (sealed.symm.trans sealed')⟩

/-! ## The run -/

variable {providers : Providers}

theorem multiply_eq (set : providers.toolkit = .ok toolkit) (b : Bench ω) :
    (multiply services providers).outcome b =
      (discharge services toolkit (dutiesFor b.data b.events.values)).outcome
        { b with events := b.events.drain.2 } := by
  rw [outcome_multiply, set]
  split
  · next nothing =>
    rw [List.isEmpty_iff.mp nothing]
    rfl
  · exact sealAll_eq b.events.values _

/-- An entry of a copy is a copy of its event for its row. -/
theorem Duty.copy_done {e : Event} {r : Recipient} {draw : Nat → Bytes} {entry : String × Event}
    (done : (copy e r).result toolkit draw = .ok entry) : CopyFor toolkit e r entry := by
  obtain ⟨y, sealed, rfl⟩ := exists_of_map_ok done
  exact ⟨rfl, draw, mapError_ok sealed⟩

/-- Under a destination there is what its rows got, in order. -/
theorem copies_under {pairs : List (Event × Recipient)} {entries : List (String × Event)}
    (all : List.Forall₂ (fun d entry => ∃ draw, Duty.result toolkit draw d = .ok entry)
      (pairs.map fun pair => .copy pair.1 pair.2) entries) (v : String) :
    List.Forall₂ (fun pair y => pair.1.SealedAs toolkit pair.2.state y)
      (pairs.filter fun pair => pair.2.value = v)
      ((entries.filter fun entry => entry.1 = v).map Prod.snd) := by
  have copies :
      List.Forall₂ (fun pair entry => CopyFor toolkit pair.1 pair.2 entry) pairs entries :=
    (List.forall₂_map_left_iff.mp all).imp fun _ _ ⟨_, done⟩ => Duty.copy_done done
  have same : ∀ ⦃pair : Event × Recipient⦄ ⦃entry : String × Event⦄,
      CopyFor toolkit pair.1 pair.2 entry →
        (decide (pair.2.value = v) = true ↔ decide (entry.1 = v) = true) := by
    intro pair entry copy
    rw [copy.1]
  rw [List.forall₂_map_right_iff]
  exact (List.rel_filter same copies).imp fun _ _ copy => copy.2

/-- A waiting event is in no pairing when its session has no rows. -/
theorem mem_pairings {waiting : List Event} {e : Event} (he : e ∈ waiting)
    (readable : Readable data e) :
    (∃ r, (e, r) ∈ pairings data waiting) ↔ data.get e.header.session ≠ [] := by
  have member : ∀ r, (e, r) ∈ pairings data waiting ↔ r ∈ rowsOf data e := by
    intro r
    simp only [List.mem_flatMap, List.mem_map, Prod.mk.injEq]
    constructor
    · rintro ⟨_, -, _, hr, rfl, rfl⟩
      exact hr
    · exact fun hr => ⟨e, he, r, hr, rfl, rfl⟩
  rw [exists_congr member]
  constructor
  · rintro ⟨r, hr⟩ none
    rw [rowsOf, none] at hr
    cases hr
  · intro rows
    obtain ⟨row, hrow⟩ := List.exists_mem_of_ne_nil _ rows
    obtain ⟨r, read⟩ := Option.isSome_iff_exists.mp (readable row hrow)
    exact ⟨r, List.mem_filterMap.mpr ⟨row, hrow, read⟩⟩

/-- Without unreadable events the failing duties are the copies that cannot be sealed. -/
theorem exists_failing_iff {waiting : List Event} {w : ω}
    (readable : ∀ e ∈ waiting, Readable data e) :
    (∃ k, FailsAt services toolkit w (dutiesFor data waiting) k) ↔
      ∃ (k : Nat) (e : Event) (r : Recipient) (err : SealError),
        (pairings data waiting)[k]? = some (e, r) ∧
        e.sealUnder r.state toolkit (drawAt services w k) = .error err := by
  rw [dutiesFor_readable readable]
  refine exists_congr fun k => ?_
  rw [FailsAt, List.getElem?_map]
  constructor
  · rintro ⟨d, at_k, f, fails⟩
    obtain ⟨⟨e, r⟩, there, rfl⟩ := Option.map_eq_some_iff.mp at_k
    cases sealed : e.sealUnder r.state toolkit (drawAt services w k) with
    | error err => exact ⟨e, r, err, there, sealed⟩
    | ok y =>
      rw [Duty.result, sealed] at fails
      cases fails
  · rintro ⟨e, r, err, at_k, sealed⟩
    refine ⟨.copy e r, by rw [at_k]; rfl, sealFailure err, ?_⟩
    rw [Duty.result, sealed]
    rfl

/-- A duty fails when a row cannot be read or a copy cannot be sealed. -/
theorem failing_iff {waiting : List Event} {w : ω} :
    (∃ k, FailsAt services toolkit w (dutiesFor data waiting) k) ↔
      (∃ e ∈ waiting, ¬ Readable data e) ∨
      ∃ (k : Nat) (e : Event) (r : Recipient) (err : SealError),
        (pairings data waiting)[k]? = some (e, r) ∧
        e.sealUnder r.state toolkit (drawAt services w k) = .error err := by
  by_cases readable : ∀ e ∈ waiting, Readable data e
  · rw [exists_failing_iff readable]
    refine ⟨.inr, ?_⟩
    rintro (⟨e, he, unreadable⟩ | unsealed)
    · exact absurd (readable e he) unreadable
    · exact unsealed
  · refine ⟨fun _ => .inl (by simpa using readable), fun _ => ?_⟩
    by_contra none
    exact readable (readable_of_done (not_exists.mp none))

/-- A run ends with the copies of all pairings, or fails as the first failing duty. -/
theorem multiply_cases (set : providers.toolkit = .ok toolkit) (b : Bench ω) :
    ((∀ k, ¬ FailsAt services toolkit b.world (dutiesFor b.data b.events.values) k) ∧
      ∃ c, (multiply services providers).outcome b = (.ok (), c) ∧ c.data = b.data ∧
        ∀ v, List.Forall₂ (fun pair y => pair.1.SealedAs toolkit pair.2.state y)
          ((pairings b.data b.events.values).filter fun pair => pair.2.value = v)
          (c.events.get v)) ∨
    ∃ k d f, (dutiesFor b.data b.events.values)[k]? = some d ∧
      d.result toolkit (drawAt services b.world k) = .error f ∧
      (∀ j < k, ¬ FailsAt services toolkit b.world (dutiesFor b.data b.events.values) j) ∧
      ((multiply services providers).outcome b).1 = .error f := by
  rw [multiply_eq set]
  rcases discharge_cases services toolkit (dutiesFor b.data b.events.values)
      { b with events := b.events.drain.2 } with
    ⟨done, c, entries, ended, data, all, events⟩ | failed
  · refine .inl ⟨done, c, ended, data, fun v => ?_⟩
    rw [events, Memory.get_refilled]
    rw [dutiesFor_readable (readable_of_done done)] at all
    exact copies_under all v
  · exact .inr failed

/-- When `multiply` ends, the scratch data is as before and under each destination there are the
sealed copies of exactly the waiting events with a row for it, one for each such row, in order. It
fails when a row cannot be read or a copy cannot be sealed, with the code of the first. -/
theorem multiply_delivers (set : providers.toolkit = .ok toolkit) (b : Bench ω) :
    let waiting := b.events.values
    let run := (multiply services providers).outcome b
    (run.1 = .ok () →
      run.2.data = b.data ∧
      (∀ e ∈ waiting, Readable b.data e) ∧
      (∀ v, List.Forall₂ (fun pair y => pair.1.SealedAs toolkit pair.2.state y)
        ((pairings b.data waiting).filter fun pair => pair.2.value = v) (run.2.events.get v)) ∧
      ∀ e ∈ waiting,
        (¬ ∃ r, (e, r) ∈ pairings b.data waiting) ↔ b.data.get e.header.session = []) ∧
    ((∃ f, run.1 = .error f) ↔
      (∃ e ∈ waiting, ¬ Readable b.data e) ∨
      ∃ (k : Nat) (e : Event) (r : Recipient) (err : SealError),
        (pairings b.data waiting)[k]? = some (e, r) ∧
        e.sealUnder r.state toolkit (drawAt services b.world k) = .error err) ∧
    ∀ f, run.1 = .error f →
      ∃ k d, (dutiesFor b.data waiting)[k]? = some d ∧
        d.result toolkit (drawAt services b.world k) = .error f ∧
        (∀ j < k, ¬ FailsAt services toolkit b.world (dutiesFor b.data waiting) j) ∧
        (f.code = 24765 ↔ d.LacksIntegrity toolkit (drawAt services b.world k)) ∧
        (f.code = 24765 ∨ f.code = 24766) := by
  intro waiting run
  rw [← failing_iff]
  rcases multiply_cases set b with
    ⟨done, c, ended, data, copies⟩ | ⟨k, d, f, at_k, fails, before, failed⟩
  · have ended : run = (.ok (), c) := ended
    have readable := readable_of_done done
    rw [ended]
    refine ⟨fun _ => ⟨data, readable, copies, fun e he => ?_⟩, ?_, nofun⟩
    · rw [mem_pairings he (readable e he), not_not]
    · exact ⟨nofun, fun ⟨k, fails⟩ => absurd fails (done k)⟩
  · have failed : run.1 = .error f := failed
    obtain ⟨codes, lacking⟩ := Duty.code_of_error fails
    rw [failed]
    refine ⟨nofun, ⟨fun _ => ⟨k, d, at_k, f, fails⟩, fun _ => ⟨f, rfl⟩⟩, fun f' same => ?_⟩
    cases same
    exact ⟨k, d, at_k, fails, before, lacking, codes⟩

/-- A bench where a session waits under its own value and again under a label, with itself and
another session as its rows, and a session without rows waits as well. -/
def crossedBench : Bench Nat where
  events := Memory.pushEach {} [("aa01", ⟨Header.plain "aa01" "1" "note", []⟩),
    ("note", ⟨Header.plain "cc03" "2" "note", []⟩), ("note", ⟨Header.plain "aa01" "3" "note", []⟩)]
  data := Memory.pushAll {} "aa01" [Recipient.toValue ⟨1, "bb02", .unencrypted⟩,
    Recipient.toValue ⟨1, "aa01", .unencrypted⟩]
  world := 0

/-- Draws count, and nothing is kept. -/
def countingServices : Services Nat where
  now w := (0, w)
  draw w := (fun n => List.replicate n 0, w + 1)
  record _ w := w

theorem multiply_delivers_crossed :
    let toolkit : Toolkit := ⟨[], fun _ => none, fun _ => none⟩
    let providers : Providers :=
      { ciphers? := some [], codecs? := some fun _ => none, integrities? := some fun _ => none }
    let run := (multiply countingServices providers).outcome crossedBench
    let due := (pairings crossedBench.data crossedBench.events.values).filter fun pair =>
      pair.2.value = "aa01"
    providers.toolkit = .ok toolkit ∧ run.1 = .ok () ∧ run.2.data = crossedBench.data ∧
      due.map (fun pair => pair.1.header.task) = ["1", "3"] ∧
      List.Forall₂ (fun pair y => pair.1.SealedAs toolkit pair.2.state y) due
        (run.2.events.get "aa01") ∧
      run.2.events.values.length = 4 := by
  intro toolkit providers run due
  have set : providers.toolkit = .ok toolkit := rfl
  have ended : run.1 = .ok () := by decide +kernel
  obtain ⟨data, -, copies, -⟩ := (multiply_delivers set crossedBench).1 ended
  exact ⟨set, ended, data, by decide +kernel, copies "aa01", by decide +kernel⟩

end EventWorker.Processor
