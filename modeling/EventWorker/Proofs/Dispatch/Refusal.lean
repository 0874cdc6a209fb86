import EventWorker.Proofs.Dispatch.Observed
import EventWorker.Proofs.Dispatch.Writes
import EventWorker.Proofs.Validation.Checks

/-!
# Rejected messages

A message that fails a check goes no further. Neither a manager nor a processor is called for it,
and at most one event is written: an error event for the session, when the session is known and is
to be told. Of the eight checks that is so for one only.

Results:
1. `Dispatcher.writes_rejected`: what is written for a rejected message.
2. `Observed.handle_rejected`, `Dispatcher.handle_restaffed`: nothing is called for it, and with
   other managers and other pipelines it is handled alike.
3. `validate_decides`: which messages have an event, and what becomes of the others.
-/

namespace EventWorker

open Json (Fields)

variable {ω : Type} {d : Dispatcher ω} {raw : String} {r : Rejection}

/-- The events that answer a rejected message. -/
def Rejection.answers (r : Rejection) : List (String × Event) :=
  match r.header? with
  | some h =>
    if r.failure.notifiable then
      [(h.session, errorEvent h r.failure (inputLabel h.label) .worker)]
    else []
  | none => []

/-- The dispatcher with other pipelines and other managers. -/
def Dispatcher.restaffed (d : Dispatcher ω) (table : PipelineTable ω)
    (database? : Option (Database ω)) (ledger? : Option (Manager ω)) : Dispatcher ω :=
  { d with table, env := { d.env with database?, ledger? } }

namespace Dispatcher

theorem settle_rejected (invalid : validate raw = .error r) (b : Bench ω) :
    d.settle raw b = (.rejected r.failure, d.reject raw r b) := by
  unfold settle
  rw [invalid]

theorem writes_rejected (invalid : validate raw = .error r) (b : Bench ω) :
    d.writes raw b = r.answers := by
  unfold writes
  rw [settle_rejected invalid]
  unfold reject Rejection.answers
  cases r.header? with
  | none => rfl
  | some h =>
    dsimp only [replaceEvents]
    cases r.failure.notifiable with
    | true => exact Memory.drain_pushAll_empty h.session _
    | false => rfl

theorem handle_rejected (invalid : validate raw = .error r) (b : Bench ω) :
    d.handle raw b =
      let (sent, c) := d.notify (d.reject raw r b)
      ({ outcome := .rejected r.failure, sent }, c) := by
  simp only [handle_writes, writes, settle_rejected invalid, notify]

theorem writeAll_restaffed (table : PipelineTable ω) (database? : Option (Database ω))
    (ledger? : Option (Manager ω)) (waiting : List (String × Event)) (b : Bench ω) :
    (d.restaffed table database? ledger?).writeAll waiting b = d.writeAll waiting b := by
  induction waiting generalizing b with
  | nil => rfl
  | cons entry rest ih =>
    have one : (d.restaffed table database? ledger?).writeOne = d.writeOne := rfl
    simp only [writeAll, one, ih]

/-- Neither the managers nor the pipelines have a part in what becomes of a rejected message. -/
theorem handle_restaffed (invalid : validate raw = .error r) (table : PipelineTable ω)
    (database? : Option (Database ω)) (ledger? : Option (Manager ω)) (b : Bench ω) :
    (d.restaffed table database? ledger?).handle raw b = d.handle raw b := by
  have rejects : (d.restaffed table database? ledger?).reject raw r b = d.reject raw r b := rfl
  have notifies (c : Bench ω) : (d.restaffed table database? ledger?).notify c = d.notify c :=
    writeAll_restaffed table database? ledger? c.events.drain.1 _
  rw [handle_rejected invalid, handle_rejected invalid, rejects, notifies]

end Dispatcher

namespace Observed

theorem reject_observed (d : Dispatcher ω) (raw : String) (r : Rejection)
    (b : Bench (Observed ω)) :
    d.observed.reject raw r b = after b (d.reject raw r (plain b)) [] := by
  unfold Dispatcher.reject
  dsimp only
  rw [show d.observed.env = d.env.observed from rfl, log_observed]
  cases r.header? with
  | none => rfl
  | some h => exact replaceEvents_observed ..

/-- No call is noted down for a rejected message. -/
theorem handle_rejected (invalid : validate raw = .error r) (b : Bench (Observed ω)) :
    d.observed.handle raw b =
      ((d.handle raw (plain b)).1, after b (d.handle raw (plain b)).2 []) := by
  simp only [Dispatcher.handle_rejected invalid, reject_observed, notify_observed, plain_after,
    after_after, List.append_nil]

end Observed

/-! ## Who is told -/

open Validation

theorem Rejection.answers_silent (silent : ¬ (r.verdict.notifiable ∧ r.verdict.headerKnown)) :
    r.answers = [] := by
  unfold answers
  unfold verdict at silent
  cases known : r.header? with
  | none => rfl
  | some h =>
    rw [known] at silent
    exact if_neg fun notifiable => silent ⟨notifiable, rfl⟩

theorem Rejection.answers_told (told : r.verdict.notifiable ∧ r.verdict.headerKnown) :
    ∃ h, r.header? = some h ∧
      r.answers = [(h.session, errorEvent h r.failure (inputLabel h.label) .worker)] := by
  obtain ⟨notifiable, headerKnown⟩ := told
  obtain ⟨h, known⟩ := Option.isSome_iff_exists.mp headerKnown
  refine ⟨h, known, ?_⟩
  unfold answers
  rw [known]
  exact if_pos notifiable

/-- Of all checks only that of the token that is there tells a known session. -/
theorem Validation.Check.told_iff (c : Check) :
    (c.verdict.notifiable ∧ c.verdict.headerKnown) ↔ c.verdict.code = 825 := by
  cases c <;> decide

/-- What becomes of a rejected message. -/
structure Dispatcher.Refuses (d : Dispatcher ω) (raw : String) (b : Bench ω) (r : Rejection) :
    Prop where
  outcome : (d.handle raw b).1.outcome = .rejected r.failure
  /-- No unit of work is begun and no processor is run. -/
  calls : (d.observed.handle raw b.observed).2.world.calls = []
  /-- Managers and pipelines of any kind do not matter. -/
  unaided : ∀ table database? ledger?,
    (d.restaffed table database? ledger?).handle raw b = d.handle raw b
  /-- One write for the session of the message is tried when the token is missing. -/
  told : r.failure.code = 825 → ∃ fields session, read raw = .ok (.obj fields) ∧
    Keyed.find? "session" fields = some (.str session) ∧
    (d.recorded.handle raw b.recorded).2.world.attempts.map (fun a => a.message.destination) =
      [session]
  silent : r.failure.code ≠ 825 → (d.recorded.handle raw b.recorded).2.world.attempts = []

theorem Dispatcher.refuses (invalid : validate raw = .error r) (b : Bench ω) :
    d.Refuses raw b r := by
  obtain ⟨⟨c, -, verdict⟩, heads⟩ := validate_error invalid
  have code : r.failure.code = c.verdict.code := congrArg Check.Verdict.code verdict
  obtain ⟨attempts, messages, -, handled⟩ := Recorded.handle_recorded d raw b.recorded
  rw [show Recorded.plain b.recorded = b from rfl, writes_rejected invalid] at messages
  have noted : (d.recorded.handle raw b.recorded).2.world.attempts = attempts := by
    rw [handled]
    exact List.nil_append attempts
  refine
    { outcome := ?_, calls := ?_, unaided := fun table database? ledger? => ?_, told := ?_
      silent := ?_ }
  · rw [handle_rejected invalid]
  · rw [Observed.handle_rejected invalid]
    rfl
  · exact handle_restaffed invalid table database? ledger? b
  · intro told
    rw [code, ← c.told_iff, ← verdict] at told
    obtain ⟨h, known, answers⟩ := Rejection.answers_told told
    obtain ⟨fields, object, headed⟩ := heads h known
    refine ⟨fields, h.session, object, headed.session, ?_⟩
    have destinations := congrArg (List.map Outbound.destination) messages
    rw [answers, List.map_map] at destinations
    rw [noted]
    exact destinations
  · intro silent
    rw [code, Ne, ← c.told_iff, ← verdict] at silent
    rw [Rejection.answers_silent silent] at messages
    rw [noted]
    exact List.map_eq_nil_iff.mp messages

/-- A message has an event when it passes all checks, and this event is read off it. For any other
message the first check that it fails says what becomes of it, and nothing is done for it but to
tell its session of a token that is missing. -/
theorem validate_decides (d : Dispatcher ω) (raw : String) (b : Bench ω) :
    (∀ e, validate raw = .ok e ↔ ∃ fields, read raw = .ok (.obj fields) ∧
      Heads fields e.header ∧ Pays fields e.header.label e.payload) ∧
    ((∃ e, validate raw = .ok e) ↔ ∀ c : Check, c.Passes raw) ∧
    ∀ r, validate raw = .error r →
      (∃ c : Check, c.FirstFailing raw ∧ r.verdict = c.verdict) ∧ d.Refuses raw b r :=
  ⟨fun _ => validate_eq_ok, exists_valid_iff, fun _ invalid =>
    ⟨(validate_error invalid).1, d.refuses invalid b⟩⟩

/-- A message under a number, which needs a token, and without one. -/
def tokenlessMessage : String :=
  "\x7b\"session\":\"aa-01\",\"event\":7,\"params\":\x7b\"auth_token\":null\x7d\x7d"

theorem validate_decides_tokenless :
    (∃ r, validate tokenlessMessage = .error r ∧
      (∃ c : Check, c.FirstFailing tokenlessMessage ∧ r.verdict = c.verdict) ∧
      brokenDispatcher.Refuses tokenlessMessage freshBench r ∧
      r.header? = some (Header.plain "aa-01" notAvailable "7") ∧
      r.verdict = Check.tokenThere.verdict) ∧
    (brokenDispatcher.recorded.handle tokenlessMessage
      freshBench.recorded).2.world.attempts.map (fun a => a.message.destination) = ["aa-01"] := by
  obtain ⟨-, -, rejected⟩ := validate_decides brokenDispatcher tokenlessMessage freshBench
  have invalid : validate tokenlessMessage = .error
      { failure := Code.authenticationRequired.failure
        header? := some (Header.plain "aa-01" notAvailable "7") } := by rfl
  obtain ⟨first, refuses⟩ := rejected _ invalid
  exact ⟨⟨_, invalid, first, refuses, rfl, rfl⟩, by decide +kernel⟩

end EventWorker
