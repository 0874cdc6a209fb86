import EventWorker.Proofs.Memory
import EventWorker.Proofs.Processor.Ended
import EventWorker.Proofs.Processor.Multiplication
import EventWorker.Proofs.Processor.Rekeying
import EventWorker.Proofs.Sealing.Opening
import EventWorker.Proofs.Store.Values

/-!
# Where events are addressed to

An event waits under the label of the event it answers, under the key of errors, under its own
session or under the value of a recipient; and recipients are loaded from the store. A property of
the label, the session and all session values in the store is therefore one of every key under
which an event waits. Neither stage of the built-in processors leaves it.

Results:
1. `Working`: what holds between two main processors, `BuiltinMain.works`: what keeps it.
2. `multiply_addressed`, `rekeyBySession_addressed`: the final processors.
-/

namespace EventWorker

open Processor

variable {ω τ : Type} {h : Host ω} {thread : String} {env : Environment ω} {e : Event}
  {P : String → Prop} {part : ω → τ} {v : τ} {b c : Bench ω}

/-- Reading the clock, drawing bytes and logging leave a part of the surroundings alone. -/
structure Services.Spare (services : Services ω) (part : ω → τ) : Prop where
  now : ∀ w, part (services.now w).2 = part w
  draw : ∀ w, part (services.draw w).2 = part w
  record : ∀ r w, part (services.record r w) = part w

/-- Changes of the store and of the ledger leave a part of the surroundings alone. -/
structure Host.Beside (h : Host ω) (part : ω → τ) : Prop where
  store : ∀ s w, part (h.store.set s w) = part w
  ledger : ∀ g w, part (h.ledger.set g w) = part w

theorem Services.Spare.log (spare : env.services.Spare part) (severity : Severity) (code : Nat)
    (detail : Json.Value) (b : Bench ω) :
    part (env.log severity code detail b).world = part b.world := by
  unfold Environment.log
  split
  · exact spare.record _ _
  · rfl

/-- The keys and the sessions of the waiting events have a property, and so have the recipients
among the scratch values. A part of the surroundings is as given. -/
structure Addressed (P : String → Prop) (part : ω → τ) (v : τ) (b : Bench ω) : Prop where
  waiting : ∀ entry ∈ b.events.drain.1, P entry.1 ∧ P entry.2.header.session
  loaded : ∀ key, ∀ row ∈ b.data.get key, ∀ r, Recipient.ofValue? row = some r → P r.value
  rest : part b.world = v

namespace Addressed

theorem of_same (hb : Addressed P part v b) (events : c.events = b.events)
    (data : c.data = b.data) (rest : part c.world = part b.world) : Addressed P part v c :=
  ⟨events ▸ hb.waiting, data ▸ hb.loaded, rest.trans hb.rest⟩

theorem pushEvent (hb : Addressed P part v b) {key : String} {x : Event} (hk : P key)
    (hx : P x.header.session) : Addressed P part v (b.pushEvent key x) where
  waiting entry hentry := by
    rcases Memory.mem_drain_pushAll.mp hentry with hentry | ⟨here, hentry⟩
    · exact hb.waiting entry hentry
    · rw [here, List.mem_singleton.mp hentry]
      exact ⟨hk, hx⟩
  loaded := hb.loaded
  rest := hb.rest

theorem pushData (hb : Addressed P part v b) (key : String) {rows : List Json.Value}
    (hrows : ∀ row ∈ rows, ∀ r, Recipient.ofValue? row = some r → P r.value) :
    Addressed P part v (b.pushData key rows) where
  waiting := hb.waiting
  loaded k row hrow := by
    rw [Bench.pushData, Memory.get_pushAll] at hrow
    split at hrow
    · rcases List.mem_append.mp hrow with hrow | hrow
      · exact hb.loaded _ row hrow
      · exact hrows row hrow
    · exact hb.loaded k row hrow
  rest := hb.rest

/-- Events that take the place of those that waited. -/
theorem replace (hb : Addressed P part v b) {events : Memory Event}
    (hw : ∀ entry ∈ events.drain.1, P entry.1 ∧ P entry.2.header.session) :
    Addressed P part v { b with events } :=
  ⟨hw, hb.loaded, hb.rest⟩

/-- The label and the session of the event have the property. -/
theorem reply (hb : Addressed P part v b) (label : P e.label) (session : P e.header.session)
    (payload : Json.Fields) : Addressed P part v (b.pushEvent e.label (e.reply payload)) :=
  hb.pushEvent label session

end Addressed

/-! ## Main processors -/

/-- What holds between two main processors. -/
structure Working (h : Host ω) (thread : String) (P : String → Prop) (part : ω → τ) (v : τ)
    (b : Bench ω) : Prop where
  addressed : Addressed P part v b
  named : (h.store.get b.world).Named P thread

section

variable {α : Type}

theorem works_reading (f : Tables → α) (g : Failure → Failure) :
    (Bench.onWorld ((Store.reading h.store f).mapError g)).Maintains
      (Working h thread P part v) :=
  .of_idle fun b => Host.reading_idle h.store f g b

theorem works_now (henv : h.Equips thread env) (spare : env.services.Spare part) :
    (Bench.onWorld (Step.ofState env.services.now) : Act (Bench ω) Int).Maintains
      (Working h thread P part v) :=
  fun b hb => ⟨hb.addressed.of_same rfl rfl (spare.now b.world),
    (henv.now b.world).1.symm ▸ hb.named⟩

theorem rest_writing (beside : h.Beside part) (f : Store → Except Failure (α × Store)) (w : ω) :
    part ((Store.writing h.store f).outcome w).2 = part w := by
  rw [Store.writing, Step.outcome_ofFunction]
  cases f (h.store.get w) with
  | error e => rfl
  | ok r => exact beside.store _ w

theorem works_write (beside : h.Beside part) {w : Write} (names : w.Names P)
    {f : Store → Except Failure (α × Store)}
    (hf : ∀ s : Store, s.after (f s) = s.perform { thread, op := .write w })
    (g : Failure → Failure) :
    (Bench.onWorld ((Store.writing h.store f).mapError g)).Maintains
      (Working h thread P part v) := by
  intro b hb
  refine ⟨hb.addressed.of_same rfl rfl ?_, ?_⟩
  · rw [Bench.outcome_onWorld, Step.outcome_mapError]
    exact rest_writing beside f b.world
  · rw [(Host.store_writing hf g b).1]
    exact hb.named.write names

theorem works_delete (beside : h.Beside part) (id : Nat) :
    (Bench.onWorld (Store.writing h.store fun s => s.delete id)).Maintains
      (Working h thread P part v) := by
  intro b hb
  refine ⟨hb.addressed.of_same rfl rfl (rest_writing beside (fun s => s.delete id) b.world), ?_⟩
  have deleted : h.store.get ((Bench.onWorld (Store.writing h.store fun s => s.delete id)).outcome
      b).2.world = (h.store.get b.world).perform { thread, op := .delete id } := by
    show _ = (h.store.get b.world).after ((h.store.get b.world).delete id)
    rw [Bench.outcome_onWorld, Store.writing, Step.outcome_ofFunction]
    cases (h.store.get b.world).delete id with
    | error f => rfl
    | ok r => exact h.store_lawful.get_set _ _
  rw [deleted]
  exact hb.named.delete id

theorem works_result (r : Except Failure α) :
    (Step.ofResult r : Act (Bench ω) α).Maintains (Working h thread P part v) :=
  .of_idle fun _ => rfl

theorem works_reply (label : P e.label) (session : P e.header.session)
    (payload : List (String × Json.Value)) :
    (Bench.reply e payload : Act (Bench ω) Unit).Maintains (Working h thread P part v) :=
  fun _ hb => ⟨hb.addressed.reply label session _, hb.named⟩

/-- The database is there, so what follows may count on it. -/
theorem works_database (henv : h.Equips thread env) {f : Database ω → Act (Bench ω) α}
    (hf : (f (Store.database h.store thread)).Maintains (Working h thread P part v)) :
    (Step.ofResult env.database >>= f).Maintains (Working h thread P part v) := by
  rw [henv.database_eq]
  exact hf

end

/-- A user is no recipient. -/
theorem ofValue?_user (u : User) : Recipient.ofValue? u.toValue = none := by
  simp [Recipient.ofValue?, Json.record?, User.toValue, Json.Value.object, Keyed.ofList,
    Keyed.find?_insert, Json.FieldSpec.read?, Json.FieldSpec.required]

theorem authenticate_works (henv : h.Equips thread env) (spare : env.services.Spare part)
    (beside : h.Beside part) : (authenticate env e).Maintains (Working h thread P part v) := by
  unfold authenticate
  refine works_database henv ?_
  dsimp only [Store.database]
  refine (works_reading _ _).bind fun found => ?_
  cases found with
  | none => exact .of_idle fun _ => rfl
  | some session =>
    refine (works_now henv spare).bind fun now => ?_
    split
    · exact (works_delete beside _).bind fun _ => .of_idle fun _ => rfl
    · refine .bind (.of_idle fun _ => rfl) fun found => ?_
      cases found with
      | none => exact .of_idle fun _ => rfl
      | some user =>
        refine fun b hb => ⟨hb.addressed.pushData _ fun row hrow r read => ?_, hb.named⟩
        rw [List.mem_singleton.mp hrow, ofValue?_user] at read
        cases read

theorem touchSession_works (henv : h.Equips thread env) (spare : env.services.Spare part)
    (beside : h.Beside part) : (touchSession env e).Maintains (Working h thread P part v) := by
  unfold touchSession
  refine works_database henv ?_
  dsimp only [Store.database]
  refine (works_reading _ _).bind fun found => ?_
  cases found with
  | none => exact .of_idle fun _ => rfl
  | some session =>
    refine (works_now henv spare).bind fun now => ?_
    exact works_write beside (w := .updateLastUpdated e.header.session now) nofun (fun s => rfl) _

theorem startSession_works (henv : h.Equips thread env) (spare : env.services.Spare part)
    (beside : h.Beside part) (label : P e.label) (session : P e.header.session) :
    (startSession env e).Maintains (Working h thread P part v) := by
  unfold startSession
  refine works_database henv ?_
  dsimp only [Store.database]
  refine (works_reading _ _).bind fun found => ?_
  cases found with
  | none => exact works_reply label session _
  | some user =>
    refine (works_now henv spare).bind fun now => ?_
    -- The new session is that of the event.
    have names : (Write.createSession user.id e.header.session (e.param? "auth_token") now).Names
        P := by
      rintro client value token time same
      cases same
      exact session
    refine (works_write beside names (fun s => rfl) _).bind fun id => ?_
    refine .bind ?_ fun _ => works_reply label session _
    exact works_write beside (w := .createEncryption id .unencrypted) nofun (fun s => rfl) _

theorem offerSuites_works (label : P e.label) (session : P e.header.session) :
    (offerSuites env e).Maintains (Working h thread P part v) := by
  unfold offerSuites
  split
  · exact (works_result _).bind fun ciphers => works_reply label session _
  · exact .of_idle fun _ => rfl

theorem selectSuite_works (henv : h.Equips thread env) (beside : h.Beside part)
    (label : P e.label) (session : P e.header.session) :
    (selectSuite env e).Maintains (Working h thread P part v) := by
  unfold selectSuite
  split
  · exact .of_idle fun _ => rfl
  · refine (works_result _).bind fun ciphers => ?_
    split
    · exact works_reply label session _
    · next suite _ =>
      dsimp only
      split
      · refine works_database henv ?_
        dsimp only [Store.database]
        refine (works_reading _ _).bind fun found => ?_
        cases found with
        | none => exact works_reply label session _
        | some row =>
          refine .bind ?_ fun _ => works_reply label session _
          exact works_write beside (w := .updateEncryption row.id (chosenState suite _)) nofun
            (fun s => rfl) _
      · exact works_reply label session _

/-- The recipients have the values of sessions in the store. -/
theorem findRecipients_works (henv : h.Equips thread env) (multiple : Bool) :
    (findRecipients multiple env e).Maintains (Working h thread P part v) := by
  intro b hb
  rcases outcome : (findRecipients multiple env e).outcome b with ⟨f | u, c⟩
  · rw [findRecipients_failed henv outcome]
    exact hb
  · obtain ⟨rows, found, rfl⟩ := findRecipients_ended henv outcome
    refine ⟨hb.addressed.pushData _ fun row hrow r read => ?_, hb.named⟩
    obtain ⟨loaded, hloaded, rfl⟩ := List.mem_map.mp hrow
    rw [Recipient.ofValue?_toValue read]
    exact hb.named.tables.recipients? found loaded hloaded

/-- The built-in main processors keep to the label of the event and to sessions with the
property. -/
theorem BuiltinMain.works (henv : h.Equips thread env) (spare : env.services.Spare part)
    (beside : h.Beside part) (label : P e.label) (session : P e.header.session) (k : BuiltinMain) :
    (k.act env e).Maintains (Working h thread P part v) := by
  cases k with
  | authenticate => exact authenticate_works henv spare beside
  | touchSession => exact touchSession_works henv spare beside
  | startSession => exact startSession_works henv spare beside label session
  | offerSuites => exact offerSuites_works label session
  | selectSuite => exact selectSuite_works henv beside label session
  | findRecipients multiple => exact findRecipients_works henv multiple

/-! ## Final processors -/

/-- Sealed events have no session. -/
theorem Event.session_of_sealUnder {x y : Event} {k : KeyState} {toolkit : Toolkit}
    {draw : Nat → Bytes} (sealed : x.sealUnder k toolkit draw = .ok y) : y.header.session = "" := by
  cases plaintext : k.isPlaintext with
  | true =>
    rw [Event.sealUnder_plaintext sealed plaintext]
    rfl
  | false =>
    obtain ⟨cipher, digest, key, envelope, -, -, -, -, rfl⟩ :=
      Event.sealUnder_encrypted sealed plaintext
    rfl

variable {services : Services ω} {providers : Providers} {toolkit : Toolkit}

theorem discharge_addressed (spare : services.Spare part) (sessionless : P "") {ds : List Duty}
    (named : ∀ x r, .copy x r ∈ ds → P r.value) :
    (discharge services toolkit ds).Maintains (Addressed P part v) := by
  induction ds with
  | nil => exact .of_idle fun _ => rfl
  | cons d rest ih =>
    cases d with
    | unreadable x => exact .of_idle fun _ => rfl
    | copy x r =>
      refine .bind (fun b hb => hb.of_same rfl rfl (spare.draw b.world)) fun draw => ?_
      refine .ofResult_bind fun copy sealed => ?_
      have blank : copy.header.session = "" := Event.session_of_sealUnder (mapError_ok sealed)
      refine .bind (fun b hb => hb.pushEvent (named x r List.mem_cons_self) ?_) fun _ =>
        ih fun y r' hy => named y r' (List.mem_cons_of_mem _ hy)
      rw [blank]
      exact sessionless

/-- The copies go to recipients among the scratch values. -/
theorem multiply_addressed (spare : services.Spare part) (sessionless : P "") :
    (multiply services providers).Maintains (Addressed P part v) := by
  intro b hb
  have taken : Addressed P part v { b with events := b.events.drain.2 } := by
    refine hb.replace fun entry hentry => ?_
    rw [Memory.drain_drain] at hentry
    cases hentry
  cases set : providers.toolkit with
  | error f =>
    rw [outcome_multiply, set]
    split <;> exact taken
  | ok toolkit =>
    rw [multiply_eq set]
    refine discharge_addressed spare sessionless (fun x r hd => ?_) _ taken
    -- Only readable rows make copies.
    obtain ⟨y, -, hy⟩ := List.mem_flatMap.mp hd
    rw [dutiesOf] at hy
    split at hy
    · obtain ⟨r', hr', same⟩ := List.mem_map.mp hy
      cases same
      obtain ⟨row, hrow, read⟩ := List.mem_filterMap.mp hr'
      exact hb.loaded _ row hrow r read
    · cases List.mem_singleton.mp hy

/-- An event is moved to its own session or stays. -/
theorem rekeyBySession_addressed (sessionless : P "") :
    (rekeyBySession : Act (Bench ω) Unit).Maintains (Addressed P part v) := by
  intro b hb
  rw [outcome_rekeyBySession]
  refine hb.replace fun entry hentry => ?_
  obtain ⟨waiting, hwaiting, rfl⟩ := List.mem_map.mp (Memory.mem_drain_refilled.mp hentry)
  obtain ⟨key, session⟩ := hb.waiting waiting (Memory.drain_entries b.events ▸ hwaiting)
  unfold readdressed
  split
  · exact ⟨session, sessionless⟩
  · exact ⟨key, session⟩

theorem builtin_final_addressed (spare : services.Spare part) (sessionless : P "")
    {run : FinalRun ω} (builtin : Registry.builtin.MakesFinal run) :
    (run services providers).Maintains (Addressed P part v) := by
  rcases Registry.builtin_final builtin with rfl | rfl
  · exact (multiply_addressed spare sessionless).mapError _
  · exact (rekeyBySession_addressed sessionless).mapError _

end EventWorker
