import EventWorker.Proofs.Memory
import EventWorker.Proofs.Processor.Builtin
import EventWorker.Proofs.Store.Clients

/-!
# Serving an authenticated event

Once an event has passed its authentication check, the main processors that follow find its
session in the store, so none of them adds one. They answer it under its session, and only
`findRecipients` loads recipients.

Results:
1. `Serving`: what holds between two processors, `BuiltinMain.maintains`: what keeps it.
2. `Authenticates.serves`, `findRecipients_serves`: the two that change the scratch data.
3. `BuiltinMain.serves`, `serves_runOne`: one processor of any kind.
-/

namespace EventWorker

open Processor

variable {ω : Type} {h : Host ω} {thread : String} {env : Environment ω} {e : Event}
  {before : Tables} {b c : Bench ω}

/-- What holds on a bench while an event is served: the store is available and has the clients
it had before, and the waiting events are of the session of the event. -/
structure Serving (h : Host ω) (before : Tables) (e : Event) (b : Bench ω) : Prop where
  available : (h.store.get b.world).unavailable = false
  sound : (h.store.get b.world).Sound
  clients : before.SameClients (h.store.get b.world).tables
  answers : ∀ entry ∈ b.events.drain.1, entry.2.header.session = e.header.session

/-- The session of the event is in the tables. -/
def Tables.Holds (t : Tables) (e : Event) : Prop :=
  ∃ x ∈ t.sessions, x.2.value = e.header.session

namespace Serving

/-- Neither the scratch data nor the rest of the surroundings matter. -/
theorem of_same (hb : Serving h before e b)
    (store : h.store.get c.world = h.store.get b.world) (events : c.events = b.events) :
    Serving h before e c :=
  ⟨store ▸ hb.available, store ▸ hb.sound, store ▸ hb.clients, events ▸ hb.answers⟩

theorem update (hb : Serving h before e b) {w : Write} (updates : w.Updates)
    (store : h.store.get c.world =
      (h.store.get b.world).perform { thread, op := .write w })
    (events : c.events = b.events) : Serving h before e c := by
  obtain ⟨clients, available⟩ := Store.perform_update hb.sound updates thread
  have sound := (Store.performed (h.store.get b.world) { thread, op := .write w }).sound hb.sound
  exact ⟨store ▸ available.trans hb.available, store ▸ sound,
    store ▸ hb.clients.trans clients, events ▸ hb.answers⟩

theorem reply (hb : Serving h before e b) (payload : Json.Fields) :
    Serving h before e (b.pushEvent e.label (e.reply payload)) where
  available := hb.available
  sound := hb.sound
  clients := hb.clients
  answers entry hentry := by
    rcases Memory.mem_drain_pushAll.mp hentry with hentry | ⟨-, hentry⟩
    · exact hb.answers entry hentry
    · rw [List.mem_singleton.mp hentry]
      rfl

/-- A session that is there cannot be added again. -/
theorem createSession_refused (hb : Serving h before e b) (held : before.Holds e)
    (thread : String) (client : Nat) (token : Option String) (time : Int) :
    ∃ f, (h.store.get b.world).createSession thread client e.header.session token time =
      .error f := by
  obtain ⟨x, hx, named⟩ := held
  obtain ⟨s, found⟩ := hb.clients.sessionByValue? hx
  rw [named] at found
  refine ⟨Code.sessionNotCreated.failure.because ("duplicate session " ++ e.header.session), ?_⟩
  rw [Store.createSession, Store.write, hb.available, Tables.createSession, found]
  rfl

end Serving

/-! ## Processors that leave the scratch data alone -/

/-- The event is served, and the scratch data are as given. -/
def ServingWith (h : Host ω) (before : Tables) (e : Event) (data : Memory Json.Value)
    (b : Bench ω) : Prop :=
  Serving h before e b ∧ b.data = data

variable {data : Memory Json.Value} {α : Type}

theorem maintains_reading (f : Tables → α) (g : Failure → Failure) :
    (Bench.onWorld ((Store.reading h.store f).mapError g)).Maintains
      (ServingWith h before e data) :=
  .of_idle fun b => Host.reading_idle h.store f g b

theorem maintains_now (henv : h.Equips thread env) :
    (Bench.onWorld (Step.ofState env.services.now) : Act (Bench ω) Int).Maintains
      (ServingWith h before e data) :=
  fun b hb => ⟨hb.1.of_same (henv.now b.world).1 rfl, hb.2⟩

theorem maintains_update {w : Write} (updates : w.Updates)
    {f : Store → Except Failure (α × Store)}
    (hf : ∀ s : Store, s.after (f s) = s.perform { thread, op := .write w })
    (g : Failure → Failure) :
    (Bench.onWorld ((Store.writing h.store f).mapError g)).Maintains
      (ServingWith h before e data) :=
  fun b hb => ⟨hb.1.update updates (Host.store_writing hf g b).1 rfl, hb.2⟩

theorem maintains_reply (payload : List (String × Json.Value)) :
    (Bench.reply e payload : Act (Bench ω) Unit).Maintains (ServingWith h before e data) :=
  fun _ hb => ⟨hb.1.reply _, hb.2⟩

theorem maintains_result (r : Except Failure α) :
    (Step.ofResult r : Act (Bench ω) α).Maintains (ServingWith h before e data) :=
  .of_idle fun _ => rfl

/-- The database is there, so what follows may count on it. -/
theorem maintains_database (henv : h.Equips thread env) {f : Database ω → Act (Bench ω) α}
    (hf : (f (Store.database h.store thread)).Maintains (ServingWith h before e data)) :
    (Step.ofResult env.database >>= f).Maintains (ServingWith h before e data) := by
  rw [henv.database_eq]
  exact hf

theorem maintains_touchSession (henv : h.Equips thread env) :
    (touchSession env e).Maintains (ServingWith h before e data) := by
  unfold touchSession
  refine maintains_database henv ?_
  dsimp only [Store.database]
  refine (maintains_reading _ _).bind fun found => ?_
  cases found with
  | none => exact .of_idle fun _ => rfl
  | some session =>
    refine (maintains_now henv).bind fun now => ?_
    exact maintains_update (w := .updateLastUpdated e.header.session now) trivial
      (fun s => rfl) _

theorem maintains_startSession (henv : h.Equips thread env) (held : before.Holds e) :
    (startSession env e).Maintains (ServingWith h before e data) := by
  unfold startSession
  refine maintains_database henv ?_
  dsimp only [Store.database]
  refine (maintains_reading _ _).bind fun found => ?_
  cases found with
  | none => exact maintains_reply _
  | some user =>
    refine (maintains_now henv).bind fun now => ?_
    -- The session is there already, so this one is refused and nothing follows.
    refine .bind_failing (fun b hb => ?_) fun b hb => ?_
    all_goals
      obtain ⟨f, refused⟩ := hb.1.createSession_refused held thread user.id
        (e.param? "auth_token") now
      rw [Bench.outcome_onWorld, Step.outcome_mapError, Store.writing, Step.outcome_ofFunction,
        refused]
    · exact hb
    · exact ⟨_, rfl⟩

theorem maintains_offerSuites : (offerSuites env e).Maintains (ServingWith h before e data) := by
  unfold offerSuites
  split
  · exact (maintains_result _).bind fun ciphers => maintains_reply _
  · exact .of_idle fun _ => rfl

theorem maintains_selectSuite (henv : h.Equips thread env) :
    (selectSuite env e).Maintains (ServingWith h before e data) := by
  unfold selectSuite
  split
  · exact .of_idle fun _ => rfl
  · refine (maintains_result _).bind fun ciphers => ?_
    split
    · exact maintains_reply _
    · next suite _ =>
      dsimp only
      split
      · refine maintains_database henv ?_
        dsimp only [Store.database]
        refine (maintains_reading _ _).bind fun found => ?_
        cases found with
        | none => exact maintains_reply _
        | some session =>
          refine .bind ?_ fun _ => maintains_reply _
          exact maintains_update (w := .updateEncryption session.id (chosenState suite _)) trivial
            (fun s => rfl) _
      · exact maintains_reply _

/-- The kinds that neither check the event nor load recipients. -/
theorem BuiltinMain.maintains (henv : h.Equips thread env) (held : before.Holds e)
    {k : BuiltinMain} (not_check : k ≠ .authenticate)
    (not_find : ∀ multiple, k ≠ .findRecipients multiple) (data : Memory Json.Value) :
    (k.act env e).Maintains (ServingWith h before e data) := by
  cases k with
  | authenticate => exact absurd rfl not_check
  | touchSession => exact maintains_touchSession henv
  | startSession => exact maintains_startSession henv held
  | offerSuites => exact maintains_offerSuites
  | selectSuite => exact maintains_selectSuite henv
  | findRecipients multiple => exact absurd rfl (not_find multiple)

/-! ## Processors that change the scratch data -/

/-- The recipients that a processor loads from the tables for the session with a value. -/
def BuiltinMain.loads (t : Tables) (value : String) : BuiltinMain → List Recipient
  | .findRecipients multiple => (t.recipients? multiple value).getD []
  | _ => []

/-- The recipients that were loaded are the only new values under the session of the event,
and the event is still served unless the step has failed. -/
structure Serves (h : Host ω) (before : Tables) (e : Event) (b : Bench ω)
    (loaded : List Recipient) (r : Except Failure Unit) (c : Bench ω) : Prop where
  serving : r = .ok () → Serving h before e c
  data : c.data.get e.header.session =
    b.data.get e.header.session ++ loaded.map Recipient.toValue

theorem Serves.nobody {r : Except Failure Unit} (serving : r = .ok () → Serving h before e c)
    (data : c.data.get e.header.session = b.data.get e.header.session) :
    Serves h before e b [] r c :=
  ⟨serving, data.trans (List.append_nil _).symm⟩

theorem Serves.failed {loaded : List Recipient} {f : Failure}
    (data : c.data.get e.header.session =
      b.data.get e.header.session ++ loaded.map Recipient.toValue) :
    Serves h before e b loaded (.error f) c :=
  ⟨fun hr => absurd hr (by simp), data⟩

theorem Authenticates.serves {r : Except Failure Unit} (hb : Serving h before e b)
    (named : e.header.session ≠ userKey) (course : Authenticates h thread env e b r c) :
    Serves h before e b [] r c := by
  cases course with
  | unknown => exact .failed (List.append_nil _).symm
  | expired => exact .failed (List.append_nil _).symm
  | ownerless => exact .failed (List.append_nil _).symm
  | passed found fresh store =>
    refine .nobody (fun _ => hb.of_same store rfl) ?_
    rw [Bench.pushData, Memory.get_pushAll, if_neg named]

theorem findRecipients_serves (henv : h.Equips thread env) (hb : Serving h before e b)
    (multiple : Bool) :
    Serves h before e b
      ((BuiltinMain.findRecipients multiple).loads (h.store.get b.world).tables e.header.session)
      ((findRecipients multiple env e).outcome b).1
      ((findRecipients multiple env e).outcome b).2 := by
  unfold findRecipients
  rw [henv.database_eq, Step.outcome_bind_ok (Step.outcome_ofResult _ _)]
  dsimp only [Store.database, BuiltinMain.loads]
  have lookup (g : Failure → Failure) :
      (Bench.onWorld
        ((if multiple then Store.reading h.store fun t => t.clientRecipients? e.header.session
          else Store.reading h.store fun t => t.recipientsOf? e.header.session).mapError g)).outcome
        b = (.ok ((h.store.get b.world).tables.recipients? multiple e.header.session), b) := by
    cases multiple with
    | false => exact Host.outcome_reading_mapError hb.available _ _
    | true => exact Host.outcome_reading_mapError hb.available _ _
  rw [Step.outcome_bind_ok (lookup _)]
  cases (h.store.get b.world).tables.recipients? multiple e.header.session with
  | none => exact .failed (List.append_nil _).symm
  | some rows =>
    refine ⟨fun _ => hb.of_same rfl rfl, ?_⟩
    dsimp only
    rw [Bench.outcome_change, Bench.pushData, Memory.get_pushAll, if_pos rfl]
    rfl

theorem BuiltinMain.serves (henv : h.Equips thread env) (held : before.Holds e)
    (named : e.header.session ≠ userKey) (k : BuiltinMain) (hb : Serving h before e b) :
    Serves h before e b (k.loads (h.store.get b.world).tables e.header.session)
      ((k.act env e).outcome b).1 ((k.act env e).outcome b).2 := by
  -- All but two kinds load nobody and leave the scratch data alone.
  have idle (not_check : k ≠ .authenticate) (not_find : ∀ multiple, k ≠ .findRecipients multiple)
      (nobody : k.loads (h.store.get b.world).tables e.header.session = []) :
      Serves h before e b (k.loads (h.store.get b.world).tables e.header.session)
        ((k.act env e).outcome b).1 ((k.act env e).outcome b).2 := by
    obtain ⟨serving, data⟩ :=
      BuiltinMain.maintains henv held not_check not_find b.data b ⟨hb, rfl⟩
    rw [nobody]
    exact .nobody (fun _ => serving) (by rw [data])
  cases k with
  | authenticate => exact (authenticates henv e b).serves hb named
  | findRecipients multiple => exact findRecipients_serves henv hb multiple
  | touchSession => exact idle (nofun) (nofun) rfl
  | startSession => exact idle (nofun) (nofun) rfl
  | offerSuites => exact idle (nofun) (nofun) rfl
  | selectSuite => exact idle (nofun) (nofun) rfl

/-- Logging what became of a processor changes nothing about it. -/
theorem serves_runOne (henv : h.Equips thread env)
    {run : Environment ω → Event → Act (Bench ω) Unit} {loaded : List Recipient}
    (serves : Serves h before e b loaded ((run env e).outcome b).1 ((run env e).outcome b).2)
    (name : String) (more : List (String × Json.Value)) :
    let step := Dispatch.runOne env name more (MainRun.ofAct run env e)
    Serves h before e b loaded (step.outcome b).1 (step.outcome b).2 := by
  dsimp only
  rw [Dispatch.runOne, Step.outcome_ofFunction, MainRun.ofAct, Step.outcome_mapError]
  generalize (run env e).outcome b = out at serves ⊢
  obtain ⟨f | v, c⟩ := out
  · refine .failed ?_
    show (env.logStopped name f c).data.get _ = _
    rw [Environment.logStopped, (env.log_memories _ _ _ c).2]
    exact serves.data
  · obtain ⟨events, data⟩ := env.log_memories .debug Code.logHandled
      (.object (("processor", .str name) :: more)) c
    refine ⟨fun _ => (serves.serving rfl).of_same (henv.log _ _ _ c).1 events, ?_⟩
    show (env.logHandled name more c).data.get _ = _
    rw [Environment.logHandled, data]
    exact serves.data

end EventWorker
