import EventWorker.Proofs.Memory
import EventWorker.Proofs.Processor.Builtin
import EventWorker.Proofs.Store.Clients

/-!
# Main processors that come to their end

What a built-in main processor has made of the store when it comes to its end, and what it
leaves among the scratch values however it ends.

Results:
1. `BuiltinMain.turned`: the store after a main processor that came to its end, kind by kind.
2. `findRecipients_ended`, `findRecipients_failed`: what the loading of recipients leaves.
3. `BuiltinMain.loaded`: no other kind touches the recipients of an event.
-/

namespace EventWorker

open Processor

variable {ω : Type} {h : Host ω} {thread : String} {env : Environment ω} {e : Event}
  {b c : Bench ω}

/-- What a main processor that came to its end on an event has made of a store. The store has
refused it nothing, or it would have failed. -/
inductive BuiltinMain.Turned (thread : String) (e : Event) (s : Store) : BuiltinMain → Store → Prop
  | read (k : BuiltinMain) : Turned thread e s k s
  | touched (now : Int) :
      Turned thread e s .touchSession
        (s.perform ⟨thread, .write (.updateLastUpdated e.header.session now)⟩)
  /-- Only the opening of a session takes two writes. -/
  | opened {user : User} {now : Int} {id key : Nat} {mid after : Store}
      (session : s.createSession thread user.id e.header.session (e.param? "auth_token") now =
        .ok (id, mid))
      (encryption : mid.createEncryption thread id .unencrypted = .ok (key, after)) :
      Turned thread e s .startSession after
  | selected (id : Nat) (state : KeyState) :
      Turned thread e s .selectSuite (s.perform ⟨thread, .write (.updateEncryption id state)⟩)

namespace Store

variable {s t : Store}

theorem write_ok {α : Type} {a : String} {f : Tables → Except Failure (α × Undo × Tables)} {v : α}
    (done : s.write a f = .ok (v, t)) : ∃ undo, f s.tables = .ok (v, undo, t.tables) := by
  unfold write at done
  split at done
  · cases done
  · cases hf : f s.tables with
    | error e =>
      rw [hf] at done
      cases done
    | ok r =>
      obtain ⟨w, undo, tables⟩ := r
      rw [hf] at done
      cases done
      exact ⟨undo, by rw [tables_record]⟩

/-- A write that was made is a turn. -/
theorem sound_of_ok {α : Type} {a : String} {w : Write} {r : Store → Except Failure (α × Store)}
    {v : α} (hs : s.Sound) (done : r s = .ok (v, t))
    (turn : ∀ s : Store, s.after (r s) = s.perform { thread := a, op := .write w }) : t.Sound := by
  have after : s.perform { thread := a, op := .write w } = t := by
    rw [← turn, done]
    rfl
  exact after ▸ (performed s _).sound hs

end Store

theorem BuiltinMain.Turned.sound {k : BuiltinMain} {s t : Store}
    (turned : k.Turned thread e s t) (hs : s.Sound) : t.Sound := by
  cases turned with
  | read => exact hs
  | touched now => exact (Store.performed s _).sound hs
  | @opened user now id key mid _ session encryption =>
    have added : mid.Sound :=
      Store.sound_of_ok (a := thread)
        (w := .createSession user.id e.header.session (e.param? "auth_token") now) hs
        (r := fun s => s.createSession thread user.id e.header.session (e.param? "auth_token") now)
        session fun s => rfl
    exact Store.sound_of_ok (a := thread) (w := .createEncryption id .unencrypted) added
      (r := fun s => s.createEncryption thread id .unencrypted) encryption fun s => rfl
  | selected id state => exact (Store.performed s _).sound hs

/-! ## One access to the store -/

section

variable {α : Type} {l : Lens ω Store} {g : Failure → Failure} {v : α}

theorem reading_ended {f : Tables → α}
    (ended : (Bench.onWorld ((Store.reading l f).mapError g)).outcome b = (.ok v, c)) :
    v = f (l.get b.world).tables ∧ c = b := by
  cases available : (l.get b.world).unavailable with
  | true =>
    rw [Host.outcome_reading_unavailable available] at ended
    cases ended
  | false =>
    rw [Host.outcome_reading_mapError available] at ended
    cases ended
    exact ⟨rfl, rfl⟩

/-- A write that was not refused. -/
theorem writing_ended {f : Store → Except Failure (α × Store)}
    (ended : (Bench.onWorld ((Store.writing h.store f).mapError g)).outcome b = (.ok v, c)) :
    f (h.store.get b.world) = .ok (v, h.store.get c.world) := by
  rw [Bench.outcome_onWorld, Step.outcome_mapError, Store.writing, Step.outcome_ofFunction] at ended
  cases done : f (h.store.get b.world) with
  | error e =>
    rw [done] at ended
    cases ended
  | ok r =>
    obtain ⟨w, s⟩ := r
    rw [done] at ended
    cases ended
    exact congrArg (fun t => Except.ok (v, t)) (h.store_lawful.get_set s b.world).symm

/-- A write that was not refused is a turn of the thread. -/
theorem turn_ended {w : Write} {f : Store → Except Failure (α × Store)}
    (hf : ∀ s : Store, s.after (f s) = s.perform ⟨thread, .write w⟩)
    (ended : (Bench.onWorld ((Store.writing h.store f).mapError g)).outcome b = (.ok v, c)) :
    h.store.get c.world = (h.store.get b.world).perform ⟨thread, .write w⟩ := by
  have store := (Host.store_writing (h := h) hf g b).1
  rw [ended] at store
  exact store

theorem now_ended (henv : h.Equips thread env) {now : Int}
    (ended : (Bench.onWorld (Step.ofState env.services.now) : Act (Bench ω) Int).outcome b =
      (.ok now, c)) : h.store.get c.world = h.store.get b.world := by
  cases ended
  exact (henv.now b.world).1

/-- The database is there. -/
theorem database_ended (henv : h.Equips thread env) {f : Database ω → Act (Bench ω) α}
    (ended : (Step.ofResult env.database >>= f).outcome b = (.ok v, c)) :
    (f (Store.database h.store thread)).outcome b = (.ok v, c) := by
  rw [henv.database_eq] at ended
  exact ended

/-- An answer only waits. -/
theorem reply_ended {payload : List (String × Json.Value)}
    (ended : (Bench.reply e payload : Act (Bench ω) Unit).outcome b = (.ok (), c)) :
    c.world = b.world := by
  cases ended
  rfl

end

/-! ## The store after each kind -/

theorem authenticate_ended (henv : h.Equips thread env)
    (ended : (authenticate env e).outcome b = (.ok (), c)) :
    h.store.get c.world = h.store.get b.world := by
  have course := authenticates henv e b
  rw [ended] at course
  cases course with
  | passed found fresh store ledger => exact store

theorem touchSession_ended (henv : h.Equips thread env)
    (ended : (touchSession env e).outcome b = (.ok (), c)) :
    BuiltinMain.touchSession.Turned thread e (h.store.get b.world) (h.store.get c.world) := by
  unfold touchSession at ended
  have ended := database_ended henv ended
  dsimp only [Store.database] at ended
  obtain ⟨found, b₁, looked, ended⟩ := Step.bind_ended ended
  obtain ⟨-, rfl⟩ := reading_ended looked
  cases found with
  | none => cases ended
  | some session =>
    obtain ⟨now, b₂, clock, ended⟩ := Step.bind_ended ended
    rw [turn_ended (w := .updateLastUpdated e.header.session now) (fun s => rfl) ended,
      now_ended henv clock]
    exact .touched now

theorem startSession_ended (henv : h.Equips thread env)
    (ended : (startSession env e).outcome b = (.ok (), c)) :
    BuiltinMain.startSession.Turned thread e (h.store.get b.world) (h.store.get c.world) := by
  unfold startSession at ended
  have ended := database_ended henv ended
  dsimp only [Store.database] at ended
  obtain ⟨found, b₁, looked, ended⟩ := Step.bind_ended ended
  obtain ⟨-, rfl⟩ := reading_ended looked
  cases found with
  | none =>
    rw [reply_ended ended]
    exact .read _
  | some user =>
    obtain ⟨now, b₂, clock, ended⟩ := Step.bind_ended ended
    obtain ⟨id, b₃, created, ended⟩ := Step.bind_ended ended
    obtain ⟨key, b₄, given, ended⟩ := Step.bind_ended ended
    have created := writing_ended created
    rw [now_ended henv clock] at created
    rw [reply_ended ended]
    exact .opened created (writing_ended given)

theorem offerSuites_ended (ended : (offerSuites env e).outcome b = (.ok (), c)) :
    c.world = b.world := by
  unfold offerSuites at ended
  split at ended
  · obtain ⟨ciphers, b₁, present, ended⟩ := Step.bind_ended ended
    cases congrArg Prod.snd present
    exact reply_ended ended
  · cases ended
    rfl

theorem selectSuite_ended (henv : h.Equips thread env)
    (ended : (selectSuite env e).outcome b = (.ok (), c)) :
    BuiltinMain.selectSuite.Turned thread e (h.store.get b.world) (h.store.get c.world) := by
  have answered {code : Nat} {b₁ : Bench ω} (store : h.store.get b₁.world = h.store.get b.world)
      (ended : (answer e code : Act (Bench ω) Unit).outcome b₁ = (.ok (), c)) :
      BuiltinMain.selectSuite.Turned thread e (h.store.get b.world) (h.store.get c.world) := by
    rw [reply_ended ended, store]
    exact .read _
  unfold selectSuite at ended
  split at ended
  · cases ended
    exact .read _
  · obtain ⟨ciphers, b₁, present, ended⟩ := Step.bind_ended ended
    cases congrArg Prod.snd present
    split at ended
    · exact answered rfl ended
    · next suite _ =>
      dsimp only at ended
      split at ended
      · have ended := database_ended henv ended
        dsimp only [Store.database] at ended
        obtain ⟨found, b₁, looked, ended⟩ := Step.bind_ended ended
        obtain ⟨-, rfl⟩ := reading_ended looked
        cases found with
        | none => exact answered rfl ended
        | some session =>
          obtain ⟨_, b₂, written, ended⟩ := Step.bind_ended ended
          rw [reply_ended ended,
            turn_ended (w := .updateEncryption session.id (chosenState suite _)) (fun s => rfl)
              written]
          exact .selected _ _
      · exact answered rfl ended

/-- The recipients are loaded from the tables that are there. -/
theorem findRecipients_ended (henv : h.Equips thread env) {multiple : Bool}
    (ended : (findRecipients multiple env e).outcome b = (.ok (), c)) :
    ∃ rows, (h.store.get b.world).tables.recipients? multiple e.header.session = some rows ∧
      c = b.pushData e.header.session (rows.map Recipient.toValue) := by
  unfold findRecipients at ended
  obtain ⟨found, b₁, looked, ended⟩ := Step.bind_ended (database_ended henv ended)
  have looked : found = (h.store.get b.world).tables.recipients? multiple e.header.session ∧
      b₁ = b := by
    cases multiple with
    | false => exact reading_ended looked
    | true => exact reading_ended looked
  obtain ⟨rfl, rfl⟩ := looked
  cases found : (h.store.get b₁.world).tables.recipients? multiple e.header.session with
  | none =>
    rw [found] at ended
    cases ended
  | some rows =>
    rw [found] at ended
    cases ended
    exact ⟨rows, rfl, rfl⟩

theorem BuiltinMain.turned (henv : h.Equips thread env) {k : BuiltinMain}
    (ended : (k.act env e).outcome b = (.ok (), c)) :
    k.Turned thread e (h.store.get b.world) (h.store.get c.world) := by
  cases k with
  | authenticate =>
    rw [authenticate_ended henv ended]
    exact .read _
  | touchSession => exact touchSession_ended henv ended
  | startSession => exact startSession_ended henv ended
  | offerSuites =>
    rw [offerSuites_ended ended]
    exact .read _
  | selectSuite => exact selectSuite_ended henv ended
  | findRecipients multiple =>
    obtain ⟨rows, -, rfl⟩ := findRecipients_ended henv ended
    exact .read _

/-! ## One processor of a main stage -/

theorem Dispatch.runOne_ended {name : String} {more : List (String × Json.Value)}
    {run : Step Stop (Bench ω) Unit}
    (ended : (runOne env name more run).outcome b = (.ok (), c)) :
    ∃ c', run.outcome b = (.ok (), c') ∧ c = env.logHandled name more c' := by
  rw [runOne, Step.outcome_ofFunction] at ended
  rcases hrun : run.outcome b with ⟨stop | v, c'⟩
  · rw [hrun] at ended
    cases ended
  · rw [hrun] at ended
    cases ended
    exact ⟨c', rfl, rfl⟩

/-- A processor that the built-in registry makes is of some kind, and its end is logged. -/
theorem runOne_turned (henv : h.Equips thread env) {w : Wired (MainRun ω)}
    (builtin : Registry.builtin.MakesMain w.run) {more : List (String × Json.Value)}
    (ended : (Dispatch.runOne env w.name more (w.run env e)).outcome b = (.ok (), c)) :
    ∃ k : BuiltinMain, w.run = MainRun.ofAct k.act ∧
      k.Turned thread e (h.store.get b.world) (h.store.get c.world) := by
  obtain ⟨k, run⟩ := Registry.builtin_main builtin
  obtain ⟨c', hrun, rfl⟩ := Dispatch.runOne_ended ended
  rw [run] at hrun
  refine ⟨k, run, ?_⟩
  rw [Environment.logHandled, (henv.log _ _ _ c').1]
  exact BuiltinMain.turned henv (Step.mapError_ended hrun)

/-! ## The scratch values -/

/-- A failure to load recipients leaves everything as it was. -/
theorem findRecipients_failed (henv : h.Equips thread env) {multiple : Bool} {f : Failure}
    (failed : (findRecipients multiple env e).outcome b = (.error f, c)) : c = b := by
  unfold findRecipients at failed
  rw [henv.database_eq, Step.ofResult_bind_ok rfl] at failed
  have idle {r : Except Failure (Option (List Recipient))} {b' : Bench ω}
      (looked : (Bench.onWorld ((if multiple then
          (Store.database h.store thread).clientRecipients? e.header.session
        else (Store.database h.store thread).recipientsOf? e.header.session).mapError
          fun f => Code.sessionLookup.failure.causedBy f)).outcome b = (r, b')) : b' = b := by
    cases multiple with
    | false => exact (congrArg Prod.snd looked).symm.trans (Host.reading_idle ..)
    | true => exact (congrArg Prod.snd looked).symm.trans (Host.reading_idle ..)
  rcases Step.bind_failed failed with unread | ⟨found, b₁, looked, failed⟩
  · exact idle unread
  · cases found with
    | none => exact (congrArg Prod.snd failed).symm.trans (idle looked)
    | some rows => cases failed

section

variable {α : Type} {data : Memory Json.Value}

theorem maintains_data_onWorld (a : Act ω α) :
    (Bench.onWorld a).Maintains fun b => b.data = data :=
  fun _ hb => hb

theorem maintains_data_result (r : Except Failure α) :
    (Step.ofResult r : Act (Bench ω) α).Maintains fun b => b.data = data :=
  .of_idle fun _ => rfl

theorem maintains_data_throw (f : Failure) :
    (throw f : Act (Bench ω) α).Maintains fun b => b.data = data :=
  .of_idle fun _ => rfl

theorem maintains_data_reply (payload : List (String × Json.Value)) :
    (Bench.reply e payload : Act (Bench ω) Unit).Maintains fun b => b.data = data :=
  fun _ hb => hb

theorem maintains_data_touchSession :
    (touchSession env e).Maintains fun b => b.data = data := by
  unfold touchSession
  refine (maintains_data_result _).bind fun db => (maintains_data_onWorld _).bind fun found => ?_
  cases found with
  | none => exact maintains_data_throw _
  | some session =>
    exact (maintains_data_onWorld _).bind fun now => maintains_data_onWorld _

theorem maintains_data_startSession :
    (startSession env e).Maintains fun b => b.data = data := by
  unfold startSession
  refine (maintains_data_result _).bind fun db => (maintains_data_onWorld _).bind fun found => ?_
  cases found with
  | none => exact maintains_data_reply _
  | some user =>
    refine (maintains_data_onWorld _).bind fun now => (maintains_data_onWorld _).bind fun id => ?_
    exact (maintains_data_onWorld _).bind fun key => maintains_data_reply _

theorem maintains_data_offerSuites : (offerSuites env e).Maintains fun b => b.data = data := by
  unfold offerSuites
  split
  · exact (maintains_data_result _).bind fun ciphers => maintains_data_reply _
  · exact .of_idle fun _ => rfl

theorem maintains_data_selectSuite : (selectSuite env e).Maintains fun b => b.data = data := by
  unfold selectSuite
  split
  · exact .of_idle fun _ => rfl
  · refine (maintains_data_result _).bind fun ciphers => ?_
    split
    · exact maintains_data_reply _
    · dsimp only
      split
      · refine (maintains_data_result _).bind fun db =>
          (maintains_data_onWorld _).bind fun found => ?_
        cases found with
        | none => exact maintains_data_reply _
        | some session => exact (maintains_data_onWorld _).bind fun _ => maintains_data_reply _
      · exact maintains_data_reply _

end

/-- The authentication check leaves the user under a key of its own. -/
theorem authenticate_loaded (henv : h.Equips thread env) (named : e.header.session ≠ userKey)
    (b : Bench ω) :
    ((authenticate env e).outcome b).2.data.get e.header.session =
      b.data.get e.header.session := by
  have course := authenticates henv e b
  generalize (authenticate env e).outcome b = out at course ⊢
  obtain ⟨r, c⟩ := out
  cases course with
  | unknown => rfl
  | expired => rfl
  | ownerless => rfl
  | passed found fresh store ledger =>
    show (b.data.pushAll userKey _).get e.header.session = b.data.get e.header.session
    rw [Memory.get_pushAll, if_neg named]

/-- No kind but one touches the recipients that were loaded for an event. -/
theorem BuiltinMain.loaded (henv : h.Equips thread env) (named : e.header.session ≠ userKey)
    {k : BuiltinMain} (not_find : ∀ multiple, k ≠ .findRecipients multiple) (b : Bench ω) :
    ((k.act env e).outcome b).2.data.get e.header.session = b.data.get e.header.session := by
  cases k with
  | authenticate => exact authenticate_loaded henv named b
  | touchSession => exact congrArg (Memory.get · _) (maintains_data_touchSession b rfl)
  | startSession => exact congrArg (Memory.get · _) (maintains_data_startSession b rfl)
  | offerSuites => exact congrArg (Memory.get · _) (maintains_data_offerSuites b rfl)
  | selectSuite => exact congrArg (Memory.get · _) (maintains_data_selectSuite b rfl)
  | findRecipients multiple => exact absurd rfl (not_find multiple)

end EventWorker
