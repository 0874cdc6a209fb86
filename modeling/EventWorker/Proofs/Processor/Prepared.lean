import EventWorker.Proofs.Dispatch.Fanout
import EventWorker.Proofs.Processor.Ended
import EventWorker.Proofs.Processor.Selection
import EventWorker.Proofs.Store.Keys

/-!
# What is ready before the last main processor

The processors that check a session, note its use and load its recipients answer nothing and leave
the key states alone. The last one of a pipeline, if it is another, starts from there, and the
recipients have the key states of the beginning.

Results:
1. `BuiltinMain.prepared`: what these processors leave when they come to their ends.
2. `runMain_prepared`: what there is when the last processor starts.
3. `loaded_keyState?`: the key states with which the recipients are loaded.
-/

namespace EventWorker

open Processor

variable {ω : Type} {h : Host ω} {thread : String} {env : Environment ω} {e : Event}
  {b c : Bench ω}

/-- The processors of this kind answer nothing and write no key state. -/
def BuiltinMain.prepares : BuiltinMain → Bool
  | .authenticate | .touchSession | .findRecipients _ => true
  | _ => false

/-- The waiting events and the key states of a bench are there on another one. -/
structure Prepared (h : Host ω) (b c : Bench ω) : Prop where
  events : c.events = b.events
  sound : (h.store.get c.world).Sound
  clients : (h.store.get b.world).tables.SameClients (h.store.get c.world).tables
  encryptions : (h.store.get c.world).tables.encryptions = (h.store.get b.world).tables.encryptions

namespace Prepared

theorem of_store (sound : (h.store.get b.world).Sound)
    (store : h.store.get c.world = h.store.get b.world) (events : c.events = b.events) :
    Prepared h b c :=
  ⟨events, store ▸ sound, store ▸ .refl _, by rw [store]⟩

theorem trans {a : Bench ω} (first : Prepared h a b) (second : Prepared h b c) :
    Prepared h a c :=
  ⟨second.events.trans first.events, second.sound, first.clients.trans second.clients,
    second.encryptions.trans first.encryptions⟩

theorem keyState? (prepared : Prepared h b c) (value : String) :
    (h.store.get c.world).tables.keyState? value = (h.store.get b.world).tables.keyState? value :=
  prepared.clients.keyState? prepared.encryptions value

end Prepared

theorem touchSession_events (ended : (touchSession env e).outcome b = (.ok (), c)) :
    c.events = b.events := by
  unfold touchSession at ended
  obtain ⟨db, b₁, present, ended⟩ := Step.bind_ended ended
  cases congrArg Prod.snd present
  obtain ⟨found, b₂, looked, ended⟩ := Step.bind_ended ended
  cases found with
  | none => cases ended
  | some session =>
    obtain ⟨now, b₃, clock, ended⟩ := Step.bind_ended ended
    exact (events_onWorld ended).trans ((events_onWorld clock).trans (events_onWorld looked))

/-- A processor that prepares and comes to its end leaves events and key states as they are. -/
theorem BuiltinMain.prepared (henv : h.Equips thread env) {k : BuiltinMain}
    (prepares : k.prepares = true) (sound : (h.store.get b.world).Sound)
    (ended : (k.act env e).outcome b = (.ok (), c)) : Prepared h b c := by
  cases k with
  | authenticate =>
    have course := authenticates henv e b
    have ended : (Processor.authenticate env e).outcome b = (.ok (), c) := ended
    rw [ended] at course
    cases course with
    | passed found fresh store ledger => exact .of_store sound store rfl
  | touchSession =>
    have turned := touchSession_ended henv ended
    refine ⟨touchSession_events ended, turned.sound sound, ?_, ?_⟩
    · generalize h.store.get c.world = s at turned
      cases turned with
      | read => exact .refl _
      | touched now =>
        exact (Store.perform_update (w := .updateLastUpdated e.header.session now) sound trivial
          thread).1
    · generalize h.store.get c.world = s at turned
      cases turned with
      | read => rfl
      | touched now => exact Store.encryptions_touched _ _ _ _
  | findRecipients multiple =>
    obtain ⟨rows, -, rfl⟩ := findRecipients_ended henv ended
    exact .of_store sound rfl rfl
  | startSession => cases prepares
  | offerSuites => cases prepares
  | selectSuite => cases prepares

theorem runOne_prepared (henv : h.Equips thread env) {k : BuiltinMain}
    (prepares : k.prepares = true) {w : Wired (MainRun ω)} (run : w.run = MainRun.ofAct k.act)
    (sound : (h.store.get b.world).Sound) {more : List (String × Json.Value)}
    (ended : (Dispatch.runOne env w.name more (w.run env e)).outcome b = (.ok (), c)) :
    Prepared h b c := by
  obtain ⟨c', hrun, rfl⟩ := Dispatch.runOne_ended ended
  rw [run] at hrun
  have prepared := k.prepared henv prepares sound (Step.mapError_ended hrun)
  exact prepared.trans
    (.of_store prepared.sound (henv.log _ _ _ c').1 (env.log_memories _ _ _ c').1)

/-- The last processor starts where those before it have prepared everything, and what it leaves
is left. -/
theorem runMain_prepared (henv : h.Equips thread env) {main : List (Wired (MainRun ω))}
    {first : List BuiltinMain} {last : BuiltinMain} (of_kinds : OfKinds main (first ++ [last]))
    (prepare : ∀ k ∈ first, k.prepares = true) (sound : (h.store.get b.world).Sound)
    (ended : (Dispatch.runMain env e main).outcome b = (.ok (), c)) :
    ∃ mid left, Prepared h b mid ∧ (last.act env e).outcome mid = (.ok (), left) ∧
      h.store.get c.world = h.store.get left.world ∧ c.events = left.events := by
  induction first generalizing main b with
  | nil =>
    obtain ⟨w, later, rfl, run, of_kinds⟩ := of_kinds.cons
    obtain rfl := List.map_eq_nil_iff.mp of_kinds
    obtain ⟨_, c', one, rest⟩ := Step.bind_ended ended
    obtain rfl : c' = c := congrArg Prod.snd rest
    obtain ⟨left, hrun, rfl⟩ := Dispatch.runOne_ended one
    rw [run] at hrun
    exact ⟨b, left, .of_store sound rfl rfl, Step.mapError_ended hrun, (henv.log _ _ _ left).1,
      (env.log_memories _ _ _ left).1⟩
  | cons k first ih =>
    obtain ⟨w, later, rfl, run, of_kinds⟩ := of_kinds.cons
    obtain ⟨_, b₁, one, rest⟩ := Step.bind_ended ended
    have here := runOne_prepared henv (prepare k List.mem_cons_self) run sound one
    obtain ⟨mid, left, prepared, further⟩ :=
      ih of_kinds (fun k hk => prepare k (List.mem_cons_of_mem _ hk)) here.sound rest
    exact ⟨mid, left, here.trans prepared, further⟩

/-- A recipient is loaded with the key state that its session had in the beginning. -/
theorem loaded_keyState? (henv : h.Equips thread env) {main : List (Wired (MainRun ω))}
    {first : List BuiltinMain} {last : BuiltinMain} (of_kinds : OfKinds main (first ++ [last]))
    (prepare : ∀ k ∈ first, k.prepares = true) (idle : last.finds = false)
    (sound : (h.store.get b.world).Sound)
    (unambiguous : (h.store.get b.world).tables.Unambiguous) {r : Recipient}
    (hr : r ∈ h.loaded env e main (first ++ [last]) b) :
    (h.store.get b.world).tables.keyState? r.value = some r.state := by
  induction first generalizing main b with
  | nil =>
    rw [loaded_nobody] at hr
    · cases hr
    · rw [List.nil_append, List.filter_cons_of_neg (by rw [idle]; exact Bool.false_ne_true)]
      rfl
  | cons k first ih =>
    obtain ⟨w, later, rfl, run, of_kinds⟩ := of_kinds.cons
    rw [List.cons_append, Host.loaded] at hr
    rcases List.mem_append.mp hr with hr | hr
    · cases k with
      | findRecipients multiple =>
        rw [BuiltinMain.loads] at hr
        cases found : (h.store.get b.world).tables.recipients? multiple e.header.session with
        | none =>
          rw [found] at hr
          cases hr
        | some rows =>
          rw [found] at hr
          exact Tables.recipients?_keyState? unambiguous found hr
      | _ => cases hr
    · rcases one : (Dispatch.runOne env w.name [("event", .str e.label)] (w.run env e)).outcome b
        with ⟨f | v, c⟩
      · rw [one] at hr
        cases hr
      · rw [one] at hr
        have here := runOne_prepared henv (prepare k List.mem_cons_self) run sound one
        rw [← here.keyState?]
        exact ih of_kinds (fun k hk => prepare k (List.mem_cons_of_mem _ hk)) here.sound
          (here.clients.unambiguous unambiguous here.sound.tables) hr

end EventWorker
