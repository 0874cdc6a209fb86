import EventWorker.Proofs.Dispatch.Gate
import EventWorker.Proofs.Processor.Delivery
import EventWorker.Proofs.Processor.Serving
import EventWorker.Proofs.Validation

/-!
# Whom a message reaches

A pipeline checks the authentication of a message, runs any built-in main processors, and ends
with the sealing of what they left. What it writes goes to sessions of the client whose session
the message names, and each copy is sealed under the key state that was loaded for it.

Results:
1. `exists_ofKinds`: any main processors that the built-in registry makes are of some kinds.
2. `runMain_serves`: the main processors load recipients and serve the event until one fails.
3. `loaded_receives`, `loaded_everybody`: the recipients are sessions of the client, or all of
   them.
4. `mainStage_left`, `finalStage_left`: what the two stages leave in the memories.
5. `handle_fanout`: the writes of a message.
-/

namespace EventWorker

open Processor

variable {ω : Type} {h : Host ω} {thread : String} {env : Environment ω} {e : Event}
  {before : Tables} {b c : Bench ω}

/-! ## The recipients that are loaded -/

/-- Main processors of the given kinds, in order. -/
def OfKinds (main : List (Wired (MainRun ω))) (kinds : List BuiltinMain) : Prop :=
  main.map Wired.run = kinds.map fun k => MainRun.ofAct k.act

/-- Main processors that the built-in registry makes are of some kinds. -/
theorem exists_ofKinds {main : List (Wired (MainRun ω))}
    (builtin : ∀ w ∈ main, Registry.builtin.MakesMain w.run) : ∃ kinds, OfKinds main kinds := by
  induction main with
  | nil => exact ⟨[], rfl⟩
  | cons w later ih =>
    obtain ⟨k, hk⟩ := Registry.builtin_main (builtin w List.mem_cons_self)
    obtain ⟨kinds, hkinds⟩ := ih fun w' hw' => builtin w' (List.mem_cons_of_mem _ hw')
    exact ⟨k :: kinds, congrArg₂ List.cons hk hkinds⟩

/-- The recipients that main processors of the given kinds load as they run on an event, in
the order in which they load them. -/
def Host.loaded (h : Host ω) (env : Environment ω) (e : Event) :
    List (Wired (MainRun ω)) → List BuiltinMain → Bench ω → List Recipient
  | w :: later, k :: kinds, b =>
    k.loads (h.store.get b.world).tables e.header.session ++
      match (Dispatch.runOne env w.name [("event", .str e.label)] (w.run env e)).outcome b with
      | (.ok (), c) => loaded h env e later kinds c
      | (.error _, _) => []
  | _, _, _ => []

/-- Processors of that kind load recipients. -/
def BuiltinMain.finds : BuiltinMain → Bool
  | .findRecipients _ => true
  | _ => false

theorem BuiltinMain.loads_nobody {k : BuiltinMain} (h : k.finds = false) (t : Tables)
    (value : String) : k.loads t value = [] := by
  cases k with
  | findRecipients multiple => cases h
  | _ => rfl

theorem OfKinds.cons {main : List (Wired (MainRun ω))} {k : BuiltinMain}
    {kinds : List BuiltinMain} (h : OfKinds main (k :: kinds)) :
    ∃ w later, main = w :: later ∧ w.run = MainRun.ofAct k.act ∧ OfKinds later kinds := by
  obtain ⟨w, later, rfl, hw, hlater⟩ := List.map_eq_cons_iff.mp h
  exact ⟨w, later, rfl, hw, hlater⟩

section

variable (henv : h.Equips thread env) (held : before.Holds e)
  (named : e.header.session ≠ userKey)

include henv held named

/-- The first processor serves the event, and if it ends the next one starts while it is
served. -/
theorem runOne_serves {k : BuiltinMain} {w : Wired (MainRun ω)} (run : w.run = MainRun.ofAct k.act)
    (hb : Serving h before e b) :
    Serves h before e b (k.loads (h.store.get b.world).tables e.header.session)
      ((Dispatch.runOne env w.name [("event", .str e.label)] (w.run env e)).outcome b).1
      ((Dispatch.runOne env w.name [("event", .str e.label)] (w.run env e)).outcome b).2 := by
  rw [run]
  exact serves_runOne henv (k.serves henv held named hb) _ _

/-- The main processors load the recipients one after the other, and serve the event until one
of them fails. -/
theorem runMain_serves {main : List (Wired (MainRun ω))} {kinds : List BuiltinMain}
    (of_kinds : OfKinds main kinds) (hb : Serving h before e b) :
    Serves h before e b (h.loaded env e main kinds b) ((Dispatch.runMain env e main).outcome b).1
      ((Dispatch.runMain env e main).outcome b).2 := by
  induction kinds generalizing main b with
  | nil =>
    rw [List.map_eq_nil_iff.mp of_kinds]
    exact .nobody (fun _ => hb) rfl
  | cons k kinds ih =>
    obtain ⟨w, later, rfl, run, of_kinds⟩ := of_kinds.cons
    have first := runOne_serves henv held named run hb
    rw [Dispatch.runMain, Step.outcome_bind, Host.loaded]
    rcases hone : (Dispatch.runOne env w.name [("event", .str e.label)] (w.run env e)).outcome b
      with ⟨f | v, c⟩
    · rw [hone] at first
      exact .failed (by rw [List.append_nil]; exact first.data)
    · rw [hone] at first
      have rest := ih of_kinds (first.serving rfl)
      refine ⟨rest.serving, ?_⟩
      rw [rest.data, first.data, List.map_append, List.append_assoc]

/-- A recipient that is loaded was found in the tables while the event was served. -/
theorem loaded_spec {main : List (Wired (MainRun ω))} {kinds : List BuiltinMain}
    (of_kinds : OfKinds main kinds) (hb : Serving h before e b) {r : Recipient}
    (hr : r ∈ h.loaded env e main kinds b) :
    ∃ c multiple rows, Serving h before e c ∧
      (h.store.get c.world).tables.recipients? multiple e.header.session = some rows ∧
      r ∈ rows := by
  induction kinds generalizing main b with
  | nil =>
    rw [List.map_eq_nil_iff.mp of_kinds] at hr
    cases hr
  | cons k kinds ih =>
    obtain ⟨w, later, rfl, run, of_kinds⟩ := of_kinds.cons
    have first := runOne_serves henv held named run hb
    rw [Host.loaded] at hr
    rcases List.mem_append.mp hr with hr | hr
    · cases k with
      | findRecipients multiple =>
        rw [BuiltinMain.loads] at hr
        cases found : (h.store.get b.world).tables.recipients? multiple e.header.session with
        | none =>
          rw [found] at hr
          cases hr
        | some rows =>
          rw [found] at hr
          exact ⟨b, multiple, rows, hb, found, hr⟩
      | _ => cases hr
    · rcases hone : (Dispatch.runOne env w.name [("event", .str e.label)] (w.run env e)).outcome b
        with ⟨f | v, c⟩
      · rw [hone] at hr
        cases hr
      · rw [hone] at hr first
        exact ih of_kinds (first.serving rfl) hr

omit henv held named in
theorem loaded_nobody {main : List (Wired (MainRun ω))} {kinds : List BuiltinMain}
    (never : kinds.filter BuiltinMain.finds = []) : h.loaded env e main kinds b = [] := by
  induction kinds generalizing main b with
  | nil => cases main <;> rfl
  | cons k kinds ih =>
    cases main with
    | nil => rfl
    | cons w later =>
      have idle : k.finds = false :=
        Bool.eq_false_iff.mpr (List.filter_eq_nil_iff.mp never k List.mem_cons_self)
      rw [List.filter_cons_of_neg (Bool.not_eq_true _ ▸ idle)] at never
      rw [Host.loaded, BuiltinMain.loads_nobody idle, List.nil_append]
      split
      · exact ih never
      · rfl

/-- The recipients of a run that loads those of the client once. -/
theorem loaded_once {main : List (Wired (MainRun ω))} {kinds : List BuiltinMain}
    (of_kinds : OfKinds main kinds) (hb : Serving h before e b)
    (once : kinds.filter BuiltinMain.finds = [.findRecipients true])
    (ended : ((Dispatch.runMain env e main).outcome b).1 = .ok ()) :
    ∃ c, Serving h before e c ∧
      (h.store.get c.world).tables.clientRecipients? e.header.session =
        some (h.loaded env e main kinds b) := by
  induction kinds generalizing main b with
  | nil => cases once
  | cons k kinds ih =>
    obtain ⟨w, later, rfl, run, of_kinds⟩ := of_kinds.cons
    have first := runOne_serves henv held named run hb
    rw [Dispatch.runMain, Step.outcome_bind] at ended
    rw [Host.loaded]
    rcases hone : (Dispatch.runOne env w.name [("event", .str e.label)] (w.run env e)).outcome b
      with ⟨f | v, d⟩
    · rw [hone] at ended
      cases ended
    · rw [hone] at ended first
      dsimp only at ended ⊢
      cases finds : k.finds with
      | true =>
        -- Nobody else is looked up after this one, so its recipients are all there are.
        rw [List.filter_cons_of_pos finds] at once
        obtain ⟨rfl, never⟩ := List.cons.inj once
        obtain ⟨x, hx, hv⟩ := held
        obtain ⟨owner, howner⟩ := hb.clients.sessionByValue? hx
        rw [hv] at howner
        refine ⟨b, hb, ?_⟩
        rw [loaded_nobody never, List.append_nil, BuiltinMain.loads, Tables.recipients?, if_pos rfl,
          Tables.clientRecipients?, howner]
        rfl
      | false =>
        rw [List.filter_cons_of_neg (Bool.not_eq_true _ ▸ finds)] at once
        rw [BuiltinMain.loads_nobody finds, List.nil_append]
        exact ih of_kinds (first.serving rfl) once ended

end

/-! ## The clients of the recipients -/

/-- The recipients that are found while an event is served are sessions of the client that
owns its session. -/
theorem Serving.mem_recipients? (hb : Serving h before e b) (unambiguous : before.Unambiguous)
    {x : Nat × Session} (hx : x ∈ before.sessions) (named : x.2.value = e.header.session)
    {multiple : Bool} {rows : List Recipient}
    (found : (h.store.get b.world).tables.recipients? multiple e.header.session = some rows)
    {r : Recipient} (hr : r ∈ rows) :
    ∃ y, before.Receives x.2.client y ∧ y.2.value = r.value := by
  obtain ⟨owner, y, howner, receives, value⟩ := Tables.mem_recipients? found hr
  rw [← named] at howner
  rw [hb.clients.client unambiguous hx howner] at receives
  obtain ⟨y', receives', value'⟩ := hb.clients.receives receives
  exact ⟨y', receives', value'.trans value⟩

/-- Those found for a client are all its sessions that have an encryption row, each once. -/
theorem Serving.clientRecipients? (hb : Serving h before e b) (unambiguous : before.Unambiguous)
    {x : Nat × Session} (hx : x ∈ before.sessions) (named : x.2.value = e.header.session)
    {rows : List Recipient}
    (found : (h.store.get b.world).tables.clientRecipients? e.header.session = some rows) :
    (rows.map Recipient.value).Nodup ∧
      ∀ y, before.Receives x.2.client y → ∃ r ∈ rows, r.value = y.2.value := by
  obtain ⟨owner, howner⟩ := hb.clients.sessionByValue? hx
  have client := hb.clients.client unambiguous hx howner
  rw [named] at howner
  obtain ⟨different, all⟩ := Tables.clientRecipients?_spec hb.sound.tables
    (hb.clients.unambiguous unambiguous hb.sound.tables) found howner
  refine ⟨different, fun y receives => ?_⟩
  obtain ⟨y', receives', value⟩ := hb.clients.symm.receives (client ▸ receives)
  obtain ⟨r, hr, same⟩ := all y' receives'
  exact ⟨r, hr, same.trans value⟩

/-! ## The main stage -/

/-- The session of an event is no scratch key of a processor. -/
theorem session_ne_userKey {raw : String} (valid : validate raw = .ok e) :
    e.header.session ≠ userKey := by
  intro same
  have hexadecimal := validate_session valid
  rw [same] at hexadecimal
  exact absurd hexadecimal (by decide)

theorem Tables.Sound.mem_of_yields? {s : Store} (hs : s.tables.Sound) {session : Session}
    (found : s.yields? (tokenOf e) e.header.session = some session) :
    (session.id, session) ∈ s.tables.sessions ∧ session.value = e.header.session := by
  rw [Store.yields?_eq (Store.yields?_available found)] at found
  obtain ⟨value, -, filed⟩ := hs.session?_spec found
  exact ⟨Keyed.mem_of_find? filed, value⟩

/-- When the store finds the session of an event, the event is served from the beginning of
the main stage, the authentication check included. -/
theorem Serving.begun (henv : h.Equips thread env) {p : Pipeline ω} {b : Bench ω}
    (sound : (h.store.get b.world).Sound) {session : Session}
    (found : (h.store.get b.world).yields? (tokenOf e) e.header.session = some session) :
    Serving h (h.store.get b.world).tables e (h.begun thread env p e b) := by
  have available := Store.yields?_available found
  have store := Host.store_begun henv p e b
  obtain ⟨events, -⟩ := Host.begun_memories h thread env p e b
  refine ⟨store ▸ available, ?_, ?_, ?_⟩
  · rw [store]
    exact (Store.performed (h.store.get b.world) ⟨thread, .begin⟩).sound sound
  · rw [store]
    exact .refl _
  · rw [events]
    intro entry hentry
    cases hentry

/-- The authentication check stops the main processors when the store does not find the session
of an event. -/
theorem runMain_unknown (henv : h.Equips thread env) {p : Pipeline ω} {kinds : List BuiltinMain}
    (main : OfKinds p.main (.authenticate :: kinds)) {b : Bench ω}
    (unknown : (h.store.get b.world).yields? (tokenOf e) e.header.session = none) :
    let start := h.begun thread env p e b
    h.loaded env e p.main (.authenticate :: kinds) start = [] ∧
      ∃ f c, (Dispatch.runMain env e p.main).outcome start = (.error f, c) ∧
        c.data = start.data := by
  intro start
  have unknown : (h.store.get start.world).yields? (tokenOf e) e.header.session = none := by
    rw [Host.store_begun henv]
    exact unknown
  obtain ⟨w, later, hmain, run, -⟩ := main.cons
  have course := authenticates henv e start
  rcases ended : (authenticate env e).outcome start with ⟨r, c⟩
  rw [ended] at course
  obtain ⟨f, rfl, -, -, data, -⟩ := course.refused (by rw [unknown]; nofun)
  have stops : (w.run env e).outcome start = (.error (.failed f), c) := by
    rw [run, BuiltinMain.act, MainRun.ofAct, Step.outcome_mapError, ended]
    rfl
  rw [hmain]
  refine ⟨?_, _, _, Dispatch.runMain_stopped stops later, ?_⟩
  · rw [Host.loaded, Dispatch.runOne, Step.outcome_ofFunction, stops]
    rfl
  · exact (env.log_memories _ _ _ c).2.trans data

/-- The main processors serve an event from the bench on which they start. -/
theorem runMain_begun (henv : h.Equips thread env) {p : Pipeline ω} {kinds : List BuiltinMain}
    (main : OfKinds p.main (.authenticate :: kinds)) (named : e.header.session ≠ userKey)
    {b : Bench ω} (sound : (h.store.get b.world).Sound) :
    let start := h.begun thread env p e b
    Serves h (h.store.get b.world).tables e start
      (h.loaded env e p.main (.authenticate :: kinds) start)
      ((Dispatch.runMain env e p.main).outcome start).1
      ((Dispatch.runMain env e p.main).outcome start).2 := by
  dsimp only
  cases found : (h.store.get b.world).yields? (tokenOf e) e.header.session with
  | some session =>
    obtain ⟨hmem, value⟩ := sound.tables.mem_of_yields? found
    exact runMain_serves henv ⟨_, hmem, value⟩ named main (.begun henv sound found)
  | none =>
    obtain ⟨nobody, f, c, failed, data⟩ := runMain_unknown henv main found
    rw [nobody, failed]
    refine .failed ?_
    rw [data]
    exact (List.append_nil _).symm

/-- The recipients that are loaded for a message are sessions of the client that owns its
session, as they were before it. -/
theorem loaded_receives (henv : h.Equips thread env) {p : Pipeline ω} {kinds : List BuiltinMain}
    (main : OfKinds p.main (.authenticate :: kinds)) (named : e.header.session ≠ userKey)
    {b : Bench ω} (sound : (h.store.get b.world).Sound)
    (unambiguous : (h.store.get b.world).tables.Unambiguous) {r : Recipient}
    (hr : r ∈ h.loaded env e p.main (.authenticate :: kinds) (h.begun thread env p e b)) :
    ∃ owner x, (h.store.get b.world).yields? (tokenOf e) e.header.session = some owner ∧
      (h.store.get b.world).tables.Receives owner.client x ∧ x.2.value = r.value := by
  cases found : (h.store.get b.world).yields? (tokenOf e) e.header.session with
  | none =>
    rw [(runMain_unknown henv main found).1] at hr
    cases hr
  | some owner =>
    obtain ⟨hmem, value⟩ := sound.tables.mem_of_yields? found
    obtain ⟨c, multiple, rows, serving, hrows, hr⟩ :=
      loaded_spec henv ⟨_, hmem, value⟩ named main (.begun henv sound found) hr
    obtain ⟨x, receives, same⟩ := serving.mem_recipients? unambiguous hmem value hrows hr
    exact ⟨owner, x, rfl, receives, same⟩

/-- They are all sessions of that client that have an encryption row, each once, if the client
is looked up once and no processor fails. -/
theorem loaded_everybody (henv : h.Equips thread env) {p : Pipeline ω} {kinds : List BuiltinMain}
    (main : OfKinds p.main (.authenticate :: kinds)) (named : e.header.session ≠ userKey)
    {b : Bench ω} (sound : (h.store.get b.world).Sound)
    (unambiguous : (h.store.get b.world).tables.Unambiguous)
    (once : kinds.filter BuiltinMain.finds = [.findRecipients true])
    (ended : ((Dispatch.runMain env e p.main).outcome (h.begun thread env p e b)).1 = .ok ()) :
    let loaded := h.loaded env e p.main (.authenticate :: kinds) (h.begun thread env p e b)
    ∃ owner, (h.store.get b.world).yields? (tokenOf e) e.header.session = some owner ∧
      (loaded.map Recipient.value).Nodup ∧
      ∀ x, (h.store.get b.world).tables.Receives owner.client x →
        ∃ r ∈ loaded, r.value = x.2.value := by
  cases found : (h.store.get b.world).yields? (tokenOf e) e.header.session with
  | none =>
    obtain ⟨-, f, c, failed, -⟩ := runMain_unknown henv main found
    rw [failed] at ended
    cases ended
  | some owner =>
    obtain ⟨hmem, value⟩ := sound.tables.mem_of_yields? found
    obtain ⟨c, serving, hrows⟩ := loaded_once henv ⟨_, hmem, value⟩ named main
      (.begun henv sound found) ((List.filter_cons_of_neg Bool.false_ne_true).trans once) ended
    exact ⟨owner, rfl, serving.clientRecipients? unambiguous hmem value hrows⟩

/-- What a stage leaves: waiting events of the session of the event, and recipients among the
scratch values under that session. -/
structure Leaves (e : Event) (rs : List Recipient) (b : Bench ω) : Prop where
  answers : ∀ x ∈ b.events.values, x.header.session = e.header.session
  data : b.data.get e.header.session = rs.map Recipient.toValue

variable {d : Dispatcher ω} {p : Pipeline ω}

/-- All that waits after a failure is the event that tells of it, under its key. -/
theorem mem_drain_replaceEvents {key : String} {header : Header} {f : Failure}
    {source : ErrorSource} {entry : String × Event}
    (hentry : entry ∈ (Dispatcher.replaceEvents key header f source b).events.drain.1) :
    entry.1 = key ∧ entry.2.header.session = header.session := by
  unfold Dispatcher.replaceEvents at hentry
  split at hentry
  · rcases Memory.mem_drain_pushAll.mp hentry with hentry | ⟨at_key, hentry⟩
    · cases hentry
    · rw [List.mem_singleton.mp hentry]
      exact ⟨at_key, rfl⟩
  · cases hentry

theorem leaves_replaceEvents {rs : List Recipient}
    (data : b.data.get e.header.session = rs.map Recipient.toValue) (key : String) (f : Failure)
    (source : ErrorSource) : Leaves e rs (Dispatcher.replaceEvents key e.header f source b) := by
  refine ⟨fun x hx => ?_, ?_⟩
  · rw [Memory.values_eq] at hx
    obtain ⟨entry, hentry, rfl⟩ := List.mem_map.mp hx
    exact (mem_drain_replaceEvents hentry).2
  · unfold Dispatcher.replaceEvents
    split <;> exact data

theorem Serving.leaves (hb : Serving h before e b) {rs : List Recipient}
    (data : b.data.get e.header.session = rs.map Recipient.toValue) : Leaves e rs b := by
  refine ⟨fun x hx => ?_, data⟩
  rw [Memory.values_eq] at hx
  obtain ⟨entry, hentry, rfl⟩ := List.mem_map.mp hx
  exact hb.answers entry hentry

/-- The main stage leaves the recipients that its processors load, or none when it did not get
to run them. -/
theorem mainStage_left (henv : h.Equips thread d.env) {kinds : List BuiltinMain}
    (main : OfKinds p.main (.authenticate :: kinds)) (named : e.header.session ≠ userKey)
    {b : Bench ω} (sound : (h.store.get b.world).Sound) :
    let start := h.begun thread d.env p e b
    let loaded := h.loaded d.env e p.main (.authenticate :: kinds) start
    let out := d.runMain p e (d.env.log .debug Code.logNewEvent e.toValue b)
    ∃ rs, Leaves e rs out.2 ∧ (rs = [] ∨ rs = loaded) ∧
      (out.1 = none → rs = loaded ∧
        ((Dispatch.runMain d.env e p.main).outcome start).1 = .ok ()) := by
  dsimp only
  have serves := runMain_begun henv main named sound
  obtain ⟨-, start_data⟩ := Host.begun_memories h thread d.env p e b
  have loads := serves.data
  rw [start_data] at loads
  have memories := Dispatch.inUnits_memories (Store.database h.store thread).toManager
    (Ledger.manager h.ledger) (Dispatch.runMain d.env e p.main)
    (Dispatch.cleared d.env p e (d.env.log .debug Code.logNewEvent e.toValue b))
  have clear : (Dispatch.cleared d.env p e
      (d.env.log .debug Code.logNewEvent e.toValue b)).data = {} :=
    (d.env.log_memories _ _ _ _).2
  dsimp only at memories
  rw [← Dispatch.mainStage_outcome henv.database henv.ledger, clear] at memories
  unfold Dispatcher.runMain
  generalize (Dispatch.mainStage d.env p e).outcome
    (d.env.log .debug Code.logNewEvent e.toValue b) = out at memories ⊢
  obtain ⟨r, c⟩ := out
  -- Either a unit of work did not begin, or the processors ran and the managers touched no memory.
  rcases memories with ⟨⟨f, rfl⟩, data⟩ | ⟨events, data, ends⟩
  · refine ⟨[], leaves_replaceEvents ?_ _ _ _, .inl rfl, fun hr => nomatch hr⟩
    rw [data]
    rfl
  · have kept : c.data.get e.header.session =
        (h.loaded d.env e p.main (.authenticate :: kinds)
          (h.begun thread d.env p e b)).map Recipient.toValue :=
      (congrArg (Memory.get · e.header.session) data).trans loads
    cases r with
    | error f =>
      exact ⟨_, leaves_replaceEvents kept _ _ _, .inr rfl, fun hr => nomatch hr⟩
    | ok v =>
      have left := (serves.serving (ends rfl)).leaves loads
      dsimp only at events
      have leaves : Leaves e _ c := ⟨events ▸ left.answers, kept⟩
      exact ⟨_, leaves, .inr rfl, fun _ => ⟨rfl, ends rfl⟩⟩

/-! ## The final stage -/

/-- The final stage of sealing only: copies of the waiting events for the recipients are all
that is left, or it fails because there are recipients and tells the session of the event. -/
theorem finalStage_left {toolkit : Toolkit} (providers : d.env.providers.toolkit = .ok toolkit)
    {m : Wired (FinalRun ω)} (final : p.final = [m]) (last : m.run = FinalRun.ofAct multiply)
    {rs : List Recipient} (left : Leaves e rs b) :
    ((d.runFinal p e b).1 = none ∧ ∃ blocks,
        List.Forall₂ (CopiesFor toolkit rs) b.events.values blocks ∧
        (d.runFinal p e b).2.events = b.events.drain.2.pushEach blocks.flatten) ∨
      ((∃ f, (d.runFinal p e b).1 = some f) ∧ rs ≠ [] ∧
        ∀ entry ∈ (d.runFinal p e b).2.events.drain.1, entry.1 = e.header.session) := by
  have run (b : Bench ω) : (m.run d.env.services d.env.providers).outcome b =
      (((multiply d.env.services d.env.providers).outcome b).1.mapError Stop.failed,
        ((multiply d.env.services d.env.providers).outcome b).2) := by
    rw [last, FinalRun.ofAct, Step.outcome_mapError]
  unfold Dispatcher.runFinal Dispatch.finalStage
  rw [final, Dispatch.runFinal, Step.outcome_bind, Dispatch.runOne, Step.outcome_ofFunction, run]
  rcases ended : (multiply d.env.services d.env.providers).outcome b with ⟨f | v, c⟩
  · refine .inr ⟨⟨f, rfl⟩, ?_, fun entry hentry => ?_⟩
    · rintro rfl
      cases (multiply_ends providers left.answers left.data).symm.trans ended
    · exact (mem_drain_replaceEvents hentry).1
  · obtain ⟨blocks, all, events⟩ := multiply_ended providers left.answers left.data ended
    exact .inl ⟨rfl, blocks, all, ((d.env.log_memories _ _ _ c).1).trans events⟩

/-! ## The message -/

/-- A message whose pipeline checks its authentication first, runs any other built-in main
processors and seals what they left, is handled as follows.
- It writes to sessions of the client that owns the session it names, and only if the store
  finds that session.
- If the final stage succeeds, every write is a copy of an event that the main stage left,
  sealed under the key state of a recipient that was loaded for its destination. Under a key
  state with a cipher, that is an envelope.
- If in addition the main stage succeeds and loads the sessions of the client once, every
  session of the client with an encryption row gets one copy of every event, in order, and
  nobody else gets anything. -/
theorem handle_fanout (h : Host ω) (d : Dispatcher ω) {thread : String}
    (henv : h.Equips thread d.env) {toolkit : Toolkit}
    (providers : d.env.providers.toolkit = .ok toolkit) {raw : String} {e : Event}
    {p : Pipeline ω} (valid : validate raw = .ok e) (routed : d.table.get? e.label = some p)
    {kinds : List BuiltinMain} (main : OfKinds p.main (.authenticate :: kinds))
    {m : Wired (FinalRun ω)} (final : p.final = [m]) (last : m.run = FinalRun.ofAct multiply)
    {b : Bench ω} (reachable : (h.store.get b.world).Reachable)
    (unambiguous : (h.store.get b.world).tables.Unambiguous) :
    let before := h.store.get b.world
    let loaded := h.loaded d.env e p.main (.authenticate :: kinds) (h.begun thread d.env p e b)
    let left :=
      (d.runMain p e (d.env.log .debug Code.logNewEvent e.toValue b)).2.events.values
    let writes := d.writes raw b
    ∃ main? final?, (d.handle raw b).1.outcome = .handled e.label main? final? ∧
      (∀ entry ∈ writes, ∃ owner,
        before.yields? (tokenOf e) e.header.session = some owner ∧
        ∃ x ∈ before.tables.sessions, x.2.client = owner.client ∧ x.2.value = entry.1) ∧
      (final? = none → ∀ entry ∈ writes, ∃ r ∈ loaded, r.value = entry.1 ∧
        ∃ x ∈ left, x.SealedAs toolkit r.state entry.2 ∧
          (r.state.isPlaintext = false → x.EnvelopeOf toolkit r.state entry.2)) ∧
      (main? = none → final? = none →
        kinds.filter BuiltinMain.finds = [.findRecipients true] →
        ∃ owner, before.yields? (tokenOf e) e.header.session = some owner ∧
          (∀ entry ∈ writes, ∃ x, before.tables.Receives owner.client x ∧
            x.2.value = entry.1) ∧
          ∀ x, before.tables.Receives owner.client x → ∃ r ∈ loaded, r.value = x.2.value ∧
            List.Forall₂ (fun y z => y.SealedAs toolkit r.state z) left
              ((writes.filter fun entry => entry.1 = x.2.value).map Prod.snd)) := by
  intro before loaded left writes
  have named := session_ne_userKey valid
  have sound : before.Sound := reachable.sound
  obtain ⟨rs, leaves, some_or_all, ended⟩ := mainStage_left henv main named (b := b) sound
  generalize hout : d.runMain p e (d.env.log .debug Code.logNewEvent e.toValue b) = out
    at leaves ended
  obtain ⟨main?, c⟩ := out
  have written := finalStage_left (p := p) providers final last leaves
  rcases hfinal : d.runFinal p e c with ⟨final?, c'⟩
  rw [hfinal] at written
  have settled : d.settle raw b = (.handled e.label main? final?, c') := by
    rw [Dispatcher.settle_routed valid routed, Dispatcher.stages, hout]
    dsimp only
    rw [hfinal]
  have hwrites : writes = c'.events.drain.1 := congrArg (fun s => s.2.events.drain.1) settled
  have hleft : left = c.events.values := congrArg (fun s => s.2.events.values) hout
  have of_loaded {r : Recipient} (hr : r ∈ rs) : r ∈ loaded := by
    rcases some_or_all with rfl | rfl
    · cases hr
    · exact hr
  have receives {r : Recipient} (hr : r ∈ rs) :=
    loaded_receives henv main named sound unambiguous (of_loaded hr)
  refine ⟨main?, final?, by rw [Dispatcher.handle_writes, settled], ?_, ?_, ?_⟩
  · -- Copies go to recipients, and the report of a failure goes to the session of the event. It
    -- needs an owner too: without one nobody is loaded and the final stage cannot fail.
    intro entry hentry
    rw [hwrites] at hentry
    rcases written with ⟨-, blocks, all, events⟩ | ⟨-, nonempty, to_session⟩
    · rw [events, Memory.mem_drain_refilled] at hentry
      obtain ⟨r, hr, -, -, destination, -⟩ := mem_copies all hentry
      obtain ⟨owner, y, found, ⟨hy, client, -⟩, value⟩ := receives hr
      exact ⟨owner, found, y, hy, client, value.trans destination.symm⟩
    · obtain ⟨r, hr⟩ := List.exists_mem_of_ne_nil rs nonempty
      obtain ⟨owner, -, found, -⟩ := receives hr
      obtain ⟨hmem, value⟩ := sound.tables.mem_of_yields? found
      exact ⟨owner, found, _, hmem, rfl, value.trans (to_session entry hentry).symm⟩
  · intro done entry hentry
    rw [hwrites] at hentry
    rcases written with ⟨-, blocks, all, events⟩ | ⟨⟨f, failed⟩, -⟩
    · rw [events, Memory.mem_drain_refilled] at hentry
      obtain ⟨r, hr, x, hx, destination, sealed⟩ := mem_copies all hentry
      exact ⟨r, of_loaded hr, destination.symm, x, hleft ▸ hx, sealed, sealed.envelope⟩
    · cases done.symm.trans failed
  · intro main_done done once
    rcases written with ⟨-, blocks, all, events⟩ | ⟨⟨f, failed⟩, -⟩
    · obtain ⟨rfl, ran⟩ := ended main_done
      obtain ⟨owner, found, different, everybody⟩ :=
        loaded_everybody henv main named sound unambiguous once ran
      refine ⟨owner, found, fun entry hentry => ?_, fun x hx => ?_⟩
      · rw [hwrites, events, Memory.mem_drain_refilled] at hentry
        obtain ⟨r, hr, -, -, destination, -⟩ := mem_copies all hentry
        obtain ⟨owner', y, found', hy, value⟩ := receives hr
        cases found.symm.trans found'
        exact ⟨y, hy, value.trans destination.symm⟩
      · obtain ⟨r, hr, value⟩ := everybody x hx
        refine ⟨r, hr, value, ?_⟩
        rw [hwrites, hleft, events, Memory.filter_drain_refilled, ← value]
        exact copies_filter all different hr
    · cases done.symm.trans failed

/-- A user with two sessions, of which the second has chosen a cipher. -/
def aliceTwiceTurns : List Turn :=
  aliceTurns ++
    [⟨"seed", .write (.createSession 1 "bb02" none 0)⟩,
      ⟨"seed", .write (.createEncryption 2 (chosenState ⟨"plaintext", "none", -1⟩ ""))⟩]

/-- The bench at a site one second after the user has got the sessions. -/
def aliceTwiceBench : Bench Site :=
  { world :=
      { store := ({} : Store).run aliceTwiceTurns, clock := 1000, entropy := { key := [] } } }

/-- All sessions of a client are told what became of a suite that it chose in one of them. -/
def selectionPipeline : Pipeline Site where
  main :=
    [⟨0, "authentication_check", MainRun.ofAct authenticate⟩,
      ⟨1, "find_sessions_mle", MainRun.ofAct (findRecipients true)⟩,
      ⟨2, "cipher_suite_selection", MainRun.ofAct selectSuite⟩]
  final := [⟨3, "event_multiplication_mle", FinalRun.ofAct multiply⟩]

/-- The ciphers that take no key, with the built-in codecs and integrity functions. -/
def keylessToolkit : Toolkit :=
  .ofCiphers [.none, .plaintext]

/-- A dispatcher at a site that takes selections through `selectionPipeline`. -/
def selectionDispatcher : Dispatcher Site where
  output := (Site.supply Lens.whole Site.thread).output .memory
  table := { pipelines := [(selectionLabel, selectionPipeline)] }
  env := Site.environment Site.thread
    { ciphers? := some keylessToolkit.ciphers
      codecs? := some keylessToolkit.codecs
      integrities? := some keylessToolkit.integrities }

/-- The user selects no suite in the first of the sessions. -/
def emptySelection : String :=
  "\x7b\"session\":\"aa01\",\"event\":\"dop_cipher_suite_selection\"," ++
    "\"params\":\x7b\"auth_token\":\"b1\"\x7d\x7d"

/-- The event of `emptySelection`. -/
def emptySelectionEvent : Event :=
  { header := Header.plain "aa01" notAvailable selectionLabel
    payload := [("auth_token", .str "b1")] }

/-- Both sessions get the answer, and the one with a cipher gets it in an envelope. -/
theorem handle_fanout_empty_selection :
    let left := (selectionDispatcher.runMain selectionPipeline emptySelectionEvent
      (selectionDispatcher.env.log .debug Code.logNewEvent emptySelectionEvent.toValue
        aliceTwiceBench)).2.events.values
    let writes := selectionDispatcher.writes emptySelection aliceTwiceBench
    (selectionDispatcher.handle emptySelection aliceTwiceBench).1.outcome =
      .handled selectionLabel none none ∧
    (∀ entry ∈ writes, entry.1 = "aa01" ∨ entry.1 = "bb02") ∧
    ∃ x y, left = [x] ∧ (writes.filter fun entry => entry.1 = "bb02").map Prod.snd = [y] ∧
      x.EnvelopeOf keylessToolkit (chosenState ⟨"plaintext", "none", -1⟩ "") y := by
  intro left writes
  have sessions : (Site.host.store.get aliceTwiceBench.world).tables.sessions =
      [(1, ⟨1, 1, "aa01", some "b1", 0⟩), (2, ⟨2, 1, "bb02", none, 0⟩)] := by
    decide
  have unambiguous : (Site.host.store.get aliceTwiceBench.world).tables.Unambiguous := by
    rw [Tables.Unambiguous, sessions]
    decide
  have done : (selectionDispatcher.handle emptySelection aliceTwiceBench).1.outcome =
      .handled selectionLabel none none := by
    decide +kernel
  have answers : left.length = 1 := by
    decide +kernel
  have loads : Site.host.loaded selectionDispatcher.env emptySelectionEvent selectionPipeline.main
      [.authenticate, .findRecipients true, .selectSuite]
      (Site.host.begun Site.thread selectionDispatcher.env selectionPipeline emptySelectionEvent
        aliceTwiceBench) =
      [⟨1, "aa01", .unencrypted⟩, ⟨1, "bb02", chosenState ⟨"plaintext", "none", -1⟩ ""⟩] := by
    decide +kernel
  have valid : validate emptySelection = .ok emptySelectionEvent := by rfl
  have providers : selectionDispatcher.env.providers.toolkit = .ok keylessToolkit := rfl
  have main : OfKinds selectionPipeline.main [.authenticate, .findRecipients true, .selectSuite] :=
    rfl
  obtain ⟨main?, final?, outcome, -, -, everybody⟩ :=
    handle_fanout Site.host selectionDispatcher (Site.host_equips Site.thread _) providers valid
      rfl main rfl rfl (b := aliceTwiceBench) ⟨aliceTwiceTurns, rfl⟩ unambiguous
  rw [done] at outcome
  cases outcome
  obtain ⟨owner, found, only, all⟩ := everybody rfl rfl rfl
  have client : owner.client = 1 := by
    have matching : (Site.host.store.get aliceTwiceBench.world).yields?
        (tokenOf emptySelectionEvent) emptySelectionEvent.header.session =
        some ⟨1, 1, "aa01", some "b1", 0⟩ := by
      decide
    cases found.symm.trans matching
    rfl
  refine ⟨done, fun entry hentry => ?_, ?_⟩
  · obtain ⟨x, ⟨hx, -⟩, value⟩ := only entry hentry
    rw [sessions] at hx
    rw [← value]
    simp only [List.mem_cons, List.not_mem_nil, or_false] at hx
    rcases hx with rfl | rfl
    · exact .inl rfl
    · exact .inr rfl
  · obtain ⟨r, hr, value, copies⟩ := all (2, ⟨2, 1, "bb02", none, 0⟩)
      ⟨by rw [sessions]; decide, client.symm, by decide⟩
    rw [loads] at hr
    obtain ⟨x, one⟩ := List.length_eq_one_iff.mp answers
    change List.Forall₂ _ left _ at copies
    rw [one] at copies
    obtain ⟨y, _, sealed, rest, written⟩ := List.forall₂_cons_left_iff.mp copies
    cases rest
    have state : r.state = chosenState ⟨"plaintext", "none", -1⟩ "" := by
      simp only [List.mem_cons, List.not_mem_nil, or_false] at hr
      rcases hr with rfl | rfl
      · exact absurd value (by decide)
      · rfl
    rw [state] at sealed
    exact ⟨x, y, one, written, sealed.envelope (by decide)⟩

end EventWorker
