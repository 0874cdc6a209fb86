import EventWorker.Proofs.Dispatch.Keys

/-!
# Clients and workers in step

A client goes through the handshake any number of times while other messages come in between. Both
sides change their keys, the client when it chooses and the worker when it is told, and the answer
to the choice is still sealed under the key that the worker had before.

Results:
1. `Shaking.received`: a client that reads the key state of its session reads what is written.
2. `InStep.exchange`: after every exchange the client reads the key state of its session.
3. `handshake_in_step`: every event is read by the client as it was before the exchange, and also
   after it, unless the client has changed its key.
4. `second_choice_unread`: a client that chooses again cannot read the answer.
-/

namespace EventWorker

open Processor

variable {ω : Type}

/-- The events that are written to a session when a message is handled. -/
def Dispatcher.notifications (d : Dispatcher ω) (raw value : String) (b : Bench ω) : List Event :=
  ((d.writes raw b).filter fun entry => entry.1 = value).map Prod.snd

/-- The two sides of a handshake: a client with the suites that it was offered last, and the bench
of the worker. -/
structure Sides (ω : Type) where
  client : Client
  offered : List Suite := []
  bench : Bench ω

/-- One exchange of a handshake in a session, with the events that are written to the session. -/
inductive Exchange (h : Host ω) (d : Dispatcher ω) (value : String) :
    Sides ω → List Event → Sides ω → Prop
  /-- Time passes, or the ledger fails from now on or recovers. -/
  | rests {client : Client} {offered : List Suite} {b : Bench ω} {w : ω}
      (tables : (h.store.get w).tables = (h.store.get b.world).tables)
      (journals : (h.store.get w).journals = (h.store.get b.world).journals) :
      Exchange h d value ⟨client, offered, b⟩ [] ⟨client, offered, { b with world := w }⟩
  /-- A message comes, of the client or of another one, that chooses no suite for the session. The
  client may find suites in what is written. -/
  | passes {client : Client} {offered offered' : List Suite} {b : Bench ω} {raw : String}
      (other : ∀ e, validate raw = .ok e → e.label = selectionLabel → e.header.session ≠ value)
      (fits : (d.handle raw b).1.outcome.Fits)
      (reads : offered' = offered ∨ ∃ y ∈ d.notifications raw value b, ∃ opened,
        client.receive y.render = .ok opened ∧ Client.suitesOfReply opened = .ok offered') :
      Exchange h d value ⟨client, offered, b⟩ (d.notifications raw value b)
        ⟨client, offered', (d.handle raw b).2⟩
  /-- The client chooses among the suites that it was offered, and the worker takes the choice. -/
  | chooses {client client' : Client} {offered : List Suite} {b : Bench ω} {raw : String}
      {e : Event} {s : Suite} {pick : Nat → Nat} {draw : Nat → Bytes} {final? : Option Failure}
      (drawn : ∀ n, (draw n).length = n)
      (negotiated : client.negotiate offered pick draw = .ok (s, client'))
      (valid : validate raw = .ok e) (here : e.header.session = value) (tells : Tells client' e)
      (completes : (d.handle raw b).1.outcome = .handled e.label none final?)
      (fits : (d.handle raw b).1.outcome.Fits) :
      Exchange h d value ⟨client, offered, b⟩ (d.notifications raw value b)
        ⟨client', offered, (d.handle raw b).2⟩

/-- Any number of exchanges. -/
inductive Exchanges (h : Host ω) (d : Dispatcher ω) (value : String) : Sides ω → Sides ω → Prop
  | none (t : Sides ω) : Exchanges h d value t t
  | more {t u v : Sides ω} {written : List Event} (earlier : Exchanges h d value t u)
      (exchange : Exchange h d value u written v) : Exchanges h d value t v

/-- The client reads the key state of its session, and was offered suites of the worker at most.
The worker has no message in hand. -/
structure InStep (h : Host ω) (thread : String) (own peer : List Cipher) (value : String)
    (t : Sides ω) : Prop where
  toolkit : t.client.toolkit = .ofCiphers peer
  offered : ∀ s ∈ t.offered, s ∈ (Toolkit.ofCiphers own).suites
  settled : (h.store.get t.bench.world).Settled thread
  clear : t.bench.events.drain.1 = []
  reads : ∀ k, (h.store.get t.bench.world).tables.keyState? value = some k →
    k.ReadBy own t.client

variable {h : Host ω} {thread : String} {own peer : List Cipher} {d : Dispatcher ω}
  {raw value : String} {b : Bench ω} {client client' : Client}

/-- A client that reads the key state of its session reads what is written to it. -/
theorem Shaking.received (hd : Shaking h thread own d)
    (settled : (h.store.get b.world).Settled thread) (clear : b.events.drain.1 = [])
    (fits : (d.handle raw b).1.outcome.Fits) (toolkit : client.toolkit = .ofCiphers peer)
    (reads : ∀ k, (h.store.get b.world).tables.keyState? value = some k → k.ReadBy own client)
    {y : Event} (hy : y ∈ d.notifications raw value b) :
    ∃ x opened, Utterance own x ∧ client.receive y.render = .ok opened ∧
      opened.payload = x.payload := by
  obtain ⟨entry, hentry, rfl⟩ := List.mem_map.mp hy
  obtain ⟨hentry, here⟩ := List.mem_filter.mp hentry
  obtain ⟨x, utterance, rfl | ⟨k, key, sealed⟩⟩ := hd.written settled clear fits hentry
  · have plain := utterance.plain
    refine ⟨_, _, utterance, Client.receive_plain ?_ ?_, rfl⟩
    · refine plain.faithful rfl fun n mark => ?_
      cases plain.sealing.symm.trans mark
    · show entry.2.header.sealing.filter (· < 256) ≠ some 1
      rw [plain.sealing]
      exact nofun
  · rw [of_decide_eq_true here] at key
    obtain ⟨opened, received, payload⟩ :=
      Client.receive_sealed hd.known toolkit utterance.plain (reads k key) sealed
    exact ⟨x, opened, utterance, received, payload⟩

/-- A choice that is granted makes a key state that the client reads. -/
theorem readBy_chosenState {s t : Suite} {secret : String}
    (known : ∀ c ∈ own, c ∈ Cipher.builtin) (known' : ∀ c ∈ peer, c ∈ Cipher.builtin)
    (toolkit : client.toolkit = .ofCiphers peer) (key : secret = client.key) (serve : Serve peer s)
    (serve' : Serve own t) (same : t.normalized = s.normalized) :
    (chosenState s secret).ReadBy own client := by
  refine .inr ⟨key, (measured_builtin known' serve).fits, ?_⟩
  rw [toolkit]
  exact Toolkit.cipher_common known known' serve serve' same

theorem Serve.of_mem_suites {s : Suite} (h : s ∈ (Toolkit.ofCiphers own).suites) : Serve own s := by
  obtain ⟨c, member, listed⟩ := serve_of_mem_suitesOf h
  exact ⟨c, Toolkit.mem_ciphers member, listed⟩

/-- After every exchange the client reads the key state of its session. -/
theorem InStep.exchange (hd : Shaking h thread own d) (known' : ∀ c ∈ peer, c ∈ Cipher.builtin)
    {t u : Sides ω} {written : List Event} (ht : InStep h thread own peer value t)
    (exchange : Exchange h d value t written u) : InStep h thread own peer value u := by
  obtain ⟨toolkit, offers, settled, clear, reads⟩ := ht
  cases exchange with
  | @rests client offered b w tables journals =>
    exact ⟨toolkit, offers, settled.of_same tables journals, clear,
      fun k key => reads k (tables ▸ key)⟩
  | @passes client offered offered' b raw other fits learns =>
    refine ⟨toolkit, ?_, handle_settled hd.toBuiltin raw settled, d.handle_leaves_nothing raw b,
      fun k key => reads k (hd.kept settled other key)⟩
    rcases learns with rfl | ⟨y, hy, opened, received, learnt⟩
    · exact offers
    · obtain ⟨x, opened', utterance, received', payload⟩ :=
        hd.received settled clear fits toolkit reads hy
      cases received.symm.trans received'
      have same : Client.suitesOfReply x = .ok offered' := by
        rw [← learnt, Client.suitesOfReply, Client.suitesOfReply, payload]
      rw [utterance.suites _ same]
      exact fun s hs => hs
  | @chooses client client' offered b raw e s pick draw final? drawn negotiated valid here tells
      completes fits =>
    obtain ⟨goes_on, chosen, t, ht, same⟩ := Client.negotiate_ok negotiated
    have toolkit' : client'.toolkit = .ofCiphers peer := by
      rw [goes_on]
      exact toolkit
    refine ⟨toolkit', offers, handle_settled hd.toBuiltin raw settled,
      d.handle_leaves_nothing raw b, fun k key => ?_⟩
    have serve : Serve peer s := .of_mem_suites (toolkit ▸ chosen)
    have made : client' =
        { client' with suite? := some s
                       key := Bytes.Base64.encodeText (draw (Client.keyBytes s)) } := by
      rw [goes_on]
    obtain ⟨requested, told, fit⟩ := tells.granted made (measured_builtin known' serve) drawn
      (serve_of_mem_suitesOf (offers t ht)) same
    subst here
    cases (hd.chosen settled valid tells.1 completes requested fit).symm.trans key
    exact readBy_chosenState hd.known known' toolkit' told serve (.of_mem_suites (offers t ht)) same

theorem InStep.exchanges (hd : Shaking h thread own d) (known' : ∀ c ∈ peer, c ∈ Cipher.builtin)
    {t u : Sides ω} (ht : InStep h thread own peer value t) (exchanges : Exchanges h d value t u) :
    InStep h thread own peer value u := by
  induction exchanges with
  | none => exact ht
  | more earlier exchange ih => exact ih.exchange hd known' exchange

/-- In every run of a client and a worker, whatever is written to the session of the client is read
by the client as it was before the exchange. So it is after the exchange too, unless the client has
changed its key; and even then if the session had no cipher yet. -/
theorem handshake_in_step (h : Host ω) (d : Dispatcher ω) {thread : String} {own peer : List Cipher}
    (hd : Shaking h thread own d) (known' : ∀ c ∈ peer, c ∈ Cipher.builtin) {value : String}
    {start t u : Sides ω} (in_step : InStep h thread own peer value start)
    (exchanges : Exchanges h d value start t) {written : List Event}
    (exchange : Exchange h d value t written u) :
    ∀ y ∈ written,
      (∃ opened, t.client.receive y.render = .ok opened) ∧
      (u.client = t.client ∨
        (∀ k, (h.store.get t.bench.world).tables.keyState? value = some k → k.isPlaintext = true) →
        ∃ opened, u.client.receive y.render = .ok opened) := by
  have before := in_step.exchanges hd known' exchanges
  have after := before.exchange hd known' exchange
  -- What is written for a message is read under any key that the client has for the key state.
  have read {raw : String} (fits : (d.handle raw t.bench).1.outcome.Fits) {y : Event}
      (hy : y ∈ d.notifications raw value t.bench) {client : Client}
      (toolkit : client.toolkit = .ofCiphers peer)
      (reads : ∀ k, (h.store.get t.bench.world).tables.keyState? value = some k →
        k.ReadBy own client) : ∃ opened, client.receive y.render = .ok opened := by
    obtain ⟨x, opened, -, received, -⟩ :=
      hd.received before.settled before.clear fits toolkit reads hy
    exact ⟨opened, received⟩
  have both {raw : String} (fits : (d.handle raw t.bench).1.outcome.Fits) {y : Event}
      (hy : y ∈ d.notifications raw value t.bench) :
      (∃ opened, t.client.receive y.render = .ok opened) ∧
      (u.client = t.client ∨
        (∀ k, (h.store.get t.bench.world).tables.keyState? value = some k → k.isPlaintext = true) →
        ∃ opened, u.client.receive y.render = .ok opened) := by
    have first := read fits hy before.toolkit before.reads
    refine ⟨first, ?_⟩
    rintro (same | plaintext)
    · rw [same]
      exact first
    · exact read fits hy after.toolkit fun k key => .inl (plaintext k key)
  intro y hy
  cases exchange with
  | rests => cases hy
  | passes other fits reads => exact both fits hy
  | chooses drawn negotiated valid here tells completes fits => exact both fits hy

/-! ## A client that chooses twice -/

/-- The stages of a message whose main stage comes to its end. -/
theorem Dispatcher.stages_ended {p : Pipeline ω} {e : Event}
    (ended : (d.runMain p e (d.arrived e b)).1 = none) :
    d.stages p e b = (none, d.runFinal p e (d.runMain p e (d.arrived e b)).2) := by
  unfold stages
  rw [← arrived, ← ended]

/-- The bench after an event has gone through a pipeline and what it left was written. -/
def Dispatcher.after (d : Dispatcher ω) (p : Pipeline ω) (e : Event) (b : Bench ω) : Bench ω :=
  (d.notify (d.stages p e b).2.2).2

theorem Dispatcher.handle_after {e : Event} {p : Pipeline ω} (valid : validate raw = .ok e)
    (routed : d.table.get? e.label = some p) (b : Bench ω) :
    (d.handle raw b).1.outcome = .handled e.label (d.stages p e b).1 (d.stages p e b).2.1 ∧
      (d.handle raw b).2 = d.after p e b ∧
      d.writes raw b = (d.stages p e b).2.2.events.drain.1 := by
  unfold writes
  rw [handle_routed valid routed, settle_routed valid routed]
  exact ⟨rfl, rfl, rfl⟩

/-- A pipeline of the handshake at a site. -/
def answeringPipeline (name : String) (last : BuiltinMain) : Pipeline Site where
  main :=
    [⟨0, "authentication_check", MainRun.ofAct authenticate⟩,
      ⟨1, "update_session", MainRun.ofAct touchSession⟩,
      ⟨2, "find_sessions_mle", MainRun.ofAct (findRecipients true)⟩,
      ⟨3, name, MainRun.ofAct last.act⟩]
  final := [⟨4, "event_multiplication_mle", FinalRun.ofAct multiply⟩]

/-- The pipeline that offers the suites. -/
def readyPipeline : Pipeline Site :=
  answeringPipeline "client_ready" .offerSuites

/-- The pipeline that takes the choice of a client. -/
def choicePipeline : Pipeline Site :=
  answeringPipeline "cipher_suite_selection" .selectSuite

/-- The pipelines of the handshake by their labels. -/
def handshakePipelines : List (String × Pipeline Site) :=
  [(selectionLabel, choicePipeline), (readyLabel, readyPipeline)]

/-- A worker at a site that serves one cipher with a key and one without. -/
def handshakeDispatcher : Dispatcher Site where
  output := (Site.supply Lens.whole Site.thread).output .memory
  table := { pipelines := handshakePipelines }
  env := Site.environment Site.thread
    { ciphers? := some (Toolkit.ofCiphers [.none, .aes]).ciphers
      codecs? := some Codec.named?
      integrities? := some IntegrityFunction.named? }

theorem known_keyed : ∀ c ∈ [Cipher.none, Cipher.aes], c ∈ Cipher.builtin := by
  intro c hc
  simp only [List.mem_cons, List.not_mem_nil, or_false] at hc
  rcases hc with rfl | rfl
  · exact List.mem_cons_self
  · exact List.mem_cons_of_mem _ (List.mem_cons_of_mem _ List.mem_cons_self)

theorem handshakeDispatcher_table {label : String} {p : Pipeline Site}
    (routed : handshakeDispatcher.table.get? label = some p) :
    ∃ name last, Answers label last ∧ p = answeringPipeline name last ∧
      Registry.builtin.MakesMain (MainRun.ofAct last.act : MainRun Site) := by
  have hp : (label, p) ∈ handshakePipelines := Keyed.mem_of_find? routed
  rcases List.mem_cons.mp hp with hp | hp
  · cases hp
    exact ⟨_, _, .selection, rfl, ⟨"cipher_suite_selection", ""⟩, aliceBench.world, _, _, rfl, rfl⟩
  · cases List.mem_singleton.mp hp
    exact ⟨_, _, .ready, rfl, ⟨"client_ready", ""⟩, aliceBench.world, _, _, rfl, rfl⟩

theorem handshakeDispatcher_shaking :
    Shaking Site.host Site.thread [.none, .aes] handshakeDispatcher where
  equips := Site.host_equips Site.thread _
  write := Site.host_spares_output Site.thread .memory
  main label p routed w hw := by
    obtain ⟨name, last, -, rfl, makes⟩ := handshakeDispatcher_table routed
    simp only [answeringPipeline, List.mem_cons, List.not_mem_nil, or_false] at hw
    rcases hw with rfl | rfl | rfl | rfl
    · exact ⟨⟨"authentication_check", ""⟩, aliceBench.world, _, _, rfl, rfl⟩
    · exact ⟨⟨"update_session", ""⟩, aliceBench.world, _, _, rfl, rfl⟩
    · exact ⟨⟨"find_sessions_mle", ""⟩, aliceBench.world, _, _, rfl, rfl⟩
    · exact makes
  final label p routed w hw := by
    obtain ⟨name, last, -, rfl, -⟩ := handshakeDispatcher_table routed
    rw [List.mem_singleton.mp hw]
    exact ⟨⟨"event_multiplication_mle", ""⟩, aliceBench.world, _, _, rfl, rfl⟩
  known := known_keyed
  toolkit := rfl
  table label p routed := by
    obtain ⟨name, last, answers, rfl, -⟩ := handshakeDispatcher_table routed
    exact ⟨true, last, answers, rfl, _, rfl, rfl⟩

/-- The client of Alice, with the ciphers of the worker. -/
def aliceClient : Client where
  toolkit := .ofCiphers [.none, .aes]

/-- The client when it has chosen a suite, with a key of zeros. -/
def aliceChose (s : Suite) : Client :=
  { aliceClient with
    suite? := some s
    key := Bytes.Base64.encodeText (List.replicate (Client.keyBytes s) 0) }

/-- A message of the client. -/
def aliceSends (label : String) (fields : List (String × Json.Value)) : Event where
  header := Header.plain "aa01" notAvailable label
  payload := Keyed.ofList (("auth_token", .str "b1") :: fields)

/-- The client asks for the suites. -/
def aliceReady : Event :=
  aliceSends readyLabel []

/-- The client tells the worker what it has chosen. -/
def aliceChoice (s : Suite) : Event :=
  aliceSends selectionLabel [("cipher_suite", s.toValue), ("cipher_key", .str (aliceChose s).key)]

/-- The suite that the client chooses first. -/
def aesSuite : Suite := ⟨"aes", "gcm", 128⟩

/-- The suite that it chooses then. -/
def noSuite : Suite := ⟨"none", "none", -1⟩

theorem plain_aliceSends {fields : List (String × Json.Value)}
    (faithful : ∀ x ∈ fields, x.2.Faithful 2) (label : String) :
    (aliceSends label fields).Plain := by
  refine ⟨rfl, .object fun x hx => ?_⟩
  rcases List.mem_cons.mp hx with rfl | hx
  · exact .str _ _
  · exact faithful x hx

theorem parse_aliceSends {fields : List (String × Json.Value)}
    (faithful : ∀ x ∈ fields, x.2.Faithful 2) (label : String) :
    Json.parse? (aliceSends label fields).render = some (aliceSends label fields).toValue :=
  (plain_aliceSends faithful label).faithful rfl fun _ mark => nomatch mark

theorem valid_aliceReady : validate aliceReady.render = .ok aliceReady := by
  unfold validate Validation.read
  rw [aliceReady, parse_aliceSends (List.forall_mem_nil _)]
  rfl

theorem valid_aliceChoice {s : Suite} (either : s = aesSuite ∨ s = noSuite) :
    validate (aliceChoice s).render = .ok (aliceChoice s) := by
  have measured : Measured s := by
    unfold Measured
    rcases either with rfl | rfl <;> decide
  have faithful : ∀ x ∈ [("cipher_suite", s.toValue), ("cipher_key", .str (aliceChose s).key)],
      x.2.Faithful 2 := by
    intro x hx
    simp only [List.mem_cons, List.not_mem_nil, or_false] at hx
    rcases hx with rfl | rfl
    · exact measured.faithful.mono (by decide)
    · exact .str _ _
  unfold validate Validation.read
  rw [aliceChoice, parse_aliceSends faithful]
  rcases either with rfl | rfl <;> decide +kernel

/-- The suites that the worker offers. -/
def aliceSuites : List Suite :=
  (Toolkit.ofCiphers [.none, .aes]).suites

/-- The bench after the client has asked for the suites. -/
def offeredBench : Bench Site :=
  handshakeDispatcher.after readyPipeline aliceReady aliceBench

/-- The bench after the client has chosen AES. -/
def keyedBench : Bench Site :=
  handshakeDispatcher.after choicePipeline (aliceChoice aesSuite) offeredBench

theorem aliceBench_in_step :
    InStep Site.host Site.thread [.none, .aes] [.none, .aes] "aa01"
      ⟨aliceClient, [], aliceBench⟩ where
  toolkit := rfl
  offered := nofun
  settled := by
    have user : (({} : Store).insertUser ⟨1, "alice"⟩).tables.Paired := .empty rfl rfl
    have sound : (({} : Store).insertUser ⟨1, "alice"⟩).tables.Sound := .of_no_rows rfl rfl
    refine ⟨Store.Reachable.sound ⟨aliceTurns, rfl⟩, ?_, rfl⟩
    have session : (({} : Store).insertUser ⟨1, "alice"⟩).tables.createSession 1 "aa01" (some "b1")
        0 = .ok (1, _, _) := rfl
    exact user.opened sound session rfl
  clear := rfl
  reads k key := by
    have row : (Site.host.store.get aliceBench.world).tables.keyState? "aa01" =
        some .unencrypted := by
      decide
    cases row.symm.trans key
    exact .inl (by decide)

theorem negotiate_alice {client : Client} (toolkit : client.toolkit = aliceClient.toolkit)
    {pick : Nat → Nat} {s : Suite}
    (chosen : Negotiation.choose pick aliceSuites aliceSuites = .ok s) :
    client.negotiate aliceSuites pick (List.replicate · 0) =
      .ok (s, aliceChose s) := by
  have own : client.toolkit.suites = aliceSuites := congrArg Toolkit.suites toolkit
  rw [Client.negotiate, own, chosen, ok_bind, aliceChose, ← toolkit]
  rfl

theorem tells_aliceChoice {s : Suite} (either : s = aesSuite ∨ s = noSuite) :
    Tells (aliceChose s) (aliceChoice s) := by
  refine ⟨rfl, fun name hname => ?_⟩
  simp only [List.mem_cons, List.not_mem_nil, or_false] at hname
  rcases either with rfl | rfl <;> rcases hname with rfl | rfl <;> decide +kernel

/-- The client asks for the suites, and reads the answer. -/
theorem alice_asks :
    Exchange Site.host handshakeDispatcher "aa01" ⟨aliceClient, [], aliceBench⟩
      (handshakeDispatcher.notifications aliceReady.render "aa01" aliceBench)
      ⟨aliceClient, aliceSuites, offeredBench⟩ := by
  let y := (offer aliceReady aliceSuites).marked
  obtain ⟨outcome, after, writes⟩ := handshakeDispatcher.handle_after valid_aliceReady
    (p := readyPipeline) rfl aliceBench
  have stages : (handshakeDispatcher.stages readyPipeline aliceReady aliceBench).1 = none ∧
      (handshakeDispatcher.stages readyPipeline aliceReady aliceBench).2.1 = none ∧
      (handshakeDispatcher.stages readyPipeline aliceReady aliceBench).2.2.events.drain.1 =
        [("aa01", y)] := by
    decide +kernel
  obtain ⟨main, final, waiting⟩ := stages
  rw [main, final] at outcome
  have notified : y ∈ handshakeDispatcher.notifications aliceReady.render "aa01" aliceBench := by
    rw [Dispatcher.notifications, writes, waiting]
    exact List.mem_singleton_self y
  rw [offeredBench, ← after]
  refine .passes (fun e valid => ?_) (by rw [outcome]; exact ⟨nofun, nofun⟩)
    (.inr ⟨y, notified, y.received, ?_, ?_⟩)
  · cases valid_aliceReady.symm.trans valid
    exact fun selects => absurd selects (by decide)
  · have said : Utterance [.none, .aes] (offer aliceReady aliceSuites) :=
      utterance_offer known_keyed
    refine Client.receive_plain (said.plain.faithful rfl fun n mark => ?_) (by decide)
    cases mark
    decide
  · have fits : ∀ s ∈ aliceSuites, fitsSigned s.keyLength = true := by decide
    exact suitesOfReply_offer (e := aliceReady) fits

/-- The client chooses, and the worker takes the choice. -/
theorem alice_chooses {client : Client} (toolkit : client.toolkit = aliceClient.toolkit)
    {pick : Nat → Nat} {s : Suite} (either : s = aesSuite ∨ s = noSuite)
    (chosen : Negotiation.choose pick aliceSuites aliceSuites = .ok s) {b : Bench Site}
    (completes : (handshakeDispatcher.stages choicePipeline (aliceChoice s) b).1 = none)
    (delivers : (handshakeDispatcher.stages choicePipeline (aliceChoice s) b).2.1 = none) :
    Exchange Site.host handshakeDispatcher "aa01" ⟨client, aliceSuites, b⟩
      (handshakeDispatcher.notifications (aliceChoice s).render "aa01" b)
      ⟨aliceChose s, aliceSuites, handshakeDispatcher.after choicePipeline (aliceChoice s) b⟩ := by
  obtain ⟨outcome, after, -⟩ := handshakeDispatcher.handle_after (valid_aliceChoice either)
    (p := choicePipeline) rfl b
  rw [completes, delivers] at outcome
  rw [← after]
  exact .chooses (fun n => List.length_replicate) (negotiate_alice toolkit chosen)
    (valid_aliceChoice either) rfl (tells_aliceChoice either) outcome
    (by rw [outcome]; exact ⟨nofun, nofun⟩)

/-- The client asks for the suites and chooses AES. -/
theorem alice_exchanges :
    Exchanges Site.host handshakeDispatcher "aa01" ⟨aliceClient, [], aliceBench⟩
      ⟨aliceChose aesSuite, aliceSuites, keyedBench⟩ := by
  have completes :
      (handshakeDispatcher.stages choicePipeline (aliceChoice aesSuite) offeredBench).1 = none ∧
      (handshakeDispatcher.stages choicePipeline (aliceChoice aesSuite) offeredBench).2.1 =
        none := by
    decide +kernel
  have chosen : Negotiation.choose (fun _ => 0) aliceSuites aliceSuites = .ok aesSuite := by
    decide +kernel
  exact .more (.more (.none _) alice_asks)
    (alice_chooses rfl (.inl rfl) chosen completes.1 completes.2)

/-- The key state of the session when the client has chosen AES. -/
def aesState : KeyState :=
  chosenState aesSuite (aliceChose aesSuite).key

/-- The recipient that the next choice is answered to. -/
def aesRecipient : Recipient := ⟨1, "aa01", aesState⟩

/-- The bench when the next choice has been taken, and its answer is to be sealed. -/
def answeredBench : Bench Site :=
  (handshakeDispatcher.runMain choicePipeline (aliceChoice noSuite)
    (handshakeDispatcher.arrived (aliceChoice noSuite) keyedBench)).2

theorem leaves_answeredBench :
    answeredBench.events.values = [answered (aliceChoice noSuite) 0] ∧
      Leaves (aliceChoice noSuite) [aesRecipient] answeredBench := by
  have left : answeredBench.events.values = [answered (aliceChoice noSuite) 0] ∧
      answeredBench.data.get "aa01" = [aesRecipient].map Recipient.toValue := by
    decide +kernel
  obtain ⟨values, data⟩ := left
  refine ⟨values, fun x hx => ?_, data⟩
  rw [values] at hx
  rw [List.mem_singleton.mp hx]
  rfl

/-- The answer to the next choice is written, sealed under the key state of the first one. -/
theorem next_choice_answered :
    (handshakeDispatcher.stages choicePipeline (aliceChoice noSuite) keyedBench).1 = none ∧
    (handshakeDispatcher.stages choicePipeline (aliceChoice noSuite) keyedBench).2.1 = none ∧
    ∃ y, handshakeDispatcher.notifications (aliceChoice noSuite).render "aa01" keyedBench = [y] ∧
      (answered (aliceChoice noSuite) 0).SealedAs (.ofCiphers [.none, .aes]) aesState y := by
  obtain ⟨values, leaves⟩ := leaves_answeredBench
  have completes : (handshakeDispatcher.runMain choicePipeline (aliceChoice noSuite)
      (handshakeDispatcher.arrived (aliceChoice noSuite) keyedBench)).1 = none := by
    decide +kernel
  -- The text is not encrypted here: that it can be follows from the suite.
  have seals : ∀ x ∈ answeredBench.events.values, ∀ r ∈ [aesRecipient], ∀ w,
      ∃ y, x.sealUnder r.state (.ofCiphers [.none, .aes])
        (handshakeDispatcher.env.services.draw w).1 = .ok y := by
    intro x _ r hr w
    rw [List.mem_singleton.mp hr]
    have serve : Serve [.none, .aes] aesSuite :=
      ⟨.aes, List.mem_cons_of_mem _ List.mem_cons_self, List.mem_cons_self⟩
    exact Event.sealUnder_exact known_keyed serve rfl (by decide +kernel) (by decide)
      (fun n => Crypto.Entropy.length_bytes _ n) x
  have read : (answeredBench.data.get "aa01").mapM Recipient.ofValue? = some [aesRecipient] := by
    decide +kernel
  obtain ⟨c, ended⟩ :=
    multiply_seals handshakeDispatcher_shaking.toolkit leaves.answers read seals
  have delivers := finalStage_ends (d := handshakeDispatcher) (e := aliceChoice noSuite)
    (p := choicePipeline) rfl rfl ended
  have stages : handshakeDispatcher.stages choicePipeline (aliceChoice noSuite) keyedBench =
      (none, handshakeDispatcher.runFinal choicePipeline (aliceChoice noSuite) answeredBench) :=
    Dispatcher.stages_ended completes
  rw [stages]
  refine ⟨rfl, delivers, ?_⟩
  obtain ⟨-, -, writes⟩ := handshakeDispatcher.handle_after (valid_aliceChoice (.inr rfl))
    (p := choicePipeline) rfl keyedBench
  rw [stages] at writes
  rcases finalStage_left (p := choicePipeline) handshakeDispatcher_shaking.toolkit rfl rfl leaves
    with ⟨-, blocks, all, events⟩ | ⟨⟨f, failed⟩, -⟩
  · rw [values] at all
    obtain ⟨copies, _, copied, none, rfl⟩ := List.forall₂_cons_left_iff.mp all
    cases none
    obtain ⟨⟨_, y⟩, _, ⟨rfl, sealed⟩, none, rfl⟩ := List.forall₂_cons_left_iff.mp copied
    cases none
    refine ⟨y, ?_, sealed⟩
    rw [Dispatcher.notifications, writes, events, Memory.filter_drain_refilled]
    rfl
  · cases delivers.symm.trans failed

/-- The client that goes from AES to no cipher reads the answer before it changes its key. -/
theorem handshake_in_step_again :
    ∃ y, handshakeDispatcher.notifications (aliceChoice noSuite).render "aa01" keyedBench = [y] ∧
      ∃ opened, (aliceChose aesSuite).receive y.render = .ok opened := by
  obtain ⟨completes, delivers, y, written, -⟩ := next_choice_answered
  have chosen : Negotiation.choose (fun _ => 2) aliceSuites aliceSuites = .ok noSuite := by
    decide +kernel
  have same : (aliceChose aesSuite).toolkit = aliceClient.toolkit := rfl
  have exchange := alice_chooses same (.inr rfl) chosen completes delivers
  obtain ⟨read, -⟩ := handshake_in_step Site.host handshakeDispatcher handshakeDispatcher_shaking
    known_keyed aliceBench_in_step alice_exchanges exchange y (written ▸ List.mem_singleton_self y)
  exact ⟨y, written, read⟩

/-- It cannot read the answer afterwards: the worker has sealed it under the key of AES, and the
client has the empty one. -/
theorem second_choice_unread :
    ∃ written y, InStep Site.host Site.thread [.none, .aes] [.none, .aes] "aa01"
        ⟨aliceClient, [], aliceBench⟩ ∧
      Exchanges Site.host handshakeDispatcher "aa01" ⟨aliceClient, [], aliceBench⟩
        ⟨aliceChose aesSuite, aliceSuites, keyedBench⟩ ∧
      Exchange Site.host handshakeDispatcher "aa01" ⟨aliceChose aesSuite, aliceSuites, keyedBench⟩
        written ⟨aliceChose noSuite, aliceSuites,
          handshakeDispatcher.after choicePipeline (aliceChoice noSuite) keyedBench⟩ ∧
      y ∈ written ∧ ∀ opened, (aliceChose noSuite).receive y.render ≠ .ok opened := by
  obtain ⟨completes, delivers, y, written, sealed⟩ := next_choice_answered
  have chosen : Negotiation.choose (fun _ => 2) aliceSuites aliceSuites = .ok noSuite := by
    decide +kernel
  have same : (aliceChose aesSuite).toolkit = aliceClient.toolkit := rfl
  refine ⟨_, y, aliceBench_in_step, alice_exchanges,
    alice_chooses same (.inr rfl) chosen completes delivers,
    written ▸ List.mem_singleton_self y, ?_⟩
  have refuses (received nonce text : Bytes) :
      Cipher.aes.decrypt received aesState.params nonce [] ≠ .ok text := by
    intro decrypted
    exact absurd (Cipher.keyLength_of_decrypt decrypted) (by decide)
  have toolkit : (aliceChose noSuite).toolkit = .ofCiphers [.none, .aes] := rfl
  have served : (Toolkit.ofCiphers [.none, .aes]).cipher aesState.cipher = .ok .aes := rfl
  exact Client.not_receive toolkit (by decide) (by decide) served rfl refuses sealed

end EventWorker
