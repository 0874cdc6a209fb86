import EventWorker.Processor.Handshake
import EventWorker.Proofs.Dispatch.Routed
import EventWorker.Proofs.Sealing.Negotiation
import EventWorker.Worker.Site

/-!
# Offers and selections

What a client selects is compared with what the worker serves once more. A client that chose among
the suites that were offered passes both checks, of the suite and of the key.

Results:
1. `offerSuites_replies`: the reply that offers the suites, and what a client reads from it.
2. `selectSuite_selected`: what comes of a selection, with what was found on the way.
3. `negotiation_agrees`: a negotiated selection is never refused for its suite or its key.
-/

namespace EventWorker

open Json (Value)

namespace Processor

variable {ω : Type} {env : Environment ω} {served : List (String × Cipher)} {e : Event}
  {b : Bench ω}

/-! ## Answers -/

/-- The reply that offers some suites. -/
def offer (e : Event) (suites : List Suite) : Event :=
  e.reply (Keyed.ofList
    [("err", .nat 0), ("phase", .nat 1), ("cipher_suites", .arr (suites.map Suite.toValue))])

/-- The reply that tells a code. -/
def answered (e : Event) (code : Nat) : Event :=
  e.reply (Keyed.ofList [("err", .nat code), ("phase", .nat 1)])

/-- The key that a selection brings. -/
def keyOf (e : Event) : String :=
  (e.param? "cipher_key").getD ""

theorem offerSuites_replies (present : env.providers.ciphers = .ok served)
    (ready : e.label = readyLabel) :
    (offerSuites env e).outcome b =
      (.ok (), b.pushEvent e.label (offer e (suitesOf (served.map Prod.snd)))) := by
  unfold offerSuites
  rw [if_pos ready, present]
  rfl

theorem suitesOfReply_offer {suites : List Suite}
    (fits : ∀ s ∈ suites, fitsSigned s.keyLength = true) :
    Client.suitesOfReply (offer e suites) = .ok suites := by
  refine Client.suitesOfReply_offer ?_ fits
  simp [offer, Event.reply, Keyed.ofList, Keyed.find?_insert]

/-- The lookup of the session of a selection. -/
abbrev lookUp (db : Database ω) (e : Event) : Act (Bench ω) (Option Session) :=
  Bench.onWorld ((db.sessionByValue? e.header.session).mapError fun f =>
    Code.sessionNotFound.failure.causedBy f)

/-- The change of the key state of a session to a suite and the key that is brought. -/
abbrev store (db : Database ω) (e : Event) (session : Session) (s : Suite) : Act (Bench ω) Unit :=
  Bench.onWorld ((db.updateEncryption session.id (chosenState s (keyOf e))).mapError fun f =>
    Code.encryptionNotCreated.failure.causedBy f)

/-- What comes of a selection: a refusal of the suite, of the key or for want of a session, the key
state of the session with an acknowledgement, or a failure before anything is answered. -/
inductive Selected (env : Environment ω) (served : List (String × Cipher)) (e : Event)
    (b : Bench ω) : Except Failure Unit → Bench ω → Prop
  | unserved (refused : requestedSuite? served e = none) :
    Selected env served e b (.ok ()) (b.pushEvent e.label (answered e Code.cipherSuite.id))
  | misfit {s : Suite} (requested : requestedSuite? served e = some s)
    (refused : keyFits s (keyOf e) = false) :
    Selected env served e b (.ok ()) (b.pushEvent e.label (answered e Code.keyLength.id))
  | sessionless {db : Database ω} {b₁ : Bench ω} (present : env.database = .ok db)
    (looked : (lookUp db e).outcome b = (.ok none, b₁)) :
    Selected env served e b (.ok ()) (b₁.pushEvent e.label (answered e Code.sessionNotFound.id))
  | stored {s : Suite} {db : Database ω} {session : Session} {b₁ b₂ : Bench ω}
    (requested : requestedSuite? served e = some s) (fits : keyFits s (keyOf e) = true)
    (present : env.database = .ok db)
    (looked : (lookUp db e).outcome b = (.ok (some session), b₁))
    (written : (store db e session s).outcome b₁ = (.ok (), b₂)) :
    Selected env served e b (.ok ()) (b₂.pushEvent e.label (answered e 0))
  | failed {f : Failure} {c : Bench ω} (events : c.events = b.events) :
    Selected env served e b (.error f) c

/-- A step on the surroundings leaves the events alone. -/
theorem events_onWorld {α : Type} {a : Act ω α} {r : Except Failure α} {c : Bench ω}
    (ends : (Bench.onWorld a).outcome b = (r, c)) : c.events = b.events := by
  cases ends
  rfl

theorem selectSuite_selected (present : env.providers.ciphers = .ok served)
    (selects : e.label = selectionLabel) (b : Bench ω) :
    Selected env served e b
      ((selectSuite env e).outcome b).1 ((selectSuite env e).outcome b).2 := by
  unfold selectSuite
  rw [if_neg (not_not_intro selects), present, Step.outcome_bind_ok (Step.outcome_ofResult _ _)]
  cases requested : requestedSuite? served e with
  | none => exact .unserved requested
  | some s =>
    dsimp only
    split
    · next fits =>
      rcases database : env.database with f | db
      · exact .failed rfl
      · rw [Step.outcome_bind_ok (Step.outcome_ofResult _ _), Step.outcome_bind]
        rcases looked : (lookUp db e).outcome b with ⟨f | found, b₁⟩
        · exact .failed (events_onWorld looked)
        · cases found with
          | none => exact .sessionless database looked
          | some session =>
            dsimp only
            rw [Step.outcome_bind]
            rcases written : (store db e session s).outcome b₁ with ⟨f | v, b₂⟩
            · have refused := written
              unfold store keyOf at refused
              rw [refused]
              exact .failed ((events_onWorld written).trans (events_onWorld looked))
            · have stored := written
              unfold store keyOf at stored
              rw [stored]
              exact .stored requested fits database looked written
    · next misfits => exact .misfit requested (Bool.eq_false_iff.mpr misfits)

/-! ## Negotiated selections -/

/-- A client can have a suite of this key length: it is -1, or a number of bits that fits a word. -/
def Measured (s : Suite) : Prop :=
  s.keyLength = -1 ∨ (0 ≤ s.keyLength ∧ s.keyLength < signedBound)

theorem Measured.fits {s : Suite} (h : Measured s) : fitsSigned s.keyLength = true := by
  refine decide_eq_true ?_
  rcases h with h | ⟨least, greatest⟩
  · rw [h]
    decide
  · exact ⟨Int.le_trans (by decide) least, greatest⟩

/-- The length of a key is asked for in two ways that agree. -/
theorem Measured.keyBytes {s : Suite} (h : Measured s) :
    (Client.keyBytes s : Int) = s.keyLength.tdiv 8 := by
  rcases h with h | ⟨least, -⟩
  · rw [Client.keyBytes, h]
    rfl
  · obtain ⟨n, hn⟩ := Int.eq_ofNat_of_zero_le least
    rw [Client.keyBytes, hn]
    rfl

/-- A key that was made for a suite fits the suite. -/
theorem keyFits_made {s : Suite} (h : Measured s) {draw : Nat → Bytes}
    (drawn : ∀ n, (draw n).length = n) :
    keyFits s (Bytes.Base64.encodeText (draw (Client.keyBytes s))) = true := by
  unfold keyFits
  rw [Bytes.Base64.decodeText?_encodeText]
  refine decide_eq_true ?_
  rw [drawn]
  exact h.keyBytes

/-- A suite that some cipher serves, up to its normal text, is granted. -/
theorem requestedSuite?_served {s t : Suite} (asked : Keyed.find? "cipher_suite" e.payload =
    some s.toValue) (fits : fitsSigned s.keyLength = true) (serve : Serve (served.map Prod.snd) t)
    (same : t.normalized = s.normalized) : requestedSuite? served e = some s := by
  obtain ⟨u, hu, same'⟩ := serve.exists_mem_suitesOf
  have granted :
      ((suitesOf (served.map Prod.snd)).any fun t => t.normalized = s.normalized) = true :=
    List.any_eq_true.mpr ⟨u, hu, decide_eq_true (same'.trans same)⟩
  unfold requestedSuite?
  rw [asked, Option.bind_some, Suite.ofValue?_toValue fits, Option.filter_some, granted]
  rfl

theorem measured_builtin {ciphers : List Cipher} (known : ∀ c ∈ ciphers, c ∈ Cipher.builtin)
    {s : Suite} (serve : Serve ciphers s) : Measured s := by
  obtain ⟨c, hc, listed⟩ := serve
  unfold Measured
  cases Cipher.offers_of_listed (known c hc) listed <;> decide

/-- A selection event carries what the client tells the worker. -/
def Tells (client : Client) (e : Event) : Prop :=
  e.label = selectionLabel ∧
    ∀ name ∈ ["cipher_suite", "cipher_key"], Keyed.find? name e.payload = client.selection.get? name

/-- What a client tells the worker of a suite that some cipher serves, with a key made for it, is
granted. -/
theorem Tells.granted {client : Client} {s t : Suite} {draw : Nat → Bytes} (tells : Tells client e)
    (negotiated : client =
      { client with suite? := some s
                    key := Bytes.Base64.encodeText (draw (Client.keyBytes s)) })
    (measured : Measured s) (drawn : ∀ n, (draw n).length = n)
    (serve : Serve (served.map Prod.snd) t) (same : t.normalized = s.normalized) :
    requestedSuite? served e = some s ∧ keyOf e = client.key ∧ keyFits s (keyOf e) = true := by
  obtain ⟨-, told⟩ := tells
  rw [negotiated] at told ⊢
  have suite : Keyed.find? "cipher_suite" e.payload = some s.toValue := by
    refine (told _ List.mem_cons_self).trans ?_
    simp [Client.selection, Value.object, Value.get?, Keyed.ofList, Keyed.find?_insert]
  have key : keyOf e = Bytes.Base64.encodeText (draw (Client.keyBytes s)) := by
    rw [keyOf, Event.param?, told _ (List.mem_cons_of_mem _ List.mem_cons_self)]
    simp [Client.selection, Value.object, Value.get?, Keyed.ofList, Keyed.find?_insert, Value.str?]
  refine ⟨requestedSuite?_served suite measured.fits serve same, key, ?_⟩
  rw [key]
  exact keyFits_made measured drawn

end Processor

open Processor

/-- The client after it has tried to negotiate. -/
def Client.afterwards (client : Client) (offered : List Suite) (pick : Nat → Nat)
    (draw : Nat → Bytes) : Client :=
  ((client.negotiate offered pick draw).toOption.map Prod.snd).getD client

/-- A client reads from the reply of the worker the suites that the worker advertises. It finds
none of them if and only if no own suite has the normal text of one of them, and then it stays as
it was. Else it takes an own suite, and what it then tells the worker is refused neither for the
suite nor for the key, in whatever order the worker has its ciphers. -/
theorem negotiation_agrees {ω : Type} {env env' : Environment ω}
    {served served' : List (String × Cipher)} (present : env.providers.ciphers = .ok served)
    (present' : env'.providers.ciphers = .ok served') (reordered : served.Perm served')
    (worker : ∀ s, Serve (served.map Prod.snd) s → Measured s) (client : Client)
    (own : ∀ s, Serve (client.toolkit.ciphers.map Prod.snd) s → Measured s) (ready : Event)
    (asks : ready.label = readyLabel) (pick : Nat → Nat) (draw : Nat → Bytes)
    (drawn : ∀ n, (draw n).length = n) (b : Bench ω) :
    let offered := suitesOf (served.map Prod.snd)
    let client' := client.afterwards offered pick draw
    (∃ reply, (offerSuites env ready).outcome b = (.ok (), b.pushEvent ready.label reply) ∧
      Client.suitesOfReply reply = .ok offered) ∧
    (client.negotiate offered pick draw = .error .noCommonSuite ↔
      ∀ s, Serve (client.toolkit.ciphers.map Prod.snd) s →
        ∀ t ∈ offered, t.normalized ≠ s.normalized) ∧
    (client.negotiate offered pick draw = .error .noCommonSuite → client' = client) ∧
    (client.negotiate offered pick draw ≠ .error .noCommonSuite →
      ∃ s, client.negotiate offered pick draw = .ok (s, client') ∧
        Serve (client.toolkit.ciphers.map Prod.snd) s ∧
        ∀ e, Tells client' e → ∀ b' : Bench ω,
          ((selectSuite env' e).outcome b').2.events = b'.events ∨
          ∃ code, code ≠ Code.cipherSuite.id ∧ code ≠ Code.keyLength.id ∧
            ((selectSuite env' e).outcome b').2.events =
              (b'.pushEvent e.label (answered e code)).events) := by
  intro offered client'
  have fits : ∀ s ∈ offered, fitsSigned s.keyLength = true :=
    fun s hs => (worker s (serve_of_mem_suitesOf hs)).fits
  refine ⟨⟨_, offerSuites_replies present asks, suitesOfReply_offer fits⟩, ?_, fun fails => ?_,
    fun succeeds => ?_⟩
  · rw [Client.negotiate_fails]
    refine ⟨fun apart s hs t ht => ?_, fun apart s hs => apart s (serve_of_mem_suitesOf hs)⟩
    obtain ⟨u, hu, same⟩ := hs.exists_mem_suitesOf
    rw [← same]
    exact apart u hu t ht
  · show client.afterwards offered pick draw = client
    rw [Client.afterwards, fails]
    rfl
  · obtain ⟨s, chosen, hs, t, ht, same⟩ := Client.negotiate_chosen succeeds
    have served_own := serve_of_mem_suitesOf hs
    have goes_on : client' =
        { client with suite? := some s
                      key := Bytes.Base64.encodeText (draw (Client.keyBytes s)) } := by
      show client.afterwards offered pick draw = _
      rw [Client.afterwards, chosen]
      rfl
    rw [goes_on]
    refine ⟨s, chosen, served_own, fun e tells b' => ?_⟩
    obtain ⟨requested, key, fit⟩ := tells.granted rfl (own s served_own) drawn
      ((serve_of_mem_suitesOf ht).perm (reordered.map Prod.snd)) same
    -- Neither refusal is left.
    have selected := selectSuite_selected present' tells.1 b'
    generalize (selectSuite env' e).outcome b' = out at selected ⊢
    obtain ⟨r, c⟩ := out
    cases selected with
    | unserved refused => cases refused.symm.trans requested
    | misfit requested' refused =>
      cases requested.symm.trans requested'
      cases refused.symm.trans fit
    | sessionless present looked =>
      refine .inr ⟨_, by decide, by decide, congrArg (Memory.push · e.label _) ?_⟩
      exact events_onWorld looked
    | stored requested fits present looked written =>
      refine .inr ⟨_, by decide, by decide, congrArg (Memory.push · e.label _) ?_⟩
      exact (events_onWorld written).trans (events_onWorld looked)
    | failed events => exact .inl events

/-- A worker that serves all built-in ciphers, filed in some order. -/
def builtinServed : List (String × Cipher) :=
  Cipher.builtin.map fun c => (c.name, c)

/-- The environment of a worker with a table of ciphers. -/
def servingEnvironment (served : List (String × Cipher)) : Environment Site where
  services := Site.services Lens.whole
  providers := { ciphers? := some served }

/-- A client that only has AES agrees with that worker on one of its suites. -/
theorem negotiation_agrees_aes :
    let client : Client := { toolkit := .ofCiphers [.aes] }
    ∃ s, client.negotiate (suitesOf (builtinServed.map Prod.snd)) id (List.replicate · 0) =
        .ok (s, client.afterwards (suitesOf (builtinServed.map Prod.snd)) id (List.replicate · 0)) ∧
      Serve [.aes] s ∧
      ∀ e, Tells (client.afterwards (suitesOf (builtinServed.map Prod.snd)) id
          (List.replicate · 0)) e → ∀ b : Bench Site,
        ((selectSuite (servingEnvironment builtinServed.reverse) e).outcome b).2.events =
            b.events ∨
          ∃ code, code ≠ 802 ∧ code ≠ 803 ∧
            ((selectSuite (servingEnvironment builtinServed.reverse) e).outcome b).2.events =
              (b.pushEvent e.label (answered e code)).events := by
  intro client
  have known : ∀ c ∈ builtinServed.map Prod.snd, c ∈ Cipher.builtin := by
    intro c hc
    obtain ⟨entry, hentry, rfl⟩ := List.mem_map.mp hc
    obtain ⟨c, builtin, rfl⟩ := List.mem_map.mp hentry
    exact builtin
  have aes : ∀ c ∈ client.toolkit.ciphers.map Prod.snd, c ∈ Cipher.builtin := by
    intro c hc
    rw [List.mem_singleton.mp hc]
    exact List.mem_cons_of_mem _ (List.mem_cons_of_mem _ List.mem_cons_self)
  have present : (servingEnvironment builtinServed).providers.ciphers = .ok builtinServed := rfl
  have present' : (servingEnvironment builtinServed.reverse).providers.ciphers =
      .ok builtinServed.reverse := rfl
  obtain ⟨-, fails, -, agrees⟩ := negotiation_agrees present present' (List.reverse_perm _).symm
    (fun s => measured_builtin known) client (fun s => measured_builtin aes)
    { header := Header.plain "aa01" notAvailable readyLabel, payload := [] } rfl id
    (List.replicate · 0) (fun n => List.length_replicate) { world := { entropy := { key := [] } } }
  refine agrees fun failed => ?_
  have served : (⟨"aes", "gcm", 128⟩ : Suite) ∈ suitesOf (builtinServed.map Prod.snd) := by
    decide +kernel
  exact fails.mp failed ⟨"aes", "gcm", 128⟩ ⟨.aes, List.mem_cons_self, List.mem_cons_self⟩ _ served
    rfl

end EventWorker
