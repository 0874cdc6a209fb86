import EventWorker.Processor.Sessions
import EventWorker.Proofs.Dispatch.Host

/-!
# The authentication check on a store

The check reads the session of an event, the clock and the user, in this order. It writes
nothing but the removal of a session that it finds expired, and leaves the user as a scratch
value when it lets the event pass.

Results:
1. `authenticates`: the paths through the check.
2. `Authenticates.refused`: a check that finds no session, or an expired one.
-/

namespace EventWorker

open Processor

variable {ω : Type} {h : Host ω} {thread : String} {env : Environment ω} {e : Event} {b : Bench ω}

/-- The session that a store finds under a token and a value, none while it is not
available. -/
def Store.yields? (s : Store) (token value : String) : Option Session :=
  if s.unavailable then none else s.tables.session? token value

theorem Store.yields?_available {s : Store} {token value : String} {session : Session}
    (found : s.yields? token value = some session) : s.unavailable = false := by
  unfold yields? at found
  split at found
  · cases found
  · next available => exact Bool.eq_false_iff.mpr available

theorem Store.yields?_eq {s : Store} (available : s.unavailable = false) (token value : String) :
    s.yields? token value = s.tables.session? token value := by
  rw [yields?, available]
  rfl

theorem Tables.Sound.session?_spec {t : Tables} (ht : t.Sound) {token value : String}
    {session : Session} (found : t.session? token value = some session) :
    session.value = value ∧ session.token = some token ∧
      Keyed.find? session.id t.sessions = some session := by
  unfold session? at found
  obtain ⟨⟨key, row⟩, hfound, rfl⟩ := Option.map_eq_some_iff.mp found
  have named := List.find?_some hfound
  rw [Bool.and_eq_true, decide_eq_true_eq, decide_eq_true_eq] at named
  have hmem := List.mem_of_find?_eq_some hfound
  refine ⟨named.1, named.2, ?_⟩
  rw [ht.id_of_session hmem]
  exact ht.sessions.mem_iff.mp hmem

/-- The paths through the authentication check of an event: how each ends, and the bench it
leaves. -/
inductive Authenticates (h : Host ω) (thread : String) (env : Environment ω) (e : Event)
    (b : Bench ω) : Except Failure Unit → Bench ω → Prop
  | unknown {f : Failure}
      (found : (h.store.get b.world).yields? (tokenOf e) e.header.session = none)
      (code : f.code = Code.sessionToken.id) (silent : f.notifiable = false) :
      Authenticates h thread env e b (.error f) b
  | expired {session : Session} {w : ω}
      (found : (h.store.get b.world).yields? (tokenOf e) e.header.session = some session)
      (old : session.isExpired (env.services.now b.world).1 = true)
      (store : h.store.get w =
        (h.store.get b.world).perform { thread, op := .delete session.id })
      (ledger : h.ledger.get w = h.ledger.get b.world) :
      Authenticates h thread env e b (.error Code.sessionExpired.failure.silent)
        { b with world := w }
  | ownerless {session : Session} {w : ω}
      (found : (h.store.get b.world).yields? (tokenOf e) e.header.session = some session)
      (fresh : session.isExpired (env.services.now b.world).1 = false)
      (store : h.store.get w = h.store.get b.world)
      (ledger : h.ledger.get w = h.ledger.get b.world) :
      Authenticates h thread env e b (.error Code.userNotFound.failure) { b with world := w }
  | passed {session : Session} {user : User} {w : ω}
      (found : (h.store.get b.world).yields? (tokenOf e) e.header.session = some session)
      (fresh : session.isExpired (env.services.now b.world).1 = false)
      (store : h.store.get w = h.store.get b.world)
      (ledger : h.ledger.get w = h.ledger.get b.world) :
      Authenticates h thread env e b (.ok ())
        ({ b with world := w }.pushData userKey [user.toValue])

theorem authenticates (henv : h.Equips thread env) (e : Event) (b : Bench ω) :
    Authenticates h thread env e b ((authenticate env e).outcome b).1
      ((authenticate env e).outcome b).2 := by
  unfold authenticate
  rw [henv.database_eq, Step.outcome_bind_ok (Step.outcome_ofResult _ _)]
  dsimp only [Store.database]
  cases available : (h.store.get b.world).unavailable with
  | true =>
    rw [Step.outcome_bind_error (Host.outcome_reading_unavailable available _ _)]
    exact .unknown (by rw [Store.yields?, available]; rfl) rfl rfl
  | false =>
    rw [Step.outcome_bind_ok (Host.outcome_reading_mapError available _ _)]
    have yields := Store.yields?_eq available (tokenOf e) e.header.session
    cases found : (h.store.get b.world).tables.session? (tokenOf e) e.header.session with
    | none => exact .unknown (yields.trans found) rfl rfl
    | some session =>
      dsimp only
      obtain ⟨hstore, hledger⟩ := henv.now b.world
      rw [Step.outcome_bind_ok (Host.outcome_now env.services b)]
      generalize hc : { b with world := (env.services.now b.world).2 } = c
      have hstore : h.store.get c.world = h.store.get b.world := hc ▸ hstore
      have hledger : h.ledger.get c.world = h.ledger.get b.world := hc ▸ hledger
      have available' : (h.store.get c.world).unavailable = false := hstore ▸ available
      -- The deletion is made by the check itself, inside the unit of work that is rolled back.
      cases expired : session.isExpired (env.services.now b.world).1 with
      | true =>
        rw [if_pos rfl, Step.outcome_bind_ok (Host.outcome_delete available' thread _)]
        subst hc
        refine .expired (yields.trans found) expired ?_ ((h.ledger_apart _ _).trans hledger)
        rw [← hstore]
        exact h.store_lawful.get_set _ _
      | false =>
        rw [if_neg Bool.false_ne_true]
        rw [Step.outcome_bind_ok (Host.outcome_reading available' _)]
        subst hc
        cases Keyed.find? session.client (h.store.get _).tables.users with
        | none => exact .ownerless (yields.trans found) expired hstore hledger
        | some user => exact .passed (yields.trans found) expired hstore hledger

/-- A check that finds no session, or an expired one, fails and tells nobody. It leaves the
memories alone, and the store too but for the expired session. -/
theorem Authenticates.refused {r : Except Failure Unit} {c : Bench ω}
    (course : Authenticates h thread env e b r c)
    (refused : ∀ session,
      (h.store.get b.world).yields? (tokenOf e) e.header.session = some session →
      session.isExpired (env.services.now b.world).1 = true) :
    ∃ f, r = .error f ∧ f.notifiable = false ∧ c.events = b.events ∧ c.data = b.data ∧
      match (h.store.get b.world).yields? (tokenOf e) e.header.session with
      | none => f.code = Code.sessionToken.id ∧ h.store.get c.world = h.store.get b.world
      | some session => f.code = Code.sessionExpired.id ∧
        h.store.get c.world =
          (h.store.get b.world).perform { thread, op := .delete session.id } := by
  cases course with
  | unknown found code silent => exact ⟨_, rfl, silent, rfl, rfl, by rw [found]; exact ⟨code, rfl⟩⟩
  | expired found old store => exact ⟨_, rfl, rfl, rfl, rfl, by rw [found]; exact ⟨rfl, store⟩⟩
  | ownerless found fresh => exact absurd ((refused _ found).symm.trans fresh) (by decide)
  | passed found fresh => exact absurd ((refused _ found).symm.trans fresh) (by decide)

end EventWorker
