import EventWorker.Proofs.Store.Places

/-!
# Operations on a store

A turn is an operation of a thread. Each acts on the whole store at once, and an operation
that is refused changes nothing. A run is a sequence of turns of any threads.

Results:
1. `Write.apply_written`: a write of sound tables replaces one row and records what was
   there before.
2. `Store.perform_write`: a write that is not refused replaces the tables and is recorded.
3. `Store.units_begin`, `Store.units_commit`, `Store.units_rollback`, `Store.units_delete`:
   what the operations make of the open units of work.
4. `Store.performed`: what a turn can do, in seven cases.
-/

namespace EventWorker

/-! ## Writes -/

/-- A write of one row. -/
inductive Write
  | createSession (client : Nat) (value : String) (token : Option String) (time : Int)
  | createEncryption (sessionId : Nat) (state : KeyState)
  | updateLastUpdated (value : String) (time : Int)
  | updateEncryption (sessionId : Nat) (state : KeyState)
  deriving DecidableEq, Repr

/-- The tables after a write, with the record of it. -/
def Write.apply (t : Tables) : Write → Except Failure (Undo × Tables)
  | .createSession client value token time =>
    (t.createSession client value token time).map Prod.snd
  | .createEncryption sessionId state => (t.createEncryption sessionId state).map Prod.snd
  | .updateLastUpdated value time => t.updateLastUpdated value time
  | .updateEncryption sessionId state => t.updateEncryption sessionId state

/-- A row was written, and what was there before was recorded. -/
inductive Tables.Written (t : Tables) : Undo → Tables → Prop
  | session (row : Session) (last : Nat) (known : row.id ≤ last) (later : t.lastSession ≤ last) :
      Written t (.session row.id (Keyed.find? row.id t.sessions))
        { t with sessions := Keyed.insert row.id row t.sessions, lastSession := last }
  | encryption (row : Encryption) (last : Nat) (known : row.sessionId ≤ t.lastSession)
      (later : t.lastEncryption ≤ last) :
      Written t (.encryption row.sessionId (Keyed.find? row.sessionId t.encryptions))
        { t with encryptions := Keyed.insert row.sessionId row t.encryptions
                 lastEncryption := last }

namespace Tables

variable {t u : Tables} {undo : Undo}

theorem Written.before (h : t.Written undo u) : undo.before = t.row undo.place := by
  cases h <;> rfl

theorem Written.row (h : t.Written undo u) (p : Place) :
    u.row p = t.row p ∨ p = undo.place ∧ ∃ r, u.row p = some r ∧ r.place = p := by
  cases h with
  | session row last known later =>
    cases p with
    | session k =>
      rw [Tables.row, Tables.row, Keyed.find?_insert]
      split
      · next hk => exact .inr ⟨congrArg _ hk, _, rfl, congrArg _ hk.symm⟩
      · exact .inl rfl
    | encryption k => exact .inl rfl
  | encryption row last known later =>
    cases p with
    | session k => exact .inl rfl
    | encryption k =>
      rw [Tables.row, Tables.row, Keyed.find?_insert]
      split
      · next hk => exact .inr ⟨congrArg _ hk, _, rfl, congrArg _ hk.symm⟩
      · exact .inl rfl

theorem Written.others (h : t.Written undo u) {p : Place} (hp : p ≠ undo.place) :
    u.row p = t.row p :=
  (h.row p).resolve_right fun hu => hp hu.1

theorem Written.lastSession_le (h : t.Written undo u) : t.lastSession ≤ u.lastSession := by
  cases h with
  | session row last known later => exact later
  | encryption row last known later => exact Nat.le_refl _

theorem Written.known (h : t.Written undo u) : undo.sessionId ≤ u.lastSession := by
  cases h with
  | session row last known later => exact known
  | encryption row last known later => exact known

theorem Written.users (h : t.Written undo u) : u.users = t.users := by
  cases h <;> rfl

theorem Written.sound (h : t.Written undo u) (ht : t.Sound) : u.Sound where
  sessions := by
    cases h with
    | session row last known later => exact ht.sessions.insert _ _
    | encryption row last known later => exact ht.sessions
  encryptions := by
    cases h with
    | session row last known later => exact ht.encryptions
    | encryption row last known later => exact ht.encryptions.insert _ _
  filed p r hr := by
    rcases h.row p with hp | ⟨rfl, r', hr', hplace⟩
    · exact (ht.filed p r (hp ▸ hr)).mono h.lastSession_le
    · cases hr.symm.trans hr'
      exact ⟨hplace, undo.sessionId_place ▸ h.known⟩

/-- The session with a value is filed under its id. -/
theorem Sound.find?_of_sessionByValue? (ht : t.Sound) {value : String} {s : Session}
    (h : t.sessionByValue? value = some s) : Keyed.find? s.id t.sessions = some s := by
  obtain ⟨⟨k, s'⟩, hfound, rfl⟩ := Option.map_eq_some_iff.mp h
  have hs : Keyed.find? k t.sessions = some s' :=
    ht.sessions.mem_iff.mp (List.mem_of_find?_eq_some hfound)
  have hrow : t.row (.session k) = some (.session s') := by rw [Tables.row, hs]; rfl
  have hk : s'.id = k := Place.session.inj (ht.filed _ _ hrow).1
  rw [hk]
  exact hs

theorem Sound.known_of_session (ht : t.Sound) {id : Nat} {s : Session}
    (h : Keyed.find? id t.sessions = some s) : id ≤ t.lastSession :=
  (ht.filed (.session id) (.session s) (by rw [Tables.row, h]; rfl)).2

theorem Sound.known_of_encryption (ht : t.Sound) {id : Nat} {e : Encryption}
    (h : Keyed.find? id t.encryptions = some e) : id ≤ t.lastSession :=
  (ht.filed (.encryption id) (.encryption e) (by rw [Tables.row, h]; rfl)).2

end Tables

theorem Write.apply_written {t u : Tables} {w : Write} {undo : Undo} (ht : t.Sound)
    (h : w.apply t = .ok (undo, u)) : t.Written undo u := by
  cases w with
  | createSession client value token time =>
    simp only [Write.apply, Tables.createSession] at h
    split at h
    · cases h
    · cases h
      -- The record says that there was no row, and there is none under an id never given out.
      have fresh : Keyed.find? (t.lastSession + 1) t.sessions = none := by
        cases hf : Keyed.find? (t.lastSession + 1) t.sessions with
        | none => rfl
        | some s => exact absurd (ht.known_of_session hf) (Nat.not_succ_le_self _)
      rw [← fresh]
      exact .session { id := t.lastSession + 1, client, value, token, lastUpdated := time } _
        (Nat.le_refl _) (Nat.le_succ _)
  | createEncryption sessionId state =>
    simp only [Write.apply, Tables.createEncryption] at h
    split at h
    · next held =>
      cases h
      obtain ⟨s, hs⟩ := Option.isSome_iff_exists.mp held
      exact .encryption { id := t.lastEncryption + 1, sessionId, state } _ (ht.known_of_session hs)
        (Nat.le_succ _)
    · cases h
  | updateLastUpdated value time =>
    simp only [Write.apply, Tables.updateLastUpdated] at h
    split at h
    · cases h
    · next s hs =>
      cases h
      have held := ht.find?_of_sessionByValue? hs
      rw [← held]
      exact .session { s with lastUpdated := time } t.lastSession (ht.known_of_session held)
        (Nat.le_refl _)
  | updateEncryption sessionId state =>
    simp only [Write.apply, Tables.updateEncryption] at h
    split at h
    · cases h
    · next e held =>
      cases h
      rw [← held]
      exact .encryption { e with sessionId, state } t.lastEncryption (ht.known_of_encryption held)
        (Nat.le_refl _)

/-! ## Turns -/

/-- An operation on a store. -/
inductive Op
  | write (w : Write)
  | delete (sessionId : Nat)
  | begin
  | commit
  | rollback
  | connect
  | disconnect
  | insertUser (user : User)
  | setUnavailable (unavailable : Bool)
  | failConnects (count : Nat)
  deriving DecidableEq, Repr

/-- An operation of a thread. -/
structure Turn where
  thread : String
  op : Op
  deriving DecidableEq, Repr

namespace Store

/-- The store after an operation that may be refused. -/
def after {α : Type} (s : Store) (r : Except Failure (α × Store)) : Store :=
  match r with
  | .ok (_, t) => t
  | .error _ => s

/-- The store after a turn. -/
def perform (s : Store) (c : Turn) : Store :=
  match c.op with
  | .write (.createSession client value token time) =>
    s.after (s.createSession c.thread client value token time)
  | .write (.createEncryption sessionId state) =>
    s.after (s.createEncryption c.thread sessionId state)
  | .write (.updateLastUpdated value time) => s.after (s.updateLastUpdated c.thread value time)
  | .write (.updateEncryption sessionId state) =>
    s.after (s.updateEncryption c.thread sessionId state)
  | .delete sessionId => s.after (s.delete sessionId)
  | .begin => s.begin c.thread
  | .commit => s.commit c.thread
  | .rollback => s.rollback c.thread
  | .connect => s.connect.2
  | .disconnect => s.disconnect
  | .insertUser user => s.insertUser user
  | .setUnavailable unavailable => { s with unavailable }
  | .failConnects count => { s with failingConnects := count }

/-- The store after a run. -/
def run (s : Store) (turns : List Turn) : Store :=
  turns.foldl perform s

/-- Some turns lead from the empty store to this one. -/
def Reachable (s : Store) : Prop :=
  ∃ turns, s = ({} : Store).run turns

@[simp] theorem run_cons (s : Store) (c : Turn) (turns : List Turn) :
    s.run (c :: turns) = (s.perform c).run turns := rfl

theorem run_append (s : Store) (xs ys : List Turn) : s.run (xs ++ ys) = (s.run xs).run ys :=
  List.foldl_append

/-- The row at a place. -/
def row (s : Store) (p : Place) : Option Row :=
  s.tables.row p

/-- What a write would record and leave in the tables, unless it is refused. -/
def written? (s : Store) (w : Write) : Option (Undo × Tables) :=
  if s.unavailable then none else (w.apply s.tables).toOption

theorem perform_write (s : Store) (thread : String) (w : Write) :
    s.perform { thread, op := .write w } =
      match s.written? w with
      | some (undo, tables) => { s with tables }.record thread undo
      | none => s := by
  have of_write {α : Type} {f : Tables → Except Failure (α × Undo × Tables)}
      (h : w.apply s.tables = (f s.tables).map Prod.snd) :
      s.after (s.write thread f) =
        match s.written? w with
        | some (undo, tables) => { s with tables }.record thread undo
        | none => s := by
    unfold written? Store.write
    rw [h]
    cases s.unavailable with
    | true => rfl
    | false => rcases f s.tables with _ | ⟨_, _, _⟩ <;> rfl
  have of_unit (f : Except Failure (Undo × Tables)) :
      f = (f.map fun v => ((), v)).map Prod.snd := by
    cases f <;> rfl
  cases w with
  | createSession client value token time => exact of_write rfl
  | createEncryption sessionId state => exact of_write rfl
  | updateLastUpdated value time => exact of_write (of_unit _)
  | updateEncryption sessionId state => exact of_write (of_unit _)

/-! ## Open units of work -/

theorem units_setUnits (s : Store) (a b : String) (us : List Journal) :
    (s.setUnits a us).units b = if b = a then us else s.units b := by
  unfold setUnits units
  cases us with
  | nil =>
    rw [List.isEmpty_nil, if_pos rfl, Keyed.find?_erase]
    split <;> rfl
  | cons j us =>
    rw [List.isEmpty_cons, if_neg Bool.false_ne_true, Keyed.find?_insert]
    split <;> rfl

/-- The open units of work after a write. -/
def recorded (undo : Undo) : List Journal → List Journal
  | [] => []
  | journal :: outer => (undo :: journal) :: outer

theorem length_recorded (undo : Undo) (us : List Journal) :
    (recorded undo us).length = us.length := by
  cases us <;> rfl

/-- The open units of work after a commit. -/
def committed : List Journal → List Journal
  | journal :: outer :: rest => (journal ++ outer) :: rest
  | _ => []

/-- The innermost unit of work, empty when none is open. -/
def innermost (s : Store) (thread : String) : Journal :=
  (s.units thread).headD []

theorem unavailable_record (s : Store) (a : String) (undo : Undo) :
    (s.record a undo).unavailable = s.unavailable := by
  unfold record
  split <;> rfl

@[simp] theorem tables_record (s : Store) (a : String) (undo : Undo) :
    (s.record a undo).tables = s.tables := by
  unfold record
  split <;> rfl

/-- A write changes the tables as it does to tables alone, or it was refused. -/
theorem tables_perform_write (s : Store) (a : String) (w : Write) :
    (s.perform ⟨a, .write w⟩).tables = s.tables ∨
      ∃ undo, w.apply s.tables = .ok (undo, (s.perform ⟨a, .write w⟩).tables) := by
  rw [perform_write]
  cases written : s.written? w with
  | none => exact .inl rfl
  | some v =>
    obtain ⟨undo, tables⟩ := v
    dsimp only
    rw [tables_record]
    unfold written? at written
    split at written
    · cases written
    · cases done : w.apply s.tables with
      | error f =>
        rw [done] at written
        cases written
      | ok v =>
        rw [done] at written
        cases written
        exact .inr ⟨undo, rfl⟩

theorem units_record (s : Store) (a b : String) (undo : Undo) :
    (s.record a undo).units b = if b = a then recorded undo (s.units a) else s.units b := by
  unfold record
  split
  · next h =>
    split
    · next hb => rw [hb, h, recorded]
    · rfl
  · next h => rw [units_setUnits, h, recorded]

/-- `units_record` as a write needs it. -/
theorem units_written (s : Store) (tables : Tables) (a b : String) (undo : Undo) :
    ({ s with tables }.record a undo).units b =
      if b = a then recorded undo (s.units a) else s.units b :=
  units_record _ a b undo

theorem units_begin (s : Store) (a b : String) :
    (s.begin a).units b = if b = a then [] :: s.units a else s.units b :=
  units_setUnits _ a b _

@[simp] theorem tables_commit (s : Store) (a : String) : (s.commit a).tables = s.tables := by
  unfold commit
  split <;> rfl

theorem units_commit (s : Store) (a b : String) :
    (s.commit a).units b = if b = a then committed (s.units a) else s.units b := by
  unfold commit
  split
  · next h =>
    split
    · next hb => rw [hb, h]; exact h
    · rfl
  · next h => rw [h]; exact units_setUnits _ a b _
  · next h => rw [h]; exact units_setUnits _ a b _

theorem tables_rollback (s : Store) (a : String) :
    (s.rollback a).tables = (s.innermost a).foldl Undo.apply s.tables := by
  unfold rollback innermost
  split
  · next h => rw [h]; rfl
  · next h => rw [h]; rfl

theorem units_rollback (s : Store) (a b : String) :
    (s.rollback a).units b = if b = a then (s.units a).tail else s.units b := by
  unfold rollback
  split
  · next h =>
    split
    · next hb => rw [h, hb]; exact h
    · rfl
  · next h => rw [h]; exact units_setUnits _ a b _

theorem row_rollback (s : Store) (a : String) (p : Place) :
    (s.rollback a).row p = (Journal.image? (s.innermost a) p).getD (s.row p) := by
  rw [row, tables_rollback, Journal.row_replay]
  rfl

theorem delete_available {s : Store} (h : s.unavailable = false) (thread : String) (id : Nat) :
    s.delete id = .ok ((), s.perform { thread, op := .delete id }) := by
  show _ = Except.ok ((), s.after (s.delete id))
  cases hd : s.delete id with
  | error e =>
    rw [delete, h] at hd
    cases hd
  | ok v => rfl

theorem units_delete {s t : Store} {id : Nat} (h : s.delete id = .ok ((), t)) (b : String) :
    t.units b = (s.units b).map fun journal => journal.without id := by
  unfold delete at h
  split at h
  · cases h
  · cases h
    have found := Keyed.find?_map
      (fun units : List Journal => units.map fun journal => journal.without id) b s.journals
    unfold units
    refine (congrArg (fun us => Option.getD us []) found).trans ?_
    cases Keyed.find? b s.journals <;> rfl

theorem tables_delete {s t : Store} {id : Nat} (h : s.delete id = .ok ((), t)) :
    t.tables = s.tables.delete id := by
  unfold delete at h
  split at h <;> cases h
  rfl

theorem row_delete {s t : Store} {id : Nat} (h : s.delete id = .ok ((), t)) (p : Place) :
    t.row p = if p.sessionId = id then none else s.row p := by
  rw [row, tables_delete h, Tables.row_delete]
  rfl

/-! ## What a turn does -/

/-- The rows, the ids given out and the open units of work are the same. -/
structure SameRows (s t : Store) : Prop where
  sessions : t.tables.sessions = s.tables.sessions
  encryptions : t.tables.encryptions = s.tables.encryptions
  lastSession : t.tables.lastSession = s.tables.lastSession
  lastEncryption : t.tables.lastEncryption = s.tables.lastEncryption
  journals : t.journals = s.journals

theorem SameRows.refl (s : Store) : SameRows s s :=
  ⟨rfl, rfl, rfl, rfl, rfl⟩

theorem SameRows.units {s t : Store} (h : SameRows s t) (a : String) : t.units a = s.units a := by
  unfold Store.units
  rw [h.journals]

theorem SameRows.row {s t : Store} (h : SameRows s t) (p : Place) : t.row p = s.row p := by
  unfold Store.row
  cases p with
  | session k => rw [Tables.row, Tables.row, h.sessions]
  | encryption k => rw [Tables.row, Tables.row, h.encryptions]

/-- A turn deletes the session of a place. -/
def Deletes (p : Place) (s : Store) (c : Turn) : Prop :=
  c.op = .delete p.sessionId ∧ s.unavailable = false

instance (p : Place) (s : Store) (c : Turn) : Decidable (Deletes p s c) :=
  inferInstanceAs (Decidable (_ ∧ _))

theorem deletes_iff {s t : Store} {c : Turn} {p : Place} {id : Nat} (op : c.op = .delete id)
    (done : s.delete id = .ok ((), t)) : Deletes p s c ↔ p.sessionId = id := by
  refine ⟨fun h => (Op.delete.inj (op.symm.trans h.1)).symm, fun hp => ⟨hp ▸ op, ?_⟩⟩
  cases hu : s.unavailable with
  | false => rfl
  | true =>
    rw [delete, hu] at done
    cases done

/-- The place of the row that an operation would write. -/
def target? (s : Store) : Op → Option Place
  | .write w => (s.written? w).map fun v => v.1.place
  | _ => none

/-- A turn of a thread writes the row at a place. -/
def Writes (thread : String) (p : Place) (s : Store) (c : Turn) : Prop :=
  c.thread = thread ∧ s.target? c.op = some p

instance (thread : String) (p : Place) (s : Store) (c : Turn) : Decidable (Writes thread p s c) :=
  inferInstanceAs (Decidable (_ ∧ _))

/-- What a turn does, with the store after it. -/
inductive Performed (s : Store) (c : Turn) : Store → Prop
  | idle {t : Store} (same : SameRows s t) (kept : ∀ p, ¬ Deletes p s c) : Performed s c t
  | wrote {w : Write} {undo : Undo} {tables : Tables} (op : c.op = .write w)
      (written : s.written? w = some (undo, tables)) :
      Performed s c ({ s with tables }.record c.thread undo)
  | deleted {id : Nat} {t : Store} (op : c.op = .delete id) (done : s.delete id = .ok ((), t)) :
      Performed s c t
  | began (op : c.op = .begin) : Performed s c (s.begin c.thread)
  | committed (op : c.op = .commit) : Performed s c (s.commit c.thread)
  | rolledBack (op : c.op = .rollback) : Performed s c (s.rollback c.thread)
  | disconnected (op : c.op = .disconnect) : Performed s c s.disconnect

theorem performed (s : Store) (c : Turn) : Performed s c (s.perform c) := by
  obtain ⟨thread, op⟩ := c
  cases op with
  | write w =>
    rw [perform_write]
    cases hw : s.written? w with
    | none => exact .idle (.refl s) fun p h => nomatch h.1
    | some v => exact .wrote rfl hw
  | delete id =>
    show Performed s _ (s.after (s.delete id))
    cases hd : s.delete id with
    | error e =>
      refine .idle (.refl s) fun p h => ?_
      rw [delete, h.2] at hd
      cases hd
    | ok v => exact .deleted rfl hd
  | begin => exact .began rfl
  | commit => exact .committed rfl
  | rollback => exact .rolledBack rfl
  | connect =>
    refine .idle ?_ fun p h => nomatch h.1
    show SameRows s s.connect.2
    dsimp only [connect]
    split <;> exact ⟨rfl, rfl, rfl, rfl, rfl⟩
  | disconnect => exact .disconnected rfl
  | insertUser user => exact .idle ⟨rfl, rfl, rfl, rfl, rfl⟩ fun p h => nomatch h.1
  | setUnavailable unavailable => exact .idle ⟨rfl, rfl, rfl, rfl, rfl⟩ fun p h => nomatch h.1
  | failConnects count => exact .idle ⟨rfl, rfl, rfl, rfl, rfl⟩ fun p h => nomatch h.1

/-- A deletion is refused or it is made. -/
theorem Performed.of_delete {s t : Store} {c : Turn} {id : Nat} (h : Performed s c t)
    (op : c.op = .delete id) :
    SameRows s t ∧ (∀ p, ¬ Deletes p s c) ∨ s.delete id = .ok ((), t) := by
  cases h with
  | idle same kept => exact .inl ⟨same, kept⟩
  | deleted op' done => exact .inr (Op.delete.inj (op.symm.trans op') ▸ done)
  | wrote op' _ => cases op.symm.trans op'
  | began op' => cases op.symm.trans op'
  | committed op' => cases op.symm.trans op'
  | rolledBack op' => cases op.symm.trans op'
  | disconnected op' => cases op.symm.trans op'

end Store

end EventWorker
