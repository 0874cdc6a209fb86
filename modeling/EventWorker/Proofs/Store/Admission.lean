import EventWorker.Proofs.Store.Runs

/-!
# What writes are admitted

A session is added under the next id if no other has its value, an encryption row goes to a
session that is there, and all other writes change a row that is there. The value of a
session never changes.

Results:
1. `Write.apply_admitted`: the four writes, each with what it requires.
2. `Admitted.target`, `Admitted.value`, `Admitted.backed`: what they have in common.
-/

namespace EventWorker

/-- The value of a session row. -/
def Row.value? : Row → Option String
  | .session row => some row.value
  | .encryption _ => none

/-- A write that the tables admit, with its record and the tables after it. -/
inductive Tables.Admitted (t : Tables) : Undo → Tables → Prop
  | sessionCreated (row : Session) (next : row.id = t.lastSession + 1)
      (free : t.sessionByValue? row.value = none) :
      Admitted t (.session row.id none)
        { t with sessions := Keyed.insert row.id row t.sessions, lastSession := row.id }
  | sessionUsed (row : Session) (time : Int) (held : Keyed.find? row.id t.sessions = some row) :
      Admitted t (.session row.id (some row))
        { t with sessions := Keyed.insert row.id { row with lastUpdated := time } t.sessions }
  | encryptionCreated (row : Encryption) (s : Session)
      (held : Keyed.find? row.sessionId t.sessions = some s) :
      Admitted t (.encryption row.sessionId (Keyed.find? row.sessionId t.encryptions))
        { t with encryptions := Keyed.insert row.sessionId row t.encryptions
                 lastEncryption := row.id }
  | encryptionChanged (row before : Encryption)
      (held : Keyed.find? row.sessionId t.encryptions = some before) :
      Admitted t (.encryption row.sessionId (some before))
        { t with encryptions := Keyed.insert row.sessionId row t.encryptions }

theorem Write.apply_admitted {t u : Tables} {w : Write} {undo : Undo} (ht : t.Sound)
    (h : w.apply t = .ok (undo, u)) : t.Admitted undo u := by
  cases w with
  | createSession client value token time =>
    simp only [Write.apply, Tables.createSession] at h
    split at h
    · cases h
    · next free =>
      cases h
      exact .sessionCreated
        { id := t.lastSession + 1, client, value, token, lastUpdated := time } rfl free
  | createEncryption sessionId state =>
    simp only [Write.apply, Tables.createEncryption] at h
    split at h
    · next held =>
      cases h
      obtain ⟨s, hs⟩ := Option.isSome_iff_exists.mp held
      exact .encryptionCreated { id := t.lastEncryption + 1, sessionId, state } s hs
    · cases h
  | updateLastUpdated value time =>
    simp only [Write.apply, Tables.updateLastUpdated] at h
    split at h
    · cases h
    · next s hs =>
      cases h
      exact .sessionUsed s time (ht.find?_of_sessionByValue? hs)
  | updateEncryption sessionId state =>
    simp only [Write.apply, Tables.updateEncryption] at h
    split at h
    · cases h
    · next e held =>
      cases h
      exact .encryptionChanged { e with sessionId, state } e held

namespace Tables

variable {t u : Tables} {undo : Undo}

/-- The value of the session with an id. -/
def valueAt? (t : Tables) (id : Nat) : Option String :=
  (t.row (.session id)).bind Row.value?

theorem valueAt?_eq (t : Tables) (id : Nat) :
    t.valueAt? id = (Keyed.find? id t.sessions).map Session.value := by
  rw [valueAt?, row]
  cases Keyed.find? id t.sessions <;> rfl

theorem Sound.known_of_valueAt? (ht : t.Sound) {id : Nat} {value : String}
    (h : t.valueAt? id = some value) : id ≤ t.lastSession := by
  rw [valueAt?_eq] at h
  obtain ⟨s, hs, -⟩ := Option.map_eq_some_iff.mp h
  exact ht.known_of_session hs

/-- No session has a value that is not found. -/
theorem valueAt?_ne_of_free {value : String} (free : t.sessionByValue? value = none) (id : Nat) :
    t.valueAt? id ≠ some value := by
  intro h
  rw [valueAt?_eq] at h
  obtain ⟨s, hs, rfl⟩ := Option.map_eq_some_iff.mp h
  have notFound := List.find?_eq_none.mp (Option.map_eq_none_iff.mp free)
  exact notFound _ (Keyed.mem_of_find? hs) (decide_eq_true rfl)

namespace Admitted

/-- A write is of a session under an id not given out yet, or of one that has a row. -/
theorem target (h : t.Admitted undo u) :
    t.lastSession < undo.sessionId ∨
      ∃ p : Place, p.sessionId = undo.sessionId ∧ t.row p ≠ none := by
  cases h with
  | sessionCreated row next free => exact .inl (Nat.lt_of_lt_of_eq (Nat.lt_succ_self _) next.symm)
  | sessionUsed row time held =>
    refine .inr ⟨.session row.id, rfl, ?_⟩
    rw [Tables.row, held]
    exact Option.some_ne_none _
  | encryptionCreated row s held =>
    refine .inr ⟨.session row.sessionId, rfl, ?_⟩
    rw [Tables.row, held]
    exact Option.some_ne_none _
  | encryptionChanged row before held =>
    refine .inr ⟨.encryption row.sessionId, rfl, ?_⟩
    rw [Tables.row, held]
    exact Option.some_ne_none _

/-- A write changes the value of no session. It may add a session, with a value that no other
has. -/
theorem value (h : t.Admitted undo u) (id : Nat) :
    u.valueAt? id = t.valueAt? id ∨
      id = t.lastSession + 1 ∧ ∃ value, u.valueAt? id = some value ∧
        t.sessionByValue? value = none := by
  cases h with
  | sessionCreated row next free =>
    rw [valueAt?_eq, valueAt?_eq, Keyed.find?_insert]
    split
    · next hid => exact .inr ⟨hid.trans next, row.value, rfl, free⟩
    · exact .inl rfl
  | sessionUsed row time held =>
    rw [valueAt?_eq, valueAt?_eq, Keyed.find?_insert]
    split
    · next hid =>
      subst hid
      rw [held]
      exact .inl rfl
    · exact .inl rfl
  | encryptionCreated row s held => exact .inl rfl
  | encryptionChanged row before held => exact .inl rfl

/-- A write adds an encryption row only to a session that is there. -/
theorem backed (h : t.Admitted undo u) (id : Nat) :
    u.row (.encryption id) ≠ none → t.row (.encryption id) ≠ none ∨ t.valueAt? id ≠ none := by
  intro hu
  cases h with
  | sessionCreated row next free => exact .inl hu
  | sessionUsed row time held => exact .inl hu
  | encryptionCreated row s held =>
    by_cases hid : id = row.sessionId
    · subst hid
      rw [valueAt?_eq, held]
      exact .inr (Option.some_ne_none _)
    · rw [Tables.row, Keyed.find?_insert, if_neg hid] at hu
      exact .inl hu
  | encryptionChanged row before held =>
    by_cases hid : id = row.sessionId
    · subst hid
      rw [Tables.row, held]
      exact .inl (Option.some_ne_none _)
    · rw [Tables.row, Keyed.find?_insert, if_neg hid] at hu
      exact .inl hu

end Admitted

end Tables

namespace Store

variable {s t : Store} {c : Turn}

theorem Sound.admitted (hs : s.Sound) {w : Write} {undo : Undo} {tables : Tables}
    (h : s.written? w = some (undo, tables)) : s.tables.Admitted undo tables := by
  unfold written? at h
  split at h
  · cases h
  · cases hw : w.apply s.tables with
    | error e =>
      rw [hw] at h
      cases h
    | ok v =>
      rw [hw] at h
      cases h
      exact Write.apply_admitted hs.tables hw

/-- Ids are not given back. -/
theorem Performed.lastSession_le (h : Performed s c t) (hs : s.Sound) :
    s.tables.lastSession ≤ t.tables.lastSession := by
  cases h with
  | idle same kept => exact Nat.le_of_eq same.lastSession.symm
  | wrote op written =>
    rw [tables_record]
    exact (hs.written written).lastSession_le
  | deleted op done =>
    rw [tables_delete done]
    exact Nat.le_refl _
  | began op => exact Nat.le_refl _
  | committed op => exact Nat.le_of_eq (congrArg Tables.lastSession (tables_commit s _)).symm
  | rolledBack op =>
    have same := Journal.lastSession_replay (s.innermost c.thread) s.tables
    exact Nat.le_of_eq (same.symm.trans (congrArg Tables.lastSession (tables_rollback s _).symm))
  | disconnected op => exact Nat.le_refl _

theorem lastSession_run (hs : s.Sound) (turns : List Turn) :
    s.tables.lastSession ≤ (s.run turns).tables.lastSession := by
  induction turns generalizing s with
  | nil => exact Nat.le_refl _
  | cons c turns ih =>
    have step := performed s c
    exact Nat.le_trans (step.lastSession_le hs) (ih (step.sound hs))

end Store

end EventWorker
