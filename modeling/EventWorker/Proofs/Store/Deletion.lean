import EventWorker.Proofs.Store.Admission

/-!
# Deletions are final

Once a session is deleted, no row of it is left and no open unit of work has a record of
one, so that nothing can bring it back: writes go to rows that are there or to ids not
given out yet, and ids are given out in sequence.

Results:
1. `Performed.gone`, `run_gone`: no turn brings back what is gone.
2. `deleted_session_stays_away`: the rows and the id of a deleted session.
-/

namespace EventWorker.Store

variable {s t : Store} {c : Turn} {id : Nat}

/-- Nothing is left of a session that was there once: no row, and no record of one in the
open units of work of any thread. -/
structure Gone (s : Store) (id : Nat) : Prop where
  rows : ∀ p : Place, p.sessionId = id → s.row p = none
  records : ∀ a, ∀ u ∈ (s.units a).flatten, u.sessionId ≠ id
  given_out : id ≤ s.tables.lastSession

/-- A deletion leaves nothing, neither in the tables nor in the journals. -/
theorem gone_of_delete (known : id ≤ s.tables.lastSession) (done : s.delete id = .ok ((), t)) :
    t.Gone id where
  rows p hp := by rw [row_delete done, if_pos hp]
  records a u hu := by
    rw [units_delete done] at hu
    obtain ⟨j, hj, hu⟩ := List.mem_flatten.mp hu
    obtain ⟨journal, -, rfl⟩ := List.mem_map.mp hj
    exact of_decide_eq_true (List.mem_filter.mp hu).2
  given_out := by
    rw [tables_delete done]
    exact known

/-- A write is of no row of a session that is gone. -/
theorem Gone.not_written (gone : s.Gone id) (hs : s.Sound) {w : Write} {undo : Undo}
    {tables : Tables} (written : s.written? w = some (undo, tables)) : undo.sessionId ≠ id := by
  rintro rfl
  rcases (hs.admitted written).target with fresh | ⟨p, hp, held⟩
  · exact absurd gone.given_out (Nat.not_le.mpr fresh)
  · exact held (gone.rows p hp)

theorem Performed.gone (h : Performed s c t) (hs : s.Sound) (gone : s.Gone id) : t.Gone id := by
  cases h with
  | idle same kept =>
    refine ⟨fun p hp => ?_, fun a u hu => ?_, ?_⟩
    · rw [same.row]
      exact gone.rows p hp
    · exact gone.records a u (same.units a ▸ hu)
    · rw [same.lastSession]
      exact gone.given_out
  | @wrote w undo tables op written =>
    have hw : s.tables.Written undo tables := hs.written written
    have other : undo.sessionId ≠ id := gone.not_written hs written
    refine ⟨fun p hp => ?_, fun a u hu => ?_, ?_⟩
    · have hne : p ≠ undo.place := by
        rintro rfl
        exact other (undo.sessionId_place ▸ hp)
      rw [Store.row, tables_record]
      exact (hw.others hne).trans (gone.rows p hp)
    · rw [units_written] at hu
      split at hu
      · rcases mem_recorded hu with rfl | hu
        · exact other
        · exact gone.records _ u hu
      · exact gone.records a u hu
    · rw [tables_record]
      exact Nat.le_trans gone.given_out hw.lastSession_le
  | @deleted id' _ op done =>
    refine ⟨fun p hp => ?_, fun a u hu => ?_, ?_⟩
    · rw [row_delete done]
      split
      · rfl
      · exact gone.rows p hp
    · rw [units_delete done] at hu
      exact gone.records a u (mem_without hu)
    · rw [tables_delete done]
      exact gone.given_out
  | began op =>
    refine ⟨gone.rows, fun a u hu => ?_, gone.given_out⟩
    rw [units_begin] at hu
    split at hu
    · exact gone.records _ u hu
    · exact gone.records a u hu
  | committed op =>
    refine ⟨fun p hp => ?_, fun a u hu => ?_, ?_⟩
    · rw [Store.row, tables_commit]
      exact gone.rows p hp
    · rw [units_commit] at hu
      split at hu
      · rcases flatten_committed (s.units c.thread) with hc | hc
        · rw [hc] at hu
          cases hu
        · exact gone.records _ u (hc ▸ hu)
      · exact gone.records a u hu
    · rw [tables_commit]
      exact gone.given_out
  | rolledBack op =>
    refine ⟨fun p hp => ?_, fun a u hu => ?_, ?_⟩
    · -- What a rollback puts back at a place is the image of one of its records there.
      rw [row_rollback]
      cases hi : Journal.image? (s.innermost c.thread) p with
      | none => exact gone.rows p hp
      | some v =>
        obtain ⟨u, hu, rfl⟩ := Journal.exists_of_image? hi
        exact absurd (u.sessionId_place ▸ hp) (gone.records _ u (mem_innermost hu))
    · rw [units_rollback] at hu
      split at hu
      · exact gone.records _ u (mem_tail hu)
      · exact gone.records a u hu
    · rw [tables_rollback, Journal.lastSession_replay]
      exact gone.given_out
  | disconnected op =>
    refine ⟨gone.rows, fun a u hu => ?_, gone.given_out⟩
    cases hu

theorem run_gone {turns : List Turn} (hs : s.Sound) (gone : s.Gone id) : (s.run turns).Gone id := by
  induction turns generalizing s with
  | nil => exact gone
  | cons c turns ih =>
    have step := performed s c
    exact ih (step.sound hs) (step.gone hs gone)

/-- No session row is filed under the id, or has it, nor is an encryption row filed under it
or has it. -/
theorem Gone.absent (gone : s.Gone id) (hs : s.Sound) :
    (∀ x ∈ s.tables.sessions, x.1 ≠ id ∧ x.2.id ≠ id) ∧
      ∀ x ∈ s.tables.encryptions, x.1 ≠ id ∧ x.2.sessionId ≠ id := by
  refine ⟨fun x hx => ?_, fun x hx => ?_⟩
  · have key : x.1 ≠ id := by
      rintro rfl
      cases (hs.tables.row_of_session hx).symm.trans (gone.rows (.session x.1) rfl)
    exact ⟨key, hs.tables.id_of_session hx ▸ key⟩
  · have key : x.1 ≠ id := by
      rintro rfl
      cases (hs.tables.row_of_encryption hx).symm.trans (gone.rows (.encryption x.1) rfl)
    exact ⟨key, hs.tables.id_of_encryption hx ▸ key⟩

theorem lastSession_createSession {thread value : String} {client n : Nat} {token : Option String}
    {time : Int} (created : s.createSession thread client value token time = .ok (n, t)) :
    n = s.tables.lastSession + 1 ∧ t.tables.lastSession = n := by
  unfold createSession write at created
  split at created
  · cases created
  · split at created
    · next v undo tables made =>
      cases created
      change s.tables.createSession client value token time = _ at made
      unfold Tables.createSession at made
      split at made
      · cases made
      · cases made
        rw [tables_record]
        exact ⟨rfl, rfl⟩
    · cases created

/-- A session that some thread created and that was deleted any time later stays away, in
every continuation of the run: by any threads, with units of work opened before the deletion
or after it. No row of the session is there again, and its id is not given out again. -/
theorem deleted_session_stays_away {s₀ s₁ : Store} (reachable : s₀.Reachable)
    {thread value : String} {client id : Nat} {token : Option String} {time : Int}
    (created : s₀.createSession thread client value token time = .ok (id, s₁))
    (meanwhile : List Turn) {t : Store} (deleted : (s₁.run meanwhile).delete id = .ok ((), t))
    (later : List Turn) :
    let u := t.run later
    (∀ x ∈ u.tables.sessions, x.1 ≠ id ∧ x.2.id ≠ id) ∧
    (∀ x ∈ u.tables.encryptions, x.1 ≠ id ∧ x.2.sessionId ≠ id) ∧
    ∀ thread client value token time n v,
      u.createSession thread client value token time = .ok (n, v) → n ≠ id := by
  intro u
  have sound₁ : s₁.Sound := by
    have step := performed s₀ ⟨thread, .write (.createSession client value token time)⟩
    have hs₁ : s₀.perform ⟨thread, .write (.createSession client value token time)⟩ = s₁ := by
      show s₀.after (s₀.createSession thread client value token time) = s₁
      rw [created]
      rfl
    exact hs₁ ▸ step.sound reachable.sound
  have sound : (s₁.run meanwhile).Sound := run_sound sound₁ meanwhile
  have known : id ≤ (s₁.run meanwhile).tables.lastSession := by
    rw [← (lastSession_createSession created).2]
    exact lastSession_run sound₁ meanwhile
  have sound_t : t.Sound := by
    have step : Performed (s₁.run meanwhile) ⟨thread, .delete id⟩ t := .deleted rfl deleted
    exact step.sound sound
  have gone : u.Gone id := run_gone sound_t (gone_of_delete known deleted)
  obtain ⟨sessions, encryptions⟩ := gone.absent (run_sound sound_t later)
  refine ⟨sessions, encryptions, fun thread client value token time n v again => ?_⟩
  rintro rfl
  have next := (lastSession_createSession again).1
  have given_out := gone.given_out
  omega

/-- A thread adds the first session. -/
def firstSession : Turn :=
  ⟨"first", .write (.createSession 1 "aa01" none 0)⟩

/-- The session is used by two threads in units of work that stay open, the second time in a
nested one that is committed. -/
def usedByTwo : List Turn :=
  [⟨"first", .begin⟩,
    ⟨"first", .write (.updateLastUpdated "aa01" 1000)⟩,
    ⟨"second", .begin⟩,
    ⟨"second", .write (.createEncryption 1 .unencrypted)⟩,
    ⟨"second", .begin⟩,
    ⟨"second", .write (.updateLastUpdated "aa01" 2000)⟩,
    ⟨"second", .commit⟩]

/-- Both units of work are rolled back, and the value is taken by another session. -/
def bothRollBack : List Turn :=
  [⟨"second", .rollback⟩,
    ⟨"first", .rollback⟩,
    ⟨"first", .write (.createSession 2 "aa01" none 4000)⟩]

/-- Neither thread brings back the session that was deleted under its hands. -/
theorem deleted_session_stays_away_rolled_back :
    let used := (({} : Store).perform firstSession).run usedByTwo
    let u := (used.perform ⟨"side", .delete 1⟩).run bothRollBack
    used.tables.encryptions = [(1, ⟨1, 1, .unencrypted⟩)] ∧
    (∀ x ∈ u.tables.sessions, x.1 ≠ 1 ∧ x.2.id ≠ 1) ∧
    (∀ x ∈ u.tables.encryptions, x.1 ≠ 1 ∧ x.2.sessionId ≠ 1) ∧
    u.tables.sessions = [(2, ⟨2, 2, "aa01", none, 4000⟩)] := by
  have created : ({} : Store).createSession "first" 1 "aa01" none 0 =
      .ok (1, ({} : Store).perform firstSession) :=
    rfl
  have gone : ((({} : Store).perform firstSession).run usedByTwo).delete 1 =
      .ok ((), ((({} : Store).perform firstSession).run usedByTwo).perform ⟨"side", .delete 1⟩) :=
    delete_available (by decide) "side" 1
  obtain ⟨sessions, encryptions, -⟩ :=
    deleted_session_stays_away ⟨[], rfl⟩ created usedByTwo gone bothRollBack
  exact ⟨by decide, sessions, encryptions, by decide⟩

end EventWorker.Store
