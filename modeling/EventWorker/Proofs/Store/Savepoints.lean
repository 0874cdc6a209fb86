import EventWorker.Proofs.Store.Runs

/-!
# Savepoints

A unit of work is a savepoint: rolling it back puts every row it wrote back to what the
row was when the unit began, however deep the unit is nested, whatever was committed into
it and rolled back out of it meanwhile. Deletions are final all the same.

What a row would be if all units above a depth were rolled back (`restored`) does not
change with the turns of the thread that has the units. It changes with a deletion, and
with what other threads do to the row.

Results:
1. `Performed.restored`, `restored_run`: the invariant, along one turn and along a run.
2. `rollback_savepoint`: what a rollback puts back and what it leaves alone.
-/

namespace EventWorker.Store

/-! ## The records above a depth -/

/-- The records of the units of work above the outermost `depth` ones, newest first. -/
def above (depth : Nat) : List Journal → Journal
  | [] => []
  | journal :: outer => if depth ≤ outer.length then journal ++ above depth outer else []

theorem above_of_length_le {depth : Nat} {us : List Journal} (h : us.length ≤ depth) :
    above depth us = [] := by
  cases us with
  | nil => rfl
  | cons journal outer =>
    rw [List.length_cons] at h
    exact if_neg (by omega)

theorem above_cons {depth : Nat} (journal : Journal) {outer : List Journal}
    (h : depth ≤ outer.length) : above depth (journal :: outer) = journal ++ above depth outer :=
  if_pos h

theorem above_recorded {depth : Nat} (undo : Undo) {us : List Journal} (h : depth < us.length) :
    above depth (recorded undo us) = undo :: above depth us := by
  cases us with
  | nil => cases h
  | cons journal outer =>
    have hd : depth ≤ outer.length := Nat.lt_succ_iff.mp h
    rw [recorded, above_cons _ hd, above_cons _ hd]
    rfl

/-- Committing a nested unit moves its records and loses none. -/
theorem above_committed {depth : Nat} {us : List Journal} (h : depth < (committed us).length) :
    above depth (committed us) = above depth us := by
  rcases us with _ | ⟨journal, _ | ⟨outer, rest⟩⟩
  · cases h
  · cases h
  · have hd : depth ≤ rest.length := Nat.lt_succ_iff.mp h
    rw [committed, above_cons _ hd, above_cons _ (Nat.le_succ_of_le hd), above_cons _ hd,
      List.append_assoc]

theorem above_tail {depth : Nat} {us : List Journal} (h : depth < us.tail.length) :
    above depth us = us.headD [] ++ above depth us.tail := by
  cases us with
  | nil => cases h
  | cons journal outer => exact above_cons _ (Nat.le_of_lt h)

theorem above_without (depth id : Nat) (us : List Journal) :
    above depth (us.map fun journal => journal.without id) = (above depth us).without id := by
  induction us with
  | nil => rfl
  | cons journal outer ih =>
    rw [List.map_cons, above, above, List.length_map, ih]
    split
    · exact (List.filter_append _ _).symm
    · rfl

/-! ## What rolling back would restore -/

/-- The row at a place if the units of work of a thread above a depth were rolled back. -/
def restored (s : Store) (thread : String) (depth : Nat) (p : Place) : Option Row :=
  (Journal.image? (above depth (s.units thread)) p).getD (s.row p)

variable {s t : Store} {a : String} {c : Turn} {p : Place} {depth : Nat}

theorem restored_of_length_le (h : (s.units a).length ≤ depth) :
    s.restored a depth p = s.row p := by
  rw [restored, above_of_length_le h]
  rfl

theorem above_eq_innermost (h : (s.units a).length = depth + 1) :
    above depth (s.units a) = s.innermost a := by
  rw [innermost]
  cases hu : s.units a with
  | nil =>
    rw [hu] at h
    cases h
  | cons journal outer =>
    rw [hu] at h
    have hd : outer.length = depth := Nat.succ.inj h
    rw [above_cons _ (Nat.le_of_eq hd.symm), above_of_length_le (Nat.le_of_eq hd), List.append_nil]
    rfl

theorem row_rollback_eq_restored (h : (s.units a).length = depth + 1) (p : Place) :
    (s.rollback a).row p = s.restored a depth p := by
  rw [row_rollback, restored, above_eq_innermost h]

theorem restored_begin (h : depth ≤ (s.units a).length) :
    (s.begin a).restored a depth p = s.restored a depth p := by
  rw [restored, units_begin, if_pos rfl, above_cons _ h]
  rfl

theorem restored_commit (h : depth < ((s.commit a).units a).length) :
    (s.commit a).restored a depth p = s.restored a depth p := by
  rw [units_commit, if_pos rfl] at h
  rw [restored, units_commit, if_pos rfl, above_committed h, row, tables_commit]
  rfl

/-- Rolling a nested unit back does first what rolling back all of them does. -/
theorem restored_rollback (h : depth < ((s.rollback a).units a).length) :
    (s.rollback a).restored a depth p = s.restored a depth p := by
  rw [units_rollback, if_pos rfl] at h
  rw [restored, units_rollback, if_pos rfl, row_rollback, restored, above_tail h,
    Journal.image?_append, innermost]
  cases Journal.image? (above depth (s.units a).tail) p <;> rfl

/-- A write is undone by its own record. -/
theorem restored_write (hs : s.Sound) (h : depth < (s.units a).length) {w : Write} {undo : Undo}
    {tables : Tables} (written : s.written? w = some (undo, tables)) :
    ({ s with tables }.record a undo).restored a depth p = s.restored a depth p := by
  have hw : s.tables.Written undo tables := hs.written written
  rw [restored, units_written, if_pos rfl, above_recorded undo h, Journal.image?, row,
    tables_record, restored]
  cases Journal.image? (above depth (s.units a)) p with
  -- An older image goes before that of this write.
  | some v => rfl
  | none =>
    by_cases hp : p = undo.place
    · rw [if_pos hp, hp]
      exact hw.before
    · rw [if_neg hp]
      exact hw.others hp

theorem restored_delete {id : Nat} (done : s.delete id = .ok ((), t)) :
    t.restored a depth p = if p.sessionId = id then none else s.restored a depth p := by
  rw [restored, units_delete done, above_without, Journal.image?_without, row_delete done]
  split <;> rfl

/-- The units of a thread are its own, but for deletions and for disconnecting. -/
theorem Performed.units_of_ne (h : Performed s c t) (ha : a ≠ c.thread)
    (kept : ∀ id, c.op ≠ .delete id) (after : t.units a ≠ []) : t.units a = s.units a := by
  cases h with
  | idle same _ => exact same.units a
  | @wrote w undo tables op written => exact (units_written s tables _ a undo).trans (if_neg ha)
  | @deleted id _ op done => exact absurd op (kept id)
  | began op => exact (units_begin s _ a).trans (if_neg ha)
  | committed op => exact (units_commit s _ a).trans (if_neg ha)
  | rolledBack op => exact (units_rollback s _ a).trans (if_neg ha)
  | disconnected op => exact absurd rfl after

/-- The invariant of savepoints. A deletion makes the row absent; no other turn counts but
what another thread does to the row. -/
theorem Performed.restored (h : Performed s c t) (hs : s.Sound)
    (before : depth < (s.units a).length) (after : depth < (t.units a).length)
    (alone : c.thread ≠ a → ¬ Touches p s c) :
    t.restored a depth p = if Deletes p s c then none else s.restored a depth p := by
  -- A deletion reaches into the units of every thread, so it is set apart before the
  -- threads are.
  by_cases hc : ∃ id, c.op = .delete id
  · obtain ⟨id, op⟩ := hc
    rcases h.of_delete op with ⟨same, kept⟩ | done
    · rw [if_neg (kept p), Store.restored, same.units, same.row, Store.restored]
    · simp only [restored_delete done, deletes_iff op done]
  · have kept : ∀ id, c.op ≠ .delete id := fun id hid => hc ⟨id, hid⟩
    have not_deletes : ¬ Deletes p s c := fun hd => kept _ hd.1
    rw [if_neg not_deletes]
    by_cases ha : a = c.thread
    · subst ha
      cases h with
      | idle same _ => rw [Store.restored, same.units, same.row, Store.restored]
      | wrote op written => exact restored_write hs before written
      | deleted op done => exact absurd op (kept _)
      | began op => exact restored_begin (Nat.le_of_lt before)
      | committed op => exact restored_commit after
      | rolledBack op => exact restored_rollback after
      | disconnected op => cases after
    · have units : t.units a = s.units a :=
        h.units_of_ne ha kept fun hn => by rw [hn] at after; cases after
      have row : t.row p = s.row p := h.row hs (alone (Ne.symm ha)) not_deletes
      rw [Store.restored, units, row, Store.restored]

theorem restored_run {turns : List Turn} (hs : s.Sound) (opened : depth < (s.units a).length)
    (throughout : Throughout (fun s c => depth < ((s.perform c).units a).length) s turns)
    (alone : Throughout (fun s c => c.thread ≠ a → ¬ Touches p s c) s turns) :
    (s.run turns).restored a depth p =
      if Sometime (Deletes p) s turns then none else s.restored a depth p := by
  induction turns generalizing s with
  | nil => rfl
  | cons c turns ih =>
    obtain ⟨after, throughout⟩ := throughout
    obtain ⟨now, alone⟩ := alone
    have step := (performed s c).restored hs opened after now
    rw [run_cons, ih ((performed s c).sound hs) after throughout alone, step]
    by_cases hd : Deletes p s c
    · simp [Sometime, hd]
    · simp [Sometime, hd]

/-! ## Where images come from -/

/-- A turn of a thread writes the row at a place, which was `v`. -/
def WritesOver (thread : String) (p : Place) (v : Option Row) (s : Store) (c : Turn) : Prop :=
  Writes thread p s c ∧ v = s.row p

/-- A turn gives the units above a depth no other image than that of the row the thread
writes. -/
theorem Performed.image? (h : Performed s c t) (hs : s.Sound) {v : Option Row}
    (hv : Journal.image? (above depth (t.units a)) p = some v) :
    Journal.image? (above depth (s.units a)) p = some v ∨ WritesOver a p v s c := by
  have after : depth < (t.units a).length := by
    refine Nat.lt_of_not_le fun hle => ?_
    rw [above_of_length_le hle] at hv
    cases hv
  by_cases hc : ∃ id, c.op = .delete id
  · obtain ⟨id, op⟩ := hc
    rcases h.of_delete op with ⟨same, -⟩ | done
    · exact .inl (same.units a ▸ hv)
    · rw [units_delete done, above_without, Journal.image?_without] at hv
      split at hv
      · cases hv
      · exact .inl hv
  · have kept : ∀ id, c.op ≠ .delete id := fun id hid => hc ⟨id, hid⟩
    by_cases ha : a = c.thread
    · subst ha
      cases h with
      | idle same _ => exact .inl (same.units c.thread ▸ hv)
      | deleted op done => exact absurd op (kept _)
      | @wrote w undo tables op written =>
        rw [units_written, if_pos rfl] at hv after
        rw [above_recorded undo (length_recorded undo _ ▸ after), Journal.image?] at hv
        have hw : s.tables.Written undo tables := hs.written written
        cases older : Journal.image? (above depth (s.units c.thread)) p with
        | some w =>
          rw [older] at hv
          exact .inl hv
        | none =>
          rw [older, Option.none_or] at hv
          split at hv
          · next hp =>
            -- The first image of the row, which is the row as this write found it.
            refine .inr ⟨⟨rfl, by rw [op, target?, written, hp]; rfl⟩, ?_⟩
            rw [← Option.some.inj hv, hw.before, hp, Store.row]
          · cases hv
      | began op =>
        rw [units_begin, if_pos rfl] at hv after
        rw [above_cons _ (Nat.lt_succ_iff.mp after)] at hv
        exact .inl hv
      | committed op =>
        rw [units_commit, if_pos rfl] at hv after
        exact .inl (above_committed after ▸ hv)
      | rolledBack op =>
        -- Records are only lost here, and those left are older.
        rw [units_rollback, if_pos rfl] at hv after
        rw [above_tail after, Journal.image?_append, hv]
        exact .inl rfl
      | disconnected op => cases after
    · rw [h.units_of_ne ha kept fun hn => by rw [hn] at after; cases after] at hv
      exact .inl hv

theorem image?_run {turns : List Turn} (hs : s.Sound) {v : Option Row}
    (hv : Journal.image? (above depth ((s.run turns).units a)) p = some v) :
    Journal.image? (above depth (s.units a)) p = some v ∨ Sometime (WritesOver a p v) s turns := by
  induction turns generalizing s with
  | nil => exact .inl hv
  | cons c turns ih =>
    have step := performed s c
    rcases ih (step.sound hs) hv with hi | hw
    · exact (step.image? hs hi).imp_right .inl
    · exact .inr (.inr hw)

/-! ## Rolling a unit back -/

/-- A unit of work that a thread begins at `start` is open all through the turns `during`,
and is the innermost one after them. -/
structure Savepoint (start : Store) (thread : String) (during : List Turn) : Prop where
  stays_open : Throughout
    (fun s c => (start.units thread).length < ((s.perform c).units thread).length)
    (start.begin thread) during
  innermost : (((start.begin thread).run during).units thread).length =
    (start.units thread).length + 1

/-- Rolling a unit of work back. A row that the unit wrote, and that no other thread touched
meanwhile, is as it was when the unit began, or absent if its session was deleted. The other
rows, those the unit has no record of left among them, the ids given out and the units of
work of other threads stay as they are. -/
theorem rollback_savepoint {start : Store} (reachable : start.Reachable) {a : String}
    {during : List Turn} (unit : Savepoint start a during) :
    let opened := start.begin a
    let s := opened.run during
    (∀ p, (Sometime (Writes a p) opened during →
        Throughout (fun s c => c.thread ≠ a → ¬ Touches p s c) opened during) →
      (s.rollback a).row p =
        if Sometime (Writes a p) opened during then
          if Sometime (Deletes p) opened during then none else start.row p
        else s.row p) ∧
    (∀ p, Journal.image? (s.innermost a) p = none → (s.rollback a).row p = s.row p) ∧
    (s.rollback a).tables.lastSession = s.tables.lastSession ∧
    (s.rollback a).tables.lastEncryption = s.tables.lastEncryption ∧
    ∀ b, b ≠ a → (s.rollback a).units b = s.units b := by
  intro opened s
  have sound : start.Sound := reachable.sound
  have opened_sound : opened.Sound := (performed start ⟨a, .begin⟩).sound sound
  have opened_length : (opened.units a).length = (start.units a).length + 1 := by
    rw [units_begin, if_pos rfl, List.length_cons]
  refine ⟨fun p alone => ?_, fun p hp => ?_, ?_, ?_, fun b hb => ?_⟩
  · split
    · next hw =>
      have opened_lt : (start.units a).length < (opened.units a).length := by omega
      rw [row_rollback_eq_restored unit.innermost,
        restored_run opened_sound opened_lt unit.stays_open (alone hw),
        restored_begin (Nat.le_refl _), restored_of_length_le (Nat.le_refl _)]
    · next hw =>
      -- A row that was not written has no image, or it would come from a write.
      rw [row_rollback_eq_restored unit.innermost, restored]
      cases hi : Journal.image? (above (start.units a).length (s.units a)) p with
      | none => rfl
      | some v =>
        rcases image?_run opened_sound hi with h | h
        · rw [units_begin, if_pos rfl, above_cons _ (Nat.le_refl _),
            above_of_length_le (Nat.le_refl _)] at h
          cases h
        · exact absurd (h.mono fun _ _ => And.left) hw
  · rw [row_rollback, hp]
    rfl
  · rw [tables_rollback, Journal.lastSession_replay]
  · rw [tables_rollback, Journal.lastEncryption_replay]
  · rw [units_rollback, if_neg hb]

/-- Two sessions and an open unit of work, in which the next one is nested. -/
def twoSessions : List Turn :=
  [⟨"main", .write (.createSession 1 "aa01" none 0)⟩,
    ⟨"main", .write (.createSession 1 "aa02" none 0)⟩,
    ⟨"main", .begin⟩]

/-- Both sessions are used, the first one once more in a unit of its own, while another
thread adds a session and deletes the second one. -/
def nestedUses : List Turn :=
  [⟨"main", .write (.updateLastUpdated "aa01" 1000)⟩,
    ⟨"main", .begin⟩,
    ⟨"main", .write (.updateLastUpdated "aa01" 2000)⟩,
    ⟨"main", .commit⟩,
    ⟨"side", .write (.createSession 2 "bb01" none 2500)⟩,
    ⟨"main", .write (.updateLastUpdated "aa02" 3000)⟩,
    ⟨"side", .delete 2⟩]

theorem rollback_savepoint_nested :
    let s := ((({} : Store).run twoSessions).begin "main").run nestedUses
    (s.rollback "main").row (.session 1) = some (.session ⟨1, 1, "aa01", none, 0⟩) ∧
    (s.rollback "main").row (.session 2) = none ∧
    (s.rollback "main").row (.session 3) = s.row (.session 3) := by
  have unit : Savepoint (({} : Store).run twoSessions) "main" nestedUses :=
    ⟨by decide, by decide⟩
  obtain ⟨rows, -⟩ := rollback_savepoint ⟨twoSessions, rfl⟩ unit
  refine ⟨?_, ?_, ?_⟩
  · exact (rows (.session 1) fun _ => by decide).trans (by decide)
  · exact (rows (.session 2) fun _ => by decide).trans (by decide)
  · exact (rows (.session 3) fun written => absurd written (by decide)).trans (by decide)

end EventWorker.Store
