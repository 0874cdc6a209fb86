import EventWorker.Proofs.Store.Savepoints

/-!
# Units of work of writes and deletions

A thread that has no unit of work open opens one, writes and deletes, and rolls it back. Of
all it did only the deletions are left.

Results:
1. `rollback_edits`: the rows after the rollback.
2. `rollback_writes`, `rollback_writes_delete`: the tables after it, when nothing was deleted
   and when a session was deleted at last.
-/

namespace EventWorker

/-- The turns of a thread that make the given writes. -/
def Write.turns (thread : String) (ws : List Write) : List Turn :=
  ws.map fun w => { thread, op := .write w }

theorem Write.turns_append (thread : String) (xs ys : List Write) :
    Write.turns thread (xs ++ ys) = Write.turns thread xs ++ Write.turns thread ys :=
  List.map_append

namespace Store

variable {s t : Store} {a : String} {c : Turn} {turns : List Turn}

/-- A turn of a thread that writes or deletes. -/
def Edits (thread : String) (c : Turn) : Prop :=
  c.thread = thread ∧ ((∃ w, c.op = .write w) ∨ ∃ id, c.op = .delete id)

theorem unavailable_delete {id : Nat} (done : s.delete id = .ok ((), t)) :
    t.unavailable = s.unavailable := by
  unfold delete at done
  split at done <;> cases done
  rfl

/-- An edit opens and closes no unit of work, and leaves users and availability alone. -/
theorem perform_edit (hs : s.Sound) (hc : Edits a c) :
    ((s.perform c).units a).length = (s.units a).length ∧
      (s.perform c).tables.users = s.tables.users ∧
      (s.perform c).unavailable = s.unavailable := by
  obtain ⟨thread, op⟩ := c
  obtain ⟨rfl, ⟨w, rfl⟩ | ⟨id, rfl⟩⟩ := hc
  · rw [perform_write]
    cases hw : s.written? w with
    | none => exact ⟨rfl, rfl, rfl⟩
    | some v =>
      obtain ⟨undo, tables⟩ := v
      refine ⟨?_, ?_, unavailable_record _ _ _⟩
      · rw [units_written, if_pos rfl, length_recorded]
      · rw [tables_record]
        exact (hs.written hw).users
  · show ((s.after (s.delete id)).units thread).length = _ ∧
      (s.after (s.delete id)).tables.users = _ ∧ (s.after (s.delete id)).unavailable = _
    cases done : s.delete id with
    | error e => exact ⟨rfl, rfl, rfl⟩
    | ok v =>
      refine ⟨?_, ?_, unavailable_delete done⟩
      · rw [after, units_delete done, List.length_map]
      · rw [after, tables_delete done]
        rfl

theorem run_edits (hs : s.Sound) (edits : ∀ c ∈ turns, Edits a c) :
    ((s.run turns).units a).length = (s.units a).length ∧
      (s.run turns).tables.users = s.tables.users ∧
      (s.run turns).unavailable = s.unavailable := by
  induction turns generalizing s with
  | nil => exact ⟨rfl, rfl, rfl⟩
  | cons c turns ih =>
    obtain ⟨length, users, unavailable⟩ := perform_edit hs (edits c List.mem_cons_self)
    obtain ⟨length', users', unavailable'⟩ :=
      ih ((performed s c).sound hs) fun d hd => edits d (List.mem_cons_of_mem _ hd)
    exact ⟨length'.trans length, users'.trans users, unavailable'.trans unavailable⟩

theorem throughout_edits {depth : Nat} (hs : s.Sound) (edits : ∀ c ∈ turns, Edits a c)
    (opened : depth < (s.units a).length) :
    Throughout (fun s c => depth < ((s.perform c).units a).length) s turns := by
  induction turns generalizing s with
  | nil => trivial
  | cons c turns ih =>
    have after : depth < ((s.perform c).units a).length := by
      rw [(perform_edit hs (edits c List.mem_cons_self)).1]
      exact opened
    exact ⟨after, ih ((performed s c).sound hs) (fun d hd => edits d (List.mem_cons_of_mem _ hd))
      after⟩

theorem alone_edits {p : Place} (edits : ∀ c ∈ turns, Edits a c) :
    Throughout (fun s c => c.thread ≠ a → ¬ Touches p s c) s turns := by
  induction turns generalizing s with
  | nil => trivial
  | cons c turns ih =>
    exact ⟨fun hc => absurd (edits c List.mem_cons_self).1 hc,
      ih fun d hd => edits d (List.mem_cons_of_mem _ hd)⟩

/-- A unit of edits rolled back: the rows are as before it, those deleted in it are gone. -/
theorem rollback_edits (hs : s.Sound) (idle : s.units a = []) (edits : ∀ c ∈ turns, Edits a c) :
    let t := ((s.begin a).run turns).rollback a
    t.Sound ∧ t.units a = [] ∧ t.tables.users = s.tables.users ∧
      ∀ p, t.row p = if Sometime (Deletes p) (s.begin a) turns then none else s.row p := by
  intro t
  have begin_sound : (s.begin a).Sound := (performed s ⟨a, .begin⟩).sound hs
  have run_sound : ((s.begin a).run turns).Sound := run_sound begin_sound turns
  have begun : ((s.begin a).units a).length = 0 + 1 := by
    rw [units_begin, if_pos rfl, idle]
    rfl
  obtain ⟨length, users, -⟩ := run_edits begin_sound edits
  rw [begun] at length
  refine ⟨(performed _ ⟨a, .rollback⟩).sound run_sound, ?_, ?_, fun p => ?_⟩
  · rw [units_rollback, if_pos rfl]
    exact List.length_eq_zero_iff.mp ((List.length_tail ..).trans (by rw [length]))
  · rw [tables_rollback, Journal.users_replay, users]
    rfl
  · have opened : 0 < ((s.begin a).units a).length := Nat.lt_of_lt_of_eq Nat.zero_lt_one begun.symm
    -- No unit was open, so rolling this one back restores the rows there were.
    rw [row_rollback_eq_restored length, restored_run begin_sound opened
      (throughout_edits begin_sound edits opened) (alone_edits edits),
      restored_begin (Nat.zero_le _), restored_of_length_le (by rw [idle]; exact Nat.le_refl _)]

theorem edits_turns (a : String) (ws : List Write) : ∀ c ∈ Write.turns a ws, Edits a c := by
  intro c hc
  obtain ⟨w, -, rfl⟩ := List.mem_map.mp hc
  exact ⟨rfl, .inl ⟨w, rfl⟩⟩

theorem not_deletes_turns (p : Place) (s : Store) (a : String) (ws : List Write) :
    ¬ Sometime (Deletes p) s (Write.turns a ws) := by
  induction ws generalizing s with
  | nil => exact id
  | cons w ws ih =>
    rintro (h | h)
    · cases h.1
    · exact ih _ h

/-- A unit of writes rolled back leaves nothing. -/
theorem rollback_writes (hs : s.Sound) (idle : s.units a = []) (ws : List Write) :
    let t := ((s.begin a).run (Write.turns a ws)).rollback a
    t.units a = [] ∧ t.tables.users = s.tables.users ∧
      t.tables.sessions = s.tables.sessions ∧ t.tables.encryptions = s.tables.encryptions := by
  intro t
  obtain ⟨sound, units, users, rows⟩ := rollback_edits hs idle (edits_turns a ws)
  refine ⟨units, users, sound.tables.ext_rows hs.tables fun p => ?_⟩
  exact (rows p).trans (if_neg (not_deletes_turns p _ a ws))

/-- A unit of writes that ends with a deletion: rolled back, it leaves the deletion. -/
theorem rollback_writes_delete (hs : s.Sound) (idle : s.units a = []) (ws : List Write) (id : Nat)
    (available : ((s.begin a).run (Write.turns a ws)).unavailable = false) :
    let t := ((s.begin a).run (Write.turns a ws ++ [⟨a, .delete id⟩])).rollback a
    t.units a = [] ∧ t.tables.users = s.tables.users ∧
      t.tables.sessions = Keyed.erase id s.tables.sessions ∧
      t.tables.encryptions = Keyed.erase id s.tables.encryptions := by
  intro t
  have edits : ∀ c ∈ Write.turns a ws ++ [⟨a, .delete id⟩], Edits a c := by
    intro c hc
    rcases List.mem_append.mp hc with hc | hc
    · exact edits_turns a ws c hc
    · rw [List.mem_singleton.mp hc]
      exact ⟨rfl, .inr ⟨id, rfl⟩⟩
  obtain ⟨sound, units, users, rows⟩ := rollback_edits hs idle edits
  refine ⟨units, users, sound.tables.ext_rows (hs.tables.delete id) fun p => ?_⟩
  have deleted : Sometime (Deletes p) (s.begin a) (Write.turns a ws ++ [⟨a, .delete id⟩]) ↔
      p.sessionId = id := by
    rw [sometime_append, or_iff_right (not_deletes_turns p _ a ws)]
    exact (or_iff_left fun h => h).trans (deletes_iff rfl (delete_available available a id))
  have rowp := rows p
  simp only [deleted] at rowp
  exact rowp.trans (Tables.row_delete _ _ _).symm

end Store

end EventWorker
