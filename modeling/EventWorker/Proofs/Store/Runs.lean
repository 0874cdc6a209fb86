import EventWorker.Proofs.Store.Operations

/-!
# Runs of a store

What every turn keeps, and so every run.

Results:
1. `Store.Performed.sound`, `Store.run_sound`: turns keep the tables sound, and with them
   what the open units of work may put back.
2. `Store.Performed.row`: a row that is neither touched nor deleted stays.
-/

namespace EventWorker.Store

/-! ## Soundness -/

theorem mem_recorded {undo u : Undo} {us : List Journal} (h : u ∈ (recorded undo us).flatten) :
    u = undo ∨ u ∈ us.flatten := by
  cases us with
  | nil => exact .inr h
  | cons journal outer => exact List.mem_cons.mp h

theorem flatten_committed (us : List Journal) :
    (committed us).flatten = [] ∨ (committed us).flatten = us.flatten := by
  rcases us with _ | ⟨journal, _ | ⟨outer, rest⟩⟩
  · exact .inl rfl
  · exact .inl rfl
  · exact .inr (List.append_assoc _ _ _)

theorem mem_without {id : Nat} {u : Undo} {us : List Journal}
    (h : u ∈ (us.map fun journal => journal.without id).flatten) : u ∈ us.flatten := by
  obtain ⟨j, hj, hu⟩ := List.mem_flatten.mp h
  obtain ⟨journal, hjournal, rfl⟩ := List.mem_map.mp hj
  exact List.mem_flatten.mpr ⟨journal, hjournal, (List.mem_filter.mp hu).1⟩

theorem mem_tail {u : Undo} {us : List Journal} (h : u ∈ us.tail.flatten) : u ∈ us.flatten := by
  cases us with
  | nil => exact h
  | cons journal outer => exact List.mem_append_right _ h

theorem mem_innermost {s : Store} {a : String} {u : Undo} (h : u ∈ s.innermost a) :
    u ∈ (s.units a).flatten := by
  unfold innermost at h
  cases hs : s.units a with
  | nil =>
    rw [hs] at h
    cases h
  | cons journal outer =>
    rw [hs] at h
    exact List.mem_append_left _ h

/-- The tables are sound and so is what may be put back into them. -/
structure Sound (s : Store) : Prop where
  tables : s.tables.Sound
  journals : ∀ thread, ∀ u ∈ (s.units thread).flatten, u.Filed s.tables.lastSession

theorem Sound.empty : Sound {} :=
  ⟨.empty, fun _ _ h => nomatch h⟩

theorem Sound.written {s : Store} (hs : s.Sound) {w : Write} {undo : Undo} {tables : Tables}
    (h : s.written? w = some (undo, tables)) : s.tables.Written undo tables := by
  unfold written? at h
  split at h
  · cases h
  · cases hw : w.apply s.tables with
    | error e =>
      rw [hw] at h
      cases h
    | ok v =>
      rw [hw] at h
      cases h
      exact Write.apply_written hs.tables hw

theorem Performed.sound {s t : Store} {c : Turn} (h : Performed s c t) (hs : s.Sound) :
    t.Sound := by
  cases h with
  | idle same kept =>
    refine ⟨⟨?_, ?_, fun p r hr => ?_⟩, fun a u hu => ?_⟩
    · exact same.sessions ▸ hs.tables.sessions
    · exact same.encryptions ▸ hs.tables.encryptions
    · rw [same.lastSession]
      exact hs.tables.filed p r ((same.row p).symm.trans hr)
    · rw [same.lastSession]
      exact hs.journals a u (same.units a ▸ hu)
  | @wrote w undo tables op written =>
    have hw : s.tables.Written undo tables := hs.written written
    refine ⟨?_, fun a u hu => ?_⟩
    · rw [tables_record]
      exact hw.sound hs.tables
    · rw [tables_record]
      rw [units_written] at hu
      have older {b : String} (hu : u ∈ (s.units b).flatten) : u.Filed tables.lastSession :=
        (hs.journals b u hu).mono hw.lastSession_le
      split at hu
      · rcases mem_recorded hu with rfl | hu
        · exact ⟨hw.known, fun r hr => (hs.tables.filed _ r (hw.before ▸ hr)).1⟩
        · exact older hu
      · exact older hu
  | @deleted id t op done =>
    refine ⟨?_, fun a u hu => ?_⟩
    · rw [tables_delete done]
      exact hs.tables.delete id
    · rw [units_delete done] at hu
      rw [tables_delete done]
      exact hs.journals a u (mem_without hu)
  | began op =>
    refine ⟨hs.tables, fun a u hu => ?_⟩
    rw [units_begin] at hu
    split at hu
    · exact hs.journals _ u hu
    · exact hs.journals a u hu
  | committed op =>
    -- The records go to the unit outside, or are dropped with the outermost one.
    refine ⟨?_, fun a u hu => ?_⟩
    · rw [tables_commit]
      exact hs.tables
    · rw [tables_commit]
      rw [units_commit] at hu
      split at hu
      · rcases flatten_committed (s.units c.thread) with hc | hc
        · rw [hc] at hu
          cases hu
        · exact hs.journals _ u (hc ▸ hu)
      · exact hs.journals a u hu
  | rolledBack op =>
    refine ⟨?_, fun a u hu => ?_⟩
    · rw [tables_rollback]
      exact Journal.replay_sound hs.tables fun u hu => hs.journals c.thread u (mem_innermost hu)
    · rw [tables_rollback, Journal.lastSession_replay]
      rw [units_rollback] at hu
      split at hu
      · exact hs.journals _ u (mem_tail hu)
      · exact hs.journals a u hu
  | disconnected op => exact ⟨hs.tables, fun a u hu => nomatch hu⟩

theorem run_sound {s : Store} (hs : s.Sound) (turns : List Turn) : (s.run turns).Sound := by
  induction turns generalizing s with
  | nil => exact hs
  | cons c turns ih => exact ih ((performed s c).sound hs)

theorem Reachable.sound {s : Store} (h : s.Reachable) : s.Sound := by
  obtain ⟨turns, rfl⟩ := h
  exact run_sound .empty turns

/-! ## What happens along a run -/

/-- Every turn of a run has a property at the store it finds. -/
def Throughout (P : Store → Turn → Prop) : Store → List Turn → Prop
  | _, [] => True
  | s, c :: turns => P s c ∧ Throughout P (s.perform c) turns

/-- Some turn of a run has a property at the store it finds. -/
def Sometime (P : Store → Turn → Prop) : Store → List Turn → Prop
  | _, [] => False
  | s, c :: turns => P s c ∨ Sometime P (s.perform c) turns

theorem sometime_append {P : Store → Turn → Prop} {s : Store} {xs ys : List Turn} :
    Sometime P s (xs ++ ys) ↔ Sometime P s xs ∨ Sometime P (s.run xs) ys := by
  induction xs generalizing s with
  | nil => exact (or_iff_right id).symm
  | cons c xs ih =>
    rw [List.cons_append, Sometime, ih, Sometime, or_assoc]
    rfl

theorem Sometime.mono {P Q : Store → Turn → Prop} (hPQ : ∀ s c, P s c → Q s c) {s : Store}
    {turns : List Turn} (h : Sometime P s turns) : Sometime Q s turns := by
  induction turns generalizing s with
  | nil => exact h
  | cons c turns ih => exact Or.imp (hPQ s c) ih h

instance Throughout.decidable {P : Store → Turn → Prop} [∀ s c, Decidable (P s c)] :
    ∀ s turns, Decidable (Throughout P s turns)
  | _, [] => inferInstanceAs (Decidable True)
  | s, c :: turns =>
    have : Decidable (Throughout P (s.perform c) turns) := Throughout.decidable (s.perform c) turns
    inferInstanceAs (Decidable (P s c ∧ _))

instance Sometime.decidable {P : Store → Turn → Prop} [∀ s c, Decidable (P s c)] :
    ∀ s turns, Decidable (Sometime P s turns)
  | _, [] => inferInstanceAs (Decidable False)
  | s, c :: turns =>
    have : Decidable (Sometime P (s.perform c) turns) := Sometime.decidable (s.perform c) turns
    inferInstanceAs (Decidable (P s c ∨ _))

/-- A turn writes the row at a place or puts it back. Deletions are set apart. -/
def Touches (p : Place) (s : Store) (c : Turn) : Prop :=
  s.target? c.op = some p ∨
    c.op = .rollback ∧ (Journal.image? (s.innermost c.thread) p).isSome

instance (p : Place) (s : Store) (c : Turn) : Decidable (Touches p s c) :=
  inferInstanceAs (Decidable (_ ∨ _ ∧ _))

/-- The row at a place is as it was after a turn that neither touches nor deletes it. -/
theorem Performed.row {s t : Store} {c : Turn} {p : Place} (h : Performed s c t) (hs : s.Sound)
    (untouched : ¬ Touches p s c) (kept : ¬ Deletes p s c) : t.row p = s.row p := by
  cases h with
  | idle same _ => exact same.row p
  | @wrote w undo tables op written =>
    unfold Store.row
    rw [tables_record]
    refine (hs.written written).others fun hp => untouched (.inl ?_)
    rw [op, target?, written, hp]
    rfl
  | @deleted id _ op done =>
    rw [row_delete done]
    split
    · next hp => exact absurd ((deletes_iff op done).mpr hp) kept
    · rfl
  | began op => rfl
  | committed op => rw [Store.row, tables_commit, Store.row]
  | rolledBack op =>
    rw [row_rollback]
    cases hi : Journal.image? (s.innermost c.thread) p with
    | none => rfl
    | some v => exact absurd (.inr ⟨op, by rw [hi]; rfl⟩) untouched
  | disconnected op => rfl

end EventWorker.Store
