import EventWorker.Proofs.Store.Savepoints

/-!
# What a rollback does to the work of others

Threads that share a store can write the same row while both have a unit of work open. The
image that one of them keeps is the row as it found it, and that is what its rollback puts
back, although another thread has written the row since and committed.

Results:
1. `rollback_after_commit`: when a rollback changes a row another thread has committed, what
   it puts back and where that comes from.
2. `rollback_undoes_commit`: a run in which a committed write is undone.
-/

namespace EventWorker.Store

variable {s : Store} {a b : String} {p : Place} {depth : Nat}

theorem length_run {turns : List Turn} (opened : depth < (s.units a).length)
    (throughout : Throughout (fun s c => depth < ((s.perform c).units a).length) s turns) :
    depth < ((s.run turns).units a).length := by
  induction turns generalizing s with
  | nil => exact opened
  | cons c turns ih => exact ih throughout.1 throughout.2

/-- A rollback of a thread after another thread has committed, with any turns before the
commit, between the two and in the units of work that were open.

The rollback leaves a row as it is if and only if the unit has no image of the row or an
equal one. An image is the row as the thread has written over it. If it did so before the
commit then its unit had the image when the other thread committed, else the row had
already been committed.

If no one else has touched the row in between then the row is put back to the image that the
thread had of it at the commit, and what was committed remains if it had none. A session that
was deleted stays away. -/
theorem rollback_after_commit (past later : List Turn) (a b : String) (p : Place) :
    let before := ({} : Store).run past
    let committed := before.commit b
    let s := committed.run later
    let depth := (s.units a).length - 1
    ((s.rollback a).row p = s.row p ↔
      ∀ v, Journal.image? (s.innermost a) p = some v → v = s.row p) ∧
    (∀ v, Journal.image? (s.innermost a) p = some v →
      Journal.image? (above depth (before.units a)) p = some v ∧
          Sometime (WritesOver a p v) {} past ∨
        Sometime (WritesOver a p v) committed later) ∧
    (a ≠ b → depth < (before.units a).length →
      Throughout (fun s c => depth < ((s.perform c).units a).length) committed later →
      Throughout (fun s c => c.thread ≠ a → ¬ Touches p s c) committed later →
      (s.rollback a).row p =
        if Sometime (Deletes p) committed later then none
        else (Journal.image? (above depth (before.units a)) p).getD (before.row p)) := by
  intro before committed s depth
  have before_sound : before.Sound := run_sound .empty past
  have commit : Performed before ⟨b, .commit⟩ committed := performed before ⟨b, .commit⟩
  have committed_sound : committed.Sound := commit.sound before_sound
  refine ⟨?_, fun v hv => ?_, fun hab opened throughout alone => ?_⟩
  · rw [row_rollback]
    cases Journal.image? (s.innermost a) p with
    | none => simp
    | some v => simp
  · have nonempty : 0 < (s.units a).length := by
      refine Nat.pos_of_ne_zero fun h => ?_
      rw [innermost, List.length_eq_zero_iff.mp h] at hv
      cases hv
    have hd : (s.units a).length = depth + 1 := (Nat.sub_add_cancel nonempty).symm
    rw [← above_eq_innermost hd] at hv
    rcases image?_run committed_sound hv with hc | hl
    · rcases commit.image? before_sound hc with hb | hw
      · rcases image?_run .empty hb with he | hp
        · cases he
        · exact .inl ⟨hb, hp⟩
      · cases hw.1.2
    · exact .inr hl
  · have units : committed.units a = before.units a :=
      (units_commit before b a).trans (if_neg hab)
    have row : committed.row p = before.row p := by
      rw [Store.row, tables_commit, Store.row]
    have opened' : depth < (committed.units a).length := units ▸ opened
    have nonempty : 0 < (s.units a).length := Nat.zero_lt_of_lt (length_run opened' throughout)
    have hd : (s.units a).length = depth + 1 := (Nat.sub_add_cancel nonempty).symm
    rw [row_rollback_eq_restored hd, restored_run committed_sound opened' throughout alone,
      restored, units, row]

/-- Both threads have used the session, and neither has committed. -/
def bothUse : List Turn :=
  [⟨"side", .write (.createSession 1 "aa01" none 0)⟩,
    ⟨"first", .begin⟩,
    ⟨"first", .write (.updateLastUpdated "aa01" 1000)⟩,
    ⟨"second", .begin⟩,
    ⟨"second", .write (.updateLastUpdated "aa01" 2000)⟩]

/-- The second thread commits its only unit, in which it has written the row. The rollback of
the first thread puts the row back to what it was before both. -/
theorem rollback_undoes_commit :
    let before := ({} : Store).run bothUse
    (before.units "second").length = 1 ∧
    Sometime (Writes "second" (.session 1)) {} bothUse ∧
    (before.commit "second").row (.session 1) = some (.session ⟨1, 1, "aa01", none, 2000⟩) ∧
    ((before.commit "second").rollback "first").row (.session 1) =
      some (.session ⟨1, 1, "aa01", none, 0⟩) := by
  decide

theorem rollback_after_commit_both_use :
    let before := ({} : Store).run bothUse
    ((before.commit "second").rollback "first").row (.session 1) =
      (Journal.image? (above 0 (before.units "first")) (.session 1)).getD
        (before.row (.session 1)) :=
  (rollback_after_commit bothUse [] "first" "second" (.session 1)).2.2 (by decide) (by decide)
    trivial trivial

end EventWorker.Store
