import EventWorker.Proofs.Store.Runs

/-!
# Where session values come from

A session value is in the store because a write put it there, or because a rollback has put back
what a write replaced. A property that the written values have, all values in the store have then.
Only the innermost unit of work matters: no other one is rolled back before it.

Results:
1. `Write.apply_named`: a write keeps the property if the session it adds has it.
2. `Store.Named.write`, `Store.Named.delete`: what a unit of work keeps.
3. `Store.Named.begin`, `Store.Named.rollback`: what is left of it between two units.
-/

namespace EventWorker

/-- All session values in the tables have a property. -/
def Tables.Named (P : String → Prop) (t : Tables) : Prop :=
  ∀ row ∈ t.sessions, P row.2.value

/-- The session that a record puts back, if any, has a value with a property. -/
def Undo.Named (P : String → Prop) (undo : Undo) : Prop :=
  ∀ id row, undo = .session id (some row) → P row.value

/-- The session that a write adds, if any, has a value with a property. -/
def Write.Names (P : String → Prop) (w : Write) : Prop :=
  ∀ client value token time, w = .createSession client value token time → P value

/-- All session values in a store, and all that the innermost unit of work of a thread would put
back, have a property. -/
structure Store.Named (P : String → Prop) (thread : String) (s : Store) : Prop where
  tables : s.tables.Named P
  records : ∀ undo ∈ s.innermost thread, undo.Named P

variable {P : String → Prop} {thread : String} {s t : Store}

namespace Tables

variable {t u : Tables} {undo : Undo}

theorem Named.apply (ht : t.Named P) (hu : undo.Named P) : (undo.apply t).Named P := by
  cases undo with
  | encryption id before => exact ht
  | session id before =>
    cases before with
    | none => exact fun row hrow => ht row (List.mem_filter.mp hrow).1
    | some old =>
      intro row hrow
      rcases Keyed.mem_of_mem_insert hrow with rfl | hrow
      · exact hu id old rfl
      · exact ht row hrow

theorem Named.replay {j : Journal} (ht : t.Named P) (hj : ∀ undo ∈ j, undo.Named P) :
    (j.foldl Undo.apply t).Named P := by
  induction j generalizing t with
  | nil => exact ht
  | cons undo older ih =>
    obtain ⟨first, rest⟩ := List.forall_mem_cons.mp hj
    exact ih (ht.apply first) rest

theorem Named.delete (ht : t.Named P) (id : Nat) : (t.delete id).Named P :=
  fun row hrow => ht row (List.mem_filter.mp hrow).1

theorem Named.sessionByValue? (ht : t.Named P) {value : String} {row : Session}
    (found : t.sessionByValue? value = some row) : P row.value := by
  obtain ⟨x, hx, rfl⟩ := Option.map_eq_some_iff.mp found
  exact ht x (List.mem_of_find?_eq_some hx)

theorem Named.recipients? (ht : t.Named P) {multiple : Bool} {value : String}
    {found : List Recipient}
    (h : (if multiple then t.clientRecipients? value else t.recipientsOf? value) = some found) :
    ∀ r ∈ found, P r.value := by
  -- A recipient has the value of the session that it is.
  have named {row : Session} {r : Recipient} (hr : t.recipient? row = some r) :
      r.value = row.value := by
    obtain ⟨encryption, -, rfl⟩ := Option.map_eq_some_iff.mp hr
    rfl
  cases multiple with
  | true =>
    obtain ⟨owner, -, rfl⟩ := Option.map_eq_some_iff.mp h
    intro r hr
    obtain ⟨row, hrow, made⟩ := List.mem_filterMap.mp hr
    obtain ⟨x, hx, rfl⟩ := List.mem_map.mp (List.mem_filter.mp hrow).1
    rw [named made]
    exact ht x hx
  | false =>
    obtain ⟨row, hrow, made⟩ := Option.bind_eq_some_iff.mp h
    obtain ⟨r, hr, rfl⟩ := Option.map_eq_some_iff.mp made
    intro r' hr'
    rw [List.mem_singleton.mp hr', named hr]
    exact ht.sessionByValue? hrow

end Tables

/-- What a write leaves in the tables, and what it records. -/
theorem Write.apply_named {t u : Tables} {w : Write} {undo : Undo} (ht : t.Named P)
    (hw : w.Names P) (h : w.apply t = .ok (undo, u)) : u.Named P ∧ undo.Named P := by
  cases w with
  | createSession client value token time =>
    simp only [apply, Tables.createSession] at h
    split at h
    · cases h
    · cases h
      refine ⟨fun row hrow => ?_, by rintro _ _ ⟨⟩⟩
      rcases Keyed.mem_of_mem_insert hrow with rfl | hrow
      · exact hw client value token time rfl
      · exact ht row hrow
  | createEncryption sessionId state =>
    simp only [apply, Tables.createEncryption] at h
    split at h
    · cases h
      exact ⟨ht, by rintro _ _ ⟨⟩⟩
    · cases h
  | updateLastUpdated value time =>
    simp only [apply, Tables.updateLastUpdated] at h
    split at h
    · cases h
    · next old found =>
      cases h
      have named : P old.value := ht.sessionByValue? found
      refine ⟨fun row hrow => ?_, fun id row same => ?_⟩
      · rcases Keyed.mem_of_mem_insert hrow with rfl | hrow
        · exact named
        · exact ht row hrow
      · cases same
        exact named
  | updateEncryption sessionId state =>
    simp only [apply, Tables.updateEncryption] at h
    split at h
    · cases h
    · cases h
      exact ⟨ht, by rintro _ _ ⟨⟩⟩

namespace Store

theorem innermost_written (s : Store) (tables : Tables) (thread : String) (undo : Undo) :
    ({ s with tables }.record thread undo).innermost thread = [] ∨
      ({ s with tables }.record thread undo).innermost thread = undo :: s.innermost thread := by
  unfold innermost
  rw [units_written, if_pos rfl]
  cases s.units thread with
  | nil => exact .inl rfl
  | cons journal outer => exact .inr rfl

namespace Named

theorem write (hs : s.Named P thread) {w : Write} (hw : w.Names P) :
    (s.perform { thread, op := .write w }).Named P thread := by
  rw [perform_write]
  cases written : s.written? w with
  | none => exact hs
  | some v =>
    obtain ⟨undo, tables⟩ := v
    unfold written? at written
    split at written
    · cases written
    · cases done : w.apply s.tables with
      | error f =>
        rw [done] at written
        cases written
      | ok v =>
        rw [done] at written
        cases written
        obtain ⟨rows, record⟩ := w.apply_named hs.tables hw done
        refine ⟨(tables_record _ _ _).symm ▸ rows, ?_⟩
        dsimp only
        rcases innermost_written s tables thread undo with none | more
        · rw [none]
          exact nofun
        · rw [more]
          exact List.forall_mem_cons.mpr ⟨record, hs.records⟩

theorem delete (hs : s.Named P thread) (id : Nat) :
    (s.perform { thread, op := .delete id }).Named P thread := by
  show (s.after (s.delete id)).Named P thread
  cases done : s.delete id with
  | error f => exact hs
  | ok v =>
    refine ⟨(tables_delete done).symm ▸ hs.tables.delete id, fun undo hundo => ?_⟩
    rw [after, innermost, units_delete done] at hundo
    refine hs.records undo ?_
    rw [innermost]
    cases units : s.units thread with
    | nil =>
      rw [units] at hundo
      cases hundo
    | cons journal outer =>
      rw [units] at hundo
      exact (List.mem_filter.mp hundo).1

/-- A new unit of work has nothing to put back. -/
theorem begin (hs : s.tables.Named P) (thread : String) : (s.begin thread).Named P thread := by
  refine ⟨hs, fun undo hundo => ?_⟩
  rw [innermost, units_begin, if_pos rfl] at hundo
  cases hundo

theorem rollback (hs : s.Named P thread) : (s.rollback thread).tables.Named P := by
  rw [tables_rollback]
  exact hs.tables.replay hs.records

end Named

end Store

end EventWorker
