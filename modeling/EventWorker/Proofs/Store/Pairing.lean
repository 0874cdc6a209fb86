import EventWorker.Proofs.Store.Clients
import EventWorker.Proofs.Store.Consistency
import EventWorker.Proofs.Store.Units

/-!
# Sessions and encryption rows in pairs

A session and its encryption row are added by two writes. In between there is half a pair,
so no write alone keeps the tables in pairs; the two writes do it together, and so do the
updates and the removal of a session.

Results:
1. `Paired.opened`, `Paired.updated`, `Paired.delete`: what keeps the tables in pairs.
2. `Paired.exactly`: what pairs come to, row by row.
3. `Settled.rollback`, `Settled.rollback_delete`, `Settled.commit`: units of work that leave
   the tables in pairs.
-/

namespace EventWorker

namespace Tables

variable {t u v : Tables} {id : Nat}

/-- The session with an id has an encryption row, if it is there. -/
def SealedAt (t : Tables) (id : Nat) : Prop :=
  t.valueAt? id ≠ none → t.row (.encryption id) ≠ none

/-- The tables are coherent, and no session is without its encryption row. -/
structure Paired (t : Tables) : Prop extends Coherent t where
  complete : ∀ id, t.SealedAt id

theorem SealedAt.of_rows (ht : t.SealedAt id) (same : ∀ p, u.row p = t.row p) :
    u.SealedAt id := by
  unfold SealedAt valueAt?
  rw [same, same]
  exact ht

theorem row_of_no_rows (sessions : t.sessions = []) (encryptions : t.encryptions = []) (p : Place) :
    t.row p = none := by
  cases p with
  | session id => rw [row, sessions]; rfl
  | encryption id => rw [row, encryptions]; rfl

theorem Sound.of_no_rows (sessions : t.sessions = []) (encryptions : t.encryptions = []) :
    t.Sound := by
  refine ⟨sessions ▸ .nil, encryptions ▸ .nil, fun p r hr => ?_⟩
  rw [row_of_no_rows sessions encryptions] at hr
  cases hr

/-- Of all writes only one that adds a session leaves it without an encryption row. -/
theorem Admitted.sealedAt {undo : Undo} (h : t.Admitted undo u)
    (not_added : undo ≠ .session id none) (ht : t.SealedAt id) : u.SealedAt id := by
  unfold SealedAt at ht ⊢
  rw [valueAt?_eq] at ht ⊢
  cases h with
  | sessionCreated added next free =>
    have other : id ≠ added.id := by
      rintro rfl
      exact not_added rfl
    rw [Keyed.find?_insert, if_neg other]
    exact ht
  | sessionUsed used time held =>
    rw [Keyed.find?_insert]
    split
    · next same =>
      subst same
      rw [held] at ht
      exact fun _ => ht (Option.some_ne_none _)
    · exact ht
  | encryptionCreated added s held =>
    intro hu
    rw [Tables.row, Keyed.find?_insert]
    split
    · exact Option.some_ne_none _
    · exact ht hu
  | encryptionChanged changed before held =>
    intro hu
    rw [Tables.row, Keyed.find?_insert]
    split
    · exact Option.some_ne_none _
    · exact ht hu

namespace Paired

theorem of_rows (ht : t.Paired) (same : ∀ p, u.row p = t.row p) : u.Paired where
  toCoherent := ht.toCoherent.of_rows same
  complete id := (ht.complete id).of_rows same

theorem of_tables (ht : t.Paired) (sessions : u.sessions = t.sessions)
    (encryptions : u.encryptions = t.encryptions) : u.Paired := by
  refine ht.of_rows fun p => ?_
  cases p with
  | session id => rw [row, row, sessions]
  | encryption id => rw [row, row, encryptions]

theorem empty (sessions : t.sessions = []) (encryptions : t.encryptions = []) : t.Paired := by
  have nothing := row_of_no_rows sessions encryptions
  refine ⟨⟨fun v i j hi => ?_, fun i hi => absurd (nothing _) hi⟩, fun i hi => ?_⟩
  · rw [valueAt?, nothing] at hi
    cases hi
  · rw [valueAt?, nothing] at hi
    exact absurd rfl hi

/-- An update adds neither a session nor an encryption row. -/
theorem updated (ht : t.Paired) (sound : t.Sound) {w : Write} (updates : w.Updates) {undo : Undo}
    (done : w.apply t = .ok (undo, u)) : u.Paired := by
  have admitted := Write.apply_admitted sound done
  refine ⟨ht.toCoherent.admitted admitted, fun id => admitted.sealedAt ?_ (ht.complete id)⟩
  rintro rfl
  cases w with
  | createSession => exact updates.elim
  | createEncryption => exact updates.elim
  | updateLastUpdated value time =>
    simp only [Write.apply, Tables.updateLastUpdated] at done
    split at done <;> cases done
  | updateEncryption sessionId state =>
    simp only [Write.apply, Tables.updateEncryption] at done
    split at done <;> cases done

/-- A session and an encryption row for it are added. -/
theorem opened (ht : t.Paired) (sound : t.Sound) {client : Nat} {value : String}
    {token : Option String} {time : Int} {state : KeyState} {key : Nat} {undo undo' : Undo}
    (session : t.createSession client value token time = .ok (id, undo, u))
    (encryption : u.createEncryption id state = .ok (key, undo', v)) : v.Paired := by
  have first := congrArg (Except.map Prod.snd) session
  have second := congrArg (Except.map Prod.snd) encryption
  have usound : u.Sound :=
    (Write.apply_written (w := .createSession client value token time) sound first).sound sound
  have first : t.Admitted undo u :=
    Write.apply_admitted (w := .createSession client value token time) sound first
  have second : u.Admitted undo' v :=
    Write.apply_admitted (w := .createEncryption id state) usound second
  have added : undo = .session id none := by
    unfold Tables.createSession at session
    split at session <;> cases session
    rfl
  have given : (∀ k, undo' ≠ .session k none) ∧ v.row (.encryption id) ≠ none := by
    unfold Tables.createEncryption at encryption
    split at encryption
    · cases encryption
      refine ⟨fun _ same => (by cases same), ?_⟩
      rw [Tables.row, Keyed.find?_insert, if_pos rfl]
      exact Option.some_ne_none _
    · cases encryption
  refine ⟨(ht.toCoherent.admitted first).admitted second, fun k => ?_⟩
  by_cases hk : k = id
  · exact fun _ => hk ▸ given.2
  · refine second.sealedAt (given.1 k) (first.sealedAt ?_ (ht.complete k))
    rw [added]
    intro same
    cases same
    exact hk rfl

theorem delete (ht : t.Paired) (id : Nat) : (t.delete id).Paired := by
  refine ⟨ht.toCoherent.delete id, fun k => ?_⟩
  unfold SealedAt valueAt?
  rw [row_delete, row_delete]
  by_cases hk : k = id
  · have removed : (Place.session k).sessionId = id := hk
    rw [if_pos removed]
    exact fun held => absurd rfl held
  · have session : (Place.session k).sessionId ≠ id := hk
    have encryption : (Place.encryption k).sessionId ≠ id := hk
    rw [if_neg session, if_neg encryption]
    exact ht.complete k

/-- Every session has one encryption row under its id. -/
theorem exactly (ht : t.Paired) (sound : t.Sound) :
    t.Consistent ∧ ∀ x ∈ t.sessions, ∃ y ∈ t.encryptions, y.1 = x.2.id ∧
      ∀ z ∈ t.encryptions, z.1 = x.2.id → z = y := by
  refine ⟨sound.consistent_iff.mpr ht.toCoherent, fun x hx => ?_⟩
  have valued : t.valueAt? x.1 ≠ none := by
    rw [sound.valueAt?_of_mem hx]
    exact Option.some_ne_none _
  obtain ⟨row, hrow⟩ : ∃ row, Keyed.find? x.1 t.encryptions = some row := by
    have held := ht.complete x.1 valued
    rw [Tables.row] at held
    cases found : Keyed.find? x.1 t.encryptions with
    | none =>
      rw [found] at held
      exact absurd rfl held
    | some row => exact ⟨row, rfl⟩
  rw [sound.id_of_session hx]
  refine ⟨(x.1, row), Keyed.mem_of_find? hrow, rfl, ?_⟩
  rintro ⟨key, row'⟩ hz rfl
  have found := sound.encryptions.mem_iff.mp hz
  exact congrArg (Prod.mk _) (Option.some.inj (found.symm.trans hrow))

end Paired

end Tables

namespace Store

variable {s t : Store} {a : String}

/-- The tables are in pairs, and the thread has no unit of work open. -/
structure Settled (s : Store) (thread : String) : Prop where
  sound : s.Sound
  paired : s.tables.Paired
  idle : s.units thread = []

namespace Settled

/-- Neither the counts of a store nor its availability matter. -/
theorem of_same (hs : s.Settled a) (tables : t.tables = s.tables)
    (journals : t.journals = s.journals) : t.Settled a := by
  have units (thread : String) : t.units thread = s.units thread := by
    unfold units
    rw [journals]
  refine ⟨⟨tables ▸ hs.sound.tables, fun thread u hu => ?_⟩, tables ▸ hs.paired, ?_⟩
  · rw [tables]
    exact hs.sound.journals thread u (units thread ▸ hu)
  · rw [units]
    exact hs.idle

theorem sound_unit (hs : s.Settled a) (turns : List Turn) : ((s.begin a).run turns).Sound :=
  run_sound ((performed s ⟨a, .begin⟩).sound hs.sound) turns

/-- Writes that are rolled back leave nothing, whether they made half a pair or not. -/
theorem rollback (hs : s.Settled a) (ws : List Write) :
    (((s.begin a).run (Write.turns a ws)).rollback a).Settled a := by
  obtain ⟨units, -, sessions, encryptions⟩ := rollback_writes hs.sound hs.idle ws
  have sound := (performed _ ⟨a, .rollback⟩).sound (hs.sound_unit (Write.turns a ws))
  exact ⟨sound, hs.paired.of_tables sessions encryptions, units⟩

/-- A session that was removed in a unit of work stays away with its encryption row. -/
theorem rollback_delete (hs : s.Settled a) (ws : List Write) (id : Nat)
    (available : ((s.begin a).run (Write.turns a ws)).unavailable = false) :
    (((s.begin a).run (Write.turns a ws ++ [⟨a, .delete id⟩])).rollback a).Settled a := by
  obtain ⟨units, -, sessions, encryptions⟩ :=
    rollback_writes_delete hs.sound hs.idle ws id available
  have sound := (performed _ ⟨a, .rollback⟩).sound
    (hs.sound_unit (Write.turns a ws ++ [⟨a, .delete id⟩]))
  exact ⟨sound, (hs.paired.delete id).of_tables sessions encryptions, units⟩

/-- What a unit of work of writes leaves in pairs is kept. -/
theorem commit (hs : s.Settled a) (ws : List Write)
    (paired : ((s.begin a).run (Write.turns a ws)).tables.Paired) :
    (((s.begin a).run (Write.turns a ws)).commit a).Settled a := by
  have begun : (s.begin a).Sound := (performed s ⟨a, .begin⟩).sound hs.sound
  have sound := (performed _ ⟨a, .commit⟩).sound (hs.sound_unit (Write.turns a ws))
  have one : (((s.begin a).run (Write.turns a ws)).units a).length = 1 := by
    rw [(run_edits begun (edits_turns a ws)).1, units_begin, if_pos rfl, hs.idle]
    rfl
  refine ⟨sound, ?_, ?_⟩
  · rw [tables_commit]
    exact paired
  · rw [units_commit, if_pos rfl]
    obtain ⟨journal, hjournal⟩ := List.length_eq_one_iff.mp one
    rw [hjournal]
    rfl

end Settled

end Store

end EventWorker
