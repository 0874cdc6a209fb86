import EventWorker.Proofs.Store.Admission
import EventWorker.Proofs.Store.Savepoints

/-!
# Consistent tables

The tables are consistent if no two sessions have one value and every encryption row belongs
to a session that is there. Both are checked when a row is added. A rollback checks nothing:
it brings back a session that another thread has removed meanwhile and whose value is taken,
and it removes a session to which another thread has given an encryption row.

Results:
1. `Performed.consistent`: every turn but a rollback keeps the tables consistent.
2. `Performed.composed`, `run_composed`: what keeps rollbacks from breaking them. Rolling back
   the units of one thread makes no session appear and leaves no encryption row alone.
3. `consistent_run`: so the tables are consistent after every run in which no thread touches
   a session that an open unit of another thread has a record of.
4. `rollback_breaks_consistency`: a run of which they are not.
-/

namespace EventWorker

/-! ## Consistent tables -/

namespace Tables

variable {t u : Tables}

/-- Values are unique, and every encryption row is filed under its session, which is there. -/
structure Consistent (t : Tables) : Prop where
  values : ∀ x ∈ t.sessions, ∀ y ∈ t.sessions, x.2.value = y.2.value → x = y
  keyed : ∀ x ∈ t.encryptions, x.2.sessionId = x.1
  owned : ∀ x ∈ t.encryptions, ∃ y ∈ t.sessions, y.2.id = x.2.sessionId

/-- `Consistent` place by place. -/
structure Coherent (t : Tables) : Prop where
  values : ∀ v i j, t.valueAt? i = some v → t.valueAt? j = some v → i = j
  owned : ∀ i, t.row (.encryption i) ≠ none → t.valueAt? i ≠ none

theorem Sound.valueAt?_of_mem (ht : t.Sound) {x : Nat × Session} (hx : x ∈ t.sessions) :
    t.valueAt? x.1 = some x.2.value := by
  rw [valueAt?, ht.row_of_session hx]
  rfl

theorem Sound.consistent_iff (ht : t.Sound) : t.Consistent ↔ t.Coherent := by
  constructor
  · intro h
    refine ⟨fun v i j hi hj => ?_, fun i hi => ?_⟩
    · rw [valueAt?_eq] at hi hj
      obtain ⟨r, hr, rfl⟩ := Option.map_eq_some_iff.mp hi
      obtain ⟨r', hr', hv⟩ := Option.map_eq_some_iff.mp hj
      exact congrArg Prod.fst
        (h.values _ (Keyed.mem_of_find? hr) _ (Keyed.mem_of_find? hr') hv.symm)
    · obtain ⟨e, he⟩ : ∃ e, Keyed.find? i t.encryptions = some e := by
        rw [row] at hi
        exact Option.ne_none_iff_exists'.mp fun hn => hi (by rw [hn]; rfl)
      have hmem : (i, e) ∈ t.encryptions := Keyed.mem_of_find? he
      obtain ⟨y, hy, hid⟩ := h.owned _ hmem
      have key : y.1 = i := ((ht.id_of_session hy).symm.trans hid).trans (ht.id_of_encryption hmem)
      rw [← key, ht.valueAt?_of_mem hy]
      exact Option.some_ne_none _
  · intro h
    refine ⟨fun x hx y hy hv => ?_, fun x hx => ht.id_of_encryption hx, fun x hx => ?_⟩
    · have key : x.1 = y.1 :=
        h.values _ _ _ (ht.valueAt?_of_mem hx) (hv ▸ ht.valueAt?_of_mem hy)
      have same : Keyed.find? y.1 t.sessions = some x.2 := key ▸ ht.sessions.mem_iff.mp hx
      exact Prod.ext key (Option.some.inj (same.symm.trans (ht.sessions.mem_iff.mp hy)))
    · have held : t.row (.encryption x.1) ≠ none := by
        rw [row, ht.encryptions.mem_iff.mp hx]
        exact Option.some_ne_none _
      obtain ⟨v, hv⟩ := Option.ne_none_iff_exists'.mp (h.owned _ held)
      rw [valueAt?_eq] at hv
      obtain ⟨s, hs, -⟩ := Option.map_eq_some_iff.mp hv
      have hmem : (x.1, s) ∈ t.sessions := Keyed.mem_of_find? hs
      exact ⟨_, hmem, (ht.id_of_session hmem).trans (ht.id_of_encryption hx).symm⟩

theorem Coherent.of_rows (ht : t.Coherent) (h : ∀ p, u.row p = t.row p) : u.Coherent where
  values v i j := by
    unfold valueAt?
    rw [h, h]
    exact ht.values v i j
  owned i := by
    unfold valueAt?
    rw [h, h]
    exact ht.owned i

/-- A write leaves no encryption row alone. -/
theorem Admitted.owned {undo : Undo} (h : t.Admitted undo u) {i : Nat}
    (before : t.row (.encryption i) ≠ none → t.valueAt? i ≠ none)
    (hi : u.row (.encryption i) ≠ none) : u.valueAt? i ≠ none := by
  have held : t.valueAt? i ≠ none := (h.backed i hi).elim before id
  rcases h.value i with hv | ⟨-, v, hv, -⟩
  · rw [hv]
    exact held
  · rw [hv]
    exact Option.some_ne_none v

theorem Coherent.admitted {undo : Undo} (ht : t.Coherent) (h : t.Admitted undo u) :
    u.Coherent where
  values v i j hi hj := by
    rcases h.value i with hi' | ⟨ki, v', hv', free⟩
    · rw [hi'] at hi
      rcases h.value j with hj' | ⟨-, v', hv', free⟩
      · exact ht.values v i j hi (hj' ▸ hj)
      · cases hj.symm.trans hv'
        exact absurd hi (valueAt?_ne_of_free free i)
    · cases hi.symm.trans hv'
      rcases h.value j with hj' | ⟨kj, -⟩
      · exact absurd (hj' ▸ hj) (valueAt?_ne_of_free free j)
      · rw [ki, kj]
  owned i := h.owned (ht.owned i)

theorem Coherent.delete (ht : t.Coherent) (id : Nat) : (t.delete id).Coherent where
  values v i j hi hj := by
    unfold valueAt? at hi hj
    rw [row_delete] at hi hj
    split at hi
    · cases hi
    · split at hj
      · cases hj
      · exact ht.values v i j hi hj
  owned i hi := by
    rw [row_delete] at hi
    split at hi
    · exact absurd rfl hi
    · next hne =>
      have hne : (Place.session i).sessionId ≠ id := hne
      rw [valueAt?, row_delete, if_neg hne]
      exact ht.owned i hi

end Tables

namespace Store

variable {s t : Store} {a : String} {c : Turn}

/-- Every turn but a rollback keeps the tables consistent. -/
theorem Performed.coherent (h : Performed s c t) (hs : s.Sound) (hc : s.tables.Coherent)
    (not_rollback : c.op ≠ .rollback) : t.tables.Coherent := by
  cases h with
  | idle same kept => exact hc.of_rows same.row
  | wrote op written =>
    rw [tables_record]
    exact hc.admitted (hs.admitted written)
  | @deleted id _ op done =>
    rw [tables_delete done]
    exact hc.delete id
  | began op => exact hc
  | committed op =>
    rw [tables_commit]
    exact hc
  | rolledBack op => exact absurd op not_rollback
  | disconnected op => exact hc

/-! ## What keeps rollbacks from breaking them -/

/-- The value of the session with an id if the units of work of a thread above a depth were
rolled back. -/
def restoredValue? (s : Store) (a : String) (depth id : Nat) : Option String :=
  (s.restored a depth (.session id)).bind Row.value?

/-- Rolling back units of work of a thread makes the session with an id neither appear nor
change its value, and does not leave its encryption row alone. -/
structure ComposedAt (s : Store) (a : String) (id : Nat) : Prop where
  kept : ∀ d d' v, d ≤ d' → s.restoredValue? a d id = some v → s.restoredValue? a d' id = some v
  owned : ∀ d, s.restored a d (.encryption id) ≠ none → s.restoredValue? a d id ≠ none

/-- `ComposedAt` for the units of work of all threads and all sessions. -/
def Composed (s : Store) : Prop :=
  ∀ a id, s.ComposedAt a id

theorem restoredValue?_of_length_le {d id : Nat} (h : (s.units a).length ≤ d) :
    s.restoredValue? a d id = s.tables.valueAt? id := by
  rw [restoredValue?, restored_of_length_le h]
  rfl

namespace ComposedAt

variable {id : Nat}

/-- After a turn every depth is one from before it, in the same order. -/
theorem shift (h : s.ComposedAt a id) (f : Nat → Nat) (mono : ∀ d d', d ≤ d' → f d ≤ f d')
    (same : ∀ d p, p.sessionId = id → t.restored a d p = s.restored a (f d) p) :
    t.ComposedAt a id where
  kept d d' v hd := by
    unfold restoredValue?
    rw [same d _ rfl, same d' _ rfl]
    exact h.kept (f d) (f d') v (mono d d' hd)
  owned d := by
    unfold restoredValue?
    rw [same d _ rfl, same d _ rfl]
    exact h.owned (f d)

/-- A thread without records of a session has nothing to put back of it. -/
theorem of_rows (same : ∀ d p, p.sessionId = id → t.restored a d p = t.row p)
    (owned : t.row (.encryption id) ≠ none → t.tables.valueAt? id ≠ none) :
    t.ComposedAt a id where
  kept d d' v hd := by
    unfold restoredValue?
    rw [same d _ rfl, same d' _ rfl]
    exact fun hv => hv
  owned d := by
    unfold restoredValue?
    rw [same d _ rfl, same d _ rfl]
    exact owned

/-- No row is alone when nothing is rolled back. -/
theorem row_owned (h : s.ComposedAt a id) (held : s.row (.encryption id) ≠ none) :
    s.tables.valueAt? id ≠ none := by
  have now : s.restored a (s.units a).length (.encryption id) ≠ none := by
    rw [restored_of_length_le (Nat.le_refl _)]
    exact held
  have value := h.owned _ now
  rwa [restoredValue?_of_length_le (Nat.le_refl _)] at value

theorem write (h : s.ComposedAt a id) (hs : s.Sound) {w : Write} {undo : Undo} {tables : Tables}
    (written : s.written? w = some (undo, tables)) :
    ({ s with tables }.record a undo).ComposedAt a id := by
  have hw : s.tables.Admitted undo tables := hs.admitted written
  generalize ht : { s with tables }.record a undo = t
  have length : (t.units a).length = (s.units a).length := by
    rw [← ht, units_written, if_pos rfl, length_recorded]
  -- Below the number of open units the record of the write undoes it.
  have below {d : Nat} (hd : d < (s.units a).length) (p : Place) :
      t.restored a d p = s.restored a d p := ht ▸ restored_write hs hd written
  have tables_t : t.tables = tables := by rw [← ht, tables_record]
  have above {d : Nat} (hd : (s.units a).length ≤ d) (p : Place) :
      t.restored a d p = tables.row p := by
    rw [restored_of_length_le (length.symm ▸ hd), Store.row, tables_t]
  refine ⟨fun d d' v hd hv => ?_, fun d hd => ?_⟩
  · unfold restoredValue? at hv ⊢
    by_cases hd' : d' < (s.units a).length
    · rw [below (Nat.lt_of_le_of_lt hd hd')] at hv
      rw [below hd']
      exact h.kept d d' v hd hv
    · rw [above (Nat.le_of_not_lt hd')]
      by_cases hlt : d < (s.units a).length
      · rw [below hlt] at hv
        have now := h.kept d (s.units a).length v (Nat.le_of_lt hlt) hv
        rw [restoredValue?_of_length_le (Nat.le_refl _)] at now
        rcases hw.value id with same | ⟨fresh, -⟩
        · exact same.trans now
        · -- An id that is not given out has no value.
          have known := hs.tables.known_of_valueAt? now
          omega
      · rwa [above (Nat.le_of_not_lt hlt)] at hv
  · unfold restoredValue?
    by_cases hlt : d < (s.units a).length
    · rw [below hlt] at hd ⊢
      exact h.owned d hd
    · rw [above (Nat.le_of_not_lt hlt)] at hd ⊢
      exact hw.owned h.row_owned hd

theorem delete (h : s.ComposedAt a id) {id' : Nat} (done : s.delete id' = .ok ((), t)) :
    t.ComposedAt a id := by
  refine ⟨fun d d' v hd => ?_, fun d => ?_⟩
  · unfold restoredValue?
    rw [restored_delete done, restored_delete done]
    split
    · intro hv
      cases hv
    · exact h.kept d d' v hd
  · unfold restoredValue?
    rw [restored_delete done, restored_delete done]
    show (if id = id' then none else _) ≠ none → Option.bind (if id = id' then none else _) _ ≠ none
    split
    · exact fun hn => absurd rfl hn
    · exact h.owned d

end ComposedAt

/-- What a rollback leaves in the rows, whether a unit of work is open or not. -/
theorem row_rollback_eq (s : Store) (a : String) (p : Place) :
    (s.rollback a).row p = s.restored a (s.units a).tail.length p := by
  cases hu : s.units a with
  | nil =>
    rw [row_rollback, innermost, hu, restored_of_length_le (by rw [hu]; exact Nat.le_refl _)]
    rfl
  | cons journal outer => exact row_rollback_eq_restored (by rw [hu]; rfl) p

/-- A turn of a thread keeps the units of work of the thread itself in order. -/
theorem Performed.composedAt_own (h : Performed s c t) (hs : s.Sound) {id : Nat}
    (hc : s.ComposedAt c.thread id) : t.ComposedAt c.thread id := by
  cases h with
  | idle same kept =>
    refine hc.shift (fun d => d) (fun _ _ hd => hd) fun d p _ => ?_
    rw [Store.restored, same.units, same.row, Store.restored]
  | wrote op written => exact hc.write hs written
  | deleted op done => exact hc.delete done
  | began op =>
    refine hc.shift (fun d => d) (fun _ _ hd => hd) fun d p _ => ?_
    by_cases hd : d ≤ (s.units c.thread).length
    · exact restored_begin hd
    · have length : ((s.begin c.thread).units c.thread).length ≤ d := by
        rw [units_begin, if_pos rfl, List.length_cons]
        omega
      rw [restored_of_length_le length, restored_of_length_le (by omega)]
      rfl
  | committed op =>
    have length : ((s.commit c.thread).units c.thread).length ≤ (s.units c.thread).length := by
      rw [units_commit, if_pos rfl]
      rcases s.units c.thread with _ | ⟨journal, _ | ⟨outer, rest⟩⟩
      · exact Nat.le_refl _
      · exact Nat.zero_le _
      · exact Nat.le_succ _
    refine hc.shift
      (fun d => if d < ((s.commit c.thread).units c.thread).length then d
        else (s.units c.thread).length) (fun d d' hd => ?_) fun d p _ => ?_
    · split <;> split <;> omega
    · split
      · next hd => exact restored_commit hd
      · next hd =>
        rw [restored_of_length_le (Nat.le_of_not_lt hd), restored_of_length_le (Nat.le_refl _),
          Store.row, tables_commit, Store.row]
  | rolledBack op =>
    have units : (s.rollback c.thread).units c.thread = (s.units c.thread).tail := by
      rw [units_rollback, if_pos rfl]
    refine hc.shift (fun d => min d (s.units c.thread).tail.length) (fun d d' hd => ?_)
      fun d p _ => ?_
    · omega
    · by_cases hd : d < (s.units c.thread).tail.length
      · rw [Nat.min_eq_left (Nat.le_of_lt hd)]
        exact restored_rollback (units ▸ hd)
      · have hd := Nat.le_of_not_lt hd
        rw [Nat.min_eq_right hd, restored_of_length_le (units ▸ hd), row_rollback_eq]
  | disconnected op =>
    refine hc.shift (fun _ => (s.units c.thread).length) (fun _ _ _ => Nat.le_refl _)
      fun d p _ => ?_
    rw [restored_of_length_le (Nat.zero_le _), restored_of_length_le (Nat.le_refl _)]
    rfl

/-! ## Threads that keep apart -/

/-- The turn neither writes nor puts back a row of a session that an open unit of work of
another thread has a record of. -/
def KeepsApart (s : Store) (c : Turn) : Prop :=
  ∀ entry ∈ s.journals, entry.1 ≠ c.thread → ∀ u ∈ entry.2.flatten,
    ¬ Touches (.session u.sessionId) s c ∧ ¬ Touches (.encryption u.sessionId) s c

instance (s : Store) (c : Turn) : Decidable (KeepsApart s c) :=
  inferInstanceAs (Decidable (∀ _ ∈ _, _))

theorem KeepsApart.untouched (h : s.KeepsApart c) (ha : a ≠ c.thread) {u : Undo}
    (hu : u ∈ (s.units a).flatten) (p : Place) (hp : p.sessionId = u.sessionId) :
    ¬ Touches p s c := by
  have held : (a, s.units a) ∈ s.journals := by
    unfold units at hu ⊢
    cases hf : Keyed.find? a s.journals with
    | none =>
      rw [hf] at hu
      cases hu
    | some us => exact Keyed.mem_of_find? hf
  obtain ⟨session, encryption⟩ := h _ held ha u hu
  cases p with
  | session id =>
    obtain rfl : id = u.sessionId := hp
    exact session
  | encryption id =>
    obtain rfl : id = u.sessionId := hp
    exact encryption

theorem mem_above {u : Undo} {us : List Journal} {depth : Nat} (h : u ∈ above depth us) :
    u ∈ us.flatten := by
  induction us with
  | nil => cases h
  | cons journal outer ih =>
    rw [above] at h
    split at h
    · exact List.mem_append.mpr ((List.mem_append.mp h).imp_right ih)
    · cases h

/-- Without a record of a session there is nothing of it to put back. -/
theorem restored_of_no_record {id : Nat} (none_of : ∀ u ∈ (s.units a).flatten, u.sessionId ≠ id)
    (d : Nat) (p : Place) (hp : p.sessionId = id) : s.restored a d p = s.row p := by
  rw [restored]
  cases hi : Journal.image? (above d (s.units a)) p with
  | none => rfl
  | some v =>
    obtain ⟨u, hu, rfl⟩ := Journal.exists_of_image? hi
    exact absurd (u.sessionId_place ▸ hp) (none_of u (mem_above hu))

theorem Performed.composed (h : Performed s c t) (hs : s.Sound) (apart : s.KeepsApart c)
    (hc : s.Composed) : t.Composed := by
  intro a id
  have own : t.ComposedAt c.thread id := h.composedAt_own hs (hc c.thread id)
  by_cases ha : a = c.thread
  · exact ha ▸ own
  by_cases hdelete : ∃ id, c.op = .delete id
  · obtain ⟨id', op⟩ := hdelete
    rcases h.of_delete op with ⟨same, -⟩ | done
    · refine (hc a id).shift (fun d => d) (fun _ _ hd => hd) fun d p _ => ?_
      rw [Store.restored, same.units, same.row, Store.restored]
    · exact (hc a id).delete done
  have kept : ∀ id, c.op ≠ .delete id := fun id hid => hdelete ⟨id, hid⟩
  by_cases recorded : ∃ u ∈ (t.units a).flatten, u.sessionId = id
  · -- The thread has a record of the session, so this turn stays away from it.
    obtain ⟨u, hu, rfl⟩ := recorded
    have units : t.units a = s.units a :=
      h.units_of_ne ha kept fun hn => by rw [hn] at hu; cases hu
    refine (hc a u.sessionId).shift (fun d => d) (fun _ _ hd => hd) fun d p hp => ?_
    have row : t.row p = s.row p :=
      h.row hs (apart.untouched ha (units ▸ hu) p hp) fun hd => kept _ hd.1
    rw [Store.restored, units, row, Store.restored]
  · refine .of_rows (restored_of_no_record fun u hu hid => recorded ⟨u, hu, hid⟩) ?_
    exact own.row_owned

/-- A turn that keeps apart keeps the tables consistent, a rollback included. -/
theorem Performed.coherent_of_composed (h : Performed s c t) (hs : s.Sound) (hc : s.Composed)
    (ht : t.Composed) (coherent : s.tables.Coherent) : t.tables.Coherent := by
  by_cases hr : c.op = .rollback
  · cases h with
    | rolledBack op =>
      -- No session appears, and none changes its value.
      have value {id : Nat} {v : String}
          (hv : (s.rollback c.thread).tables.valueAt? id = some v) :
          s.tables.valueAt? id = some v := by
        have hv : s.restoredValue? c.thread (s.units c.thread).tail.length id = some v := by
          rw [restoredValue?, ← row_rollback_eq]
          exact hv
        have later : (s.units c.thread).tail.length ≤ (s.units c.thread).length := by
          rw [List.length_tail]
          exact Nat.sub_le _ _
        have now := (hc c.thread id).kept _ _ v later hv
        rwa [restoredValue?_of_length_le (Nat.le_refl _)] at now
      refine ⟨fun v i j hi hj => ?_, fun i hi => ?_⟩
      · exact coherent.values v i j (value hi) (value hj)
      · exact (ht c.thread i).row_owned hi
    | idle same kept => exact coherent.of_rows same.row
    | wrote op written => cases op.symm.trans hr
    | deleted op done => cases op.symm.trans hr
    | began op => cases op.symm.trans hr
    | committed op => cases op.symm.trans hr
    | disconnected op => cases op.symm.trans hr
  · exact h.coherent hs coherent hr

theorem run_coherent {turns : List Turn} (hs : s.Sound) (hc : s.Composed)
    (coherent : s.tables.Coherent) (apart : Throughout KeepsApart s turns) :
    (s.run turns).tables.Coherent := by
  induction turns generalizing s with
  | nil => exact coherent
  | cons c turns ih =>
    obtain ⟨now, apart⟩ := apart
    have step := performed s c
    have composed := step.composed hs now hc
    exact ih (step.sound hs) composed (step.coherent_of_composed hs hc composed coherent) apart

/-- What holds of the tables after a run. Encryption rows are always filed under their own
sessions. No turn but a rollback makes consistent tables inconsistent; and if all through
the run no thread touches a session that an open unit of work of another thread has a record
of, no rollback does so either. -/
theorem consistent_run (turns : List Turn) :
    let s := ({} : Store).run turns
    (∀ x ∈ s.tables.encryptions, x.2.sessionId = x.1) ∧
    (∀ c : Turn, s.tables.Consistent → c.op ≠ .rollback → (s.perform c).tables.Consistent) ∧
    (Throughout KeepsApart {} turns → s.tables.Consistent) := by
  intro s
  have sound : s.Sound := run_sound .empty turns
  refine ⟨fun x hx => sound.tables.id_of_encryption hx, fun c hc not_rollback => ?_,
    fun apart => ?_⟩
  · have step := performed s c
    have coherent := step.coherent sound (sound.tables.consistent_iff.mp hc) not_rollback
    exact (step.sound sound).tables.consistent_iff.mpr coherent
  · refine sound.tables.consistent_iff.mpr (run_coherent .empty (fun a id => ?_) ?_ apart)
    · refine .of_rows (fun d p _ => ?_) fun h => absurd rfl h
      exact restored_of_length_le (Nat.zero_le d)
    · exact ⟨(fun v i j hi => nomatch hi), fun i hi => absurd rfl hi⟩

/-- Two threads at work on a session each, with a unit of work in which another is nested and
rolled back. -/
def apartTurns : List Turn :=
  [⟨"first", .begin⟩,
    ⟨"first", .write (.createSession 1 "aa01" none 0)⟩,
    ⟨"second", .begin⟩,
    ⟨"second", .write (.createSession 2 "bb01" none 0)⟩,
    ⟨"first", .begin⟩,
    ⟨"first", .write (.createEncryption 1 .unencrypted)⟩,
    ⟨"second", .write (.createEncryption 2 .unencrypted)⟩,
    ⟨"first", .rollback⟩,
    ⟨"second", .write (.updateLastUpdated "bb01" 1000)⟩,
    ⟨"first", .commit⟩,
    ⟨"second", .rollback⟩,
    ⟨"second", .write (.createSession 2 "bb01" none 2000)⟩,
    ⟨"second", .write (.createEncryption 3 .unencrypted)⟩]

theorem consistent_run_apart :
    let s := ({} : Store).run apartTurns
    s.tables.Consistent ∧
    s.tables.sessions = [(1, ⟨1, 1, "aa01", none, 0⟩), (3, ⟨3, 2, "bb01", none, 2000⟩)] ∧
    s.tables.encryptions = [(3, ⟨3, 3, .unencrypted⟩)] :=
  ⟨(consistent_run apartTurns).2.2 (by decide), by decide, by decide⟩

/-- One thread adds two sessions in a unit of work. Another one uses the first of them, in a
unit of its own, and a third gives the second one an encryption row. The sessions are rolled
back, the value of the first is taken, and then its use is rolled back. -/
def contestedTurns : List Turn :=
  [⟨"first", .begin⟩,
    ⟨"first", .write (.createSession 1 "aa01" none 0)⟩,
    ⟨"first", .write (.createSession 1 "aa02" none 0)⟩,
    ⟨"second", .begin⟩,
    ⟨"second", .write (.updateLastUpdated "aa01" 1000)⟩,
    ⟨"third", .write (.createEncryption 2 .unencrypted)⟩,
    ⟨"first", .rollback⟩,
    ⟨"third", .write (.createSession 2 "aa01" none 2000)⟩,
    ⟨"second", .rollback⟩]

/-- Two sessions have one value, and an encryption row is left of a session that is gone. -/
theorem rollback_breaks_consistency :
    let t := (({} : Store).run contestedTurns).tables
    t.sessions = [(1, ⟨1, 1, "aa01", none, 0⟩), (3, ⟨3, 2, "aa01", none, 2000⟩)] ∧
    t.encryptions = [(2, ⟨1, 2, .unencrypted⟩)] ∧
    ¬ (∀ x ∈ t.sessions, ∀ y ∈ t.sessions, x.2.value = y.2.value → x = y) ∧
    ¬ (∀ x ∈ t.encryptions, ∃ y ∈ t.sessions, y.2.id = x.2.sessionId) := by
  decide

end Store

end EventWorker
