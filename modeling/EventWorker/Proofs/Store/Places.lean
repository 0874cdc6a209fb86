import EventWorker.Proofs.Keyed
import EventWorker.Store.Basic

/-!
# Rows by place and the images of a journal

Session rows and encryption rows are looked up alike, by their place. An undo record
holds the image of one place. A journal puts back, at every place it has records of,
the image of the oldest one.

Results:
1. `Undo.row_apply`, `Journal.row_replay`: what a record and a journal put back.
2. `Tables.Sound`: every row is filed under its own key, under ids given out already.
   `Journal.replay_sound`: a journal of filed records keeps it so.
3. `Tables.Sound.ext_rows`: sound tables with the same rows have the same lists.
-/

namespace EventWorker

/-- Where a session or an encryption row stands. -/
inductive Place
  | session (id : Nat)
  | encryption (sessionId : Nat)
  deriving DecidableEq, Repr

/-- A session or an encryption row. -/
inductive Row
  | session (row : Session)
  | encryption (row : Encryption)
  deriving DecidableEq, Repr

/-- The session of a place. -/
def Place.sessionId : Place → Nat
  | .session id => id
  | .encryption id => id

/-- Where a row belongs. -/
def Row.place : Row → Place
  | .session row => .session row.id
  | .encryption row => .encryption row.sessionId

/-- The row at a place. -/
def Tables.row (t : Tables) : Place → Option Row
  | .session id => (Keyed.find? id t.sessions).map .session
  | .encryption id => (Keyed.find? id t.encryptions).map .encryption

/-! ## Records -/

namespace Undo

/-- The place of the row that is put back. -/
def place : Undo → Place
  | .session id _ => .session id
  | .encryption id _ => .encryption id

/-- What is put back. -/
def before : Undo → Option Row
  | .session _ before => before.map .session
  | .encryption _ before => before.map .encryption

theorem sessionId_place (u : Undo) : u.place.sessionId = u.sessionId := by
  cases u <;> rfl

end Undo

theorem find?_restore {α : Type} (key k : Nat) (before : Option α) (rows : List (Nat × α)) :
    Keyed.find? k (restore key before rows) = if k = key then before else Keyed.find? k rows := by
  cases before with
  | some row => exact Keyed.find?_insert _ _ _ _
  | none => exact Keyed.find?_erase _ _ _

theorem ascending_restore {α : Type} {rows : List (Nat × α)} (h : Keyed.Ascending rows)
    (key : Nat) (before : Option α) : Keyed.Ascending (restore key before rows) := by
  cases before with
  | some row => exact h.insert key row
  | none => exact h.erase key

/-- A record puts back its row and no other. -/
theorem Undo.row_apply (u : Undo) (t : Tables) (p : Place) :
    (u.apply t).row p = if p = u.place then u.before else t.row p := by
  rcases u with ⟨id, before⟩ | ⟨id, before⟩
  · rcases p with k | k
    · rw [Undo.apply, Tables.row, find?_restore]
      by_cases hk : k = id <;> simp [hk, Undo.place, Undo.before, Tables.row]
    · simp [Undo.apply, Tables.row, Undo.place]
  · rcases p with k | k
    · simp [Undo.apply, Tables.row, Undo.place]
    · rw [Undo.apply, Tables.row, find?_restore]
      by_cases hk : k = id <;> simp [hk, Undo.place, Undo.before, Tables.row]

/-! ## Journals -/

namespace Journal

/-- The image a journal has of a place, that of its oldest record. `some none` says that
there was no row. -/
def image? : Journal → Place → Option (Option Row)
  | [], _ => none
  | u :: older, p => (image? older p).or (if p = u.place then some u.before else none)

theorem image?_append (newer older : Journal) (p : Place) :
    image? (newer ++ older) p = (image? older p).or (image? newer p) := by
  induction newer with
  | nil => simp [image?]
  | cons u newer ih => simp [image?, ih, Option.or_assoc]

/-- An image of a place is that of a record of the place. -/
theorem exists_of_image? {j : Journal} {p : Place} {v : Option Row} (h : image? j p = some v) :
    ∃ u ∈ j, u.place = p := by
  induction j with
  | nil => cases h
  | cons u older ih =>
    rw [image?] at h
    rcases Option.or_eq_some_iff.mp h with h | ⟨-, h⟩
    · obtain ⟨u', hu, hp⟩ := ih h
      exact ⟨u', List.mem_cons_of_mem _ hu, hp⟩
    · split at h
      · next hp => exact ⟨u, List.mem_cons_self, hp.symm⟩
      · cases h

/-- Rolling back puts back every place the journal has an image of. -/
theorem row_replay (j : Journal) (t : Tables) (p : Place) :
    (j.foldl Undo.apply t).row p = (image? j p).getD (t.row p) := by
  induction j generalizing t with
  | nil => rfl
  | cons u older ih =>
    rw [List.foldl_cons, ih, Undo.row_apply, image?]
    -- The older records are applied later, so theirs is the last word.
    cases image? older p with
    | some v => rfl
    | none => by_cases hp : p = u.place <;> simp [hp]

/-- A journal without the records of a session. -/
def without (j : Journal) (id : Nat) : Journal :=
  j.filter fun undo => decide (undo.sessionId ≠ id)

theorem image?_without (j : Journal) (id : Nat) (p : Place) :
    image? (j.without id) p = if p.sessionId = id then none else image? j p := by
  induction j with
  | nil => simp [without, image?]
  | cons u older ih =>
    unfold without at ih ⊢
    -- A record that is dropped has no image but at places of the session, and a record
    -- that is kept has none there.
    by_cases hu : u.sessionId = id
    · have hne : p = u.place → p.sessionId = id := by
        rintro rfl
        rw [u.sessionId_place, hu]
      rw [List.filter_cons_of_neg (by simp [hu]), ih]
      by_cases hp : p.sessionId = id
      · simp [hp]
      · have : p ≠ u.place := fun h => hp (hne h)
        simp [hp, image?, this]
    · have hne : p = u.place → p.sessionId ≠ id := by
        rintro rfl
        rw [u.sessionId_place]
        exact hu
      rw [List.filter_cons_of_pos (by simp [hu]), image?, ih, image?]
      by_cases hp : p.sessionId = id
      · have : p ≠ u.place := fun h => hne h hp
        simp [hp, this]
      · simp [hp]

end Journal

/-! ## Sound tables -/

/-- A row is filed under its own key, and its session is among the first `n`. -/
def Row.Filed (n : Nat) (p : Place) (r : Row) : Prop :=
  r.place = p ∧ p.sessionId ≤ n

theorem Row.Filed.mono {n m : Nat} {p : Place} {r : Row} (h : r.Filed n p) (hnm : n ≤ m) :
    r.Filed m p :=
  ⟨h.1, Nat.le_trans h.2 hnm⟩

namespace Tables

variable {t : Tables}

/-- Each table is in the order of its keys and holds nothing but filed rows. -/
structure Sound (t : Tables) : Prop where
  sessions : Keyed.Ascending t.sessions
  encryptions : Keyed.Ascending t.encryptions
  filed : ∀ p r, t.row p = some r → r.Filed t.lastSession p

theorem Sound.empty : Sound {} :=
  ⟨Keyed.Ascending.nil, Keyed.Ascending.nil, fun p r h => by cases p <;> cases h⟩

theorem Sound.row_of_session (ht : t.Sound) {x : Nat × Session} (hx : x ∈ t.sessions) :
    t.row (.session x.1) = some (.session x.2) := by
  rw [row, ht.sessions.mem_iff.mp hx]
  rfl

theorem Sound.row_of_encryption (ht : t.Sound) {x : Nat × Encryption} (hx : x ∈ t.encryptions) :
    t.row (.encryption x.1) = some (.encryption x.2) := by
  rw [row, ht.encryptions.mem_iff.mp hx]
  rfl

/-- A session is filed under its id. -/
theorem Sound.id_of_session (ht : t.Sound) {x : Nat × Session} (hx : x ∈ t.sessions) :
    x.2.id = x.1 :=
  Place.session.inj (ht.filed _ _ (ht.row_of_session hx)).1

/-- An encryption row is filed under its session. -/
theorem Sound.id_of_encryption (ht : t.Sound) {x : Nat × Encryption} (hx : x ∈ t.encryptions) :
    x.2.sessionId = x.1 :=
  Place.encryption.inj (ht.filed _ _ (ht.row_of_encryption hx)).1

theorem row_delete (t : Tables) (id : Nat) (p : Place) :
    (t.delete id).row p = if p.sessionId = id then none else t.row p := by
  cases p with
  | session k =>
    rw [Tables.row, Tables.delete, Keyed.find?_erase]
    show _ = if k = id then none else _
    split <;> rfl
  | encryption k =>
    rw [Tables.row, Tables.delete, Keyed.find?_erase]
    show _ = if k = id then none else _
    split <;> rfl

theorem Sound.delete {t : Tables} (ht : t.Sound) (id : Nat) : (t.delete id).Sound := by
  refine ⟨ht.sessions.erase id, ht.encryptions.erase id, fun p r hr => ?_⟩
  rw [row_delete] at hr
  split at hr
  · cases hr
  · exact ht.filed p r hr

/-- Sound tables with the same rows have the same lists. -/
theorem Sound.ext_rows {t u : Tables} (ht : t.Sound) (hu : u.Sound)
    (h : ∀ p, t.row p = u.row p) : t.sessions = u.sessions ∧ t.encryptions = u.encryptions := by
  refine ⟨ht.sessions.ext hu.sessions fun k => ?_, ht.encryptions.ext hu.encryptions fun k => ?_⟩
  · exact (Option.map_inj_right fun _ _ => Row.session.inj).mp (h (.session k))
  · exact (Option.map_inj_right fun _ _ => Row.encryption.inj).mp (h (.encryption k))

end Tables

/-- What a record puts back is filed at its place. -/
structure Undo.Filed (n : Nat) (u : Undo) : Prop where
  known : u.sessionId ≤ n
  before : ∀ r, u.before = some r → r.place = u.place

theorem Undo.Filed.mono {n m : Nat} {u : Undo} (h : u.Filed n) (hnm : n ≤ m) : u.Filed m :=
  ⟨Nat.le_trans h.known hnm, h.before⟩

@[simp] theorem Undo.lastSession_apply (u : Undo) (t : Tables) :
    (u.apply t).lastSession = t.lastSession := by
  cases u <;> rfl

@[simp] theorem Undo.lastEncryption_apply (u : Undo) (t : Tables) :
    (u.apply t).lastEncryption = t.lastEncryption := by
  cases u <;> rfl

theorem Undo.apply_sound {u : Undo} {t : Tables} (ht : t.Sound) (hu : u.Filed t.lastSession) :
    (u.apply t).Sound where
  sessions := by
    cases u with
    | session id before => exact ascending_restore ht.sessions id before
    | encryption id before => exact ht.sessions
  encryptions := by
    cases u with
    | session id before => exact ht.encryptions
    | encryption id before => exact ascending_restore ht.encryptions id before
  filed p r hr := by
    rw [Undo.row_apply] at hr
    rw [Undo.lastSession_apply]
    split at hr
    · next hp =>
      subst hp
      exact ⟨hu.before r hr, u.sessionId_place ▸ hu.known⟩
    · exact ht.filed p r hr

@[simp] theorem Journal.lastSession_replay (j : Journal) (t : Tables) :
    (j.foldl Undo.apply t).lastSession = t.lastSession := by
  induction j generalizing t with
  | nil => rfl
  | cons u older ih => rw [List.foldl_cons, ih, Undo.lastSession_apply]

@[simp] theorem Journal.lastEncryption_replay (j : Journal) (t : Tables) :
    (j.foldl Undo.apply t).lastEncryption = t.lastEncryption := by
  induction j generalizing t with
  | nil => rfl
  | cons u older ih => rw [List.foldl_cons, ih, Undo.lastEncryption_apply]

@[simp] theorem Undo.users_apply (u : Undo) (t : Tables) : (u.apply t).users = t.users := by
  cases u <;> rfl

@[simp] theorem Journal.users_replay (j : Journal) (t : Tables) :
    (j.foldl Undo.apply t).users = t.users := by
  induction j generalizing t with
  | nil => rfl
  | cons u older ih => rw [List.foldl_cons, ih, Undo.users_apply]

theorem Journal.replay_sound {j : Journal} {t : Tables} (ht : t.Sound)
    (hj : ∀ u ∈ j, u.Filed t.lastSession) : (j.foldl Undo.apply t).Sound := by
  induction j generalizing t with
  | nil => exact ht
  | cons u older ih =>
    refine ih (Undo.apply_sound ht (hj u List.mem_cons_self)) fun v hv => ?_
    rw [Undo.lastSession_apply]
    exact hj v (List.mem_cons_of_mem _ hv)

end EventWorker
