import EventWorker.Proofs.Store.Pairing

/-!
# Who has which key

The key state of a session is that of its encryption row. Sessions of one value would share it,
so it is told apart only in tables whose sessions have different values.

Results:
1. `recipients?_keyState?`: a recipient has the key state of its session.
2. `keyState?_updateEncryption`: the choice of a suite changes the key state of one session.
3. `keyState?_delete`: no key state is new after a deletion.
-/

namespace EventWorker

namespace Tables

variable {t u : Tables} {value : String}

/-- The key state of the session with a value. -/
def keyState? (t : Tables) (value : String) : Option KeyState :=
  (t.encryptionFor? value).map Encryption.state

/-- Sessions of one id are the same. -/
theorem Sound.session_ext (sound : t.Sound) {x y : Nat × Session} (hx : x ∈ t.sessions)
    (hy : y ∈ t.sessions) (same : x.2.id = y.2.id) : x = y := by
  rw [sound.id_of_session hx, sound.id_of_session hy] at same
  have filed := sound.sessions.mem_iff.mp hx
  rw [same] at filed
  exact Prod.ext same (Option.some.inj (filed.symm.trans (sound.sessions.mem_iff.mp hy)))

theorem Paired.unambiguous (paired : t.Paired) (sound : t.Sound) : t.Unambiguous :=
  (paired.exactly sound).1.values

/-- A session that is there is the one with its value. -/
theorem Unambiguous.sessionByValue? (unambiguous : t.Unambiguous) {x : Nat × Session}
    (hx : x ∈ t.sessions) : t.sessionByValue? x.2.value = some x.2 := by
  obtain ⟨s, found⟩ := sessionByValue?_of_mem hx
  obtain ⟨⟨key, hs⟩, same⟩ := sessionByValue?_spec found
  rw [found, ← unambiguous _ hs _ hx same]

theorem Unambiguous.keyState? (unambiguous : t.Unambiguous) {x : Nat × Session}
    (hx : x ∈ t.sessions) :
    t.keyState? x.2.value = (Keyed.find? x.2.id t.encryptions).map Encryption.state := by
  rw [Tables.keyState?, encryptionFor?, unambiguous.sessionByValue? hx]
  rfl

theorem keyState?_spec {k : KeyState} (key : t.keyState? value = some k) :
    ∃ x ∈ t.sessions, x.2.value = value ∧
      (Keyed.find? x.2.id t.encryptions).map Encryption.state = some k := by
  obtain ⟨row, found, rfl⟩ := Option.map_eq_some_iff.mp key
  obtain ⟨s, hs, hrow⟩ := Option.bind_eq_some_iff.mp found
  obtain ⟨⟨place, hmem⟩, named⟩ := sessionByValue?_spec hs
  exact ⟨(place, s), hmem, named, by rw [hrow]; rfl⟩

/-- A recipient is found with the key state of its session. -/
theorem recipients?_keyState? (unambiguous : t.Unambiguous) {multiple : Bool}
    {rows : List Recipient} (found : recipients? multiple t value = some rows) {r : Recipient}
    (hr : r ∈ rows) : t.keyState? r.value = some r.state := by
  obtain ⟨x, hx, one⟩ : ∃ x ∈ t.sessions, t.recipient? x.2 = some r := by
    cases multiple with
    | false =>
      obtain ⟨owner, howner, one⟩ := Option.bind_eq_some_iff.mp found
      obtain ⟨r', hr', rfl⟩ := Option.map_eq_some_iff.mp one
      cases List.mem_singleton.mp hr
      obtain ⟨⟨place, hmem⟩, -⟩ := sessionByValue?_spec howner
      exact ⟨_, hmem, hr'⟩
    | true =>
      obtain ⟨owner, -, rfl⟩ := clientRecipients?_eq found
      obtain ⟨s, hs, one⟩ := List.mem_filterMap.mp hr
      obtain ⟨x, hx, rfl⟩ := List.mem_map.mp (List.mem_filter.mp hs).1
      exact ⟨x, hx, one⟩
  obtain ⟨row, hrow, rfl⟩ := Option.map_eq_some_iff.mp one
  show t.keyState? x.2.value = some row.state
  rw [unambiguous.keyState? hx, hrow]
  rfl

/-! ## Changes -/

/-- The key states are those of the sessions and the encryption rows. -/
theorem keyState?_congr (sessions : u.sessions = t.sessions)
    (encryptions : u.encryptions = t.encryptions) (value : String) :
    u.keyState? value = t.keyState? value := by
  unfold keyState? encryptionFor? sessionByValue?
  rw [sessions, encryptions]

theorem SameClients.keyState? (h : t.SameClients u) (same : u.encryptions = t.encryptions)
    (value : String) : u.keyState? value = t.keyState? value :=
  congrArg (Option.map Encryption.state) (h.encryptionFor?_same same value)

/-- The key state that is written is that of one session. -/
theorem keyState?_updateEncryption (sound : t.Sound) {s : Session} {state : KeyState}
    {undo : Undo} (found : t.sessionByValue? value = some s)
    (done : t.updateEncryption s.id state = .ok (undo, u)) (value' : String) :
    u.keyState? value' = if value' = value then some state else t.keyState? value' := by
  split
  · next same =>
    obtain ⟨row, key, written⟩ := encryptionFor?_updateEncryption found done
    rw [same, keyState?, key, ← written]
    rfl
  · next other =>
    unfold updateEncryption at done
    cases held : Keyed.find? s.id t.encryptions with
    | none =>
      rw [held] at done
      cases done
    | some row =>
      rw [held] at done
      cases done
      obtain ⟨⟨place, hs⟩, named⟩ := sessionByValue?_spec found
      unfold keyState? encryptionFor?
      refine congrArg _ (Option.bind_congr fun s' hs' => ?_)
      obtain ⟨⟨place', hmem'⟩, named'⟩ := sessionByValue?_spec (t := t) hs'
      have apart : s'.id ≠ s.id := by
        intro same
        cases sound.session_ext hmem' hs same
        exact other (named'.symm.trans named)
      rw [Keyed.find?_insert, if_neg apart]

/-- A session that is removed takes its key state with it. -/
theorem keyState?_delete (sound : t.Sound) (unambiguous : t.Unambiguous) {id : Nat} {k : KeyState}
    (key : (t.delete id).keyState? value = some k) : t.keyState? value = some k := by
  obtain ⟨x, hx, rfl, hrow⟩ := keyState?_spec key
  obtain ⟨held, other⟩ := List.mem_filter.mp hx
  have other : x.2.id ≠ id := sound.id_of_session held ▸ of_decide_eq_true other
  have same : Keyed.find? x.2.id (t.delete id).encryptions = Keyed.find? x.2.id t.encryptions :=
    (Keyed.find?_erase _ _ _).trans (if_neg other)
  rw [unambiguous.keyState? held, ← same, hrow]

end Tables

end EventWorker
