import EventWorker.Proofs.Store.Runs

/-!
# Clients and their sessions

The main processors other than the authentication check neither add nor remove a session or
an encryption row of the client they serve: the sessions stay the same in all but the time of
their last use, and the encryption rows in all but their key states.

Results:
1. `Tables.mem_recipients?`: whom a lookup of recipients finds.
2. `Tables.clientRecipients?_spec`: whom it finds for a client, which is everybody once.
3. `Tables.SameClients.updateLastUpdated`, `Tables.SameClients.updateEncryption`: the updates
   keep the clients as they are.
-/

namespace EventWorker

namespace Tables

variable {t u : Tables} {value : String}

/-- Sessions have different values. -/
def Unambiguous (t : Tables) : Prop :=
  ∀ x ∈ t.sessions, ∀ y ∈ t.sessions, x.2.value = y.2.value → x = y

theorem sessionByValue?_spec {s : Session} (found : t.sessionByValue? value = some s) :
    (∃ key, (key, s) ∈ t.sessions) ∧ s.value = value := by
  obtain ⟨⟨key, row⟩, hfound, rfl⟩ := Option.map_eq_some_iff.mp found
  have named := List.find?_some hfound
  exact ⟨⟨key, List.mem_of_find?_eq_some hfound⟩, of_decide_eq_true named⟩

theorem sessionByValue?_of_mem {x : Nat × Session} (hx : x ∈ t.sessions) :
    ∃ s, t.sessionByValue? x.2.value = some s := by
  refine Option.isSome_iff_exists.mp ?_
  rw [sessionByValue?, Option.isSome_map, List.find?_isSome]
  exact ⟨x, hx, decide_eq_true rfl⟩

/-! ## Recipients -/

/-- The session with a value as a destination, or all those of its client. -/
def recipients? (multiple : Bool) (t : Tables) (value : String) : Option (List Recipient) :=
  if multiple then t.clientRecipients? value else t.recipientsOf? value

/-- The row is a session of a client and has an encryption row. -/
def Receives (t : Tables) (client : Nat) (x : Nat × Session) : Prop :=
  x ∈ t.sessions ∧ x.2.client = client ∧ Keyed.contains x.2.id t.encryptions = true

theorem recipient?_spec {s : Session} {r : Recipient} (found : t.recipient? s = some r) :
    Keyed.contains s.id t.encryptions = true ∧ r.value = s.value := by
  obtain ⟨row, hrow, rfl⟩ := Option.map_eq_some_iff.mp found
  exact ⟨Option.isSome_iff_exists.mpr ⟨row, hrow⟩, rfl⟩

theorem recipient?_of_contains {s : Session} (held : Keyed.contains s.id t.encryptions = true) :
    ∃ r, t.recipient? s = some r := by
  obtain ⟨row, hrow⟩ := Option.isSome_iff_exists.mp held
  exact ⟨s.recipient row, by rw [recipient?, hrow]; rfl⟩

theorem clientRecipients?_eq {rows : List Recipient}
    (found : t.clientRecipients? value = some rows) :
    ∃ owner, t.sessionByValue? value = some owner ∧
      rows = ((t.sessions.map Prod.snd).filter fun s => s.client = owner.client).filterMap
        t.recipient? := by
  obtain ⟨owner, howner, rfl⟩ := Option.map_eq_some_iff.mp found
  exact ⟨owner, howner, rfl⟩

/-- A recipient that is found is a session of the client that owns the session asked for. -/
theorem mem_recipients? {multiple : Bool} {rows : List Recipient} {r : Recipient}
    (found : recipients? multiple t value = some rows) (hr : r ∈ rows) :
    ∃ owner x, t.sessionByValue? value = some owner ∧ t.Receives owner.client x ∧
      x.2.value = r.value := by
  cases multiple with
  | false =>
    obtain ⟨owner, howner, one⟩ := Option.bind_eq_some_iff.mp found
    obtain ⟨r', hr', rfl⟩ := Option.map_eq_some_iff.mp one
    cases List.mem_singleton.mp hr
    obtain ⟨held, same⟩ := recipient?_spec hr'
    obtain ⟨⟨key, hmem⟩, -⟩ := sessionByValue?_spec howner
    exact ⟨owner, (key, owner), howner, ⟨hmem, rfl, held⟩, same.symm⟩
  | true =>
    obtain ⟨owner, howner, rfl⟩ := clientRecipients?_eq found
    obtain ⟨s, hs, hr⟩ := List.mem_filterMap.mp hr
    obtain ⟨hs, client⟩ := List.mem_filter.mp hs
    obtain ⟨x, hx, rfl⟩ := List.mem_map.mp hs
    obtain ⟨held, same⟩ := recipient?_spec hr
    exact ⟨owner, x, howner, ⟨hx, of_decide_eq_true client, held⟩, same.symm⟩

/-- Every session of the client that has an encryption row is found, and once. -/
theorem clientRecipients?_spec (ht : t.Sound) (unambiguous : t.Unambiguous)
    {rows : List Recipient} (found : t.clientRecipients? value = some rows) {owner : Session}
    (howner : t.sessionByValue? value = some owner) :
    (rows.map Recipient.value).Nodup ∧
      ∀ x, t.Receives owner.client x → ∃ r ∈ rows, r.value = x.2.value := by
  obtain ⟨_, howner', rfl⟩ := clientRecipients?_eq found
  cases howner.symm.trans howner'
  constructor
  · have values : (t.sessions.map Prod.snd).Pairwise fun s s' => s.value ≠ s'.value := by
      refine List.pairwise_map.mpr (List.Pairwise.imp_of_mem (fun hx hy hlt hv => ?_) ht.sessions)
      rw [unambiguous _ hx _ hy hv] at hlt
      exact Nat.lt_irrefl _ hlt
    refine List.pairwise_map.mpr (List.pairwise_filterMap.mpr ?_)
    refine (values.filter _).imp fun {s s'} hne r hr r' hr' => ?_
    rw [(recipient?_spec hr).2, (recipient?_spec hr').2]
    exact hne
  · rintro x ⟨hx, client, held⟩
    obtain ⟨r, hr⟩ := recipient?_of_contains held
    refine ⟨r, List.mem_filterMap.mpr ⟨x.2, List.mem_filter.mpr ⟨?_, ?_⟩, hr⟩,
      (recipient?_spec hr).2⟩
    · exact List.mem_map_of_mem hx
    · exact decide_eq_true client

/-- The session asked for is itself among the recipients if it has an encryption row. -/
theorem recipients?_self {multiple : Bool} {rows : List Recipient}
    (found : recipients? multiple t value = some rows) {row : Encryption}
    (key : t.encryptionFor? value = some row) :
    ∃ r ∈ rows, r.value = value ∧ r.state = row.state := by
  obtain ⟨owner, howner, hrow⟩ := Option.bind_eq_some_iff.mp key
  obtain ⟨⟨place, hmem⟩, named⟩ := sessionByValue?_spec howner
  have one : t.recipient? owner = some (owner.recipient row) := by
    rw [recipient?, hrow]
    rfl
  refine ⟨owner.recipient row, ?_, named, rfl⟩
  cases multiple with
  | false =>
    have only : t.recipientsOf? value = some [owner.recipient row] := by
      rw [recipientsOf?, howner, Option.bind_some, one]
      rfl
    cases only.symm.trans found
    exact List.mem_cons_self
  | true =>
    obtain ⟨_, howner', rfl⟩ := clientRecipients?_eq found
    cases howner.symm.trans howner'
    refine List.mem_filterMap.mpr ⟨owner, List.mem_filter.mpr ⟨?_, decide_eq_true rfl⟩, one⟩
    exact List.mem_map_of_mem hmem

/-- The key state that was written is that of the session. -/
theorem encryptionFor?_updateEncryption {s : Session} {state : KeyState} {undo : Undo}
    (found : t.sessionByValue? value = some s)
    (done : t.updateEncryption s.id state = .ok (undo, u)) :
    ∃ row, u.encryptionFor? value = some row ∧ row.state = state := by
  unfold updateEncryption at done
  cases held : Keyed.find? s.id t.encryptions with
  | none =>
    rw [held] at done
    cases done
  | some row =>
    rw [held] at done
    cases done
    refine ⟨{ row with sessionId := s.id, state }, ?_, rfl⟩
    refine Option.bind_eq_some_iff.mpr ⟨s, found, ?_⟩
    rw [Keyed.find?_insert, if_pos rfl]

/-! ## The same clients -/

/-- What stays the same about a session as long as it is there. -/
def identity (x : Nat × Session) : Nat × Nat × Nat × String :=
  (x.1, x.2.id, x.2.client, x.2.value)

/-- The same sessions, and encryption rows for the same of them. -/
structure SameClients (t u : Tables) : Prop where
  sessions : u.sessions.map identity = t.sessions.map identity
  encryptions : Keyed.keys u.encryptions = Keyed.keys t.encryptions

namespace SameClients

theorem refl (t : Tables) : t.SameClients t :=
  ⟨rfl, rfl⟩

theorem symm (h : t.SameClients u) : u.SameClients t :=
  ⟨h.sessions.symm, h.encryptions.symm⟩

theorem trans {v : Tables} (h : t.SameClients u) (h' : u.SameClients v) : t.SameClients v :=
  ⟨h'.sessions.trans h.sessions, h'.encryptions.trans h.encryptions⟩

theorem mem_sessions (h : t.SameClients u) {x : Nat × Session} (hx : x ∈ u.sessions) :
    ∃ y ∈ t.sessions, identity y = identity x := by
  have hmem : identity x ∈ u.sessions.map identity := List.mem_map_of_mem hx
  rw [h.sessions] at hmem
  exact List.mem_map.mp hmem

theorem contains (h : t.SameClients u) (id : Nat) :
    Keyed.contains id u.encryptions = Keyed.contains id t.encryptions := by
  rw [Bool.eq_iff_iff, Keyed.contains_iff_mem_keys, Keyed.contains_iff_mem_keys, h.encryptions]

theorem receives (h : t.SameClients u) {client : Nat} {x : Nat × Session}
    (hx : u.Receives client x) : ∃ y, t.Receives client y ∧ y.2.value = x.2.value := by
  obtain ⟨hmem, hclient, held⟩ := hx
  obtain ⟨y, hy, same⟩ := h.mem_sessions hmem
  obtain ⟨-, id, client', value⟩ : y.1 = x.1 ∧ y.2.id = x.2.id ∧ y.2.client = x.2.client ∧
      y.2.value = x.2.value := by simpa [identity] using same
  refine ⟨y, ⟨hy, client'.trans hclient, ?_⟩, value⟩
  rw [id, ← h.contains]
  exact held

theorem unambiguous (h : t.SameClients u) (ht : t.Unambiguous) (hu : u.Sound) :
    u.Unambiguous := by
  intro x hx y hy hv
  obtain ⟨x', hx', sx⟩ := h.mem_sessions hx
  obtain ⟨y', hy', sy⟩ := h.mem_sessions hy
  simp only [identity, Prod.mk.injEq] at sx sy
  have same : x' = y' := ht x' hx' y' hy' (sx.2.2.2.trans (hv.trans sy.2.2.2.symm))
  have key : x.1 = y.1 := sx.1.symm.trans (same ▸ sy.1)
  have found := hu.sessions.mem_iff.mp hy
  rw [← key] at found
  exact Prod.ext key (Option.some.inj ((hu.sessions.mem_iff.mp hx).symm.trans found))

/-- The session with a value belongs to the same client. -/
theorem client (h : t.SameClients u) (unambiguous : t.Unambiguous) {x : Nat × Session}
    (hx : x ∈ t.sessions) {owner : Session} (found : u.sessionByValue? x.2.value = some owner) :
    owner.client = x.2.client := by
  obtain ⟨⟨key, hmem⟩, named⟩ := sessionByValue?_spec found
  obtain ⟨y, hy, same⟩ := h.mem_sessions hmem
  simp only [identity, Prod.mk.injEq] at same
  rw [← same.2.2.1, unambiguous y hy x hx (same.2.2.2.trans named)]

theorem sessionByValue? (h : t.SameClients u) {x : Nat × Session} (hx : x ∈ t.sessions) :
    ∃ s, u.sessionByValue? x.2.value = some s := by
  obtain ⟨y, hy, same⟩ := h.symm.mem_sessions hx
  simp only [identity, Prod.mk.injEq] at same
  rw [← same.2.2.2]
  exact sessionByValue?_of_mem hy

theorem encryptionFor?_eq (t : Tables) (value : String) :
    t.encryptionFor? value =
      ((t.sessions.map identity).find? fun x => x.2.2.2 = value).bind fun x =>
        Keyed.find? x.2.1 t.encryptions := by
  rw [List.find?_map, encryptionFor?, Tables.sessionByValue?, Option.bind_map, Option.bind_map]
  rfl

/-- The session with a value is the same one, so only its own encryption row matters. -/
theorem encryptionFor?_same (h : t.SameClients u) (same : u.encryptions = t.encryptions)
    (value : String) : u.encryptionFor? value = t.encryptionFor? value := by
  rw [encryptionFor?_eq, encryptionFor?_eq, h.sessions, same]

/-- It has an encryption row as before. -/
theorem encryptionFor? (h : t.SameClients u) {row : Encryption}
    (key : t.encryptionFor? value = some row) : ∃ row', u.encryptionFor? value = some row' := by
  rw [encryptionFor?_eq] at key ⊢
  obtain ⟨x, found, hrow⟩ := Option.bind_eq_some_iff.mp key
  obtain ⟨row', hrow'⟩ : ∃ row', Keyed.find? x.2.1 u.encryptions = some row' := by
    refine Option.isSome_iff_exists.mp ?_
    have held : Keyed.contains x.2.1 t.encryptions = true :=
      Option.isSome_iff_exists.mpr ⟨row, hrow⟩
    rw [← h.contains] at held
    exact held
  exact ⟨row', Option.bind_eq_some_iff.mpr ⟨x, h.sessions ▸ found, hrow'⟩⟩

theorem updateLastUpdated (ht : t.Sound) {time : Int} {undo : Undo}
    (done : t.updateLastUpdated value time = .ok (undo, u)) : t.SameClients u := by
  unfold Tables.updateLastUpdated at done
  cases hs : t.sessionByValue? value with
  | none =>
    rw [hs] at done
    cases done
  | some s =>
    rw [hs] at done
    cases done
    exact ⟨ht.sessions.map_insert (ht.find?_of_sessionByValue? hs) rfl, rfl⟩

theorem updateEncryption (ht : t.Sound) {id : Nat} {state : KeyState} {undo : Undo}
    (done : t.updateEncryption id state = .ok (undo, u)) : t.SameClients u := by
  unfold Tables.updateEncryption at done
  cases hs : Keyed.find? id t.encryptions with
  | none =>
    rw [hs] at done
    cases done
  | some row =>
    rw [hs] at done
    cases done
    exact ⟨rfl, ht.encryptions.map_insert hs rfl⟩

end SameClients

end Tables

/-- The write does not add a row. -/
def Write.Updates : Write → Prop
  | .createSession .. | .createEncryption .. => False
  | .updateLastUpdated .. | .updateEncryption .. => True

namespace Store

variable {s : Store}

/-- Updates keep the clients, and the store available. -/
theorem perform_update (hs : s.Sound) {w : Write} (updates : w.Updates) (thread : String) :
    s.tables.SameClients (s.perform ⟨thread, .write w⟩).tables ∧
      (s.perform ⟨thread, .write w⟩).unavailable = s.unavailable := by
  constructor
  · rcases s.tables_perform_write thread w with same | ⟨undo, done⟩
    · rw [same]
      exact .refl _
    · cases w with
      | createSession => exact updates.elim
      | createEncryption => exact updates.elim
      | updateLastUpdated value time => exact .updateLastUpdated hs.tables done
      | updateEncryption id state => exact .updateEncryption hs.tables done
  · rw [perform_write]
    split
    · rw [unavailable_record]
    · rfl

/-- The use of a session leaves the encryption rows as they are. -/
theorem encryptions_touched (s : Store) (thread value : String) (time : Int) :
    (s.perform ⟨thread, .write (.updateLastUpdated value time)⟩).tables.encryptions =
      s.tables.encryptions := by
  rcases s.tables_perform_write thread (.updateLastUpdated value time) with same | ⟨undo, done⟩
  · rw [same]
  · generalize (s.perform ⟨thread, .write (.updateLastUpdated value time)⟩).tables = t at done ⊢
    simp only [Write.apply, Tables.updateLastUpdated] at done
    split at done <;> cases done
    rfl

end Store

end EventWorker
