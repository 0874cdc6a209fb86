import EventWorker.Processor.Delivery
import EventWorker.Proofs.Dispatch.Routed
import EventWorker.Proofs.Memory
import Mathlib.Data.List.Forall2

/-!
# Sealed copies

`multiply` replaces the waiting events by sealed copies for the recipients among the scratch
values. A recipient that is written as a scratch value and read again is the same recipient.

Results:
1. `Recipient.ofValue?_toValue`, `Recipient.mapM_ofValue?`: reading what was written.
2. `Event.SealedAs.envelope`: a copy under a key state with a cipher is an envelope.
3. `multiply_ended`: the copies that `multiply` makes, one of each event for each recipient.
4. `multiply_ends`: without recipients it makes none and cannot fail.
5. `multiply_seals`: nor does it fail when every event is sealed for every recipient.
-/

namespace EventWorker

/-! ## Recipients as scratch values -/

namespace Json.Value

theorem nat?_nat {n m : Nat} (h : (nat n).nat? = some m) : m = n := by
  change (if fitsUnsigned n then some n else none) = some m at h
  split at h
  · exact (Option.some.inj h).symm
  · cases h

theorem int?_int {n m : Int} (h : (int n).int? = some m) : m = n := by
  change (if fitsSigned n then some n else none) = some m at h
  split at h
  · exact (Option.some.inj h).symm
  · cases h

end Json.Value

namespace Recipient

open Json (Value FieldSpec)

theorem record?_toValue (r : Recipient) :
    Json.record? [.required "client", .required "value", .required "cipher_name",
        .required "cipher_mode", .required "cipher_keylength", .required "key",
        .required "integrity_fun", .required "encoding"] r.toValue =
      some [some (.nat r.client), some (.str r.value), some (.str r.state.cipher),
        some (.str r.state.mode), some (.int r.state.keyLength), some (.str r.state.key),
        some (.str r.state.integrity), some (.str r.state.encoding)] := by
  simp [Json.record?, toValue, Value.object, KeyState.fields, Keyed.ofList, Keyed.find?_insert,
    FieldSpec.read?, FieldSpec.required]

/-- What is read is what was written, if the numbers fit their words. -/
theorem ofValue?_toValue {r r' : Recipient} (h : ofValue? r.toValue = some r') : r' = r := by
  unfold ofValue? at h
  rw [record?_toValue] at h
  simp only [Option.bind_eq_bind, Option.bind_some, Value.str?, Option.bind_eq_some_iff] at h
  obtain ⟨client, hclient, keyLength, hkeyLength, h⟩ := h
  rw [← Option.some.inj h, Value.nat?_nat hclient, Value.int?_int hkeyLength]

theorem mapM_ofValue? {rs rs' : List Recipient}
    (h : (rs.map toValue).mapM ofValue? = some rs') : rs' = rs := by
  induction rs generalizing rs' with
  | nil => exact (Option.some.inj h).symm
  | cons r rest ih =>
    rw [List.map_cons, List.mapM_cons] at h
    obtain ⟨r', hr, h⟩ := Option.bind_eq_some_iff.mp h
    obtain ⟨rest', hrest, h⟩ := Option.bind_eq_some_iff.mp h
    rw [← Option.some.inj h, ofValue?_toValue hr, ih hrest]

end Recipient

/-! ## Copies -/

namespace Event

/-- A result of sealing an event under a key state, with some fresh bytes. -/
def SealedAs (toolkit : Toolkit) (k : KeyState) (x y : Event) : Prop :=
  ∃ draw, x.sealUnder k toolkit draw = .ok y

/-- An event whose payload is the text of another one, without its session, in an envelope
under the key of a key state. -/
def EnvelopeOf (toolkit : Toolkit) (k : KeyState) (x y : Event) : Prop :=
  ∃ cipher key draw envelope, toolkit.cipher k.cipher = .ok cipher ∧
    decodeBase64 k.key = .ok key ∧
    Envelope.wrap cipher toolkit.codecs draw x.withoutSession.render k.params key k.encoding =
      .ok envelope ∧
    y.header.sealing = some 1 ∧ y.payload = envelope.fields

theorem SealedAs.envelope {toolkit : Toolkit} {k : KeyState} {x y : Event}
    (h : SealedAs toolkit k x y) (encrypted : k.isPlaintext = false) :
    EnvelopeOf toolkit k x y := by
  obtain ⟨draw, h⟩ := h
  unfold sealUnder at h
  rw [encrypted, if_neg Bool.false_ne_true] at h
  obtain ⟨cipher, hcipher, h⟩ := exists_of_bind_ok h
  obtain ⟨digest, -, h⟩ := exists_of_bind_ok h
  obtain ⟨key, hkey, h⟩ := exists_of_bind_ok h
  obtain ⟨envelope, hwrap, h⟩ := exists_of_bind_ok h
  cases h
  exact ⟨cipher, key, draw, envelope, hcipher, hkey, hwrap, rfl, rfl⟩

end Event

theorem exists_of_forall₂ {α β : Type} {R : α → β → Prop} {xs : List α} {ys : List β}
    (h : List.Forall₂ R xs ys) {y : β} (hy : y ∈ ys) : ∃ x ∈ xs, R x y := by
  induction h with
  | nil => cases hy
  | cons first rest ih =>
    rcases List.mem_cons.mp hy with rfl | hy
    · exact ⟨_, List.mem_cons_self, first⟩
    · obtain ⟨x, hx, related⟩ := ih hy
      exact ⟨x, List.mem_cons_of_mem _ hx, related⟩

/-- A copy of an event for a recipient, with its destination. -/
def CopyFor (toolkit : Toolkit) (x : Event) (r : Recipient) (entry : String × Event) : Prop :=
  entry.1 = r.value ∧ x.SealedAs toolkit r.state entry.2

/-- Copies of an event, one for each of some recipients in order. -/
abbrev CopiesFor (toolkit : Toolkit) (rs : List Recipient) (x : Event)
    (copies : List (String × Event)) : Prop :=
  List.Forall₂ (CopyFor toolkit x) rs copies

/-- Among copies for different sessions there is one for each recipient. -/
theorem CopiesFor.filter {toolkit : Toolkit} {rs : List Recipient} {x : Event}
    {copies : List (String × Event)} (h : CopiesFor toolkit rs x copies)
    (different : (rs.map Recipient.value).Nodup) {r : Recipient} (hr : r ∈ rs) :
    ∃ y, (copies.filter fun entry => entry.1 = r.value) = [(r.value, y)] ∧
      x.SealedAs toolkit r.state y := by
  induction h with
  | nil => cases hr
  | @cons r' entry rest copies copy rest_copies ih =>
    obtain ⟨fresh, different⟩ := List.nodup_cons.mp different
    obtain ⟨destination, y⟩ := entry
    obtain ⟨rfl, sealed⟩ := copy
    rcases List.mem_cons.mp hr with rfl | hr
    · refine ⟨y, ?_, sealed⟩
      -- No copy of the rest goes to the same session.
      have others : (copies.filter fun entry => entry.1 = r.value) = [] := by
        refine List.filter_eq_nil_iff.mpr fun entry hentry same => ?_
        obtain ⟨r', hr', copy⟩ := exists_of_forall₂ rest_copies hentry
        exact fresh (List.mem_map.mpr ⟨r', hr', copy.1.symm.trans (of_decide_eq_true same)⟩)
      rw [List.filter_cons_of_pos (by simp), others]
    · have other : r'.value ≠ r.value := by
        intro same
        exact fresh (List.mem_map.mpr ⟨r, hr, same.symm⟩)
      rw [List.filter_cons_of_neg (by simpa using other)]
      exact ih different hr

/-- Every copy is for one of the recipients. -/
theorem mem_copies {toolkit : Toolkit} {rs : List Recipient} {xs : List Event}
    {blocks : List (List (String × Event))} (h : List.Forall₂ (CopiesFor toolkit rs) xs blocks)
    {entry : String × Event} (hentry : entry ∈ blocks.flatten) :
    ∃ r ∈ rs, ∃ x ∈ xs, CopyFor toolkit x r entry := by
  obtain ⟨copies, hcopies, hentry⟩ := List.mem_flatten.mp hentry
  obtain ⟨x, hx, all⟩ := exists_of_forall₂ h hcopies
  obtain ⟨r, hr, copy⟩ := exists_of_forall₂ all hentry
  exact ⟨r, hr, x, hx, copy⟩

/-- What goes to one of several different recipients is a copy of each event, in order. -/
theorem copies_filter {toolkit : Toolkit} {rs : List Recipient} {xs : List Event}
    {blocks : List (List (String × Event))} (h : List.Forall₂ (CopiesFor toolkit rs) xs blocks)
    (different : (rs.map Recipient.value).Nodup) {r : Recipient} (hr : r ∈ rs) :
    List.Forall₂ (fun x y => x.SealedAs toolkit r.state y) xs
      ((blocks.flatten.filter fun entry => entry.1 = r.value).map Prod.snd) := by
  induction h with
  | nil => exact .nil
  | cons first rest ih =>
    obtain ⟨y, only, sealed⟩ := first.filter different hr
    rw [List.flatten_cons, List.filter_append, only, List.singleton_append, List.map_cons]
    exact .cons sealed ih

namespace Processor

variable {ω : Type} {services : Services ω} {toolkit : Toolkit} {b c : Bench ω}

theorem sealFor_ended {e : Event} {rs : List Recipient}
    (ended : (sealFor services toolkit e rs).outcome b = (.ok (), c)) :
    c.data = b.data ∧
      ∃ copies, CopiesFor toolkit rs e copies ∧ c.events = b.events.pushEach copies := by
  induction rs generalizing b with
  | nil =>
    cases ended
    exact ⟨rfl, [], .nil, rfl⟩
  | cons r rest ih =>
    obtain ⟨draw, b₁, drawn, ended⟩ := Step.bind_ended ended
    obtain ⟨copy, b₂, sealed, ended⟩ := Step.bind_ended ended
    obtain ⟨_, b₃, pushed, ended⟩ := Step.bind_ended ended
    obtain ⟨data, copies, all, events⟩ := ih ended
    cases drawn
    have hcopy := mapError_ok (congrArg Prod.fst sealed)
    obtain rfl := congrArg Prod.snd sealed
    cases pushed
    exact ⟨data, (r.value, copy) :: copies, .cons ⟨rfl, _, hcopy⟩ all, events⟩

/-- Copies are made for the recipients under the session of the waiting events. -/
theorem sealAll_ended {session : String} {rs : List Recipient} {xs : List Event}
    (same : ∀ x ∈ xs, x.header.session = session)
    (loaded : b.data.get session = rs.map Recipient.toValue)
    (ended : (sealAll services toolkit xs).outcome b = (.ok (), c)) :
    ∃ blocks, List.Forall₂ (CopiesFor toolkit rs) xs blocks ∧
      c.events = b.events.pushEach blocks.flatten := by
  induction xs generalizing b with
  | nil =>
    cases ended
    exact ⟨[], .nil, rfl⟩
  | cons x rest ih =>
    obtain ⟨rows, b₁, read, ended⟩ := Step.bind_ended ended
    cases read
    rw [same x List.mem_cons_self, loaded] at ended
    cases hrs : (rs.map Recipient.toValue).mapM Recipient.ofValue? with
    | none =>
      rw [hrs] at ended
      cases ended
    | some rs' =>
      rw [hrs, Recipient.mapM_ofValue? hrs] at ended
      obtain ⟨_, b₂, sealed, ended⟩ := Step.bind_ended ended
      obtain ⟨data, copies, all, events⟩ := sealFor_ended sealed
      obtain ⟨blocks, others, events'⟩ :=
        ih (fun y hy => same y (List.mem_cons_of_mem _ hy)) (data ▸ loaded) ended
      refine ⟨copies :: blocks, .cons all others, ?_⟩
      rw [events', events, List.flatten_cons, Memory.pushEach_append]

theorem sealAll_ends {session : String} {xs : List Event}
    (same : ∀ x ∈ xs, x.header.session = session) (nobody : b.data.get session = []) :
    (sealAll services toolkit xs).outcome b = (.ok (), b) := by
  induction xs with
  | nil => rfl
  | cons x rest ih =>
    have read : (Step.ofState fun b : Bench ω => (b.data.get x.header.session, b)).outcome b =
        ((.ok [], b) : Except Failure _ × _) := by
      rw [Step.outcome_ofState, same x List.mem_cons_self, nobody]
    rw [sealAll, Step.outcome_bind_ok read]
    refine (Step.outcome_bind_ok (Step.outcome_pure () b)).trans ?_
    exact ih fun y hy => same y (List.mem_cons_of_mem _ hy)

variable {providers : Providers} {session : String}

/-- The waiting events are taken, and what is left of `multiply` runs on them. -/
theorem outcome_multiply (b : Bench ω) :
    (multiply services providers).outcome b =
      (if b.events.values.isEmpty then pure ()
        else Step.ofResult providers.toolkit >>= fun toolkit =>
          sealAll services toolkit b.events.values : Act (Bench ω) Unit).outcome
        { b with events := b.events.drain.2 } := by
  rw [Memory.values_eq]
  rfl

/-- The waiting events are replaced by a copy of each for each recipient. -/
theorem multiply_ended (set : providers.toolkit = .ok toolkit) {rs : List Recipient}
    (same : ∀ x ∈ b.events.values, x.header.session = session)
    (loaded : b.data.get session = rs.map Recipient.toValue)
    (ended : (multiply services providers).outcome b = (.ok (), c)) :
    ∃ blocks, List.Forall₂ (CopiesFor toolkit rs) b.events.values blocks ∧
      c.events = b.events.drain.2.pushEach blocks.flatten := by
  rw [outcome_multiply, set] at ended
  split at ended
  · next nothing =>
    cases ended
    exact ⟨[], by rw [List.isEmpty_iff.mp nothing]; exact .nil, rfl⟩
  · exact sealAll_ended (b := { b with events := b.events.drain.2 }) same loaded ended

/-- When an event is sealed for all recipients, whatever bytes are drawn, nothing fails. -/
theorem sealFor_seals {e : Event} {rs : List Recipient}
    (seals : ∀ r ∈ rs, ∀ w, ∃ y, e.sealUnder r.state toolkit (services.draw w).1 = .ok y)
    (b : Bench ω) :
    ∃ c, (sealFor services toolkit e rs).outcome b = (.ok (), c) ∧ c.data = b.data := by
  induction rs generalizing b with
  | nil => exact ⟨b, rfl, rfl⟩
  | cons r rest ih =>
    obtain ⟨y, sealed⟩ := seals r List.mem_cons_self b.world
    obtain ⟨c, ended, data⟩ := ih (fun r' hr' => seals r' (List.mem_cons_of_mem _ hr'))
      (Bench.pushEvent { b with world := (services.draw b.world).2 } r.value y)
    refine ⟨c, ?_, data⟩
    have drawn : (Bench.onWorld (Step.ofState services.draw) : Act (Bench ω) _).outcome b =
        (.ok (services.draw b.world).1, { b with world := (services.draw b.world).2 }) := rfl
    rw [sealFor, Step.outcome_bind_ok drawn, sealed]
    exact ended

theorem sealAll_seals {session : String} {rs : List Recipient} {xs : List Event}
    (same : ∀ x ∈ xs, x.header.session = session)
    (read : (b.data.get session).mapM Recipient.ofValue? = some rs)
    (seals : ∀ x ∈ xs, ∀ r ∈ rs, ∀ w,
      ∃ y, x.sealUnder r.state toolkit (services.draw w).1 = .ok y) :
    ∃ c, (sealAll services toolkit xs).outcome b = (.ok (), c) := by
  induction xs generalizing b with
  | nil => exact ⟨b, rfl⟩
  | cons x rest ih =>
    obtain ⟨mid, sealed, data⟩ := sealFor_seals (seals x List.mem_cons_self) b
    obtain ⟨c, ended⟩ := ih (fun y hy => same y (List.mem_cons_of_mem _ hy)) (data ▸ read)
      fun y hy => seals y (List.mem_cons_of_mem _ hy)
    have found : (Step.ofState fun b : Bench ω => (b.data.get x.header.session, b)).outcome b =
        ((.ok (b.data.get session), b) : Except Failure _ × _) := by
      rw [Step.outcome_ofState, same x List.mem_cons_self]
    refine ⟨c, ?_⟩
    rw [sealAll, Step.outcome_bind_ok found, read]
    exact (Step.outcome_bind_ok sealed).trans ended

/-- When all waiting events are sealed for all recipients, nothing fails. -/
theorem multiply_seals (set : providers.toolkit = .ok toolkit) {rs : List Recipient}
    (same : ∀ x ∈ b.events.values, x.header.session = session)
    (read : (b.data.get session).mapM Recipient.ofValue? = some rs)
    (seals : ∀ x ∈ b.events.values, ∀ r ∈ rs, ∀ w,
      ∃ y, x.sealUnder r.state toolkit (services.draw w).1 = .ok y) :
    ∃ c, (multiply services providers).outcome b = (.ok (), c) := by
  rw [outcome_multiply, set]
  split
  · exact ⟨_, rfl⟩
  · exact sealAll_seals (b := { b with events := b.events.drain.2 }) same read seals

/-- Without recipients the waiting events are dropped. -/
theorem multiply_ends (set : providers.toolkit = .ok toolkit)
    (same : ∀ x ∈ b.events.values, x.header.session = session)
    (nobody : b.data.get session = []) :
    (multiply services providers).outcome b = (.ok (), { b with events := b.events.drain.2 }) := by
  rw [outcome_multiply, set]
  split
  · rfl
  · exact sealAll_ends (b := { b with events := b.events.drain.2 }) same nobody

end Processor

end EventWorker
