import EventWorker.Event
import EventWorker.Proofs.Json.RoundTrip

/-!
# Events on the wire

An event that is written and read again is the event that a peer receives: a header that has a
cipher has lost its task and label, what is missing reads `n/a`, and a sealing mark that is no
byte is gone.

Results:
1. `Event.ofValue_toValue`: the wire form of an event is read as what a peer receives.
2. `Event.faithful_toValue`: the wire form is read back from its text if the payload is.
3. `Event.parse_render`: so an event is received from its text.
-/

namespace EventWorker

open Json (Value Fields)

namespace Json.Value

theorem Faithful.mono {depth depth' : Nat} {v : Value} (h : v.Faithful depth)
    (more : depth ≤ depth') : v.Faithful depth' := by
  induction h generalizing depth' with
  | null => exact .null _
  | bool => exact .bool _ _
  | num _ readable => exact .num _ readable
  | str => exact .str _ _
  | arr inside ih =>
    cases depth' with
    | zero => cases more
    | succ d => exact .arr fun v hv => ih v hv (Nat.le_of_succ_le_succ more)
  | obj ascending inside ih =>
    cases depth' with
    | zero => cases more
    | succ d => exact .obj ascending fun x hx => ih x hx (Nat.le_of_succ_le_succ more)

theorem Faithful.object {depth : Nat} {fields : List (String × Value)}
    (inside : ∀ x ∈ fields, x.2.Faithful depth) : (object fields).Faithful (depth + 1) :=
  .obj (Keyed.Ascending.ofList fields) fun x hx => inside x (Keyed.mem_ofList hx)

theorem Faithful.int (depth : Nat) {n : Int} (fits : Numeral.fitsWord n) :
    (Value.int n).Faithful depth :=
  .num depth (Number.readable_int fits)

theorem Faithful.nat (depth : Nat) {n : Nat} (fits : n < UInt64.size) :
    (Value.nat n).Faithful depth :=
  .num depth (Number.readable_int ⟨by omega, Int.ofNat_lt.mpr fits⟩)

end Json.Value

namespace Header

/-- The header that a peer receives. -/
def received (h : Header) : Header :=
  let session := if h.hasSession then h.session else notAvailable
  let body :=
    match h.cipher with
    | some cipher =>
      transport session cipher (h.integrity.getD notAvailable) (h.digest.getD notAvailable)
    | none => plain session h.task h.label
  { body with sealing := h.sealing.filter (· < 256) }

theorem hasSession_iff {h : Header} :
    h.hasSession = true ↔ ¬ (h.session = "" ∨ h.session = notAvailable) := by
  simp [hasSession]

theorem nat?_filter (n : Nat) :
    (Value.nat n).nat?.filter (· < 256) = (some n).filter (· < 256) := by
  by_cases fits : fitsUnsigned n = true
  · rw [show (Value.nat n).nat? = some n from if_pos fits]
  · have large : ¬ n < 256 := fun small =>
      fits (decide_eq_true (Nat.lt_trans small (by decide)))
    rw [show (Value.nat n).nat? = none from if_neg fits]
    simp [Option.filter, large]

theorem faithful_fields (depth : Nat) {h : Header}
    (mark : ∀ n, h.sealing = some n → n < UInt64.size) : ∀ x ∈ h.fields, x.2.Faithful depth := by
  intro x hx
  have written := Keyed.mem_ofList hx
  simp only [List.mem_append] at written
  rcases written with (hx | hx) | hx
  · split at hx
    · rw [List.mem_singleton.mp hx]
      exact .str _ _
    · cases hx
  · split at hx <;> simp only [List.mem_cons, List.not_mem_nil, or_false] at hx
    · rcases hx with rfl | rfl | rfl <;> exact .str _ _
    · rcases hx with rfl | rfl <;> exact .str _ _
  · split at hx
    · next n sealed =>
      rw [List.mem_singleton.mp hx]
      exact .nat _ (mark n sealed)
    · cases hx

/-- The header fields are read as what a peer receives, whatever stands beside them. -/
theorem ofFields_fields (h : Header) (payload : Value) :
    ofFields (Keyed.insert "params" payload h.fields) = .ok h.received := by
  cases hc : h.cipher <;> cases hs : h.sealing <;> cases hh : h.hasSession <;>
    simp [ofFields, received, fields, hc, hs, hh, Keyed.ofList, Keyed.find?_insert, text?,
      nat?_filter, plain, transport]

end Header

namespace Event

/-- The event that a peer receives. -/
def received (e : Event) : Event :=
  { e with header := e.header.received }

theorem ofValue_toValue (e : Event) : ofValue e.toValue = .ok e.received := by
  have payload : Keyed.find? "params" (Keyed.insert "params" (.obj e.payload) e.header.fields) =
      some (.obj e.payload) := by
    rw [Keyed.find?_insert, if_pos rfl]
  unfold ofValue toValue
  simp only [Value.fields?, Header.ofFields_fields, payload, Option.bind_some]
  rfl

theorem parse_render {e : Event} (readable : Json.parse? e.render = some e.toValue) :
    parse e.render = .ok e.received := by
  rw [parse, readable]
  exact e.ofValue_toValue

theorem faithful_toValue {depth : Nat} {e : Event} (payload : (Value.obj e.payload).Faithful depth)
    (mark : ∀ n, e.header.sealing = some n → n < UInt64.size) : e.toValue.Faithful (depth + 1) := by
  have ascending : Keyed.Ascending e.header.fields := Keyed.Ascending.ofList _
  refine .obj (ascending.insert _ _) fun x hx => ?_
  rcases Keyed.mem_of_mem_insert hx with rfl | hx
  · exact payload
  · exact Header.faithful_fields depth mark x hx

end Event

end EventWorker
