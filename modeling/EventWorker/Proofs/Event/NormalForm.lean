import EventWorker.Proofs.Event
import EventWorker.Proofs.Steps
import EventWorker.Proofs.Text.Digits
import Mathlib.Data.List.Basic

/-!
# The normal form of events

Headers that differ in what the wire form leaves out are written alike: an empty session is not
written, a plain header has no place for an integrity function and a digest, and a header with a
cipher has none for a task and a label. The normal form is the one among them that is read.

Results:
1. `Header.received_eq_normal`: a peer receives the normal form.
2. `Header.normal_normal`, `Header.Made.normal_eq`: it is its own normal form, and so is every
   header that is made with a session.
3. `Event.ofValue_toValue_normal`: writing an event and reading it gives its normal form.
4. `Header.ofFields_made`: what is read is made like that, but may have an empty session.
5. `Event.ofValue_reread`: so an event that was read is read again, unless its session is empty.
-/

namespace EventWorker

open Json (Value Fields)

/-! ## Written numbers -/

namespace Json

theorem layout_ne_nil (digits : List Char) (exponent : Int) : layout digits exponent ≠ [] := by
  unfold layout
  dsimp only
  split
  · split
    · simp
    · split <;> simp
  · simp

theorem doubleText_ne_nil (x : Double) : doubleText x ≠ [] := by
  unfold doubleText
  dsimp only
  split
  · exact List.cons_ne_nil _ _
  · split
    · exact List.cons_ne_nil _ _
    · exact layout_ne_nil _ _

theorem Number.chars_ne_nil (n : Number) : n.chars ≠ [] := by
  cases n with
  | int n =>
    cases n with
    | ofNat n => exact Text.decimal_ne_nil n
    | negSucc n => exact List.cons_ne_nil _ _
  | double x => exact doubleText_ne_nil x

theorem Number.render_ne_empty (n : Number) : n.render ≠ "" :=
  fun empty => n.chars_ne_nil (String.ofList_eq_empty_iff.mp empty)

end Json

namespace Header

variable {h : Header}

/-! ## Normal headers -/

/-- The sealing mark is a byte. -/
def ByteMarked (h : Header) : Prop :=
  ∀ n, h.sealing = some n → n < 256

/-- The header with its session named, without what its wire form has no place for, and with what
its wire form cannot be without. -/
def normal (h : Header) : Header :=
  let session := if h.session = "" then notAvailable else h.session
  match h.cipher with
  | none => { h with session, integrity := none, digest := none }
  | some _ =>
    { h with
      session, task := notAvailable, label := notAvailable
      integrity := some (h.integrity.getD notAvailable)
      digest := some (h.digest.getD notAvailable) }

/-- A header made as that of a plain or of a sealed event, with any sealing mark. -/
inductive Made : Header → Prop
  | plain (session task label : String) (sealing : Option Nat) :
      Made { Header.plain session task label with sealing }
  | transport (session cipher integrity digest : String) (sealing : Option Nat) :
      Made { Header.transport session cipher integrity digest with sealing }

theorem received_session (h : Header) :
    (if h.hasSession then h.session else notAvailable) =
      if h.session = "" then notAvailable else h.session := by
  by_cases sessionless : h.session = "" ∨ h.session = notAvailable
  · rw [if_neg (mt hasSession_iff.mp (not_not.mpr sessionless))]
    split
    · rfl
    · next named => exact (sessionless.resolve_left named).symm
  · rw [if_pos (hasSession_iff.mpr sessionless), if_neg fun empty => sessionless (.inl empty)]

theorem ByteMarked.filter (byte : h.ByteMarked) : h.sealing.filter (· < 256) = h.sealing := by
  cases mark : h.sealing with
  | none => rfl
  | some n => simp [Option.filter, byte n mark]

/-- A peer receives the normal form. -/
theorem received_eq_normal (byte : h.ByteMarked) : h.received = h.normal := by
  unfold received normal
  rw [received_session, byte.filter]
  cases cipher : h.cipher <;> simp [Header.plain, Header.transport]

theorem normal_normal (h : Header) : h.normal.normal = h.normal := by
  have named : notAvailable ≠ "" := by decide
  unfold normal
  cases cipher : h.cipher <;> by_cases empty : h.session = "" <;> simp [empty, named]

/-- Of a header that was made only the session may change. -/
theorem Made.normal (made : h.Made) :
    h.normal = { h with session := if h.session = "" then notAvailable else h.session } := by
  cases made <;> rfl

theorem Made.normal_eq (made : h.Made) (named : h.session ≠ "") : h.normal = h := by
  rw [made.normal, if_neg named]

/-! ## Reading headers -/

theorem text?_eq_empty {v : Option Value} : text? v = some "" ↔ v = some (.str "") := by
  unfold text?
  split
  · simp
  · next n => simp [Json.Number.render_ne_empty]
  · next other _ =>
    constructor
    · nofun
    · rintro rfl
      exact absurd rfl (other "")

theorem byteMarked_filter {mark : Option Nat} (same : h.sealing = mark.filter (· < 256)) :
    h.ByteMarked := by
  intro n marked
  rw [same] at marked
  simpa using (Option.filter_eq_some_iff.mp marked).2

/-- What is read is a header that was made, with a byte for its mark, and its session is empty
only if it was written so. -/
theorem ofFields_made {fields : Fields} (read : ofFields fields = .ok h) :
    h.Made ∧ h.ByteMarked ∧
      (h.session = "" ↔ Keyed.find? "session" fields = some (.str "")) := by
  have session : (text? (Keyed.find? "session" fields)).getD notAvailable = "" ↔
      Keyed.find? "session" fields = some (.str "") := by
    have named : notAvailable ≠ "" := by decide
    rw [← text?_eq_empty]
    cases text? (Keyed.find? "session" fields) <;> simp [named]
  unfold ofFields at read
  dsimp only at read
  split at read
  · cases read
    exact ⟨.plain _ _ _ _, byteMarked_filter rfl, session⟩
  · split at read
    · cases read
      exact ⟨.transport _ _ _ _ _, byteMarked_filter rfl, session⟩
    · cases read

end Header

namespace Event

/-! ## Events -/

/-- The event with the normal form of its header. -/
def normal (e : Event) : Event :=
  { e with header := e.header.normal }

theorem ofValue_toValue_eq {e : Event} (byte : e.header.ByteMarked) :
    ofValue e.toValue = .ok e.normal := by
  rw [ofValue_toValue, received, Header.received_eq_normal byte, normal]

/-- Writing an event and reading it gives its normal form, which is its own. An event whose header
was made with a session comes back as it was. -/
theorem ofValue_toValue_normal (e : Event) (byte : e.header.ByteMarked) :
    ofValue e.toValue = .ok e.normal ∧ e.normal.normal = e.normal ∧
      (e.header.Made → e.header.session ≠ "" → ofValue e.toValue = .ok e) := by
  refine ⟨ofValue_toValue_eq byte, ?_, fun made named => ?_⟩
  · rw [normal, normal, Header.normal_normal]
  · rw [ofValue_toValue_eq byte, normal, made.normal_eq named]

/-- A sealed event with an empty session and no integrity function, whose digest is the text of
what is missing. -/
def sparse : Event where
  header :=
    { session := "", task := "7", label := "note", cipher := some "aes", digest := some "n/a"
      sealing := some 255 }
  payload := [("mle", .str "n/a")]

theorem ofValue_toValue_normal_sparse :
    sparse.header.ByteMarked ∧
      ofValue sparse.toValue = .ok
        { header := { Header.transport "n/a" "aes" "n/a" "n/a" with sealing := some 255 }
          payload := [("mle", .str "n/a")] } ∧
      let e : Event := ⟨Header.transport "aa01" "aes" "n/a" "", []⟩
      ofValue e.toValue = .ok e := by
  have byte : sparse.header.ByteMarked := by
    intro n marked
    cases marked
    decide
  refine ⟨byte, (ofValue_toValue_normal sparse byte).1, ?_⟩
  intro e
  have unmarked : e.header.ByteMarked := nofun
  exact (ofValue_toValue_normal e unmarked).2.2 (.transport _ _ _ _ none) (by decide)

theorem header_of_ofValue {v : Value} {e : Event} (read : ofValue v = .ok e) :
    ∃ fields, v = .obj fields ∧ Header.ofFields fields = .ok e.header := by
  unfold ofValue at read
  cases v with
  | obj fields =>
    obtain ⟨header, made, read⟩ := exists_of_bind_ok read
    split at read
    · cases read
      exact ⟨fields, rfl, made⟩
    · cases read
  | _ => cases read

/-- An event that was read is written and read again as it was, but an empty session is not
written and comes back as a missing one. -/
theorem ofValue_reread {v : Value} {e : Event} (read : ofValue v = .ok e) :
    (v.get? "session" ≠ some (.str "") → ofValue e.toValue = .ok e) ∧
      (v.get? "session" = some (.str "") → e.header.session = "" ∧
        ofValue e.toValue =
          .ok { e with header := { e.header with session := notAvailable } }) := by
  obtain ⟨fields, rfl, header⟩ := header_of_ofValue read
  obtain ⟨made, byte, session⟩ := Header.ofFields_made header
  rw [ofValue_toValue_eq byte, normal]
  refine ⟨fun other => ?_, fun empty => ?_⟩
  · rw [made.normal_eq fun empty => other (session.mp empty)]
  · have empty := session.mpr empty
    refine ⟨empty, ?_⟩
    rw [made.normal, if_pos empty]

/-- A wire form with numbers for texts, a mark that is no byte, and some of the fields of a sealed
event. -/
def irregular : Value :=
  .object [("session", .int (-7)), ("task", .num (.double ⟨0x4014000000000000⟩)), ("event", .str ""),
    ("cipher_suite_name", .str "aes"), ("digest", .nat 1), ("mle", .nat 256),
    ("params", .object [("session", .str "")])]

/-- A wire form whose session is there and empty. -/
def nameless : Value :=
  .object [("session", .str ""), ("task", .str "1"), ("event", .str "x"), ("params", .obj [])]

theorem ofValue_reread_irregular :
    let e : Event := ⟨Header.plain "-7" "5.0" "", [("session", .str "")]⟩
    let e' : Event := ⟨Header.plain "" "1" "x", []⟩
    (ofValue irregular = .ok e ∧ irregular.get? "session" ≠ some (.str "") ∧
        ofValue e.toValue = .ok e) ∧
      ofValue nameless = .ok e' ∧ nameless.get? "session" = some (.str "") ∧
        ofValue e'.toValue = .ok ⟨Header.plain "n/a" "1" "x", []⟩ := by
  intro e e'
  have read : ofValue irregular = .ok e := by decide +kernel
  have named : irregular.get? "session" ≠ some (.str "") := by decide
  have read' : ofValue nameless = .ok e' := by decide +kernel
  have empty : nameless.get? "session" = some (.str "") := by decide
  exact ⟨⟨read, named, (ofValue_reread read).1 named⟩,
    read', empty, ((ofValue_reread read').2 empty).2⟩

/-- An empty session is read as it is written, and is lost when the event is written again. -/
theorem reread_loses_empty_session :
    ∃ e, ofValue nameless = .ok e ∧ ofValue e.toValue ≠ .ok e :=
  ⟨⟨Header.plain "" "1" "x", []⟩, by decide +kernel, by decide +kernel⟩

end Event

end EventWorker
