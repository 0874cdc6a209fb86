import EventWorker.Proofs.Validation

/-!
# The checks of a message

A message passes eight checks, one after the other. The last three ask nothing of a message whose
label is open. What the checks ask is stated here about the fields of the message, apart from how
they are read, and so is what an event has to do with the message that it is the event of.

Results:
1. `Validation.headerOf_eq_ok`, `Validation.payloadOf_eq_ok`: which header and which payload are
   read.
2. `validate_eq_ok`: a message has an event when it has a described one.
3. `validate_error`: a rejection is that of the first failing check.
4. `exists_valid_iff`: a message has an event when it passes all checks.
-/

namespace EventWorker

open Json (Value Fields)

namespace Validation

/-! ## What is asked of a message -/

/-- A value that is a text, or a number that is written as one. -/
inductive Spells : Value → String → Prop
  | text (s : String) : Spells (.str s) s
  | number (n : Json.Number) : Spells (.num n) n.render

/-- A hexadecimal digit of either case. -/
def HexDigit (c : Char) : Prop :=
  ('0' ≤ c ∧ c ≤ '9') ∨ ('a' ≤ c ∧ c ≤ 'f') ∨ ('A' ≤ c ∧ c ≤ 'F')

/-- Hexadecimal digits, at least one. -/
def Hexadecimal (cs : List Char) : Prop :=
  cs ≠ [] ∧ ∀ c ∈ cs, HexDigit c

/-- The characters of a text without the dashes. -/
def dashless (s : String) : List Char :=
  s.toList.filter fun c => c ≠ '-'

/-- The message has a label that is not open. -/
def Guarded (fields : Fields) : Prop :=
  ∃ v label, Keyed.find? "event" fields = some v ∧ Spells v label ∧ label ∉ openLabels

/-- The checks of a message. -/
inductive Check
  | object
  | sessionThere
  | sessionText
  | sessionHexadecimal
  | labelThere
  | payloadThere
  | tokenThere
  | tokenHexadecimal
  deriving DecidableEq

namespace Check

/-- The order in which the checks are made. -/
def order : List Check :=
  [object, sessionThere, sessionText, sessionHexadecimal, labelThere, payloadThere, tokenThere,
    tokenHexadecimal]

/-- What a check asks of the fields of a message. -/
def Asks (fields : Fields) : Check → Prop
  | object => True
  | sessionThere => ∃ v, Keyed.find? "session" fields = some v ∧ v ≠ .null
  | sessionText => ∃ s, Keyed.find? "session" fields = some (.str s)
  | sessionHexadecimal =>
    ∃ s, Keyed.find? "session" fields = some (.str s) ∧ Hexadecimal (dashless s)
  | labelThere => ∃ v label, Keyed.find? "event" fields = some v ∧ Spells v label
  | payloadThere =>
    Guarded fields → ∃ payload, Keyed.find? "params" fields = some (.obj payload)
  | tokenThere =>
    Guarded fields → ∃ payload v, Keyed.find? "params" fields = some (.obj payload) ∧
      Keyed.find? "auth_token" payload = some v ∧ v ≠ .null
  | tokenHexadecimal =>
    Guarded fields → ∃ payload token, Keyed.find? "params" fields = some (.obj payload) ∧
      Keyed.find? "auth_token" payload = some (.str token) ∧ Hexadecimal token.toList

/-- A message passes a check. -/
def Passes (raw : String) (c : Check) : Prop :=
  ∃ fields, read raw = .ok (.obj fields) ∧ c.Asks fields

/-- A message passes all checks before one that it fails. -/
def FirstFailing (raw : String) (c : Check) : Prop :=
  ∃ before after, order = before ++ c :: after ∧ (∀ x ∈ before, Passes raw x) ∧ ¬ Passes raw c

/-- What the one who sent a message learns of a check that it fails. -/
structure Verdict where
  code : Nat
  notifiable : Bool
  headerKnown : Bool
  deriving DecidableEq

/-- The verdicts on a failed check. -/
def verdict : Check → Verdict
  | object => ⟨821, false, false⟩
  | sessionThere => ⟨822, true, false⟩
  | sessionText => ⟨840, true, false⟩
  | sessionHexadecimal => ⟨828, false, false⟩
  | labelThere => ⟨823, false, false⟩
  | payloadThere => ⟨829, false, true⟩
  | tokenThere => ⟨825, true, true⟩
  | tokenHexadecimal => ⟨827, false, true⟩

end Check

/-- The header of a message. -/
structure Heads (fields : Fields) (h : Header) : Prop where
  session : Keyed.find? "session" fields = some (.str h.session)
  hexadecimal : Hexadecimal (dashless h.session)
  label : ∃ v, Keyed.find? "event" fields = some v ∧ Spells v h.label
  task : (∃ v, Keyed.find? "task" fields = some v ∧ Spells v h.task) ∨
    (h.task = notAvailable ∧ ∀ v task, Keyed.find? "task" fields = some v → ¬ Spells v task)
  plain : h = Header.plain h.session h.task h.label

/-- The payload of a message with a label. -/
inductive Pays (fields : Fields) (label : String) : Fields → Prop
  | opened {payload : Fields} : label ∈ openLabels →
      Keyed.find? "params" fields = some (.obj payload) → Pays fields label payload
  | absent : label ∈ openLabels →
      (∀ payload, Keyed.find? "params" fields ≠ some (.obj payload)) → Pays fields label []
  | guarded {payload : Fields} {token : String} : label ∉ openLabels →
      Keyed.find? "params" fields = some (.obj payload) →
      Keyed.find? "auth_token" payload = some (.str token) → Hexadecimal token.toList →
      Pays fields label payload

end Validation

/-- What the one who sent a rejected message learns. -/
def Rejection.verdict (r : Rejection) : Validation.Check.Verdict :=
  ⟨r.failure.code, r.failure.notifiable, r.header?.isSome⟩

namespace Validation

variable {fields : Fields} {label : String} {h : Header}

/-! ## Texts -/

theorem text?_eq_some {v? : Option Value} {s : String} :
    Header.text? v? = some s ↔ ∃ v, v? = some v ∧ Spells v s := by
  constructor
  · intro found
    unfold Header.text? at found
    split at found
    · cases found
      exact ⟨_, rfl, .text s⟩
    · cases found
      exact ⟨_, rfl, .number _⟩
    · cases found
  · rintro ⟨v, rfl, spelled⟩
    cases spelled <;> rfl

theorem text?_eq_none {v? : Option Value} (none : Header.text? v? = none) {v : Value} {s : String}
    (found : v? = some v) : ¬ Spells v s := by
  intro spelled
  cases none.symm.trans (text?_eq_some.mpr ⟨v, found, spelled⟩)

theorem Spells.unique {v : Value} {s t : String} (hs : Spells v s) (ht : Spells v t) : s = t := by
  cases hs <;> cases ht <;> rfl

theorem hexDigit?_isSome (c : Char) : (Text.hexDigit? c).isSome ↔ HexDigit c := by
  unfold Text.hexDigit? HexDigit
  grind

theorem isHex_iff (s : String) : isHex s = true ↔ Hexadecimal s.toList := by
  rw [isHex, Bool.and_eq_true, Bool.not_eq_true', List.isEmpty_eq_false_iff, List.all_eq_true]
  exact and_congr_right fun _ => forall₂_congr fun c _ => hexDigit?_isSome c

theorem isSessionValue_iff (s : String) : isSessionValue s = true ↔ Hexadecimal (dashless s) := by
  rw [isSessionValue, isHex_iff, String.toList_ofList]
  rfl

/-! ## The header -/

theorem sessionOf_eq_ok {session : String} :
    sessionOf fields = .ok session ↔
      Keyed.find? "session" fields = some (.str session) ∧ Hexadecimal (dashless session) := by
  constructor
  · intro ended
    refine ⟨?_, (isSessionValue_iff _).mp (sessionOf_ok ended)⟩
    unfold sessionOf at ended
    split at ended
    · cases ended
    · cases ended
    · next found =>
      split at ended
      · cases ended
        exact found
      · cases ended
    · cases ended
  · rintro ⟨found, hexadecimal⟩
    rw [sessionOf, found]
    exact if_pos ((isSessionValue_iff _).mpr hexadecimal)

/-- The text of a task, as it is or as it is not there. -/
theorem task_eq_iff {task : String} :
    (Header.text? (Keyed.find? "task" fields)).getD notAvailable = task ↔
      (∃ v, Keyed.find? "task" fields = some v ∧ Spells v task) ∨
        (task = notAvailable ∧ ∀ v task, Keyed.find? "task" fields = some v → ¬ Spells v task) := by
  rw [← text?_eq_some]
  cases read : Header.text? (Keyed.find? "task" fields) with
  | none =>
    rw [Option.getD_none]
    constructor
    · rintro rfl
      exact .inr ⟨rfl, fun v task found => text?_eq_none read found⟩
    · rintro (other | ⟨rfl, -⟩)
      · cases other
      · rfl
  | some written =>
    rw [Option.getD_some, Option.some_inj]
    refine ⟨.inl, ?_⟩
    rintro (same | ⟨-, nothing⟩)
    · exact same
    · obtain ⟨v, found, spelled⟩ := text?_eq_some.mp read
      exact absurd spelled (nothing v written found)

theorem headerOf_eq_ok : headerOf fields = .ok h ↔ Heads fields h := by
  constructor
  · intro ended
    obtain ⟨session, hsession, ended⟩ := exists_of_bind_ok ended
    obtain ⟨found, hexadecimal⟩ := sessionOf_eq_ok.mp hsession
    dsimp only at ended
    split at ended
    · next label hlabel =>
      cases ended
      exact
        { session := found, hexadecimal, plain := rfl
          label := text?_eq_some.mp hlabel, task := task_eq_iff.mp rfl }
    · cases ended
  · intro heads
    have label := text?_eq_some.mpr heads.label
    have task := task_eq_iff.mpr heads.task
    rw [headerOf, sessionOf_eq_ok.mpr ⟨heads.session, heads.hexadecimal⟩, ok_bind, label, task,
      heads.plain]
    rfl

/-- A header is read off a message that passes the first checks. -/
theorem Heads.asked (heads : Heads fields h) :
    ∀ c ∈ [Check.object, .sessionThere, .sessionText, .sessionHexadecimal, .labelThere],
      c.Asks fields := by
  obtain ⟨v, found, spelled⟩ := heads.label
  simp only [List.forall_mem_cons, Check.Asks]
  exact ⟨trivial, ⟨_, heads.session, by simp⟩, ⟨_, heads.session⟩,
    ⟨_, heads.session, heads.hexadecimal⟩, ⟨v, _, found, spelled⟩, List.forall_mem_nil _⟩

theorem Heads.guarded_iff (heads : Heads fields h) : Guarded fields ↔ h.label ∉ openLabels := by
  obtain ⟨v, found, spelled⟩ := heads.label
  constructor
  · rintro ⟨v', label, found', spelled', guarded⟩
    cases found.symm.trans found'
    rwa [spelled.unique spelled']
  · exact fun guarded => ⟨v, h.label, found, spelled, guarded⟩

/-! ## The payload -/

theorem checkToken_eq_ok {payload : Fields} :
    checkToken payload = .ok () ↔ ∃ token, Keyed.find? "auth_token" payload = some (.str token) ∧
      Hexadecimal token.toList := by
  constructor
  · intro ended
    unfold checkToken at ended
    split at ended
    · cases ended
    · cases ended
    · next token found =>
      split at ended
      · next hexadecimal => exact ⟨token, found, (isHex_iff token).mp hexadecimal⟩
      · cases ended
    · cases ended
  · rintro ⟨token, found, hexadecimal⟩
    rw [checkToken, found]
    exact if_pos ((isHex_iff token).mpr hexadecimal)

/-- The object under a name. -/
theorem fields?_eq_some {name : String} {payload : Fields} :
    (Keyed.find? name fields).bind Value.fields? = some payload ↔
      Keyed.find? name fields = some (.obj payload) := by
  rw [Option.bind_eq_some_iff]
  constructor
  · rintro ⟨v, found, object⟩
    cases v <;> cases object
    exact found
  · exact fun found => ⟨_, found, rfl⟩

theorem payloadOf_eq_ok {payload : Fields} :
    payloadOf label fields = .ok payload ↔ Pays fields label payload := by
  constructor
  · intro ended
    unfold payloadOf at ended
    dsimp only at ended
    split at ended
    · next is_open =>
      have opened : label ∈ openLabels := List.contains_iff_mem.mp is_open
      cases read : (Keyed.find? "params" fields).bind Value.fields? with
      | none =>
        rw [read] at ended
        cases ended
        refine .absent opened fun payload found => ?_
        cases read.symm.trans (fields?_eq_some.mpr found)
      | some payload =>
        rw [read] at ended
        cases ended
        exact .opened opened (fields?_eq_some.mp read)
    · next is_guarded =>
      have guarded : label ∉ openLabels := fun opened =>
        is_guarded (List.contains_iff_mem.mpr opened)
      split at ended
      · cases ended
      · next payload read =>
        obtain ⟨_, checked, same⟩ := exists_of_map_ok ended
        cases same
        obtain ⟨token, found, hexadecimal⟩ := checkToken_eq_ok.mp checked
        exact .guarded guarded (fields?_eq_some.mp read) found hexadecimal
  · intro pays
    unfold payloadOf
    cases pays with
    | opened opened found =>
      rw [if_pos (List.contains_iff_mem.mpr opened), fields?_eq_some.mpr found]
      rfl
    | absent opened absent =>
      rw [if_pos (List.contains_iff_mem.mpr opened)]
      cases read : (Keyed.find? "params" fields).bind Value.fields? with
      | none => rfl
      | some payload => exact absurd (fields?_eq_some.mp read) (absent payload)
    | guarded guarded found token hexadecimal =>
      rw [if_neg fun is_open => guarded (List.contains_iff_mem.mp is_open),
        fields?_eq_some.mpr found]
      dsimp only
      rw [checkToken_eq_ok.mpr ⟨_, token, hexadecimal⟩]
      rfl

/-- What is paid to an open label or with a token passes the last checks. -/
theorem Pays.asked {payload : Fields} (heads : Heads fields h)
    (pays : Pays fields h.label payload) :
    ∀ c ∈ [Check.payloadThere, .tokenThere, .tokenHexadecimal], c.Asks fields := by
  simp only [List.forall_mem_cons, Check.Asks, heads.guarded_iff]
  cases pays with
  | opened opened | absent opened =>
    exact ⟨absurd opened, absurd opened, absurd opened, List.forall_mem_nil _⟩
  | guarded guarded found token hexadecimal =>
    exact ⟨fun _ => ⟨_, found⟩, fun _ => ⟨_, _, found, token, by simp⟩,
      fun _ => ⟨_, _, found, token, hexadecimal⟩, List.forall_mem_nil _⟩

/-! ## The first failing check -/

/-- The fields of a message pass all checks before one that they fail. -/
def Check.Stops (fields : Fields) (c : Check) : Prop :=
  ∃ before after, Check.order = before ++ c :: after ∧ (∀ x ∈ before, x.Asks fields) ∧
    ¬ c.Asks fields

theorem sessionOf_error {f : Failure} (refused : sessionOf fields = .error f) :
    ∃ c : Check, c.Stops fields ∧ c.verdict = ⟨f.code, f.notifiable, false⟩ := by
  unfold sessionOf at refused
  split at refused
  case h_1 missing | h_2 missing =>
    cases refused
    refine ⟨.sessionThere, ⟨[.object], _, rfl, ?_, ?_⟩, rfl⟩
    · simp [Check.Asks]
    · simp [Check.Asks, missing]
  · next session found =>
    split at refused
    · cases refused
    · next other =>
      cases refused
      rw [isSessionValue_iff] at other
      refine ⟨.sessionHexadecimal, ⟨[.object, .sessionThere, .sessionText], _, rfl, ?_, ?_⟩, rfl⟩
      · simp [Check.Asks, found]
      · simpa [Check.Asks, found] using other
  · next v not_null not_text found =>
    cases refused
    refine ⟨.sessionText, ⟨[.object, .sessionThere], _, rfl, ?_, ?_⟩, rfl⟩
    · simpa [Check.Asks, found] using not_null
    · simpa [Check.Asks, found] using not_text

theorem headerOf_error {f : Failure} (refused : headerOf fields = .error f) :
    ∃ c : Check, c.Stops fields ∧ c.verdict = ⟨f.code, f.notifiable, false⟩ := by
  unfold headerOf at refused
  cases read : sessionOf fields with
  | error f' =>
    rw [read] at refused
    cases refused
    exact sessionOf_error read
  | ok session =>
    rw [read, ok_bind] at refused
    dsimp only at refused
    split at refused
    · cases refused
    · next missing =>
      cases refused
      obtain ⟨found, hexadecimal⟩ := sessionOf_eq_ok.mp read
      refine ⟨.labelThere,
        ⟨[.object, .sessionThere, .sessionText, .sessionHexadecimal], _, rfl, ?_, ?_⟩, rfl⟩
      · simpa [Check.Asks, found] using hexadecimal
      · rintro ⟨v, label, found, spelled⟩
        exact text?_eq_none missing found spelled

/-- The first five checks are passed before those of the token. -/
theorem checkToken_error {payload : Fields} {f : Failure} (heads : Heads fields h)
    (guarded : Guarded fields) (paid : Keyed.find? "params" fields = some (.obj payload))
    (refused : checkToken payload = .error f) :
    ∃ c : Check, c.Stops fields ∧ c.verdict = ⟨f.code, f.notifiable, true⟩ := by
  have before : ∀ c ∈ [Check.object, .sessionThere, .sessionText, .sessionHexadecimal,
      .labelThere] ++ [.payloadThere], c.Asks fields :=
    List.forall_mem_append.mpr ⟨heads.asked, by simp [Check.Asks, paid]⟩
  unfold checkToken at refused
  split at refused
  case h_1 missing | h_2 missing =>
    cases refused
    refine ⟨.tokenThere, ⟨_, _, rfl, before, ?_⟩, rfl⟩
    simp [Check.Asks, guarded, paid, missing]
  · next token found =>
    split at refused
    · cases refused
    · next other =>
      cases refused
      rw [isHex_iff] at other
      refine ⟨.tokenHexadecimal, ⟨_ ++ [.tokenThere], _, rfl,
        List.forall_mem_append.mpr ⟨before, ?_⟩, ?_⟩, rfl⟩
      · simp [Check.Asks, paid, found]
      · simpa [Check.Asks, guarded, paid, found] using other
  · next v not_null not_text found =>
    cases refused
    refine ⟨.tokenHexadecimal, ⟨_ ++ [.tokenThere], _, rfl,
      List.forall_mem_append.mpr ⟨before, ?_⟩, ?_⟩, rfl⟩
    · simpa [Check.Asks, paid, found] using fun _ => not_null
    · intro asked
      obtain ⟨payload', token, paid', found', -⟩ := asked guarded
      cases paid.symm.trans paid'
      exact not_text token (Option.some.inj (found.symm.trans found'))

theorem payloadOf_error {f : Failure} (heads : Heads fields h)
    (refused : payloadOf h.label fields = .error f) :
    ∃ c : Check, c.Stops fields ∧ c.verdict = ⟨f.code, f.notifiable, true⟩ := by
  unfold payloadOf at refused
  dsimp only at refused
  split at refused
  · cases refused
  · next is_guarded =>
    have guarded : Guarded fields := heads.guarded_iff.mpr fun opened =>
      is_guarded (List.contains_iff_mem.mpr opened)
    split at refused
    · next missing =>
      cases refused
      refine ⟨.payloadThere, ⟨_, _, rfl, heads.asked, fun asked => ?_⟩, rfl⟩
      obtain ⟨payload, found⟩ := asked guarded
      cases missing.symm.trans (fields?_eq_some.mpr found)
    · next payload read =>
      cases checked : checkToken payload with
      | ok u =>
        rw [checked] at refused
        cases refused
      | error f' =>
        rw [checked] at refused
        cases refused
        exact checkToken_error heads guarded (fields?_eq_some.mp read) checked

/-! ## Messages -/

theorem read_error {raw : String} {f : Failure} (refused : read raw = .error f) :
    f = Code.notJson.failure.silent.because Event.notJsonText := by
  unfold read at refused
  split at refused
  · cases refused
  · exact (Except.error.inj refused).symm

theorem Check.passes_iff {raw : String} (object : read raw = .ok (.obj fields)) (c : Check) :
    c.Passes raw ↔ c.Asks fields := by
  constructor
  · rintro ⟨fields', object', asked⟩
    cases object.symm.trans object'
    exact asked
  · exact fun asked => ⟨fields, object, asked⟩

theorem Check.Stops.first {raw : String} {c : Check} (object : read raw = .ok (.obj fields))
    (stops : c.Stops fields) : c.FirstFailing raw := by
  obtain ⟨before, after, order, passed, failed⟩ := stops
  refine ⟨before, after, order, fun x hx => ?_, ?_⟩
  · exact (passes_iff object x).mpr (passed x hx)
  · exact fun passes => failed ((passes_iff object c).mp passes)

/-- A message that is no object fails the first check. -/
theorem Check.object_first {raw : String} (other : ∀ fields, read raw ≠ .ok (.obj fields)) :
    Check.object.FirstFailing raw := by
  refine ⟨[], _, rfl, List.forall_mem_nil _, ?_⟩
  rintro ⟨fields, object, -⟩
  exact other fields object

theorem Check.mem_order (c : Check) : c ∈ order := by
  cases c <;> decide

end Validation

open Validation

variable {raw : String} {e : Event} {r : Rejection} {fields : Fields}

/-- What becomes of a message that is an object. -/
theorem validate_object (object : read raw = .ok (.obj fields)) :
    validate raw =
      match headerOf fields with
      | .error f => .error { failure := f }
      | .ok h =>
        match payloadOf h.label fields with
        | .error f => .error { failure := f, header? := some h }
        | .ok payload => .ok { header := h, payload } := by
  unfold validate
  rw [object]
  show ((headerOf fields).mapError _ >>= fun h => (payloadOf h.label fields).mapError _ >>= _) = _
  cases headerOf fields with
  | error f => rfl
  | ok h =>
    show ((payloadOf h.label fields).mapError _ >>= _) = _
    dsimp only
    cases payloadOf h.label fields <;> rfl

/-- What becomes of any other message. -/
theorem validate_other (other : ∀ fields, read raw ≠ .ok (.obj fields)) :
    ∃ f, validate raw = .error { failure := f } ∧ f.code = 821 ∧ f.notifiable = false := by
  unfold validate
  cases found : read raw with
  | error f =>
    obtain rfl := read_error found
    exact ⟨_, rfl, rfl, rfl⟩
  | ok v =>
    cases v with
    | obj fields => exact absurd found (other fields)
    | null | bool _ | num _ | str _ | arr _ => exact ⟨_, rfl, rfl, rfl⟩

/-- The event of a message is read off its fields. -/
theorem validate_eq_ok :
    validate raw = .ok e ↔ ∃ fields, read raw = .ok (.obj fields) ∧ Heads fields e.header ∧
      Pays fields e.header.label e.payload := by
  constructor
  · intro valid
    by_cases object : ∃ fields, read raw = .ok (.obj fields)
    · obtain ⟨fields, object⟩ := object
      rw [validate_object object] at valid
      split at valid
      · cases valid
      · next h header =>
        split at valid
        · cases valid
        · next p payload =>
          cases valid
          exact ⟨fields, object, headerOf_eq_ok.mp header, payloadOf_eq_ok.mp payload⟩
    · obtain ⟨f, invalid, -⟩ := validate_other (not_exists.mp object)
      cases invalid.symm.trans valid
  · rintro ⟨fields, object, heads, pays⟩
    rw [validate_object object, headerOf_eq_ok.mpr heads]
    dsimp only
    rw [payloadOf_eq_ok.mpr pays]

/-- A message is rejected as the first check that it fails would have it. A header that is known
is the header of the message. -/
theorem validate_error (invalid : validate raw = .error r) :
    (∃ c : Check, c.FirstFailing raw ∧ r.verdict = c.verdict) ∧
      ∀ h, r.header? = some h → ∃ fields, read raw = .ok (.obj fields) ∧ Heads fields h := by
  by_cases object : ∃ fields, read raw = .ok (.obj fields)
  · obtain ⟨fields, object⟩ := object
    rw [validate_object object] at invalid
    split at invalid
    · next f header =>
      cases invalid
      obtain ⟨c, stops, verdict⟩ := headerOf_error header
      exact ⟨⟨c, stops.first object, verdict.symm⟩, fun _ known => nomatch known⟩
    · next h header =>
      have heads := headerOf_eq_ok.mp header
      split at invalid
      · next f payload =>
        cases invalid
        obtain ⟨c, stops, verdict⟩ := payloadOf_error heads payload
        refine ⟨⟨c, stops.first object, verdict.symm⟩, fun h' known => ?_⟩
        cases known
        exact ⟨fields, object, heads⟩
      · cases invalid
  · obtain ⟨f, invalid', code, silent⟩ := validate_other (not_exists.mp object)
    cases invalid'.symm.trans invalid
    refine ⟨⟨.object, Check.object_first (not_exists.mp object), ?_⟩, fun _ known => nomatch known⟩
    rw [Rejection.verdict, code, silent]
    rfl

/-- A message has an event when it passes all checks. -/
theorem exists_valid_iff : (∃ e, validate raw = .ok e) ↔ ∀ c : Check, c.Passes raw := by
  constructor
  · rintro ⟨e, valid⟩ c
    obtain ⟨fields, object, heads, pays⟩ := validate_eq_ok.mp valid
    rw [Check.passes_iff object]
    exact List.forall_mem_append.mpr ⟨heads.asked, pays.asked heads⟩ c c.mem_order
  · intro passes
    cases valid : validate raw with
    | ok e => exact ⟨e, rfl⟩
    | error r =>
      obtain ⟨⟨c, ⟨_, _, _, _, failed⟩, -⟩, -⟩ := validate_error valid
      exact absurd (passes c) failed

end EventWorker
