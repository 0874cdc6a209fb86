import EventWorker.Json.Reader
import EventWorker.Proofs.Json.Lexing
import EventWorker.Proofs.Keyed

/-!
# Reading back written values

A value is read back from its written form if its numbers are, its objects have their names in
order, and it is not nested too deeply. The written form is first taken apart into the tokens of
the value, and these are then read with the containers that are open.

Results:
1. `tokens?_chars`: a written value has the tokens of the value.
2. `Value.Faithful.tokens_read`: the tokens of a value are read as the value.
3. `parse?_render`: a value is read back from its written form.
-/

namespace EventWorker.Json

/-- A number that is read back from its written form. -/
def Number.Readable (n : Number) : Prop :=
  Numeral.read? n.chars = some n

theorem Number.readable_int {n : Int} (fits : Numeral.fitsWord n) : (Number.int n).Readable :=
  Numeral.read?_signedDecimal fits

/-- A value that is read back from its written form, with at most `depth` containers one inside
the other. -/
inductive Value.Faithful : Nat → Value → Prop
  | null (depth : Nat) : Faithful depth .null
  | bool (depth : Nat) (b : Bool) : Faithful depth (.bool b)
  | num (depth : Nat) {n : Number} (readable : n.Readable) : Faithful depth (.num n)
  | str (depth : Nat) (s : String) : Faithful depth (.str s)
  | arr {depth : Nat} {items : List Value} (inside : ∀ v ∈ items, Faithful depth v) :
    Faithful (depth + 1) (.arr items)
  | obj {depth : Nat} {fields : Fields} (ascending : Keyed.Ascending fields)
    (inside : ∀ x ∈ fields, Faithful depth x.2) : Faithful (depth + 1) (.obj fields)

namespace Value

mutual

/-- The tokens of the compact form of a value. -/
def tokens : Value → List Token
  | .null => [.scalar .null]
  | .bool b => [.scalar (.bool b)]
  | .num n => [.scalar (.num n)]
  | .str s => [.text s]
  | .arr items => .lbracket :: (itemTokens items ++ [.rbracket])
  | .obj fields => .lbrace :: (fieldTokens fields ++ [.rbrace])

/-- The tokens of the items of an array. -/
def itemTokens : List Value → List Token
  | [] => []
  | [v] => tokens v
  | v :: rest => tokens v ++ .comma :: itemTokens rest

/-- The tokens of the fields of an object. -/
def fieldTokens : List (String × Value) → List Token
  | [] => []
  | [(k, v)] => .text k :: .colon :: tokens v
  | (k, v) :: rest => .text k :: .colon :: (tokens v ++ .comma :: fieldTokens rest)

end

theorem items_reads {items : List Value} (each : ∀ v ∈ items, Scan.Reads v.chars v.tokens) :
    Scan.Reads (itemChars items) (itemTokens items) := by
  induction items with
  | nil => exact .nil
  | cons v rest ih =>
    have first := each v List.mem_cons_self
    have others := ih fun w hw => each w (List.mem_cons_of_mem _ hw)
    cases rest with
    | nil => exact first
    | cons w rest =>
      have both := (first.close .comma).append_reads others
      rwa [List.append_assoc, List.append_assoc] at both

theorem fields_reads {fields : Fields} (each : ∀ x ∈ fields, Scan.Reads x.2.chars x.2.tokens) :
    Scan.Reads (fieldChars fields) (fieldTokens fields) := by
  induction fields with
  | nil => exact .nil
  | cons x rest ih =>
    obtain ⟨k, v⟩ := x
    have first := each _ List.mem_cons_self
    have others := ih fun y hy => each y (List.mem_cons_of_mem _ hy)
    have name : Scan.Whole (quoted k ++ [':']) [.text k, .colon] :=
      (Scan.quoted_whole k).append fun ts => rfl
    cases rest with
    | nil =>
      have both := name.append_reads first
      rwa [List.append_assoc] at both
    | cons y rest =>
      have both := (name.append (first.close .comma)).append_reads others
      simp only [List.append_assoc] at both
      exact both

/-- A written value is read as the tokens of the value. -/
theorem Faithful.chars_reads {depth : Nat} {v : Value} (h : v.Faithful depth) :
    Scan.Reads v.chars v.tokens := by
  induction h with
  | null => exact Scan.Whole.reads fun ts => rfl
  | bool depth b => cases b <;> exact Scan.Whole.reads fun ts => rfl
  | num depth readable => exact Scan.numeral_reads readable
  | str depth s => exact (Scan.quoted_whole s).reads
  | arr inside ih =>
    have opened : Scan.Whole ['['] [.lbracket] := fun ts => rfl
    exact (opened.append ((items_reads ih).close .rbracket)).reads
  | obj ascending inside ih =>
    have opened : Scan.Whole ['{'] [.lbrace] := fun ts => rfl
    exact (opened.append ((fields_reads ih).close .rbrace)).reads

/-- The tokens of an array with items do not begin with its end. -/
theorem itemTokens_head (v : Value) (rest : List Value) :
    ∃ t ts, itemTokens (v :: rest) = t :: ts ∧ t ≠ .rbracket := by
  cases rest <;> cases v <;> exact ⟨_, _, rfl, nofun⟩

theorem fieldTokens_head (x : String × Value) (rest : Fields) :
    ∃ ts, fieldTokens (x :: rest) = .text x.1 :: ts := by
  cases rest <;> exact ⟨_, rfl⟩

end Value

namespace Reading

/-- The tokens are read as a value, inside any containers that leave room for `depth` more. -/
def Gives (depth : Nat) (ts : List Token) (v : Value) : Prop :=
  ∀ frames, frames.length + depth ≤ depthLimit →
    ts.foldlM step (.value frames) = some (.done v frames)

theorem step_firstItem {t : Token} (h : t ≠ .rbracket) (frames : List Frame) :
    step (.firstItem frames) t = step (.value (.array [] :: frames)) t := by
  cases t <;> first | rfl | exact absurd rfl h

variable {depth : Nat} {frames : List Frame}

/-- The items of an array that follow others, and its end. -/
theorem items_read {v : Value} {rest : List Value} (each : ∀ w ∈ v :: rest, Gives depth w.tokens w)
    (room : frames.length + (depth + 1) ≤ depthLimit) (acc : List Value) :
    (Value.itemTokens (v :: rest) ++ [Token.rbracket]).foldlM step (.value (.array acc :: frames)) =
      some (.done (.arr (acc.reverse ++ v :: rest)) frames) := by
  have inner (f : Frame) : (f :: frames).length + depth ≤ depthLimit := by
    rw [List.length_cons]
    omega
  induction rest generalizing v acc with
  | nil =>
    have first := each v List.mem_cons_self _ (inner (.array acc))
    rw [Value.itemTokens, List.foldlM_append, first, Option.bind_eq_bind, Option.bind_some]
    simp [step]
  | cons w rest ih =>
    have first := each v List.mem_cons_self _ (inner (.array acc))
    have others := ih (fun u hu => each u (List.mem_cons_of_mem _ hu)) (v :: acc)
    have next : step (.done v (.array acc :: frames)) .comma =
        some (.value (.array (v :: acc) :: frames)) := rfl
    have split : Value.itemTokens (v :: w :: rest) =
        v.tokens ++ .comma :: Value.itemTokens (w :: rest) := rfl
    rw [split, List.append_assoc, List.foldlM_append, first, Option.bind_eq_bind, Option.bind_some,
      List.cons_append, List.foldlM_cons, next, Option.bind_eq_bind, Option.bind_some, others,
      List.reverse_cons, List.append_assoc, List.singleton_append]

/-- The fields of an object that follow others, and its end. -/
theorem fields_read {x : String × Value} {rest : Fields}
    (each : ∀ y ∈ x :: rest, Gives depth y.2.tokens y.2)
    (room : frames.length + (depth + 1) ≤ depthLimit) (acc : Fields) :
    (Value.fieldTokens (x :: rest) ++ [Token.rbrace]).foldlM step (.name acc frames) =
      some (.done (.obj (Keyed.union acc (x :: rest))) frames) := by
  have inner (f : Frame) : (f :: frames).length + depth ≤ depthLimit := by
    rw [List.length_cons]
    omega
  induction rest generalizing x acc with
  | nil =>
    obtain ⟨k, v⟩ := x
    have first := each _ List.mem_cons_self _ (inner (.object acc k))
    have named : step (.name acc frames) (.text k) = some (.colon acc k frames) := rfl
    have colon : step (.colon acc k frames) .colon = some (.value (.object acc k :: frames)) := rfl
    rw [Value.fieldTokens, List.cons_append, List.cons_append, List.foldlM_cons, named,
      Option.bind_eq_bind, Option.bind_some, List.foldlM_cons, colon, Option.bind_eq_bind,
      Option.bind_some, List.foldlM_append, first]
    rfl
  | cons y rest ih =>
    obtain ⟨k, v⟩ := x
    have first := each _ List.mem_cons_self _ (inner (.object acc k))
    have others := ih (fun z hz => each z (List.mem_cons_of_mem _ hz)) (Keyed.insert k v acc)
    have named : step (.name acc frames) (.text k) = some (.colon acc k frames) := rfl
    have colon : step (.colon acc k frames) .colon = some (.value (.object acc k :: frames)) := rfl
    have next : step (.done v (.object acc k :: frames)) .comma =
        some (.name (Keyed.insert k v acc) frames) := rfl
    have split : Value.fieldTokens ((k, v) :: y :: rest) =
        .text k :: .colon :: (v.tokens ++ .comma :: Value.fieldTokens (y :: rest)) := rfl
    rw [split, List.cons_append, List.cons_append, List.foldlM_cons, named, Option.bind_eq_bind,
      Option.bind_some, List.foldlM_cons, colon, Option.bind_eq_bind, Option.bind_some,
      List.append_assoc, List.foldlM_append, first, Option.bind_eq_bind, Option.bind_some,
      List.cons_append, List.foldlM_cons, next, Option.bind_eq_bind, Option.bind_some, others]
    rfl

end Reading

open Reading in
/-- The tokens of a value are read as the value wherever there is room for it. -/
theorem Value.Faithful.tokens_read {depth : Nat} {v : Value} (h : v.Faithful depth) :
    Gives depth v.tokens v := by
  induction h with
  | null | bool | num | str => exact fun frames _ => rfl
  | @arr depth items inside ih =>
    intro frames room
    have opened : step (.value frames) .lbracket = some (.firstItem frames) :=
      if_pos (by omega)
    rw [Value.tokens, List.foldlM_cons, opened, Option.bind_eq_bind, Option.bind_some]
    cases items with
    | nil => rfl
    | cons v rest =>
      obtain ⟨t, ts, tokens, notEnd⟩ := (Value.itemTokens_head v rest)
      have read := items_read ih room []
      rw [tokens, List.cons_append, List.foldlM_cons, ← step_firstItem notEnd] at read
      rw [tokens, List.cons_append, List.foldlM_cons, read]
      rfl
  | @obj depth fields ascending inside ih =>
    intro frames room
    have opened : step (.value frames) .lbrace = some (.firstName frames) :=
      if_pos (by omega)
    rw [Value.tokens, List.foldlM_cons, opened, Option.bind_eq_bind, Option.bind_some]
    cases fields with
    | nil => rfl
    | cons x rest =>
      have read := fields_read ih room []
      have all : Keyed.union [] (x :: rest) = x :: rest := ascending.ofList_eq
      obtain ⟨ts, tokens⟩ := (Value.fieldTokens_head x rest)
      rw [all, tokens] at read
      rw [tokens]
      exact read

/-- A value is read back from its written form. -/
theorem parse?_render {v : Value} (h : v.Faithful Reading.depthLimit) :
    parse? v.render = some v := by
  have lexed := h.chars_reads.tokens
  have read := h.tokens_read [] (Nat.le_of_eq (Nat.zero_add _))
  rw [parse?, Value.render, String.toList_ofList, lexed, Option.bind_some, read]
  rfl

end EventWorker.Json
