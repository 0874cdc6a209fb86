import EventWorker.Validation

/-!
# Apostrophes for quotation marks

A message may be written with an apostrophe for each of its quotation marks. Such a text is never
JSON by itself: strings are the only tokens that an apostrophe can be part of, and none of them
begins. So it is requoted, and then it is the text that was meant, whatever its strings hold and
however they are escaped.

Results:
1. `Json.Scan.step_bare`: outside strings the lexer takes no apostrophe and stays outside, until
   there is a quotation mark.
2. `Json.parse?_of_apostrophe`: no JSON text has an apostrophe but no quotation mark.
3. `Validation.read_apostrophized`: both spellings of a text are read alike, JSON or not.
4. `Validation.read_either_spelling`: both spellings of a JSON text have its value.
-/

namespace EventWorker

open Validation (apostrophe)

namespace Json

namespace Scan

/-- The lexer is outside of strings, and does not wait for an apostrophe either. -/
def Bare (s : Scan) : Prop :=
  match s.mode with
  | .ready | .numeral _ => True
  | .word rest _ => apostrophe ∉ rest
  | .text _ | .escape _ | .unicode _ _ _ _ | .surrogate _ _ _ => False

variable {ts : List Token} {s t : Scan} {c : Char}

/-- Only a quotation mark begins a string, and an apostrophe begins nothing. -/
theorem begin?_bare (quote : c ≠ '"') (h : begin? ts c = some t) : c ≠ apostrophe ∧ t.Bare := by
  constructor
  · rintro rfl
    cases h
  · unfold begin? at h
    split at h
    · cases h
      exact trivial
    · split at h
      case h_7 => exact absurd rfl quote
      case h_8 | h_9 | h_10 =>
        cases h
        show apostrophe ∉ _
        decide
      case h_11 =>
        obtain ⟨draft, -, rfl⟩ := Option.map_eq_some_iff.mp h
        exact trivial
      all_goals
        cases h
        exact trivial

theorem extend?_apostrophe (draft : Numeral.Draft) : draft.extend? apostrophe = none := by
  obtain ⟨phase, n⟩ := draft
  cases phase <;> rfl

/-- Until there is a quotation mark the lexer stays outside of strings, where it takes no
apostrophe. -/
theorem step_bare (bare : s.Bare) (quote : c ≠ '"') (h : s.step c = some t) :
    c ≠ apostrophe ∧ t.Bare := by
  obtain ⟨ts, mode⟩ := s
  cases mode with
  | ready => exact begin?_bare quote h
  | word rest v =>
    have waits : apostrophe ∉ rest := bare
    match rest with
    | [] => exact begin?_bare quote h
    | [d] =>
      simp only [step, Option.ite_none_right_eq_some] at h
      obtain ⟨rfl, h⟩ := h
      cases h
      exact ⟨fun same => waits (same ▸ List.mem_cons_self), trivial⟩
    | d :: e :: rest =>
      simp only [step, Option.ite_none_right_eq_some] at h
      obtain ⟨rfl, h⟩ := h
      cases h
      exact ⟨fun same => waits (same ▸ List.mem_cons_self),
        fun member => waits (List.mem_cons_of_mem _ member)⟩
  | numeral draft =>
    cases longer : draft.extend? c with
    | some longer' =>
      simp only [step, longer] at h
      cases h
      refine ⟨?_, trivial⟩
      rintro rfl
      rw [extend?_apostrophe] at longer
      cases longer
    | none =>
      simp only [step, longer] at h
      obtain ⟨n, -, h⟩ := Option.bind_eq_some_iff.mp h
      exact begin?_bare quote h
  | text _ | escape _ | unicode _ _ _ _ | surrogate _ _ _ => exact bare.elim

theorem apostrophe_notMem_of_bare {cs : List Char} (bare : s.Bare) (quote : '"' ∉ cs)
    (h : cs.foldlM step s = some t) : apostrophe ∉ cs := by
  induction cs generalizing s with
  | nil => exact List.not_mem_nil
  | cons c rest ih =>
    rw [List.mem_cons, not_or] at quote
    rw [List.foldlM_cons] at h
    obtain ⟨next, first, h⟩ := Option.bind_eq_some_iff.mp h
    obtain ⟨here, bare⟩ := step_bare bare (Ne.symm quote.1) first
    rw [List.mem_cons, not_or]
    exact ⟨Ne.symm here, ih bare quote.2 h⟩

end Scan

theorem parse?_of_apostrophe {t : String} (there : apostrophe ∈ t.toList)
    (quote : '"' ∉ t.toList) : parse? t = none := by
  cases lexed : t.toList.foldlM Scan.step {} with
  | none =>
    rw [parse?, tokens?, lexed]
    rfl
  | some s =>
    have outside : Scan.Bare {} := trivial
    exact absurd there (Scan.apostrophe_notMem_of_bare outside quote lexed)

end Json

namespace Validation

/-- The text with apostrophes for quotation marks. -/
def apostrophized (t : String) : String :=
  String.ofList (t.toList.map fun c => if c = '"' then apostrophe else c)

variable {t : String}

theorem mem_apostrophized {c : Char} : c ∈ (apostrophized t).toList ↔
    (c = apostrophe ∧ '"' ∈ t.toList) ∨ (c ≠ '"' ∧ c ∈ t.toList) := by
  rw [apostrophized, String.toList_ofList, List.mem_map]
  constructor
  · rintro ⟨d, hd, rfl⟩
    split
    · next quote => exact .inl ⟨rfl, quote ▸ hd⟩
    · next quote => exact .inr ⟨quote, hd⟩
  · rintro (⟨rfl, quote⟩ | ⟨other, hc⟩)
    · exact ⟨'"', quote, if_pos rfl⟩
    · exact ⟨c, hc, if_neg other⟩

/-- Nothing is lost when quotation marks are replaced in a text without an apostrophe. -/
theorem requoted_apostrophized (plain : apostrophe ∉ t.toList) :
    requoted (apostrophized t) = t := by
  rw [requoted, apostrophized, String.toList_ofList, List.map_map]
  have back : ∀ c ∈ t.toList, ((fun c => if c = apostrophe then '"' else c) ∘
      fun c => if c = '"' then apostrophe else c) c = c := by
    intro c hc
    rw [Function.comp_apply]
    by_cases quote : c = '"'
    · rw [if_pos quote, if_pos rfl, quote]
    · have other : c ≠ apostrophe := by
        rintro rfl
        exact plain hc
      rw [if_neg quote, if_neg other]
  rw [List.map_congr_left back, List.map_id', String.ofList_toList]

theorem replace_of_notMem {cs : List Char} {old new : Char} (h : old ∉ cs) :
    cs.map (fun c => if c = old then new else c) = cs := by
  have same : ∀ c ∈ cs, (if c = old then new else c) = c := by
    intro c hc
    refine if_neg ?_
    rintro rfl
    exact h hc
  rw [List.map_congr_left same, List.map_id']

theorem requoted_of_plain (plain : apostrophe ∉ t.toList) : requoted t = t := by
  rw [requoted, replace_of_notMem plain, String.ofList_toList]

/-- Without an apostrophe it is the JSON value of the text that is read. -/
theorem read_of_plain (plain : apostrophe ∉ t.toList) (v : Json.Value) :
    read t = .ok v ↔ Json.parse? t = some v := by
  rw [read, requoted_of_plain plain]
  cases Json.parse? t <;> simp

theorem read_apostrophized (plain : apostrophe ∉ t.toList) : read (apostrophized t) = read t := by
  by_cases quote : '"' ∈ t.toList
  · -- The new text is no JSON, so it is requoted.
    have there : apostrophe ∈ (apostrophized t).toList := mem_apostrophized.mpr (.inl ⟨rfl, quote⟩)
    have gone : '"' ∉ (apostrophized t).toList := by
      intro member
      rcases mem_apostrophized.mp member with ⟨same, -⟩ | ⟨other, -⟩
      · exact absurd same (by decide)
      · exact other rfl
    rw [read, read, Json.parse?_of_apostrophe there gone, requoted_apostrophized plain,
      requoted_of_plain plain]
    cases Json.parse? t <;> rfl
  · have same : apostrophized t = t := by
      rw [apostrophized, replace_of_notMem quote, String.ofList_toList]
    rw [same]

/-- A text without an apostrophe is read as a value exactly when it is JSON with that value, and so
is the text with apostrophes for its quotation marks. -/
theorem read_either_spelling (plain : apostrophe ∉ t.toList) (v : Json.Value) :
    (Json.parse? t = some v ↔ read t = .ok v) ∧
      (Json.parse? t = some v ↔ read (apostrophized t) = .ok v) := by
  rw [read_apostrophized plain]
  exact ⟨(read_of_plain plain v).symm, (read_of_plain plain v).symm⟩

/-- An object whose string holds an escaped quotation mark and an escaped apostrophe. -/
def escapedQuotes : String := "\x7b\"a\": [\"\\\"\\u0027\", \x7b\"\\\\\": null\x7d]\x7d"

theorem read_escapedQuotes :
    let v := .obj [("a", .arr [.str "\"\x27", .obj [("\\", .null)]])]
    apostrophe ∉ escapedQuotes.toList ∧ read escapedQuotes = .ok v ∧
      read (apostrophized escapedQuotes) = .ok v := by
  intro v
  have plain : apostrophe ∉ escapedQuotes.toList := by decide
  have parsed : Json.parse? escapedQuotes = some v := by rfl
  have both := read_either_spelling plain v
  exact ⟨plain, both.1.mp parsed, both.2.mp parsed⟩

end Validation

end EventWorker
