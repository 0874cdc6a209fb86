import EventWorker.Proofs.Text.Spelling
import Mathlib.Data.List.TakeWhile

/-!
# Cutting and trimming texts

Results:
1. `pieces_append`, `pieces_intercalate`: the pieces of texts with a separator between them.
2. `cut?_append`, `cut?_of_notMem`: where a text is cut in two.
3. `trim_padded`: blanks around a text do not count.
-/

namespace EventWorker.Text

/-! ## Pieces -/

theorem pieces_eq_splitOn (separator : Char) (cs : List Char) :
    pieces separator cs = cs.splitOn separator := by
  show _ = cs.splitOnP (· == separator)
  induction cs with
  | nil => rfl
  | cons c rest ih =>
    rw [pieces, ih, List.splitOnP_cons_eq_if_modifyHead]
    by_cases hc : c = separator
    · rw [if_pos hc, if_pos (beq_iff_eq.mpr hc)]
    · rw [if_neg hc, if_neg (mt beq_iff_eq.mp hc)]
      cases split : rest.splitOnP (· == separator) with
      | nil => exact absurd split (List.splitOnP_ne_nil _ _)
      | cons piece others => rfl

theorem pieces_append (separator : Char) (xs ys : List Char) :
    pieces separator (xs ++ separator :: ys) = pieces separator xs ++ pieces separator ys := by
  rw [pieces_eq_splitOn, pieces_eq_splitOn, pieces_eq_splitOn]
  exact List.splitOnP_append_cons xs ys (beq_self_eq_true separator)

theorem pieces_intercalate {separator : Char} {segments : List (List Char)}
    (some_ : segments ≠ []) (h : ∀ segment ∈ segments, separator ∉ segment) :
    pieces separator ([separator].intercalate segments) = segments := by
  rw [pieces_eq_splitOn]
  exact List.splitOn_intercalate separator h some_

/-! ## Cuts -/

theorem cut?_append {separator : Char} {xs : List Char} (h : separator ∉ xs) (ys : List Char) :
    cut? separator (xs ++ separator :: ys) = some (xs, ys) := by
  induction xs with
  | nil => exact if_pos rfl
  | cons c rest ih =>
    rw [List.mem_cons, not_or] at h
    rw [List.cons_append, cut?, if_neg (Ne.symm h.1), ih h.2]
    rfl

theorem cut?_of_notMem {separator : Char} {cs : List Char} (h : separator ∉ cs) :
    cut? separator cs = none := by
  induction cs with
  | nil => rfl
  | cons c rest ih =>
    rw [List.mem_cons, not_or] at h
    rw [cut?, if_neg (Ne.symm h.1), ih h.2]
    rfl

/-! ## Blanks around a text -/

/-- A text of blanks only. -/
def Blank (cs : List Char) : Prop :=
  ∀ c ∈ cs, isBlank c = true

instance (cs : List Char) : Decidable (Blank cs) :=
  List.decidableBAll (fun c => isBlank c = true) cs

theorem Blank.reverse {cs : List Char} (h : Blank cs) : Blank cs.reverse :=
  fun c hc => h c (List.mem_reverse.mp hc)

/-- No separator that is not a blank is among blanks. -/
theorem Blank.notMem {cs : List Char} (h : Blank cs) {c : Char} (solid : isBlank c = false) :
    c ∉ cs := fun hc => Bool.false_ne_true (solid.symm.trans (h c hc))

theorem trim_padded {before after : List Char} (hb : Blank before) (ha : Blank after)
    (cs : List Char) : trim (before ++ cs ++ after) = trim cs := by
  rw [trim, trim, List.append_assoc, List.dropWhile_append_of_pos hb, List.dropWhile_append]
  split
  · next all =>
    have nothing : cs.dropWhile isBlank = [] := List.isEmpty_iff.mp all
    have nothing' : after.dropWhile isBlank = [] := List.dropWhile_eq_nil_iff.mpr ha
    rw [nothing, nothing']
  · rw [List.reverse_append, List.dropWhile_append_of_pos ha.reverse]

end EventWorker.Text
