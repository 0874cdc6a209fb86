import EventWorker.Text.Blank

/-!
# Blanks and case

Results:
1. `isBlank_lower`: the case of a letter does not make it a blank.
2. `trimmed_of_lowercase`: a text whose lowercase form has no blanks has none around it either.
-/

namespace EventWorker.Text

theorem dropWhile_of_no_blank {cs : List Char} (h : ∀ c ∈ cs, isBlank c = false) :
    cs.dropWhile isBlank = cs := by
  cases cs with
  | nil => rfl
  | cons c cs =>
    exact List.dropWhile_cons_of_neg (by rw [h c List.mem_cons_self]; exact Bool.false_ne_true)

theorem trim_of_no_blank {cs : List Char} (h : ∀ c ∈ cs, isBlank c = false) : trim cs = cs := by
  have reversed : ∀ c ∈ cs.reverse, isBlank c = false := fun c hc => h c (List.mem_reverse.mp hc)
  rw [trim, dropWhile_of_no_blank h, dropWhile_of_no_blank reversed, List.reverse_reverse]

/-- A letter is no blank in either case. -/
theorem isBlank_lower (c : Char) : isBlank (lower c) = isBlank c := by
  have letters : ∀ n < 91, 65 ≤ n →
      isBlank (Char.ofNat (n + 32)) = false ∧ isBlank (Char.ofNat n) = false := by
    decide
  unfold lower
  split
  · next upper =>
    obtain ⟨least, greatest⟩ := upper
    obtain ⟨low, same⟩ := letters c.toNat (Nat.lt_succ_of_le greatest) least
    rw [Char.ofNat_toNat] at same
    rw [low, same]
  · rfl

theorem trimmed_of_lowercase {s t : String} (same : lowercase s = t)
    (solid : ∀ c ∈ t.toList, isBlank c = false) : trimmed s = s := by
  have no_blank : ∀ c ∈ s.toList, isBlank c = false := by
    intro c hc
    rw [← isBlank_lower]
    refine solid _ ?_
    rw [← same, lowercase, String.toList_ofList]
    exact List.mem_map_of_mem hc
  rw [trimmed, trim_of_no_blank no_blank, String.ofList_toList]

end EventWorker.Text
