import EventWorker.Pipeline.Fragment
import EventWorker.Proofs.Keyed
import Mathlib.Logic.Relation

/-!
# References between fragments

Fragments and their references are a finite graph. It is sound when every reference has its sign
and names a fragment, and no fragment refers to itself in any number of steps.

Results:
1. `Element.target?_reference`: what a reference refers to.
2. `Grounded.acyclic`: a fragment from which every chain of references comes to an end is on no
   cycle.
3. `sound_of_grounded`: fragments that are all grounded are sound.
-/

namespace EventWorker

/-- A reference refers to what is written after the sign. -/
theorem Element.target?_reference {text t : String} :
    (Element.reference text).target? = some t ↔ text = "$" ++ t := by
  have sign : "$" ++ t = String.ofList (sigil :: t.toList) := by
    rw [← String.toList_inj, String.toList_append, String.toList_ofList, String.toList_ofList]
    rfl
  rw [sign, ← String.toList_inj, String.toList_ofList, target?]
  cases h : text.toList with
  | nil => simp
  | cons c name =>
    by_cases hc : c = sigil
    · simp [hc, ← String.toList_inj]
    · simp [hc]

namespace Fragments

/-- The fragment `a` has a reference to `b`. -/
def Refers (fragments : Fragments) (a b : String) : Prop :=
  ∃ elements, Keyed.find? a fragments = some elements ∧ ∃ e ∈ elements, e.target? = some b

/-- Every reference has the sign and names a fragment, and no fragment refers to itself, directly
or through others. -/
structure Sound (fragments : Fragments) : Prop where
  named : ∀ {name elements}, Keyed.find? name fragments = some elements →
    ∀ {text}, .reference text ∈ elements → ∃ t, text = "$" ++ t ∧ Keyed.contains t fragments = true
  acyclic : ∀ name, ¬ Relation.TransGen fragments.Refers name name

/-- Every chain of references from a fragment comes to an end, and meets nothing on its way but
signed references to fragments. -/
inductive Grounded (fragments : Fragments) : String → Prop
  | intro {name : String} {elements : List Element} :
      Keyed.find? name fragments = some elements →
      (∀ {text}, .reference text ∈ elements → ∃ t, text = "$" ++ t) →
      (∀ t, fragments.Refers name t → Grounded fragments t) → Grounded fragments name

variable {fragments : Fragments} {name t : String} {elements : List Element}

theorem Refers.of_reference (found : Keyed.find? name fragments = some elements)
    (member : .reference ("$" ++ t) ∈ elements) : fragments.Refers name t :=
  ⟨elements, found, _, member, Element.target?_reference.mpr rfl⟩

theorem Sound.contains (sound : fragments.Sound) (refers : fragments.Refers name t) :
    Keyed.contains t fragments = true := by
  obtain ⟨elements, found, e, member, target⟩ := refers
  cases e with
  | processor spec => cases target
  | reference text =>
    obtain ⟨t', written, known⟩ := sound.named found member
    rw [Element.target?_reference.mpr written] at target
    cases target
    exact known

theorem Grounded.contains (h : fragments.Grounded name) : Keyed.contains name fragments = true := by
  cases h with
  | intro found _ _ => exact Keyed.contains_of_find? found

/-- A cycle through a fragment is one through what it refers to as well, and so would never come
to an end. -/
theorem Grounded.acyclic (h : fragments.Grounded name) :
    ¬ Relation.TransGen fragments.Refers name name := by
  induction h with
  | @intro name elements found signed below ih =>
    intro cycle
    obtain ⟨t, refers, back⟩ := Relation.TransGen.head'_iff.mp cycle
    exact ih t refers (.tail' back refers)

theorem sound_of_grounded
    (h : ∀ name, Keyed.contains name fragments = true → fragments.Grounded name) :
    fragments.Sound where
  named := by
    intro name elements found text member
    cases h name (Keyed.contains_of_find? found) with
    | intro found' signed below =>
      rw [found] at found'
      cases found'
      obtain ⟨t, rfl⟩ := signed member
      exact ⟨t, rfl, (below t (.of_reference found member)).contains⟩
  acyclic := by
    intro name cycle
    obtain ⟨t, refers, -⟩ := Relation.TransGen.head'_iff.mp cycle
    obtain ⟨elements, found, -⟩ := refers
    exact (h name (Keyed.contains_of_find? found)).acyclic cycle

end Fragments

end EventWorker
