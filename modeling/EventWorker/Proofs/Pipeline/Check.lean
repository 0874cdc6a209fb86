import EventWorker.Proofs.Pipeline.References
import EventWorker.Proofs.Steps
import EventWorker.Worker.Startup

/-!
# The check of fragments decides whether they are sound

The check visits the fragments depth first. The fragments that it is done with are grounded, and
those on its path all lead to the fragment at hand, so that meeting one of them again closes a
cycle. The path holds each fragment at most once, so the check never goes deeper than there are
fragments.

Results:
1. `visit_grounded`: what a visit finds sound is grounded.
2. `visit_error`: a visit that finds an offence gives the code 199, and the fragments are unsound.
3. `visit_deeper`: a greater depth makes no difference.
4. `check_iff_sound`: the check of any fragments.
-/

namespace EventWorker.Fragments

variable {fragments : Fragments} {fuel : Nat} {path done : List String} {name : String}

/-! ## One fragment and its elements -/

/-- Visits what an element of the fragment `name` refers to. -/
def follow (fragments : Fragments) (fuel : Nat) (path : List String) (name : String)
    (done : List String) (e : Element) : Except Failure (List String) := do
  match ← target name e with
  | none => return done
  | some t => visit fragments fuel (name :: path) done t

theorem follow_processor (spec : ProcessorSpec) :
    follow fragments fuel path name done (.processor spec) = .ok done := rfl

theorem follow_reference {t : String} :
    follow fragments fuel path name done (.reference ("$" ++ t)) =
      visit fragments fuel (name :: path) done t := by
  have written : (Element.reference ("$" ++ t)).target? = some t :=
    Element.target?_reference.mpr rfl
  simp only [follow, target, written]
  rfl

theorem follow_unsigned {text : String} (unsigned' : ∀ t, text ≠ "$" ++ t) :
    follow fragments fuel path name done (.reference text) = .error (unsigned name text) := by
  have none : (Element.reference text).target? = none := by
    cases h : (Element.reference text).target? with
    | none => rfl
    | some t => exact absurd (Element.target?_reference.mp h) (unsigned' t)
  simp only [follow, target, none]
  rfl

/-- How a visit goes that ends with `r`, by what there is to know of the fragment. -/
inductive VisitCase (fragments : Fragments) (fuel : Nat) (path done : List String) (name : String)
    (r : Except Failure (List String)) : Prop
  | known : name ∈ done → r = .ok done → VisitCase fragments fuel path done name r
  | again : name ∈ path → r = .error (circular name) → VisitCase fragments fuel path done name r
  | missing : Keyed.find? name fragments = none → r = .error (undefined name) →
      VisitCase fragments fuel path done name r
  | tooDeep {elements : List Element} : name ∉ path → Keyed.find? name fragments = some elements →
      fuel = 0 → r = .error (circular name) → VisitCase fragments fuel path done name r
  | entered {elements : List Element} {room : Nat} : name ∉ path →
      Keyed.find? name fragments = some elements → fuel = room + 1 →
      (r = elements.foldlM (follow fragments room path name) done >>= fun done =>
        .ok (name :: done)) → VisitCase fragments fuel path done name r

theorem visit_case (fragments : Fragments) (fuel : Nat) (path done : List String) (name : String) :
    VisitCase fragments fuel path done name (visit fragments fuel path done name) := by
  unfold visit
  by_cases known : name ∈ done
  · exact .known known (if_pos known)
  rw [if_neg known]
  by_cases again : name ∈ path
  · exact .again again (if_pos again)
  rw [if_neg again]
  cases found : Keyed.find? name fragments with
  | none => exact .missing found rfl
  | some elements =>
    cases fuel with
    | zero => exact .tooDeep again found rfl rfl
    | succ room => exact .entered again found rfl rfl

/-! ## What a visit finds sound -/

/-- All of `done` is grounded. -/
def AllGrounded (fragments : Fragments) (done : List String) : Prop :=
  ∀ n ∈ done, fragments.Grounded n

theorem foldlM_follow_grounded
    (visits : ∀ {done t done'}, visit fragments fuel (name :: path) done t = .ok done' →
      fragments.AllGrounded done → fragments.AllGrounded done' ∧ done ⊆ done' ∧ t ∈ done')
    {elements : List Element} {done done' : List String}
    (h : elements.foldlM (follow fragments fuel path name) done = .ok done')
    (grounded : fragments.AllGrounded done) :
    fragments.AllGrounded done' ∧ done ⊆ done' ∧
      ∀ {text}, .reference text ∈ elements → ∃ t, text = "$" ++ t ∧ t ∈ done' := by
  induction elements generalizing done with
  | nil =>
    cases h
    exact ⟨grounded, fun n hn => hn, fun hn => absurd hn List.not_mem_nil⟩
  | cons e rest ih =>
    obtain ⟨mid, first, others⟩ := exists_of_bind_ok h
    cases e with
    | processor spec =>
      rw [follow_processor] at first
      cases first
      obtain ⟨grounded', kept, signed⟩ := ih others grounded
      refine ⟨grounded', kept, fun member => ?_⟩
      rcases List.mem_cons.mp member with same | member
      · cases same
      · exact signed member
    | reference text =>
      by_cases written : ∃ t, text = "$" ++ t
      · obtain ⟨t, rfl⟩ := written
        rw [follow_reference] at first
        obtain ⟨midGrounded, toMid, there⟩ := visits first grounded
        obtain ⟨grounded', kept, signed⟩ := ih others midGrounded
        refine ⟨grounded', fun n hn => kept (toMid hn), fun member => ?_⟩
        rcases List.mem_cons.mp member with same | member
        · cases same
          exact ⟨t, rfl, kept there⟩
        · exact signed member
      · rw [follow_unsigned fun t same => written ⟨t, same⟩] at first
        cases first

/-- Whatever a visit is done with is grounded, and it is done with the fragment that it visits. -/
theorem visit_grounded {done' : List String} (h : visit fragments fuel path done name = .ok done')
    (grounded : fragments.AllGrounded done) :
    fragments.AllGrounded done' ∧ done ⊆ done' ∧ name ∈ done' := by
  -- The elements are visited with less fuel and a longer path. The path plays no part here: that
  -- a visit ends well at all is what keeps a fragment on it from being met again.
  induction fuel using Nat.strongRecOn generalizing path done name done' with
  | _ fuel ih =>
    cases visit_case fragments fuel path done name with
    | known known ends =>
      rw [ends] at h
      cases h
      exact ⟨grounded, fun n hn => hn, known⟩
    | again again ends => rw [ends] at h; cases h
    | missing missing ends => rw [ends] at h; cases h
    | tooDeep first found empty ends => rw [ends] at h; cases h
    | @entered elements room first found enough ends =>
      rw [ends] at h
      obtain ⟨mid, followed, h⟩ := exists_of_bind_ok h
      cases h
      have room_lt : room < fuel := by omega
      obtain ⟨midGrounded, kept, signed⟩ :=
        foldlM_follow_grounded (ih room room_lt) followed grounded
      have own : fragments.Grounded name := by
        refine .intro found (fun member => ?_) fun t refers => ?_
        · obtain ⟨t, written, -⟩ := signed member
          exact ⟨t, written⟩
        · obtain ⟨elements', found', e, member, target⟩ := refers
          rw [found] at found'
          cases found'
          cases e with
          | processor spec => cases target
          | reference text =>
            obtain ⟨t', rfl, there⟩ := signed member
            rw [Element.target?_reference.mpr rfl] at target
            cases target
            exact midGrounded t there
      refine ⟨fun n hn => ?_, fun n hn => List.mem_cons_of_mem _ (kept hn), List.mem_cons_self⟩
      rcases List.mem_cons.mp hn with rfl | hn
      · exact own
      · exact midGrounded n hn

/-! ## Why a visit fails -/

/-- The fragments on a path are there and differ from each other. -/
structure Trail (fragments : Fragments) (path : List String) : Prop where
  nodup : path.Nodup
  known : ∀ p ∈ path, Keyed.contains p fragments = true

namespace Trail

theorem nil : fragments.Trail [] :=
  ⟨List.nodup_nil, fun _ hp => absurd hp List.not_mem_nil⟩

theorem next (trail : fragments.Trail path) (new : name ∉ path)
    (there : Keyed.contains name fragments = true) : fragments.Trail (name :: path) where
  nodup := List.nodup_cons.mpr ⟨new, trail.nodup⟩
  known := by
    intro p hp
    rcases List.mem_cons.mp hp with rfl | hp
    · exact there
    · exact trail.known p hp

/-- No path is longer than there are fragments. -/
theorem length_le (trail : fragments.Trail path) : path.length ≤ fragments.length := by
  have within : path ⊆ Keyed.keys fragments := fun p hp =>
    Keyed.contains_iff_mem_keys.mp (trail.known p hp)
  have bound := trail.nodup.length_le_of_subset within
  rwa [Keyed.keys, List.length_map] at bound

end Trail

/-- A path that leads to the fragment at hand, which is one of those there if it is visited
first. -/
structure Way (fragments : Fragments) (path : List String) (name : String) : Prop
    extends fragments.Trail path where
  leads : ∀ p ∈ path, Relation.TransGen fragments.Refers p name
  start : path = [] → Keyed.contains name fragments = true

namespace Way

theorem nil (there : Keyed.contains name fragments = true) : fragments.Way [] name :=
  ⟨.nil, fun _ hp => absurd hp List.not_mem_nil, fun _ => there⟩

theorem next (way : fragments.Way path name) (new : name ∉ path) {t : String}
    (there : Keyed.contains name fragments = true) (refers : fragments.Refers name t) :
    fragments.Way (name :: path) t where
  toTrail := way.toTrail.next new there
  leads := by
    intro p hp
    rcases List.mem_cons.mp hp with rfl | hp
    · exact .single refers
    · exact (way.leads p hp).tail refers
  start := nofun

/-- The fragment at hand is there if all references are. -/
theorem contains (way : fragments.Way path name) (sound : fragments.Sound) :
    Keyed.contains name fragments = true := by
  cases path with
  | nil => exact way.start rfl
  | cons p rest =>
    obtain ⟨q, -, refers⟩ := Relation.TransGen.tail'_iff.mp (way.leads p List.mem_cons_self)
    exact sound.contains refers

end Way

/-- The failure of a check that names an offence of the fragments. -/
def Offended (fragments : Fragments) (f : Failure) : Prop :=
  f.code = 199 ∧ ¬ fragments.Sound

theorem foldlM_follow_error {whole : List Element} (found : Keyed.find? name fragments = some whole)
    {f : Failure}
    (visits : ∀ {done t}, fragments.Refers name t →
      visit fragments fuel (name :: path) done t = .error f → fragments.Offended f)
    {elements : List Element} (part : elements ⊆ whole) {done : List String}
    (h : elements.foldlM (follow fragments fuel path name) done = .error f) :
    fragments.Offended f := by
  induction elements generalizing done with
  | nil => cases h
  | cons e rest ih =>
    have member : e ∈ whole := part List.mem_cons_self
    rw [List.foldlM_cons] at h
    cases first : follow fragments fuel path name done e with
    | ok mid =>
      rw [first] at h
      exact ih (fun x hx => part (List.mem_cons_of_mem _ hx)) h
    | error f' =>
      rw [first] at h
      cases h
      cases e with
      | processor spec =>
        rw [follow_processor] at first
        cases first
      | reference text =>
        by_cases written : ∃ t, text = "$" ++ t
        · obtain ⟨t, rfl⟩ := written
          rw [follow_reference] at first
          exact visits (.of_reference found member) first
        · rw [follow_unsigned fun t same => written ⟨t, same⟩] at first
          cases first
          refine ⟨rfl, fun sound => ?_⟩
          obtain ⟨t, same, -⟩ := sound.named found member
          exact written ⟨t, same⟩

/-- A visit fails for an offence only: with enough fuel it never goes too deep. -/
theorem visit_error {f : Failure} (h : visit fragments fuel path done name = .error f)
    (way : fragments.Way path name) (enough : fragments.length ≤ fuel + path.length) :
    fragments.Offended f := by
  induction fuel using Nat.strongRecOn generalizing path done name with
  | _ fuel ih =>
    cases visit_case fragments fuel path done name with
    | known known ends => rw [ends] at h; cases h
    | again again ends =>
      rw [ends] at h
      cases h
      exact ⟨rfl, fun sound => sound.acyclic name (way.leads name again)⟩
    | missing missing ends =>
      rw [ends] at h
      cases h
      refine ⟨rfl, fun sound => ?_⟩
      obtain ⟨elements, found⟩ := Keyed.exists_of_contains (way.contains sound)
      rw [missing] at found
      cases found
    | tooDeep first found empty ends =>
      -- The path with this fragment would be longer than there are fragments.
      have longer := (way.toTrail.next first (Keyed.contains_of_find? found)).length_le
      rw [List.length_cons] at longer
      omega
    | @entered elements room first found deeper ends =>
      rw [ends] at h
      have there := Keyed.contains_of_find? found
      cases followed : elements.foldlM (follow fragments room path name) done with
      | ok mid =>
        rw [followed] at h
        cases h
      | error f' =>
        rw [followed] at h
        cases h
        refine foldlM_follow_error found (fun refers failed => ?_) (fun x hx => hx) followed
        refine ih room (by omega) failed (way.next first there refers) ?_
        rw [List.length_cons]
        omega

/-! ## How deep the check goes -/

/-- An element is followed in the same way if what it refers to is visited in the same way. -/
theorem follow_congr {less more : Nat}
    (same : ∀ done t, visit fragments more (name :: path) done t =
      visit fragments less (name :: path) done t) :
    follow fragments more path name = follow fragments less path name := by
  funext done e
  unfold follow
  refine congrArg (target name e >>= ·) (funext fun found => ?_)
  cases found with
  | none => rfl
  | some t => exact same done t

/-- A visit with fuel for all the fragments that are not on its path does not depend on the fuel. -/
theorem visit_deeper {more : Nat} (trail : fragments.Trail path)
    (enough : fragments.length ≤ fuel + path.length) (le : fuel ≤ more) :
    visit fragments more path done name = visit fragments fuel path done name := by
  induction fuel using Nat.strongRecOn generalizing path done name more with
  | _ fuel ih =>
    unfold visit
    by_cases visited : name ∈ done
    · rw [if_pos visited, if_pos visited]
    rw [if_neg visited, if_neg visited]
    by_cases again : name ∈ path
    · rw [if_pos again, if_pos again]
    rw [if_neg again, if_neg again]
    cases found : Keyed.find? name fragments with
    | none => rfl
    | some elements =>
      have next := trail.next again (Keyed.contains_of_find? found)
      have longer := next.length_le
      rw [List.length_cons] at longer
      obtain ⟨less, rfl⟩ : ∃ n, fuel = n + 1 := ⟨fuel - 1, by omega⟩
      obtain ⟨more, rfl⟩ : ∃ n, more = n + 1 := ⟨more - 1, by omega⟩
      have same : follow fragments more path name = follow fragments less path name := by
        refine follow_congr fun done t => ih less (by omega) next ?_ (by omega)
        rw [List.length_cons]
        omega
      show elements.foldlM (follow fragments more path name) done >>= _ =
        elements.foldlM (follow fragments less path name) done >>= _
      rw [same]

/-! ## The check -/

/-- The check with chains of at most `depth` references. -/
def checkTo (fragments : Fragments) (depth : Nat) : Except Failure Unit := do
  let _ ← (Keyed.keys fragments).foldlM (fun done name => visit fragments depth [] done name) []

theorem check_eq (fragments : Fragments) : fragments.check = fragments.checkTo fragments.length :=
  rfl

theorem checkTo_deeper {depth : Nat} (enough : fragments.length ≤ depth) :
    fragments.checkTo depth = fragments.check := by
  rw [check_eq, checkTo, checkTo]
  have same : (fun done name => visit fragments depth [] done name) =
      fun done name => visit fragments fragments.length [] done name := by
    funext done name
    exact visit_deeper .nil (Nat.le_add_right _ _) enough
  rw [same]

/-- Fragments visited one after the other are all grounded. -/
theorem foldlM_visit_grounded {names done done' : List String}
    (h : names.foldlM (fun done name => visit fragments fuel [] done name) done = .ok done')
    (grounded : fragments.AllGrounded done) :
    fragments.AllGrounded done' ∧ done ⊆ done' ∧ names ⊆ done' := by
  induction names generalizing done with
  | nil =>
    cases h
    exact ⟨grounded, fun n hn => hn, List.nil_subset _⟩
  | cons name rest ih =>
    obtain ⟨mid, first, others⟩ := exists_of_bind_ok h
    obtain ⟨midGrounded, toMid, there⟩ := visit_grounded first grounded
    obtain ⟨grounded', kept, visited⟩ := ih others midGrounded
    exact ⟨grounded', fun n hn => kept (toMid hn), List.cons_subset.mpr ⟨kept there, visited⟩⟩

theorem foldlM_visit_error {names done : List String} {f : Failure}
    (known : names ⊆ Keyed.keys fragments)
    (h : names.foldlM (fun done name => visit fragments fragments.length [] done name) done =
      .error f) : fragments.Offended f := by
  induction names generalizing done with
  | nil => cases h
  | cons name rest ih =>
    obtain ⟨there, others⟩ := List.cons_subset.mp known
    rw [List.foldlM_cons] at h
    cases first : visit fragments fragments.length [] done name with
    | ok mid =>
      rw [first] at h
      exact ih others h
    | error f' =>
      rw [first] at h
      cases h
      exact visit_error first (.nil (Keyed.contains_iff_mem_keys.mpr there)) (Nat.le_add_right _ _)

theorem check_error {f : Failure} (h : fragments.check = .error f) : fragments.Offended f := by
  unfold check at h
  cases visited : (Keyed.keys fragments).foldlM
      (fun done name => visit fragments fragments.length [] done name) [] with
  | ok done =>
    rw [visited] at h
    cases h
  | error f' =>
    rw [visited] at h
    cases h
    exact foldlM_visit_error (List.Subset.refl _) visited

theorem check_ok_iff : fragments.check = .ok () ↔ fragments.Sound := by
  constructor
  · intro h
    obtain ⟨done, visited, -⟩ := exists_of_bind_ok h
    obtain ⟨grounded, -, all⟩ :=
      foldlM_visit_grounded visited fun n hn => absurd hn List.not_mem_nil
    exact sound_of_grounded fun name there =>
      grounded name (all (Keyed.contains_iff_mem_keys.mp there))
  · intro sound
    cases h : fragments.check with
    | ok done => rfl
    | error f => exact absurd sound (check_error h).2

/-! ## What a failed check keeps from happening -/

theorem resolve_unsound {ω : Type} {f : Failure} (h : fragments.check = .error f) (w : Wiring ω) :
    (Wiring.resolve fragments).outcome w = (.error f, w) := by
  refine Step.outcome_bind_error ?_
  rw [h]
  rfl

theorem start_unsound {ω : Type} {p : Plan ω} {f : Failure}
    (h : p.config.fragments.check = .error f) (w : ω) : p.start.outcome w = (.error f, w) := by
  refine Step.outcome_bind_error ?_
  rw [h]
  rfl

/-- The check passes exactly the sound fragments, and every other check gives the code 199. It ends
for all fragments: the bound on its depth cuts nothing short. After a failed check resolving and
starting end at once, with this very failure and in the same state: in surroundings that keep a
record of calls there is no record of a processor made, of a set-up or of a connection. -/
theorem check_iff_sound (fragments : Fragments) :
    (fragments.check = .ok () ↔ fragments.Sound) ∧
    (∀ depth, fragments.length ≤ depth → fragments.checkTo depth = fragments.check) ∧
    ∀ f, fragments.check = .error f →
      f.code = 199 ∧
      (∀ (ω : Type) (w : Wiring ω), (Wiring.resolve fragments).outcome w = (.error f, w)) ∧
      ∀ (ω : Type) (p : Plan ω) (w : ω), p.config.fragments = fragments →
        p.start.outcome w = (.error f, w) := by
  refine ⟨check_ok_iff, fun depth enough => checkTo_deeper enough, fun f failed => ?_⟩
  refine ⟨(check_error failed).1, fun ω w => resolve_unsound failed w, ?_⟩
  rintro ω p w rfl
  exact start_unsound failed w

/-- Two fragments that refer to each other, and a third one that refers to the first. -/
def entangled : Fragments :=
  [("A", [.processor ⟨"client_ready", ""⟩, .reference "$B"]), ("B", [.reference "$A"]),
    ("C", [.reference "$A"])]

theorem check_iff_sound_entangled :
    entangled.check = .error (circular "A") ∧ (circular "A").code = 199 ∧ ¬ entangled.Sound ∧
      (Wiring.resolve entangled).outcome { resolver := { registry := .builtin }, world := 0 } =
        (.error (circular "A"), { resolver := { registry := .builtin }, world := 0 }) := by
  have failed : entangled.check = .error (circular "A") := rfl
  obtain ⟨sound, -, unsound⟩ := check_iff_sound entangled
  obtain ⟨code, resolved, -⟩ := unsound (circular "A") failed
  refine ⟨failed, code, fun h => ?_, resolved Nat _⟩
  rw [sound.mpr h] at failed
  cases failed

end EventWorker.Fragments
