import EventWorker.Proofs.Pipeline.Expansion
import EventWorker.Proofs.Pipeline.Laws

/-!
# What the table is built from

Building the table creates, looks up and checks stages in turn, label by label. All its creations
together are those of the processors written in the pipelines, in order, and what it checks are the
instances that the lists stand for.

Results:
1. `expand_iff`, `buildOne_iff`: when the elements of a list and a pipeline are through, and with
   what.
2. `build_ended`, `build_ends`: the same for all pipelines, one direction each.
3. `Wiring.Reached.inventory`: what a resolver holds was made with it, so what is created later is
   none of that.
4. `build_exactly`: when the table is built, and what it holds.
-/

namespace EventWorker

variable {ω : Type}

/-! ## One pipeline -/

open Wiring (expand)

/-- The wiring when fresh processors have been created, with the surroundings as that left them. -/
def Wiring.created (s : Wiring ω) (ps : List (Processor ω)) (w : ω) : Wiring ω :=
  s.adding (numbered s.resolver.next ps) w

theorem Wiring.next_created (s : Wiring ω) (ps : List (Processor ω)) (w : ω) :
    (s.created ps w).resolver.next = s.resolver.next + ps.length := by
  rw [created, next_adding, length_numbered]

theorem Wiring.created_nil (s : Wiring ω) : s.created [] s.world = s := by
  rw [created, numbered, adding, List.append_nil]

theorem Wiring.created_created (s : Wiring ω) (ps qs : List (Processor ω)) (w w' : ω) :
    (s.created ps w).created qs w' = s.created (ps ++ qs) w' := by
  rw [created, next_created, created, adding_adding, created, numbered_append]

theorem Wiring.create_iff {s t : Wiring ω} (fresh : s.resolver.registry.Fresh)
    {own : List (Instance ω)} {spec : ProcessorSpec} :
    (create spec >>= fun i => pure [i]).outcome s = (.ok own, t) ↔
      ∃ p w, (s.resolver.registry.create spec).outcome s.world = (.ok p, w) ∧
        own = [⟨.fresh s.resolver.next, p⟩] ∧ t = s.created [p] w := by
  have one {i : Instance ω} (hands : s.resolver.registry.Hands s.resolver.next i) :
      i = ⟨.fresh s.resolver.next, i.processor⟩ := by
    cases hands with
    | fresh p => rfl
    | kept keeps => exact absurd keeps (fresh _)
  constructor
  · intro ended
    obtain ⟨i, u, created, last⟩ := Step.bind_ended ended
    cases last
    obtain ⟨w, handed, hands, rfl⟩ := create_ended created
    refine ⟨i.processor, w, handed, ?_, ?_⟩
    · rw [← one hands]
    · rw [Wiring.created, numbered, numbered, ← one hands]
  · rintro ⟨p, w, handed, rfl, rfl⟩
    obtain ⟨i, rfl, hands, ended⟩ := create_ok handed
    rw [Step.outcome_bind_ok ended, Wiring.created, numbered, numbered, ← one hands]
    rfl

namespace PipelineTable

variable {label : String} {s t : Wiring ω} {own : List (Instance ω)}

theorem instances_reference_iff {text : String} :
    (instances label (.reference text)).outcome s = (.ok own, t) ↔
      ∃ name, text = "$" ++ name ∧ Keyed.find? name s.resolver.loaded = some own ∧ t = s := by
  rw [outcome_instances_reference]
  constructor
  · intro ended
    split at ended
    · next shared found =>
      cases ended
      obtain ⟨name, target, found⟩ := Option.bind_eq_some_iff.mp found
      exact ⟨name, Element.target?_reference.mp target, found, rfl⟩
    · cases ended
  · rintro ⟨name, named, found, rfl⟩
    rw [Element.target?_reference.mpr named, Option.bind_some, found]

theorem instances_processor_iff (fresh : s.resolver.registry.Fresh) {spec : ProcessorSpec} :
    (instances label (.processor spec)).outcome s = (.ok own, t) ↔
      ∃ p w, (s.resolver.registry.create spec).outcome s.world = (.ok p, w) ∧
        own = [⟨.fresh s.resolver.next, p⟩] ∧ t = s.created [p] w :=
  Wiring.create_iff fresh

/-- The elements of a list are through when what is written there has been created and what is
referred to is held. -/
theorem expand_iff (fresh : s.resolver.registry.Fresh) {elements : List Element} :
    (expand (instances label) elements).outcome s = (.ok own, t) ↔
      ∃ ps w, s.resolver.registry.Creates (written elements) s.world ps w ∧
        Expands s.resolver.loaded elements (numbered s.resolver.next ps) own ∧
        t = s.created ps w := by
  induction elements generalizing s own with
  | nil =>
    constructor
    · intro ended
      cases ended
      exact ⟨[], _, creates_nil.mpr ⟨rfl, rfl⟩, .nil, (Wiring.created_nil _).symm⟩
    · rintro ⟨ps, w, creates, expands, rfl⟩
      obtain ⟨rfl, rfl⟩ := creates_nil.mp creates
      cases expands
      rw [Wiring.created_nil]
      rfl
  | cons e rest ih =>
    rw [expand, Step.bind_pure_ok_iff]
    cases e with
    | processor spec =>
      -- The rest starts where the element leaves the wiring: its numbers and its surroundings go
      -- on.
      constructor
      · rintro ⟨_, _, others, here, after, rfl⟩
        obtain ⟨p, u, first, rfl, rfl⟩ := (instances_processor_iff fresh).mp here
        obtain ⟨ps, w, creates, expands, rfl⟩ := (ih (s := s.created [p] u) fresh).mp after
        rw [Wiring.next_created] at expands
        exact ⟨p :: ps, w, creates_cons.mpr ⟨p, u, ps, first, creates, rfl⟩,
          .processor _ expands, s.created_created [p] ps u w⟩
      · rintro ⟨ps, w, creates, expands, rfl⟩
        obtain ⟨p, u, ps, first, later, rfl⟩ := creates_cons.mp creates
        cases expands with
        | processor _ expands =>
          refine ⟨_, s.created [p] u, _, (instances_processor_iff fresh).mpr ⟨p, u, first, rfl, rfl⟩,
            (ih (s := s.created [p] u) fresh).mpr ⟨ps, w, later, ?_, ?_⟩, rfl⟩
          · rw [Wiring.next_created]
            exact expands
          · exact (s.created_created [p] ps u w).symm
    | reference text =>
      constructor
      · rintro ⟨shared, _, others, here, after, rfl⟩
        obtain ⟨name, named, found, rfl⟩ := instances_reference_iff.mp here
        obtain ⟨ps, w, creates, expands, rfl⟩ := (ih fresh).mp after
        exact ⟨ps, w, creates, .reference named found expands, rfl⟩
      · rintro ⟨ps, w, creates, expands, rfl⟩
        cases expands with
        | reference named found expands =>
          exact ⟨_, s, _, instances_reference_iff.mpr ⟨_, named, found, rfl⟩,
            (ih fresh).mpr ⟨ps, w, creates, expands, rfl⟩, rfl⟩

theorem mapM_mainPlace_iff {is : List (Instance ω)} {xs : List (Wired (MainRun ω))} :
    is.mapM (mainPlace label) = .ok xs ↔ List.Forall₂ (Instance.Placed .main) is xs := by
  rw [mapM_ok_iff]
  simp only [mainPlace_eq_ok]

theorem mapM_finalPlace_iff {is : List (Instance ω)} {xs : List (Wired (FinalRun ω))} :
    is.mapM (finalPlace label) = .ok xs ↔ List.Forall₂ (Instance.Placed .final) is xs := by
  rw [mapM_ok_iff]
  simp only [finalPlace_eq_ok]

/-- A pipeline is through when both of its lists are and all instances are in a list of their
stage. -/
theorem buildOne_iff (fresh : s.resolver.registry.Fresh) {spec : PipelineSpec} {p : Pipeline ω}
    {used : List (Instance ω)} : (buildOne label spec).outcome s = (.ok (p, used), t) ↔
      ∃ ps u qs w main final,
        s.resolver.registry.Creates (written spec.main) s.world ps u ∧
        s.resolver.registry.Creates (written spec.final) u qs w ∧
        Expands s.resolver.loaded spec.main (numbered s.resolver.next ps) main ∧
        Expands s.resolver.loaded spec.final (numbered (s.resolver.next + ps.length) qs) final ∧
        Layout.Seats ⟨label, main, final⟩ p ∧ used = main ++ final ∧
        t = s.created (ps ++ qs) w := by
  constructor
  · intro ended
    obtain ⟨mains, s₁, expanded, ended⟩ := Step.bind_ended ended
    obtain ⟨main, placed, ended⟩ := Step.ofResult_bind_ended ended
    obtain ⟨finals, s₂, expanded', ended⟩ := Step.bind_ended ended
    obtain ⟨final, placed', ended⟩ := Step.ofResult_bind_ended ended
    cases ended
    obtain ⟨ps, u, creates, expands, rfl⟩ := (expand_iff fresh).mp expanded
    obtain ⟨qs, w, creates', expands', rfl⟩ := (expand_iff (s := s.created ps u) fresh).mp expanded'
    rw [Wiring.next_created] at expands'
    rw [Wiring.created_created]
    exact ⟨ps, u, qs, w, mains, finals, creates, creates', expands, expands',
      ⟨mapM_mainPlace_iff.mp placed, mapM_finalPlace_iff.mp placed'⟩, rfl, rfl⟩
  · rintro ⟨ps, u, qs, w, mains, finals, creates, creates', expands, expands', seats, rfl, rfl⟩
    have expanded : (expand (instances label) spec.main).outcome s =
        (.ok mains, s.created ps u) := (expand_iff fresh).mpr ⟨ps, u, creates, expands, rfl⟩
    rw [← s.next_created ps u] at expands'
    have expanded' : (expand (instances label) spec.final).outcome (s.created ps u) =
        (.ok finals, (s.created ps u).created qs w) :=
      (expand_iff (s := s.created ps u) fresh).mpr ⟨qs, w, creates', expands', rfl⟩
    rw [buildOne, Step.outcome_bind_ok expanded,
      Step.ofResult_bind_ok (mapM_mainPlace_iff.mpr seats.main), Step.outcome_bind_ok expanded',
      Step.ofResult_bind_ok (mapM_finalPlace_iff.mpr seats.final), Wiring.created_created]
    rfl

end PipelineTable

/-! ## All pipelines -/

namespace PipelineTable

variable {s t : Wiring ω} {table : PipelineTable ω} {pipelines : Pipelines}

/-- A table that has been built has, beside what it had before, the pipelines that the lists stand
for. -/
theorem build_ended {table' : PipelineTable ω} (fresh : s.resolver.registry.Fresh)
    (labels : Keyed.Ascending pipelines)
    (later : ∀ entry ∈ table.pipelines, ∀ e ∈ pipelines, entry.1 < e.1)
    (ended : (build table pipelines).outcome s = (.ok table', t)) :
    ∃ ps w layouts entries,
      s.resolver.registry.Creates (writtenIn pipelines) s.world ps w ∧
      Lays s.resolver.loaded pipelines (numbered s.resolver.next ps) layouts ∧
      List.Forall₂ (fun l entry => entry.1 = l.label ∧ l.Seats entry.2) layouts entries ∧
      table'.pipelines = table.pipelines ++ entries ∧ t = s.created ps w := by
  induction pipelines generalizing table s with
  | nil =>
    cases ended
    exact ⟨[], _, [], [], creates_nil.mpr ⟨rfl, rfl⟩, .nil, .nil, (List.append_nil _).symm,
      (Wiring.created_nil _).symm⟩
  | cons entry rest ih =>
    obtain ⟨label, spec⟩ := entry
    obtain ⟨⟨p, used⟩, u, one, ended⟩ := Step.bind_ended ended
    obtain ⟨mains, v, finals, x, main, final, creates, creates', expands, expands', seats, -,
      rfl⟩ := (buildOne_iff fresh).mp one
    -- The labels ascend, so each pipeline goes to the end of the table.
    have last : ∀ entry ∈ table.pipelines, entry.1 < label := fun entry he =>
      later entry he _ List.mem_cons_self
    have later' : ∀ entry ∈ Keyed.insert label p table.pipelines, ∀ e ∈ rest, entry.1 < e.1 := by
      intro entry he e hrest
      rw [Keyed.Ascending.insert_of_gt last, List.mem_append] at he
      rcases he with he | he
      · exact later entry he e (List.mem_cons_of_mem _ hrest)
      · cases List.mem_singleton.mp he
        exact labels.head_lt hrest
    obtain ⟨ps, w, layouts, entries, creates'', lays, placed, pipelines, rfl⟩ :=
      ih (s := s.created (mains ++ finals) x) fresh labels.tail later' ended
    rw [Wiring.next_created] at lays
    refine ⟨mains ++ finals ++ ps, w, ⟨label, main, final⟩ :: layouts, (label, p) :: entries,
      ?_, ?_, .cons ⟨rfl, seats⟩ placed, ?_, ?_⟩
    · exact creates_append.mpr ⟨_, _, _, creates_append.mpr ⟨_, _, _, creates, creates', rfl⟩,
        creates'', rfl⟩
    · rw [numbered_append, numbered_append]
      exact .cons expands expands' lays
    · rw [pipelines]
      show Keyed.insert label p table.pipelines ++ entries = _
      rw [Keyed.Ascending.insert_of_gt last, List.append_assoc]
      rfl
    · exact Wiring.created_created ..

/-- A table is built of lists that stand for instances of their stages. -/
theorem build_ends {ps : List (Processor ω)} {w : ω} {layouts : List (Layout ω)}
    (fresh : s.resolver.registry.Fresh)
    (creates : s.resolver.registry.Creates (writtenIn pipelines) s.world ps w)
    (lays : Lays s.resolver.loaded pipelines (numbered s.resolver.next ps) layouts)
    (staged : ∀ l ∈ layouts, l.Staged) :
    ∃ table' t, (build table pipelines).outcome s = (.ok table', t) := by
  induction pipelines generalizing table s ps layouts with
  | nil => exact ⟨table, s, rfl⟩
  | cons entry rest ih =>
    obtain ⟨label, spec⟩ := entry
    obtain ⟨qs, u, others, first, later, rfl⟩ := creates_append.mp creates
    obtain ⟨mains, v, finals, hmain, hfinal, rfl⟩ := creates_append.mp first
    rw [numbered_append, numbered_append] at lays
    obtain ⟨main, final, below, expands, expands', others_laid, rfl⟩ :=
      lays.parts (by rw [length_numbered, hmain.length]) (by rw [length_numbered, hfinal.length])
    obtain ⟨p, seats⟩ := (staged _ List.mem_cons_self).seats
    have one : (buildOne label spec).outcome s =
        (.ok (p, main ++ final), s.created (mains ++ finals) u) :=
      (buildOne_iff fresh).mpr
        ⟨mains, v, finals, u, main, final, hmain, hfinal, expands, expands', seats, rfl, rfl⟩
    have rest_staged : ∀ l ∈ below, l.Staged := fun l hl => staged l (List.mem_cons_of_mem _ hl)
    rw [build, Step.outcome_bind_ok one]
    rw [← s.next_created (mains ++ finals) u] at others_laid
    exact ih (s := s.created (mains ++ finals) u) fresh later others_laid rest_staged

end PipelineTable

/-! ## Resolvers -/

namespace Wiring

variable {s t : Wiring ω} {own : List (Instance ω)}

/-- A resolver that fragments have been resolved with any number of times, with factories that make
a fresh processor whenever they are asked. In between there may be anything going on in the
surroundings, and instances may be created for other uses. -/
inductive Reached : Wiring ω → Prop
  | start {registry : Registry ω} (fresh : registry.Fresh) (w : ω) :
      Reached { resolver := { registry }, world := w }
  | resolved {s t : Wiring ω} {fragments : Fragments} {r : Except Failure Unit} :
      Reached s → (resolve fragments).outcome s = (r, t) → Reached t
  | meanwhile {s : Wiring ω} (ps : List (Processor ω)) (w : ω) :
      Reached s → Reached (s.created ps w)

theorem Inventory.created {r : Registry ω} (h : Inventory r s) (ps : List (Processor ω)) (w : ω) :
    Inventory r (s.created ps w) := by
  induction ps generalizing s with
  | nil =>
    rw [Wiring.created, numbered, Wiring.adding, List.append_nil]
    exact ⟨⟨h.registry, h.handedOut⟩, h.loaded⟩
  | cons p rest ih =>
    have first := h.adding (.fresh p) w
    exact s.created_created [p] rest w w ▸ ih first

/-- What a resolver holds is among all that was made with it. -/
theorem Reached.inventory (reached : Reached s) :
    s.resolver.registry.Fresh ∧ Inventory s.resolver.registry s := by
  induction reached with
  | start fresh w => exact ⟨fresh, .start _ w⟩
  | meanwhile ps w _ ih => exact ⟨ih.1, ih.2.created ps w⟩
  | resolved _ resolved ih =>
    have inventory := ih.2.resolved resolved
    rw [inventory.registry]
    exact ⟨ih.1, inventory⟩

end Wiring

/-! ## The table -/

/-- What it takes to build a table: everything written in the pipelines can be created, every
reference is to a fragment that is held, and every instance is in a list of its stage. -/
structure Buildable (s : Wiring ω) (pipelines : Pipelines) : Prop where
  created : ∃ ps w, s.resolver.registry.Creates (writtenIn pipelines) s.world ps w
  named : ∀ entry ∈ pipelines, entry.2.Named s.resolver.loaded
  staged : ∀ ps w layouts, s.resolver.registry.Creates (writtenIn pipelines) s.world ps w →
    Lays s.resolver.loaded pipelines (numbered s.resolver.next ps) layouts →
    ∀ l ∈ layouts, l.Staged

/-- A table holds what the lists of the pipelines stand for. -/
structure PipelineTable.Holds (table : PipelineTable ω) (loaded : Stock ω) (pipelines : Pipelines)
    (new : List (Instance ω)) : Prop where
  /-- Under each label there are the instances that its lists stand for, and nothing is under any
  other label. -/
  layouts : ∃ layouts, Lays loaded pipelines new layouts ∧
    (∀ l ∈ layouts, ∃ p, table.get? l.label = some p ∧ l.Seats p) ∧
    layouts.map Layout.label = Keyed.keys pipelines
  others : ∀ label, label ∉ Keyed.keys pipelines → table.get? label = none
  /-- No two of the new instances are the same, and none of them is held by the resolver. -/
  distinct : (new.map Instance.id).Nodup
  fresh : ∀ i ∈ new, ∀ name shared, Keyed.find? name loaded = some shared →
    ∀ j ∈ shared, i.id ≠ j.id

namespace PipelineTable

variable {s t : Wiring ω} {pipelines : Pipelines} {table : PipelineTable ω}

theorem build_buildable (fresh : s.resolver.registry.Fresh) (buildable : Buildable s pipelines) :
    ∃ table t, (build {} pipelines).outcome s = (.ok table, t) := by
  obtain ⟨ps, w, creates⟩ := buildable.created
  obtain ⟨layouts, lays⟩ := exists_lays s.resolver.next creates buildable.named
  exact build_ends fresh creates lays (buildable.staged ps w layouts creates lays)

section Entries

variable {layouts : List (Layout ω)} {entries : List (String × Pipeline ω)}
  (seated : List.Forall₂ (fun l entry => entry.1 = l.label ∧ l.Seats entry.2) layouts entries)

include seated

theorem keys_of_seated : Keyed.keys entries = layouts.map Layout.label := by
  induction seated with
  | nil => rfl
  | cons first _ ih => exact congrArg₂ List.cons first.1 ih

theorem seats_of_seated {l : Layout ω} (hl : l ∈ layouts) :
    ∃ p, (l.label, p) ∈ entries ∧ l.Seats p := by
  obtain ⟨k, hk, rfl⟩ := List.getElem_of_mem hl
  have hk' : k < entries.length := seated.length_eq ▸ hk
  obtain ⟨label, seats⟩ := seated.get hk hk'
  have label : entries[k].1 = layouts[k].label := label
  refine ⟨entries[k].2, ?_, seats⟩
  rw [← label]
  exact List.getElem_mem hk'

end Entries

/-- What was built could be, and the table holds what the lists stand for. -/
theorem build_holds (labels : Keyed.Ascending pipelines) (reached : s.Reached)
    (ended : (build {} pipelines).outcome s = (.ok table, t)) :
    Buildable s pipelines ∧
      ∃ ps w, s.resolver.registry.Creates (writtenIn pipelines) s.world ps w ∧
        table.Holds s.resolver.loaded pipelines (numbered s.resolver.next ps) := by
  obtain ⟨fresh, inventory⟩ := reached.inventory
  obtain ⟨ps, w, layouts, entries, creates, lays, seated, held, -⟩ :=
    build_ended fresh labels (fun _ none => absurd none List.not_mem_nil) ended
  rw [List.nil_append] at held
  have keys : Keyed.keys entries = Keyed.keys pipelines := (keys_of_seated seated).trans lays.labels
  have ascending : Keyed.Ascending entries := by
    have sorted : (Keyed.keys pipelines).Pairwise (· < ·) := List.pairwise_map.mpr labels
    rw [← keys] at sorted
    exact List.pairwise_map.mp sorted
  refine ⟨⟨⟨ps, w, creates⟩, lays.named, ?_⟩, ps, w, creates, ?_⟩
  · intro ps' w' layouts' creates' lays' l hl
    cases creates.symm.trans creates'
    obtain rfl := lays.unique lays'
    obtain ⟨p, -, seats⟩ := seats_of_seated seated hl
    exact seats.staged
  · refine ⟨⟨layouts, lays, fun l hl => ?_, lays.labels⟩, fun label absent => ?_, ?_, ?_⟩
    · obtain ⟨p, member, seats⟩ := seats_of_seated seated hl
      refine ⟨p, ?_, seats⟩
      rw [get?, held]
      exact ascending.mem_iff.mp member
    · rw [← keys, ← Keyed.contains_iff_mem_keys, Keyed.contains, Bool.not_eq_true,
        Option.isSome_eq_false_iff, Option.isNone_iff_eq_none] at absent
      rwa [get?, held]
    · rw [ids_numbered]
      exact List.Nodup.map (fun _ _ => Identity.fresh.inj) List.nodup_range'
    · intro i hi name shared found j hj same
      have member : i.id ∈ (numbered s.resolver.next ps).map Instance.id :=
        List.mem_map_of_mem hi
      rw [ids_numbered, List.mem_map] at member
      obtain ⟨n, range, id⟩ := member
      have below := inventory.handedOut.lt_of_fresh (inventory.loaded found hj)
        (same.symm.trans id.symm)
      exact absurd (List.mem_range'_1.mp range).1 (Nat.not_le.mpr below)

/-- A table is built exactly when it can be. It holds what the lists of the pipelines stand for:
one newly created instance for each processor that is written in them, and the resolver's own for
each reference. -/
theorem build_exactly (labels : Keyed.Ascending pipelines) (reached : s.Reached) :
    ((∃ table t, (build {} pipelines).outcome s = (.ok table, t)) ↔ Buildable s pipelines) ∧
      ∀ table t, (build {} pipelines).outcome s = (.ok table, t) →
        ∃ ps w, s.resolver.registry.Creates (writtenIn pipelines) s.world ps w ∧
          table.Holds s.resolver.loaded pipelines (numbered s.resolver.next ps) := by
  refine ⟨⟨?_, build_buildable reached.inventory.1⟩, fun table t ended =>
    (build_holds labels reached ended).2⟩
  rintro ⟨table, t, ended⟩
  exact (build_holds labels reached ended).1

/-- What comes of resolving the fragments of `diamond`. -/
def diamondResolved : Except Failure Unit × Wiring Nat :=
  (Wiring.resolve Wiring.diamond).outcome { resolver := { registry := .builtin }, world := 0 }

/-- A wiring that holds the fragments of `diamond`. -/
def diamondWiring : Wiring Nat :=
  diamondResolved.2

/-- Two pipelines that share an instance; the first one has processors of its own as well. -/
def diamondPipelines : Pipelines :=
  [("join", { main := [.reference "$A", .processor ⟨"start_session", ""⟩]
              final := [.processor ⟨"event_multiplication_mle", ""⟩] }),
    ("leave", { main := [.reference "$C"] })]

/-- The ids in the two lists of each label. -/
def seating (table : PipelineTable ω) : List (String × List Identity × List Identity) :=
  table.pipelines.map fun (label, p) => (label, p.main.map Wired.id, p.final.map Wired.id)

theorem build_exactly_diamond :
    Keyed.Ascending diamondPipelines ∧ diamondWiring.Reached ∧
      Buildable diamondWiring diamondPipelines ∧
      ∃ table t, (build {} diamondPipelines).outcome diamondWiring = (.ok table, t) ∧
        seating table = [("join", [0, 1, 0, 2], [3]), ("leave", [0], [])] ∧
        ∃ ps w, diamondWiring.resolver.registry.Creates (writtenIn diamondPipelines)
          diamondWiring.world ps w ∧
          table.Holds diamondWiring.resolver.loaded diamondPipelines
            (numbered diamondWiring.resolver.next ps) := by
  have labels : Keyed.Ascending diamondPipelines :=
    List.pairwise_pair.mpr (by decide : "join" < "leave")
  have resolved : (Wiring.resolve Wiring.diamond).outcome
      { resolver := { registry := .builtin }, world := 0 } = (diamondResolved.1, diamondWiring) :=
    rfl
  have reached : diamondWiring.Reached := .resolved (.start Registry.builtin_fresh 0) resolved
  obtain ⟨built, holds⟩ := build_exactly labels reached
  have seats : ((build {} diamondPipelines).outcome diamondWiring).1.toOption.map seating =
      some [("join", [0, 1, 0, 2], [3]), ("leave", [0], [])] := by
    decide +kernel
  rcases ended : (build {} diamondPipelines).outcome diamondWiring with ⟨f | table, t⟩
  · rw [ended] at seats
    cases seats
  · rw [ended] at seats
    exact ⟨labels, reached, built.mp ⟨table, t, ended⟩, table, t, rfl, Option.some.inj seats,
      holds table t ended⟩

end PipelineTable

end EventWorker
