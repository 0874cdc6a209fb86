import EventWorker.Proofs.Pipeline.Table

/-!
# What the lists of a pipeline stand for

The processors written in the lists of all pipelines are created in order, and a reference stands
for all that is held for its fragment. So what the lists come to is stated without the going
through them: `Expands` says what the elements of a list stand for when their processors are given,
and `Lays` says so for all pipelines.

Results:
1. `creates_append`: creating in order can be cut anywhere.
2. `Expands.unique`, `exists_expands`: elements stand for one list of instances, and do so when
   every reference is to a fragment that is held.
3. `Lays.unique`, `exists_lays`: the same for all pipelines.
4. `Layout.Staged.seats`: instances in lists of their stage are those of a pipeline.
-/

namespace EventWorker

variable {ω : Type}

/-! ## What is written, and what it stands for -/

/-- The processor that an element writes out. -/
def Element.spec? : Element → Option ProcessorSpec
  | .processor spec => some spec
  | .reference _ => none

/-- The processors written in a list. -/
abbrev written (elements : List Element) : List ProcessorSpec :=
  elements.filterMap Element.spec?

/-- The processors written in all pipelines, in the order of the labels and with each main list
before its final list. -/
abbrev writtenIn (pipelines : Pipelines) : List ProcessorSpec :=
  pipelines.flatMap fun entry => written entry.2.main ++ written entry.2.final

/-- Processors can be created one after the other, and these are they. -/
def Registry.Creates (registry : Registry ω) (specs : List ProcessorSpec) (w : ω)
    (ps : List (Processor ω)) (w' : ω) : Prop :=
  (specs.mapM registry.create).outcome w = (.ok ps, w')

/-- Fresh processors as instances, under the numbers from one on. -/
def numbered : Nat → List (Processor ω) → List (Instance ω)
  | _, [] => []
  | n, p :: rest => ⟨.fresh n, p⟩ :: numbered (n + 1) rest

/-- The fragments that a resolver holds, with their instances. -/
abbrev Stock (ω : Type) := List (String × List (Instance ω))

/-- What the elements of a list stand for, given the instances of the processors written there: a
reference stands for all that is held for what it names. -/
inductive Expands (loaded : Stock ω) :
    List Element → List (Instance ω) → List (Instance ω) → Prop
  | nil : Expands loaded [] [] []
  | processor {spec : ProcessorSpec} {rest : List Element} {new own : List (Instance ω)}
      (i : Instance ω) : Expands loaded rest new own →
      Expands loaded (.processor spec :: rest) (i :: new) (i :: own)
  | reference {text name : String} {rest : List Element} {shared new own : List (Instance ω)} :
      text = "$" ++ name → Keyed.find? name loaded = some shared → Expands loaded rest new own →
      Expands loaded (.reference text :: rest) new (shared ++ own)

/-- A text is the sign and the name of a fragment that is held. -/
def Held (loaded : Stock ω) (text : String) : Prop :=
  ∃ name shared, text = "$" ++ name ∧ Keyed.find? name loaded = some shared

/-- The instances of a label. -/
structure Layout (ω : Type) where
  label : String
  main : List (Instance ω)
  final : List (Instance ω)

/-- What the lists of all pipelines stand for, given the instances of the processors written
there. -/
inductive Lays (loaded : Stock ω) : Pipelines → List (Instance ω) → List (Layout ω) → Prop
  | nil : Lays loaded [] [] []
  | cons {label : String} {spec : PipelineSpec} {rest : Pipelines}
      {new new' others main final : List (Instance ω)} {layouts : List (Layout ω)} :
      Expands loaded spec.main new main → Expands loaded spec.final new' final →
      Lays loaded rest others layouts →
      Lays loaded ((label, spec) :: rest) (new ++ new' ++ others) (⟨label, main, final⟩ :: layouts)

namespace Layout

/-- Every instance is in a list of its stage. -/
structure Staged (l : Layout ω) : Prop where
  main : ∀ i ∈ l.main, ∃ run, i.processor.stage = .main run
  final : ∀ i ∈ l.final, ∃ run, i.processor.stage = .final run

/-- The instances of a label are exactly those of a pipeline, in order. -/
structure Seats (l : Layout ω) (p : Pipeline ω) : Prop where
  main : List.Forall₂ (Instance.Placed .main) l.main p.main
  final : List.Forall₂ (Instance.Placed .final) l.final p.final

end Layout

/-! ## Creating in order -/

section Creating

variable {registry : Registry ω} {specs specs' : List ProcessorSpec} {spec : ProcessorSpec}
  {w w' : ω} {ps : List (Processor ω)}

theorem creates_nil : registry.Creates [] w ps w' ↔ ps = [] ∧ w' = w := by
  unfold Registry.Creates
  rw [List.mapM_nil, Step.outcome_pure, Prod.mk.injEq, Except.ok.injEq]
  exact and_congr eq_comm eq_comm

theorem creates_cons : registry.Creates (spec :: specs) w ps w' ↔
    ∃ p u others, (registry.create spec).outcome w = (.ok p, u) ∧
      registry.Creates specs u others w' ∧ ps = p :: others := by
  unfold Registry.Creates
  rw [List.mapM_cons, Step.bind_pure_ok_iff]

theorem creates_append : registry.Creates (specs ++ specs') w ps w' ↔
    ∃ first u others, registry.Creates specs w first u ∧ registry.Creates specs' u others w' ∧
      ps = first ++ others := by
  unfold Registry.Creates
  rw [List.mapM_append, Step.bind_pure_ok_iff]

theorem Registry.Creates.length (h : registry.Creates specs w ps w') :
    ps.length = specs.length := by
  induction specs generalizing w ps with
  | nil =>
    obtain ⟨rfl, -⟩ := creates_nil.mp h
    rfl
  | cons spec rest ih =>
    obtain ⟨p, u, others, -, after, rfl⟩ := creates_cons.mp h
    rw [List.length_cons, List.length_cons, ih after]

end Creating

theorem numbered_append (n : Nat) (ps qs : List (Processor ω)) :
    numbered n (ps ++ qs) = numbered n ps ++ numbered (n + ps.length) qs := by
  induction ps generalizing n with
  | nil => rfl
  | cons p rest ih =>
    rw [List.cons_append, numbered, numbered, List.cons_append, ih, List.length_cons,
      Nat.add_right_comm, Nat.add_assoc]

theorem ids_numbered (n : Nat) (ps : List (Processor ω)) :
    (numbered n ps).map Instance.id = (List.range' n ps.length).map Identity.fresh := by
  induction ps generalizing n with
  | nil => rfl
  | cons p rest ih =>
    rw [numbered, List.map_cons, ih, List.length_cons, List.range'_succ, List.map_cons]

theorem length_numbered (n : Nat) (ps : List (Processor ω)) :
    (numbered n ps).length = ps.length := by
  rw [← List.length_map Instance.id, ids_numbered, List.length_map, List.length_range']

/-! ## What lists stand for -/

section Lists

variable {loaded : Stock ω} {elements : List Element} {new own : List (Instance ω)}

theorem Expands.length (h : Expands loaded elements new own) :
    new.length = (written elements).length := by
  induction h with
  | nil => rfl
  | processor i _ ih => exact congrArg (· + 1) ih
  | reference _ _ _ ih => exact ih

/-- Elements stand for one list of instances only. -/
theorem Expands.unique {own' : List (Instance ω)} (h : Expands loaded elements new own)
    (h' : Expands loaded elements new own') : own = own' := by
  induction h generalizing own' with
  | nil =>
    cases h'
    rfl
  | processor i _ ih =>
    cases h' with
    | processor _ h' => rw [ih h']
  | reference named found _ ih =>
    cases h' with
    | reference named' found' h' =>
      have same := Element.target?_reference.mpr named
      rw [Element.target?_reference.mpr named'] at same
      cases same
      rw [found] at found'
      cases found'
      rw [ih h']

/-- Elements stand for something when every reference is to a fragment that is held. -/
theorem exists_expands
    (named : ∀ text, .reference text ∈ elements → Held loaded text)
    (enough : new.length = (written elements).length) : ∃ own, Expands loaded elements new own := by
  induction elements generalizing new with
  | nil =>
    obtain rfl := List.length_eq_zero_iff.mp enough
    exact ⟨[], .nil⟩
  | cons e rest ih =>
    have later : ∀ text, .reference text ∈ rest → Held loaded text := fun text ht =>
      named text (List.mem_cons_of_mem _ ht)
    cases e with
    | processor spec =>
      cases new with
      | nil => cases enough
      | cons i new =>
        obtain ⟨own, expands⟩ := ih later (Nat.succ.inj enough)
        exact ⟨i :: own, .processor i expands⟩
    | reference text =>
      obtain ⟨name, shared, written, found⟩ := named text List.mem_cons_self
      obtain ⟨own, expands⟩ := ih later enough
      exact ⟨shared ++ own, .reference written found expands⟩

theorem Expands.named (h : Expands loaded elements new own) {text : String}
    (member : .reference text ∈ elements) : Held loaded text := by
  induction h with
  | nil => cases member
  | processor i _ ih =>
    rcases List.mem_cons.mp member with same | member
    · cases same
    · exact ih member
  | reference named found _ ih =>
    rcases List.mem_cons.mp member with same | member
    · cases same
      exact ⟨_, _, named, found⟩
    · exact ih member

end Lists
/-! ## All pipelines -/

/-- Every reference in a pipeline is to a fragment that is held. -/
def PipelineSpec.Named (loaded : Stock ω) (spec : PipelineSpec) : Prop :=
  ∀ text, .reference text ∈ spec.main ++ spec.final → Held loaded text

section All

variable {loaded : Stock ω} {pipelines : Pipelines} {new : List (Instance ω)}
  {layouts layouts' : List (Layout ω)}

/-- Of the instances that are given, the first list takes as many as are written in it, then the
second one does, and the rest is for the pipelines after it. -/
theorem Lays.parts {label : String} {spec : PipelineSpec} {a b c : List (Instance ω)}
    (h : Lays loaded ((label, spec) :: pipelines) (a ++ b ++ c) layouts)
    (ha : a.length = (written spec.main).length) (hb : b.length = (written spec.final).length) :
    ∃ main final others, Expands loaded spec.main a main ∧ Expands loaded spec.final b final ∧
      Lays loaded pipelines c others ∧ layouts = ⟨label, main, final⟩ :: others := by
  generalize given : a ++ b ++ c = new at h
  cases h with
  | cons main final rest =>
    -- Each list takes as many as are written in it, so the cuts are at the same places.
    have lengths := ha.trans main.length.symm
    have lengths' := hb.trans final.length.symm
    obtain ⟨front, rfl⟩ := List.append_inj given (by
      rw [List.length_append, List.length_append, lengths, lengths'])
    obtain ⟨rfl, rfl⟩ := List.append_inj front lengths
    exact ⟨_, _, _, main, final, rest, rfl⟩

/-- Pipelines stand for one list of layouts only. -/
theorem Lays.unique (h : Lays loaded pipelines new layouts)
    (h' : Lays loaded pipelines new layouts') : layouts = layouts' := by
  induction h generalizing layouts' with
  | nil =>
    cases h'
    rfl
  | cons main final _ ih =>
    obtain ⟨main', final', others, expands, expands', lays, rfl⟩ :=
      h'.parts main.length final.length
    rw [main.unique expands, final.unique expands', ih lays]

theorem Lays.labels (h : Lays loaded pipelines new layouts) :
    layouts.map Layout.label = Keyed.keys pipelines := by
  induction h with
  | nil => rfl
  | cons _ _ _ ih => exact congrArg (_ :: ·) ih

theorem Lays.named (h : Lays loaded pipelines new layouts) :
    ∀ entry ∈ pipelines, entry.2.Named loaded := by
  induction h with
  | nil => exact fun _ he => nomatch he
  | cons main final _ ih =>
    intro entry he
    rcases List.mem_cons.mp he with rfl | he
    · intro text member
      rcases List.mem_append.mp member with member | member
      · exact main.named member
      · exact final.named member
    · exact ih entry he

namespace Layout

variable {l : Layout ω} {p : Pipeline ω}

theorem Seats.staged (h : l.Seats p) : l.Staged where
  main := ((List.forall₂_and_left _ _).mp (h.main.imp fun _ x placed =>
    ⟨⟨x.run, placed.run⟩, placed⟩)).1
  final := ((List.forall₂_and_left _ _).mp (h.final.imp fun _ x placed =>
    ⟨⟨x.run, placed.run⟩, placed⟩)).1

theorem exists_placed {ρ : Type} {stage : ρ → Stage ω} {is : List (Instance ω)}
    (h : ∀ i ∈ is, ∃ run, i.processor.stage = stage run) :
    ∃ xs, List.Forall₂ (Instance.Placed stage) is xs := by
  induction is with
  | nil => exact ⟨[], .nil⟩
  | cons i rest ih =>
    obtain ⟨run, here⟩ := h i List.mem_cons_self
    obtain ⟨xs, others⟩ := ih fun j hj => h j (List.mem_cons_of_mem _ hj)
    exact ⟨⟨i.id, i.processor.name, run⟩ :: xs, .cons ⟨rfl, rfl, here⟩ others⟩

theorem Staged.seats (h : l.Staged) : ∃ p, l.Seats p := by
  obtain ⟨main, placed⟩ := exists_placed h.main
  obtain ⟨final, placed'⟩ := exists_placed h.final
  exact ⟨⟨main, final⟩, placed, placed'⟩

end Layout

/-- Pipelines stand for something when what is written there is created and every reference is to a
fragment that is held. -/
theorem exists_lays {registry : Registry ω} {w w' : ω} {ps : List (Processor ω)} (n : Nat)
    (creates : registry.Creates (writtenIn pipelines) w ps w')
    (named : ∀ entry ∈ pipelines, entry.2.Named loaded) :
    ∃ layouts, Lays loaded pipelines (numbered n ps) layouts := by
  induction pipelines generalizing n w ps with
  | nil =>
    obtain ⟨rfl, -⟩ := creates_nil.mp creates
    exact ⟨[], .nil⟩
  | cons entry rest ih =>
    obtain ⟨label, spec⟩ := entry
    obtain ⟨qs, u, others, first, later, rfl⟩ := creates_append.mp creates
    obtain ⟨mains, v, finals, main, final, rfl⟩ := creates_append.mp first
    have here := named _ List.mem_cons_self
    have enough : (numbered n mains).length = (written spec.main).length := by
      rw [length_numbered, main.length]
    have enough' : (numbered (n + mains.length) finals).length = (written spec.final).length := by
      rw [length_numbered, final.length]
    obtain ⟨own, expands⟩ :=
      exists_expands (fun text ht => here text (List.mem_append_left _ ht)) enough
    obtain ⟨own', expands'⟩ :=
      exists_expands (fun text ht => here text (List.mem_append_right _ ht)) enough'
    obtain ⟨layouts, lays⟩ := ih (n + (mains ++ finals).length) later
      fun entry he => named entry (List.mem_cons_of_mem _ he)
    rw [numbered_append, numbered_append]
    exact ⟨⟨label, own, own'⟩ :: layouts, .cons expands expands' lays⟩

end All

end EventWorker
