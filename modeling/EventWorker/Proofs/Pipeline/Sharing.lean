import EventWorker.Proofs.Pipeline.Creation

/-!
# Resolved fragments share their processors

Resolving makes one instance for each occurrence of a processor in the fragments, in the order of
their first use, and gives every fragment the instances of its occurrences.

Results:
1. `expand_makes`, `load_makes`, `loadAll_makes`: elements, a fragment with all it refers to, and
   all fragments.
2. `resolve_shares`: all fragments from the start, or the first failure.
-/

namespace EventWorker.Wiring

variable {ω : Type} {fragments : Fragments} {registry : Registry ω}

/-! ## Resolvers at work -/

/-- The resolver has made `made`, for the fragments that are loaded and those on the path. -/
structure Holding (fragments : Fragments) (registry : Registry ω) (path : List String)
    (made : Made ω) (s : Wiring ω) : Prop where
  handedOut : registry.HandedOut (made.map Prod.snd)
  registry : s.resolver.registry = registry
  instances : s.resolver.made = made.map Prod.snd
  nodup : (Keyed.keys made).Nodup
  within : ∀ o ∈ Keyed.keys made,
    Keyed.contains o.fragment s.resolver.loaded = true ∨ o.fragment ∈ path
  loaded : ∀ {name own}, Keyed.find? name s.resolver.loaded = some own →
    Keyed.contains name fragments = true ∧ Gives made (fragments.origins name) own

/-- The occurrences have been resolved to `own`, and nothing that was loaded is gone. -/
structure Resolved (fragments : Fragments) (registry : Registry ω) (path : List String)
    (os : List Occurrence) (s : Wiring ω) (made : Made ω) (own : List (Instance ω))
    (t : Wiring ω) : Prop where
  holding : Holding fragments registry path made t
  gives : Gives made os own
  kept : ∀ {n}, Keyed.contains n s.resolver.loaded = true →
    Keyed.contains n t.resolver.loaded = true

variable {path : List String} {made : Made ω} {name : String} {fuel : Nat} {s t : Wiring ω}

namespace Holding

theorem start (registry : Registry ω) (w : ω) :
    Holding fragments registry [] [] { resolver := { registry }, world := w } :=
  ⟨.nil, rfl, rfl, List.nodup_nil, nofun, nofun⟩

/-- The path may grow. -/
theorem enter (h : Holding fragments registry path made s) (name : String) :
    Holding fragments registry (name :: path) made s where
  handedOut := h.handedOut
  registry := h.registry
  instances := h.instances
  nodup := h.nodup
  within := fun o ho => (h.within o ho).imp_right (List.mem_cons_of_mem _)
  loaded := h.loaded

theorem concat (h : Holding fragments registry path made s) {o : Occurrence} {i : Instance ω}
    (new : o ∉ Keyed.keys made) (there : o.fragment ∈ path)
    (hands : registry.Hands s.resolver.next i) (w : ω) :
    Holding fragments registry path (made ++ [(o, i)]) (s.adding [i] w) := by
  have keys : Keyed.keys (made ++ [(o, i)]) = Keyed.keys made ++ [o] := by
    rw [Keyed.keys, List.map_append]
    rfl
  rw [Resolver.next, h.instances] at hands
  refine ⟨?_, h.registry, ?_, ?_, ?_, ?_⟩
  · rw [List.map_append]
    exact h.handedOut.concat hands
  · rw [List.map_append, ← h.instances]
    rfl
  · rw [keys, List.nodup_append]
    refine ⟨h.nodup, by simp, ?_⟩
    intro a ha b hb same
    rw [List.mem_singleton] at hb
    exact new (hb ▸ same ▸ ha)
  · intro o' ho'
    rw [keys, List.mem_append, List.mem_singleton] at ho'
    rcases ho' with ho' | rfl
    · exact h.within o' ho'
    · exact .inr there
  · intro n own found
    exact ⟨(h.loaded found).1, (h.loaded found).2.more _⟩

/-- A fragment that has been resolved is left. -/
theorem leave (h : Holding fragments registry (name :: path) made s)
    (there : Keyed.contains name fragments = true) {own : List (Instance ω)}
    (gives : Gives made (fragments.origins name) own) :
    Holding fragments registry path made { s with
      resolver.loaded := Keyed.insert name own s.resolver.loaded } where
  handedOut := h.handedOut
  registry := h.registry
  instances := h.instances
  nodup := h.nodup
  within := by
    intro o ho
    show Keyed.contains o.fragment (Keyed.insert name own s.resolver.loaded) = true ∨ _
    rw [Keyed.contains, Keyed.find?_insert]
    by_cases here : o.fragment = name
    · simp [here]
    · rw [if_neg here]
      refine (h.within o ho).imp_right fun member => ?_
      exact (List.mem_cons.mp member).resolve_left here
  loaded := by
    intro n own' found
    have found : Keyed.find? n (Keyed.insert name own s.resolver.loaded) = some own' := found
    rw [Keyed.find?_insert] at found
    by_cases here : n = name
    · rw [if_pos here] at found
      cases found
      exact here ▸ ⟨there, gives⟩
    · rw [if_neg here] at found
      exact h.loaded found

end Holding

/-- What an element of the fragment `name` contributes to it. -/
def contribution (fragments : Fragments) (fuel : Nat) (name : String) (e : Element) :
    Act (Wiring ω) (List (Instance ω)) := do
  match e with
  | .processor spec => return [← create spec]
  | .reference _ =>
    match ← Step.ofResult (Fragments.target name e) with
    | some t => load fragments fuel t
    | none => return []

theorem contribution_processor (spec : ProcessorSpec) :
    contribution fragments fuel name (.processor spec) =
      (create spec >>= fun i => pure [i] : Act (Wiring ω) (List (Instance ω))) := rfl

theorem contribution_reference (t : String) :
    (contribution fragments fuel name (.reference ("$" ++ t)) :
      Act (Wiring ω) (List (Instance ω))) = load fragments fuel t := by
  have target : Fragments.target name (.reference ("$" ++ t)) = .ok (some t) := by
    have written : (Element.reference ("$" ++ t)).target? = some t :=
      Element.target?_reference.mpr rfl
    simp only [Fragments.target, written]
  refine Step.ext fun s => ?_
  refine Step.outcome_bind_ok (v := some t) (t := s) ?_
  rw [Step.outcome_ofResult, target]

theorem load_loaded {own : List (Instance ω)} (h : Keyed.find? name s.resolver.loaded = some own) :
    (load fragments fuel name).outcome s = (.ok own, s) := by
  unfold load
  refine Step.outcome_bind_ok (v := some own) (t := s) ?_
  rw [loaded?, Step.outcome_ofState, h]

/-- The end of loading a fragment: what its elements contribute becomes its own. -/
def keep (name : String) (own : List (Instance ω)) : Act (Wiring ω) (List (Instance ω)) :=
  Step.ofState fun s =>
    (own, { s with resolver.loaded := Keyed.insert name own s.resolver.loaded })

theorem load_new {elements : List Element} (h : Keyed.find? name s.resolver.loaded = none)
    (found : Keyed.find? name fragments = some elements) :
    (load fragments (fuel + 1) name).outcome s =
      (expand (contribution fragments fuel name) elements >>= keep name).outcome s := by
  unfold load
  refine (Step.outcome_bind_ok (v := none) (t := s) ?_).trans ?_
  · rw [loaded?, Step.outcome_ofState, h]
  · simp only [found]
    rfl

section Loading

variable (sound : fragments.Sound)

include sound

section Elements

variable {whole : List Element} (found : Keyed.find? name fragments = some whole)
  (loads : ∀ {t made s}, fragments.Refers name t →
    Holding fragments registry (name :: path) made s →
    Makes fragments registry made (fragments.origins t) (load fragments fuel t)
      (Resolved fragments registry (name :: path) (fragments.origins t) s) s)

include found loads

theorem contribution_makes {i : Nat} {e : Element} (here : whole[i]? = some e)
    (holding : Holding fragments registry (name :: path) made s)
    (fresh : ∀ o ∈ Keyed.keys made, o.fragment = name → o.place < i) :
    Makes fragments registry made (Fragments.spread (Occurrence.mk name) fragments.origins i [e])
      (contribution fragments fuel name e)
      (fun m own t => Resolved fragments registry (name :: path)
          (Fragments.spread (Occurrence.mk name) fragments.origins i [e]) s m own t ∧
        ∀ o ∈ Keyed.keys m, o.fragment = name → o.place < i + 1) s := by
  cases e with
  | processor spec =>
    have new : Occurrence.mk name i ∉ Keyed.keys made := fun member =>
      Nat.lt_irrefl i (fresh _ member rfl)
    have written : fragments.specAt? ⟨name, i⟩ = some spec :=
      Fragments.specAt?_eq_some.mpr ⟨whole, found, here⟩
    rw [contribution_processor]
    refine (Makes.create new written holding.registry).finish ?_
    rintro m x t ⟨rfl, hands, w, rfl⟩
    refine ⟨[x], s.adding [x] w, rfl, rfl, ⟨?_, ?_, id⟩, ?_⟩
    · exact holding.concat new List.mem_cons_self hands w
    · show [Keyed.find? _ (made ++ [(_, x)])] = [some x]
      rw [Keyed.find?_concat new]
    · intro o ho same
      rw [Keyed.keys, List.map_append, List.mem_append] at ho
      rcases ho with ho | ho
      · exact Nat.lt_succ_of_lt (fresh o ho same)
      · rw [List.mem_singleton.mp ho]
        exact Nat.lt_succ_self i
  | reference text =>
    have member : .reference text ∈ whole := List.mem_of_getElem? here
    obtain ⟨t, rfl, -⟩ := sound.named found member
    have refers : fragments.Refers name t := .of_reference found member
    have all : Fragments.spread (Occurrence.mk name) fragments.origins i [.reference ("$" ++ t)] =
        fragments.origins t := by
      rw [Fragments.spread_reference]
      exact List.append_nil _
    rw [contribution_reference, all]
    refine (loads refers holding).grown.mono ?_
    rintro m own u ⟨resolved, new, rfl, within⟩
    refine ⟨resolved, fun o ho same => ?_⟩
    rw [Keyed.keys, List.map_append, List.mem_append] at ho
    rcases ho with ho | ho
    · exact Nat.lt_succ_of_lt (fresh o ho same)
    · -- What the fragment refers to does not lead back to it.
      have back := Fragments.reach_of_mem_origins (within ho)
      rw [same] at back
      exact absurd (Relation.TransGen.head' refers back) (sound.acyclic name)

theorem expand_makes {i : Nat} {elements : List Element} (part : whole.drop i = elements)
    (holding : Holding fragments registry (name :: path) made s)
    (fresh : ∀ o ∈ Keyed.keys made, o.fragment = name → o.place < i) :
    Makes fragments registry made
      (Fragments.spread (Occurrence.mk name) fragments.origins i elements)
      (expand (contribution fragments fuel name) elements)
      (Resolved fragments registry (name :: path)
        (Fragments.spread (Occurrence.mk name) fragments.origins i elements) s) s := by
  induction elements generalizing i made s with
  | nil => exact .idle nofun rfl rfl ⟨holding, rfl, id⟩
  | cons e rest ih =>
    have here : (whole.drop i)[0]? = some e := by
      rw [part]
      rfl
    rw [List.getElem?_drop] at here
    have others : whole.drop (i + 1) = rest := by
      rw [← List.drop_drop, part]
      rfl
    rw [Fragments.spread_cons]
    refine (contribution_makes sound found loads here holding fresh).bind ?_
    rintro m own t ⟨resolved, fresh'⟩
    refine (ih others resolved.holding fresh').grown.finish ?_
    rintro m' own' u ⟨resolved', new, rfl, -⟩
    exact ⟨_, u, rfl, rfl, resolved'.holding, (resolved.gives.more new).append resolved'.gives,
      fun known => resolved'.kept (resolved.kept known)⟩

end Elements

/-- A fragment that is loaded, with fuel for all the fragments that are not on its path. -/
theorem load_makes (way : fragments.Way path name) (enough : fragments.length ≤ fuel + path.length)
    (holding : Holding fragments registry path made s) :
    Makes fragments registry made (fragments.origins name) (load fragments fuel name)
      (fun m own t => Resolved fragments registry path (fragments.origins name) s m own t ∧
        Keyed.contains name t.resolver.loaded = true) s := by
  induction fuel using Nat.strongRecOn generalizing path name made s with
  | _ fuel ih =>
    cases done : Keyed.find? name s.resolver.loaded with
    | some own =>
      have gives := (holding.loaded done).2
      exact .idle gives.known (load_loaded done) rfl
        ⟨⟨holding, gives, id⟩, Keyed.contains_of_find? done⟩
    | none =>
      have new := way.not_mem sound
      have there := way.contains sound
      obtain ⟨elements, found⟩ := Keyed.exists_of_contains there
      have longer := (way.toTrail.next new there).length_le
      rw [List.length_cons] at longer
      obtain ⟨room, rfl⟩ : ∃ n, fuel = n + 1 := ⟨fuel - 1, by omega⟩
      -- Nothing written in this fragment has an instance yet, as it is not loaded and not on the
      -- path.
      have fresh : ∀ o ∈ Keyed.keys made, o.fragment = name → o.place < 0 := by
        rintro o ho rfl
        rcases holding.within o ho with known | member
        · rw [Keyed.contains, done] at known
          cases known
        · exact absurd member new
      have loads : ∀ {t made s}, fragments.Refers name t →
          Holding fragments registry (name :: path) made s →
          Makes fragments registry made (fragments.origins t) (load fragments room t)
            (Resolved fragments registry (name :: path) (fragments.origins t) s) s := by
        intro t made s refers holding
        refine (ih room (Nat.lt_succ_self room) (way.next new there refers) ?_ holding).mono ?_
        · rw [List.length_cons]
          omega
        · intro m own u h
          exact h.1
      refine Makes.congr ?_ (load_new done found)
      rw [Fragments.origins_eq sound found]
      refine (expand_makes sound found loads List.drop_zero (holding.enter name) fresh).finish ?_
      intro m own t resolved
      have gives := resolved.gives
      rw [← Fragments.origins_eq sound found] at gives
      refine ⟨own, _, rfl, rfl, ⟨resolved.holding.leave there gives, resolved.gives, ?_⟩, ?_⟩
      · intro n known
        have known := resolved.kept known
        show Keyed.contains n (Keyed.insert name own t.resolver.loaded) = true
        rw [Keyed.contains, Keyed.find?_insert]
        split
        · rfl
        · exact known
      · show Keyed.contains name (Keyed.insert name own t.resolver.loaded) = true
        rw [Keyed.contains, Keyed.find?_insert, if_pos rfl]
        rfl

/-- Fragments loaded one after the other. -/
theorem loadAll_makes {names : List String}
    (known : ∀ n ∈ names, Keyed.contains n fragments = true)
    (holding : Holding fragments registry [] made s) :
    Makes fragments registry made (names.flatMap fragments.origins) (loadAll fragments names)
      (fun m _ t => Holding fragments registry [] m t ∧
        (∀ n ∈ names, Keyed.contains n t.resolver.loaded = true) ∧
        ∀ {n}, Keyed.contains n s.resolver.loaded = true →
          Keyed.contains n t.resolver.loaded = true) s := by
  induction names generalizing made s with
  | nil => exact .idle nofun rfl rfl ⟨holding, nofun, id⟩
  | cons name rest ih =>
    rw [List.flatMap_cons]
    have way : fragments.Way [] name := .nil (known name List.mem_cons_self)
    refine (load_makes sound way (Nat.le_add_right _ _) holding).bind ?_
    rintro m own t ⟨resolved, here⟩
    refine (ih (fun n hn => known n (List.mem_cons_of_mem _ hn)) resolved.holding).mono ?_
    rintro m' _ u ⟨holding', loaded, kept⟩
    refine ⟨holding', fun n hn => ?_, fun h => kept (resolved.kept h)⟩
    rcases List.mem_cons.mp hn with rfl | hn
    · exact kept here
    · exact loaded n hn

end Loading

/-! ## Resolving -/

/-- What the resolver holds when it has made the processors for the occurrences `made`. -/
structure Shared (fragments : Fragments) (processors : List (Processor ω)) (made : Made ω)
    (r : Resolver ω) : Prop where
  /-- Each occurrence has one instance. -/
  order : Keyed.keys made = fragments.loadOrder
  /-- The instances are the processors that were created, and no two of them are the same. -/
  each : made.map Prod.snd = processors.mapIdx fun k p => ⟨.fresh k, p⟩
  names : ∀ name, Keyed.contains name r.loaded = Keyed.contains name fragments
  /-- A processor contributes its instance to a fragment, and a reference all that is held for the
  fragment it refers to. -/
  elements : ∀ {name elements own}, Keyed.find? name fragments = some elements →
    Keyed.find? name r.loaded = some own →
    own.map some = Fragments.spread (fun i => Keyed.find? ⟨name, i⟩ made)
      (fun t => ((Keyed.find? t r.loaded).getD []).map some) 0 elements
  gives : ∀ {name own}, Keyed.find? name r.loaded = some own →
    Gives made (fragments.origins name) own
  /-- Two positions hold the same instance if they stand for the same occurrence. -/
  same : ∀ {m n} {own own' : List (Instance ω)}, Keyed.find? m r.loaded = some own →
    Keyed.find? n r.loaded = some own' → ∀ {i j : Nat} {x y : Instance ω},
      own[i]? = some x → own'[j]? = some y →
        (x.id = y.id ↔ (fragments.origins m)[i]? = (fragments.origins n)[j]?)

theorem Holding.shared (sound : fragments.Sound) (fresh : registry.Fresh)
    (h : Holding fragments registry [] made s) (order : Keyed.keys made = fragments.loadOrder)
    (all : ∀ n ∈ Keyed.keys fragments, Keyed.contains n s.resolver.loaded = true) :
    Shared fragments (made.map (·.2.processor)) made s.resolver where
  order := order
  each := by
    have each := h.handedOut.eq_mapIdx fresh
    rwa [List.map_map] at each
  names := by
    intro name
    rw [Bool.eq_iff_iff]
    constructor
    · intro known
      obtain ⟨own, found⟩ := Keyed.exists_of_contains known
      exact (h.loaded found).1
    · intro known
      exact all name (Keyed.contains_iff_mem_keys.mp known)
  elements := by
    intro name elements own found loaded
    have gives := (h.loaded loaded).2
    rw [Gives, Fragments.origins_eq sound found, Fragments.map_spread] at gives
    rw [← gives]
    refine Fragments.spread_congr fun e he t target => ?_
    have known := sound.contains ⟨elements, found, e, he, target⟩
    obtain ⟨below, loaded'⟩ :=
      Keyed.exists_of_contains (all t (Keyed.contains_iff_mem_keys.mp known))
    rw [loaded']
    exact (h.loaded loaded').2
  gives := fun loaded => (h.loaded loaded).2
  same := by
    intro m n own own' loaded loaded' i j x y hx hy
    refine (h.loaded loaded).2.same_iff (h.loaded loaded').2 ?_ hx hy
    have nodup := h.handedOut.nodup fresh
    rwa [List.map_map] at nodup

theorem resolve_eq (valid : fragments.check = .ok ()) :
    (resolve fragments : Act (Wiring ω) Unit).outcome s =
      match (loadAll fragments (Keyed.keys fragments)).outcome s with
      | (.ok _, t) => (.ok (), t)
      | (.error f, t) => (.error f, { t with resolver.loaded := [] }) := by
  unfold resolve
  refine (Step.outcome_bind_ok (v := ()) (t := s) ?_).trans ?_
  · rw [Step.outcome_ofResult, valid]
  · have tried : (loadAll fragments (Keyed.keys fragments)).attempt.outcome s =
        ((.ok ((loadAll fragments (Keyed.keys fragments)).outcome s).1,
          ((loadAll fragments (Keyed.keys fragments)).outcome s).2) :
            Except Failure (Except Failure Unit) × Wiring ω) := rfl
    rw [Step.outcome_bind_ok tried]
    rcases (loadAll fragments (Keyed.keys fragments)).outcome s with ⟨f | v, t⟩ <;> rfl

/-- Resolving valid fragments, from the start and with factories that make a fresh processor
whenever they are asked. The processors of the fragments are created in the order of their first
use, each for one occurrence. When none fails, every fragment is given the instances of its
occurrences; else resolving fails as the first of them did, and nothing is held. -/
theorem resolve_shares (fragments : Fragments) (valid : fragments.check = .ok ())
    (registry : Registry ω) (fresh : registry.Fresh) (world : ω) :
    fragments.loadOrder.Nodup ∧
    (∀ o, o ∈ fragments.loadOrder ↔ ∃ spec, fragments.specAt? o = some spec) ∧
    match (createAll fragments registry fragments.loadOrder).outcome world with
    | (.ok processors, w) => ∃ made r, Shared fragments processors made r ∧
        (resolve fragments).outcome { resolver := { registry }, world } =
          (.ok (), { resolver := r, world := w })
    | (.error f, w) => ∃ r, r.loaded = [] ∧
        (resolve fragments).outcome { resolver := { registry }, world } =
          (.error f, { resolver := r, world := w }) := by
  have sound := Fragments.check_ok_iff.mp valid
  refine ⟨Fragments.nodup_loadOrder fragments, fun o => Fragments.mem_loadOrder_iff sound, ?_⟩
  have known : ∀ n ∈ Keyed.keys fragments, Keyed.contains n fragments = true := fun n hn =>
    Keyed.contains_iff_mem_keys.mpr hn
  have order : firsts (Keyed.keys ([] : Made ω))
      ((Keyed.keys fragments).flatMap fragments.origins) = fragments.loadOrder := firsts_of_none _
  rw [resolve_eq valid]
  cases loadAll_makes sound known (.start registry world) with
  | failed created fails =>
    rw [order] at created
    rw [created, fails]
    exact ⟨_, rfl, rfl⟩
  | ended new created ends keys holds =>
    rw [order] at created keys
    rw [created, ends]
    exact ⟨_, _, holds.1.shared sound fresh keys holds.2.1, rfl⟩

/-- A fragment that refers to another one both at once and through a third. -/
def diamond : Fragments :=
  [("A", [.reference "$C", .processor ⟨"client_ready", ""⟩, .reference "$B"]),
    ("B", [.reference "$C"]), ("C", [.processor ⟨"start_session", ""⟩])]

theorem resolve_shares_diamond :
    diamond.check = .ok () ∧ (Registry.builtin : Registry Nat).Fresh ∧
      diamond.origins "A" = [⟨"C", 0⟩, ⟨"A", 1⟩, ⟨"C", 0⟩] ∧
      diamond.loadOrder = [⟨"C", 0⟩, ⟨"A", 1⟩] ∧
      ∃ processors made r, processors.map Processor.name = ["start_session", "client_ready"] ∧
        Shared diamond processors made r ∧
        (resolve diamond).outcome { resolver := { registry := .builtin }, world := 0 } =
          (.ok (), { resolver := r, world := 0 }) := by
  refine ⟨rfl, Registry.builtin_fresh, by decide, by decide, ?_⟩
  obtain ⟨-, -, ends⟩ := resolve_shares diamond rfl .builtin Registry.builtin_fresh 0
  have created : ∃ ps, (createAll diamond .builtin diamond.loadOrder).outcome 0 = (.ok ps, 0) ∧
      ps.map Processor.name = ["start_session", "client_ready"] := ⟨_, rfl, rfl⟩
  obtain ⟨processors, created, names⟩ := created
  rw [created] at ends
  obtain ⟨made, r, shared, ends⟩ := ends
  exact ⟨processors, made, r, names, shared, ends⟩

end EventWorker.Wiring
