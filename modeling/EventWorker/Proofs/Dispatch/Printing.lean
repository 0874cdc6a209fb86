import EventWorker.Proofs.Bus.Lines
import EventWorker.Proofs.Dispatch.Addressing
import EventWorker.Proofs.Json.OneLine

/-!
# What a dispatcher prints

A dispatcher whose output is a line output prints one line for every write. No text that it writes
to has a space or a line feed in it, when no label of a pipeline has, and no event has a line feed
in its text. So what has been printed can be read back.

Results:
1. `writeAll_prints`: what is printed for waiting events.
2. `Printing.handle`: what is printed for a message.
3. `Printing.handleEach`: what is printed for many messages is read as what was written for them.
-/

namespace EventWorker

variable {ω : Type} {h : Host ω} {thread : String} {printed : Lens ω LineOutput}
  {d : Dispatcher ω} {v : LineOutput} {b : Bench ω}

/-- A line output in surroundings, apart from a store and a ledger there. -/
structure Host.Prints (h : Host ω) (printed : Lens ω LineOutput) : Prop where
  lawful : printed.Lawful
  beside : h.Beside printed.get
  spares : ∀ o, h.Spares (printed.set o)

/-- A dispatcher over built-in processors that prints its lines apart from all else, and whose
labels have neither a space nor a line feed in them. -/
structure Printing (h : Host ω) (thread : String) (printed : Lens ω LineOutput)
    (d : Dispatcher ω) : Prop where
  builtin : Builtin h thread d
  prints : h.Prints printed
  spare : d.env.services.Spare printed.get
  output : d.output = LineOutput.output printed
  labels : ∀ label p, d.table.get? label = some p → Unbroken label

/-! ## Destinations -/

/-- A session that a message can name consists of hexadecimal digits and dashes. -/
theorem unbroken_session {s : String} (session : Validation.isSessionValue s = true) :
    Unbroken s := by
  obtain ⟨-, digits⟩ := (Validation.isSessionValue_iff s).mp session
  have notMem {c : Char} (hc : ¬ (Text.hexDigit? c).isSome) (dash : c ≠ '-') : c ∉ s.toList := by
    intro hmem
    have digit := digits c (List.mem_filter.mpr ⟨hmem, decide_eq_true dash⟩)
    exact hc ((Validation.hexDigit?_isSome c).mpr digit)
  exact ⟨notMem (by decide) (by decide), notMem (by decide) (by decide)⟩

theorem Printing.covers (hd : Printing h thread printed d) : Covers Unbroken d where
  sessionless := by decide
  errors := by decide
  session _ := unbroken_session
  label := hd.labels

/-- Whatever is written under keys that can be told from what follows can be read back. -/
theorem legible_outbound {entry : String × Event} (key : Unbroken entry.1) :
    (outbound entry).Legible :=
  ⟨key, entry.2.lineFeed_notMem_render⟩

/-! ## Lines -/

theorem writeOne_prints (hd : Printing h thread printed d) (destination : String) (e : Event)
    (b : Bench ω) :
    printed.get (d.writeOne destination e b).2.world =
      (printed.get b.world).write (outbound (destination, e)) := by
  have logged := hd.spare.log .debug Code.logToSend
    (.object [("to", .str destination), ("event", .str e.render)]) b
  have prints (m : Outbound) (w : ω) : ((LineOutput.output printed).write m).outcome w =
      (.ok (), printed.modify (fun o => o.write m) w) := rfl
  unfold Dispatcher.writeOne
  dsimp only
  rw [hd.output, Bench.outcome_onWorld, prints]
  generalize d.env.log .debug Code.logToSend
    (.object [("to", .str destination), ("event", .str e.render)]) b = c at logged
  dsimp only
  rw [Lens.modify, hd.prints.lawful.get_set, logged]
  rfl

theorem writeAll_prints (hd : Printing h thread printed d) (waiting : List (String × Event))
    (b : Bench ω) :
    (printed.get (d.writeAll waiting b).2.world).text =
      (printed.get b.world).text ++ (waiting.map outbound).flatMap LineOutput.line := by
  induction waiting generalizing b with
  | nil => exact (List.append_nil _).symm
  | cons entry rest ih =>
    obtain ⟨destination, e⟩ := entry
    have first := writeOne_prints hd destination e b
    refine (ih (d.writeOne destination e b).2).trans ?_
    rw [first, LineOutput.write, List.map_cons, List.flatMap_cons, List.append_assoc]

namespace Printing

/-- What a message leaves, and what it prints. -/
theorem handle (hd : Printing h thread printed d) (raw : String)
    (hb : Left h Unbroken printed.get v b) :
    Left h Unbroken printed.get (printed.get (d.handle raw b).2.world) (d.handle raw b).2 ∧
      (printed.get (d.handle raw b).2.world).text =
        v.text ++ ((d.writes raw b).map outbound).flatMap LineOutput.line ∧
      ∀ m ∈ (d.writes raw b).map outbound, m.Legible := by
  have settled := settle_left hd.builtin hd.spare hd.prints.beside hd.covers raw hb
  have written := writeAll_prints hd (d.writes raw b)
    { (d.settle raw b).2 with events := (d.settle raw b).2.events.drain.2 }
  have store := store_writeAll hd.builtin.equips hd.builtin.write (d.writes raw b)
    { (d.settle raw b).2 with events := (d.settle raw b).2.events.drain.2 }
  rw [settled.addressed.rest] at written
  refine ⟨⟨⟨?_, ?_, rfl⟩, ?_⟩, written, ?_⟩
  · rw [d.handle_leaves_nothing raw b]
    exact nofun
  · rw [Dispatcher.handle_writes]
    dsimp only
    rw [d.writeAll_eq]
    exact settled.addressed.loaded
  · rw [Dispatcher.handle_writes]
    dsimp only
    rw [store]
    exact settled.named
  · intro m hm
    obtain ⟨entry, hentry, rfl⟩ := List.mem_map.mp hm
    exact legible_outbound (settled.addressed.waiting entry hentry).1

/-- What happens between messages leaves the rows, the open units of work and what has been printed
alone. -/
theorem handleEach (hd : Printing h thread printed d) {rounds : List (Round ω)}
    (undisturbed : h.Undisturbed rounds)
    (silent : ∀ r ∈ rounds, ∀ w, printed.get (r.before w) = printed.get w)
    (hb : Left h Unbroken printed.get v b) :
    (printed.get (d.handleEach rounds b).2.world).text =
        v.text ++ (d.writesEach rounds b).flatMap LineOutput.line ∧
      ∀ m ∈ d.writesEach rounds b, m.Legible := by
  induction rounds generalizing b v with
  | nil => exact ⟨hb.addressed.rest ▸ (List.append_nil _).symm, nofun⟩
  | cons r rest ih =>
    obtain ⟨undisturbed, others⟩ := List.forall_mem_cons.mp undisturbed
    obtain ⟨silent, others'⟩ := List.forall_mem_cons.mp silent
    have start : Left h Unbroken printed.get v { b with world := r.before b.world } := by
      refine ⟨hb.addressed.of_same rfl rfl (silent b.world), ?_⟩
      rw [(undisturbed b.world).1]
      exact hb.named
    obtain ⟨left, text, legible⟩ := hd.handle r.raw start
    obtain ⟨text', legible'⟩ := ih others others' left
    refine ⟨text'.trans ?_, List.forall_mem_append.mpr ⟨legible, legible'⟩⟩
    rw [text, Dispatcher.writesEach, List.flatMap_append, List.append_assoc]

end Printing

end EventWorker
