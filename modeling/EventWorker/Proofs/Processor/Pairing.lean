import EventWorker.Proofs.Processor.Ended
import EventWorker.Proofs.Store.Pairing

/-!
# The built-in processors and pairs of rows

A main processor that comes to its end leaves sessions and encryption rows in pairs. One that
fails may leave half a pair, which is rolled back.

Results:
1. `BuiltinMain.Turned.paired`: what a main processor makes of a store in pairs.
2. `carries_runMain`: what all of them in order make of it.
-/

namespace EventWorker

variable {ω : Type} {h : Host ω} {thread : String} {env : Environment ω} {e : Event}

theorem Store.perform_updated {s : Store} (hs : s.Sound) (paired : s.tables.Paired) {w : Write}
    (updates : w.Updates) (a : String) : (s.perform ⟨a, .write w⟩).tables.Paired := by
  rcases s.tables_perform_write a w with same | ⟨undo, done⟩
  · rw [same]
    exact paired
  · exact paired.updated hs.tables updates done

/-- The session and its encryption row are added by two writes, each of which may be refused.
Neither was if the processor has come to its end. -/
theorem BuiltinMain.Turned.paired {k : BuiltinMain} {s t : Store}
    (turned : k.Turned thread e s t) (hs : s.Sound) (paired : s.tables.Paired) :
    t.tables.Paired := by
  cases turned with
  | read => exact paired
  | touched now =>
    exact Store.perform_updated (w := .updateLastUpdated e.header.session now) hs paired trivial _
  | opened session encryption =>
    obtain ⟨undo, session⟩ := Store.write_ok session
    obtain ⟨undo', encryption⟩ := Store.write_ok encryption
    exact paired.opened hs.tables session encryption
  | selected id state =>
    exact Store.perform_updated (w := .updateEncryption id state) hs paired trivial _

/-! ## All processors of a main stage -/

/-- Sessions and encryption rows are in pairs. -/
def InPairs (h : Host ω) (b : Bench ω) : Prop :=
  (h.store.get b.world).Sound ∧ (h.store.get b.world).tables.Paired

theorem carries_runMain (henv : h.Equips thread env) (e : Event)
    {main : List (Wired (MainRun ω))}
    (builtin : ∀ w ∈ main, Registry.builtin.MakesMain w.run) :
    (Dispatch.runMain env e main).Carries (InPairs h) := by
  induction main with
  | nil => exact .of_idle fun _ => rfl
  | cons w rest ih =>
    refine .bind (fun b hb v c ended => ?_) fun _ =>
      ih fun w' hw' => builtin w' (List.mem_cons_of_mem _ hw')
    obtain ⟨k, -, turned⟩ := runOne_turned henv (builtin w List.mem_cons_self) ended
    exact ⟨turned.sound hb.1, turned.paired hb.1 hb.2⟩

end EventWorker
