import EventWorker.Store.Basic

/-!
# The ledger

A manager of units of work with nothing behind it. It counts the calls, failed
ones included, and one of its steps can be made to fail.
-/

namespace EventWorker

/-- A step of a unit of work. -/
inductive UnitStep
  | begin
  | commit
  | rollback
  deriving DecidableEq, Repr

/-- The ledger: its counts, and the step that fails. -/
structure Ledger where
  counts : UnitCounts := {}
  failing : Option (UnitStep × Failure) := none
  deriving DecidableEq, Repr, Inhabited

namespace UnitCounts

/-- The counts after one more call of a step. -/
def add (c : UnitCounts) : UnitStep → UnitCounts
  | .begin => { c with begins := c.begins + 1 }
  | .commit => { c with commits := c.commits + 1 }
  | .rollback => { c with rollbacks := c.rollbacks + 1 }

end UnitCounts

namespace Ledger

/-- Calls a step. -/
def call (l : Ledger) (step : UnitStep) : Except Failure Unit × Ledger :=
  let counted := { l with counts := l.counts.add step }
  match l.failing with
  | some (failing, f) => if failing = step then (.error f, counted) else (.ok (), counted)
  | none => (.ok (), counted)

end Ledger

end EventWorker
