import EventWorker.Act
import EventWorker.Settings

/-!
# Retrying a connection

A provider that fails to connect is tried again while the failure is
recoverable and attempts are left. The failure that ends the attempts is
terminal. The delay between attempts belongs to the policy, and whoever runs the
worker keeps it; no result depends on it.
-/

namespace EventWorker

/-- How often a connection is tried again, and the seconds between attempts. -/
structure RetryPolicy where
  retries : Nat := 10
  delay : Nat := 1
  deriving DecidableEq, Repr, Inhabited

namespace RetryPolicy

/-- The policy of a provider's settings. A retry count below zero or above 32
bits counts as zero, and so does a negative delay. -/
def ofSettings (s : Settings) : RetryPolicy :=
  let retries := s.integer ["retrycount", "rc"] 10
  let delay := s.integer ["retrydelay", "rd"] 1
  { retries := if 0 ≤ retries ∧ retries < UInt32.size then retries.toNat else 0
    delay := delay.toNat }

end RetryPolicy

namespace Step

/-- Tries an act once and then at most `retries` times more. -/
def retrying {σ : Type} (a : Act σ Unit) : (retries : Nat) → Act σ Unit
  | 0 => a.mapError Failure.terminal
  | retries + 1 =>
    ofFunction fun s =>
      match a.outcome s with
      | (.ok (), s) => (.ok (), s)
      | (.error e, s) =>
        if e.recoverable then (a.retrying retries).outcome s else (.error e.terminal, s)

end Step

end EventWorker
