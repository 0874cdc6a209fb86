import EventWorker.Event

/-!
# Reports

What became of a message, and the event that tells a client of a failure.
-/

namespace EventWorker

open Json (Value Fields)

/-- How a message ended. -/
inductive Outcome
  /-- It failed a check. -/
  | rejected (failure : Failure)
  /-- No pipeline is bound to its label. -/
  | unrouted (label : String) (failure : Failure)
  /-- Both stages ran, and each may have failed. -/
  | handled (label : String) (main final : Option Failure)
  deriving DecidableEq, Repr

/-- How a message ended, and how many events were written. -/
structure Report where
  outcome : Outcome
  sent : Nat
  deriving DecidableEq, Repr

namespace Report

/-- Both stages ran without a failure. -/
def isSuccess (r : Report) : Bool :=
  match r.outcome with
  | .handled _ none none => true
  | _ => false

end Report

/-- Which slot of an error event takes the code: that of the worker's own checks
or that of the pipeline. -/
inductive ErrorSource
  | worker
  | pipeline
  deriving DecidableEq, Repr

/-- The event that tells of a failure under the session and task of a header. The
entries of `params` come last. -/
def errorEvent (h : Header) (f : Failure) (params : Fields) (source : ErrorSource) : Event :=
  let (worker, pipeline) := match source with
    | .worker => (f.code, 0)
    | .pipeline => (0, f.code)
  { header := Header.plain h.session h.task errorLabel
    payload := Keyed.union
      (Keyed.ofList
        [("werr", .nat worker), ("err", .nat pipeline), ("perr", .nat f.causeCode),
          ("msg", .str f.message)])
      params }

/-- The payload entry that names the label of the event that failed. -/
def inputLabel (label : String) : Fields :=
  [("input_event", .str label)]

end EventWorker
