import EventWorker.Json.Value
import EventWorker.Settings

/-!
# The logger

A logger stamps its records with the name of its component and drops those above
its level. What becomes of the records is decided outside.
-/

namespace EventWorker

open Json (Value)

/-- How grave a record is. -/
inductive Severity
  | critical
  | error
  | warn
  | info
  | debug
  deriving DecidableEq, Repr

namespace Severity

/-- The level from which records of a severity are kept. -/
def rank : Severity → Int
  | .critical => 1
  | .error => 2
  | .warn => 3
  | .info => 4
  | .debug => 5

/-- The word for a severity in a printed log, where critical records are errors. -/
def word : Severity → String
  | .critical | .error => "ERROR"
  | .warn => "WARN"
  | .info => "INFO"
  | .debug => "DEBUG"

end Severity

/-- One record of the log. -/
structure LogRecord where
  severity : Severity
  component : String
  code : Nat
  detail : Value
  deriving Repr

/-- The name and the level of a logger. -/
structure Logger where
  name : String := "24"
  level : Int := 4
  deriving DecidableEq, Repr, Inhabited

/-- The coarsest severity of the records that a level lets through. -/
inductive LogFilter
  | off
  | error
  | warn
  | info
  | debug
  deriving DecidableEq, Repr

/-- The word for a filter. -/
def LogFilter.word : LogFilter → String
  | .off => "off"
  | .error => "error"
  | .warn => "warn"
  | .info => "info"
  | .debug => "debug"

namespace Logger

/-- The logger of a configuration line. -/
def ofSettings (s : Settings) : Logger :=
  { name := s.text ["name"] "24", level := s.integer ["loglevel", "ll"] 4 }

/-- Records of a severity are kept. -/
def enabled (l : Logger) (severity : Severity) : Bool :=
  severity.rank ≤ l.level

/-- The filter that matches the level. -/
def filter (l : Logger) : LogFilter :=
  if l.level ≤ 0 then .off
  else if l.level ≤ 2 then .error
  else if l.level = 3 then .warn
  else if l.level = 4 then .info
  else .debug

/-- The record that the logger makes, if it is kept. -/
def record? (l : Logger) (severity : Severity) (code : Nat) (detail : Value) : Option LogRecord :=
  if l.enabled severity then some { severity, component := l.name, code, detail } else none

end Logger

end EventWorker
