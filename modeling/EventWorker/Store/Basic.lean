import EventWorker.Store.Tables

/-!
# The store

Every thread has a stack of open units of work, each a journal of undo records.
A write is recorded in the innermost unit of the thread that makes it. Rolling a
unit back replays its journal, newest record first; committing a nested unit adds
its journal to the enclosing one. A deletion stands outside units of work: it is
not recorded, and the records of its session are dropped from all journals, so
that nothing brings the session back.
-/

namespace EventWorker

/-- The undo records of a unit of work, newest first. -/
abbrev Journal := List Undo

/-- How often units of work were begun, committed and rolled back. -/
structure UnitCounts where
  begins : Nat := 0
  commits : Nat := 0
  rollbacks : Nat := 0
  deriving DecidableEq, Repr, Inhabited

/-- A store of users and sessions. -/
structure Store where
  tables : Tables := {}
  /-- The open units of work of the threads that have any, innermost first. -/
  journals : List (String × List Journal) := []
  counts : UnitCounts := {}
  /-- Every access fails while this is set. -/
  unavailable : Bool := false
  connects : Nat := 0
  /-- So many connections to come will fail. -/
  failingConnects : Nat := 0
  deriving DecidableEq, Repr, Inhabited

namespace Store

/-- The open units of work of a thread, innermost first. -/
def units (s : Store) (thread : String) : List Journal :=
  (Keyed.find? thread s.journals).getD []

/-- The store with other open units of work of a thread. -/
def setUnits (s : Store) (thread : String) (units : List Journal) : Store :=
  { s with journals :=
      if units.isEmpty then Keyed.erase thread s.journals
      else Keyed.insert thread units s.journals }

/-- A thread has a unit of work open. -/
def inUnit (s : Store) (thread : String) : Bool :=
  !(s.units thread).isEmpty

/-- Records a write in the innermost unit of a thread, if it has one. -/
def record (s : Store) (thread : String) (undo : Undo) : Store :=
  match s.units thread with
  | [] => s
  | journal :: outer => s.setUnits thread ((undo :: journal) :: outer)

/-! ## Units of work -/

/-- Opens a unit of work. -/
def begin (s : Store) (thread : String) : Store :=
  { s with counts.begins := s.counts.begins + 1 }.setUnits thread ([] :: s.units thread)

/-- Closes the innermost unit of work and keeps its writes; those of a nested
one can still be rolled back with the enclosing one. -/
def commit (s : Store) (thread : String) : Store :=
  let counted := { s with counts.commits := s.counts.commits + 1 }
  match s.units thread with
  | [] => counted
  | [_] => counted.setUnits thread []
  | journal :: outer :: rest => counted.setUnits thread ((journal ++ outer) :: rest)

/-- Closes the innermost unit of work and puts back what it wrote over. -/
def rollback (s : Store) (thread : String) : Store :=
  let counted := { s with counts.rollbacks := s.counts.rollbacks + 1 }
  match s.units thread with
  | [] => counted
  | journal :: outer =>
    { counted with tables := journal.foldl Undo.apply s.tables }.setUnits thread outer

/-! ## Access -/

/-- The failure of every access to a store that is unavailable. -/
def unavailableFailure : Failure :=
  Code.server.failure.because "store unavailable"

/-- A query, refused while the store is unavailable. -/
def query {α : Type} (s : Store) (f : Tables → α) : Except Failure α :=
  if s.unavailable then .error unavailableFailure else .ok (f s.tables)

/-- A write, refused while the store is unavailable and recorded when it is made. -/
def write {α : Type} (s : Store) (thread : String)
    (f : Tables → Except Failure (α × Undo × Tables)) : Except Failure (α × Store) :=
  if s.unavailable then .error unavailableFailure
  else
    match f s.tables with
    | .ok (v, undo, tables) => .ok (v, { s with tables }.record thread undo)
    | .error e => .error e

/-- Adds a session and gives its id. -/
def createSession (s : Store) (thread : String) (client : Nat) (value : String)
    (token : Option String) (time : Int) : Except Failure (Nat × Store) :=
  s.write thread fun t => t.createSession client value token time

/-- Gives a session an encryption row, and gives its id. -/
def createEncryption (s : Store) (thread : String) (sessionId : Nat) (state : KeyState) :
    Except Failure (Nat × Store) :=
  s.write thread fun t => t.createEncryption sessionId state

/-- Sets the time of last use of the session with a value. -/
def updateLastUpdated (s : Store) (thread value : String) (time : Int) :
    Except Failure (Unit × Store) :=
  s.write thread fun t => (t.updateLastUpdated value time).map fun (undo, t) => ((), undo, t)

/-- Replaces the key state of the encryption row of a session. -/
def updateEncryption (s : Store) (thread : String) (sessionId : Nat) (state : KeyState) :
    Except Failure (Unit × Store) :=
  s.write thread fun t => (t.updateEncryption sessionId state).map fun (undo, t) => ((), undo, t)

/-- Removes a session and its encryption row for good. -/
def delete (s : Store) (sessionId : Nat) : Except Failure (Unit × Store) :=
  if s.unavailable then .error unavailableFailure
  else
    .ok ((), { s with
      tables := s.tables.delete sessionId
      journals := s.journals.map fun (thread, units) =>
        (thread, units.map fun journal =>
          journal.filter fun undo => decide (undo.sessionId ≠ sessionId)) })

/-! ## Life cycle -/

/-- Adds a user, in place of an older one with its id. -/
def insertUser (s : Store) (user : User) : Store :=
  { s with tables.users := Keyed.insert user.id user s.tables.users }

/-- Counts a connection, which fails while failures are due. -/
def connect (s : Store) : Except Failure Unit × Store :=
  let s := { s with connects := s.connects + 1 }
  if s.failingConnects = 0 then (.ok (), s)
  else (.error (Code.server.failure.because "store not reachable"),
    { s with failingConnects := s.failingConnects - 1 })

/-- Forgets all open units of work; their writes stay. -/
def disconnect (s : Store) : Store :=
  { s with journals := [] }

end Store

end EventWorker
