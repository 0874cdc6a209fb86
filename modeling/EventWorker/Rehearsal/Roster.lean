import EventWorker.Pipeline.Table

/-!
# Rosters

A roster numbers processors in the order in which they are first called, so that
one processor at two places can be told from two with the same name.
-/

namespace EventWorker

/-- The ids called so far; the number of one is its place. -/
abbrev Roster := List Identity

namespace Roster

/-- Calls one processor: its name with its number. -/
def call (id : Identity) (name : String) : StateM Roster String := fun seen =>
  let title (place : Nat) : String := name ++ "@" ++ String.ofList (Text.decimal place)
  match seen.idxOf? id with
  | some place => (title place, seen)
  | none => (title seen.length, seen ++ [id])

/-- Calls processors in order. -/
def instances {ω : Type} (xs : List (Instance ω)) : StateM Roster (List String) :=
  xs.mapM fun i => call i.id i.processor.name

/-- Calls the processors of one list of a pipeline. -/
def places {ρ : Type} (xs : List (Wired ρ)) : StateM Roster (List String) :=
  xs.mapM fun w => call w.id w.name

/-- Calls the processors of a table label by label, the main list before the
final one. -/
def rows {ω : Type} (t : PipelineTable ω) :
    StateM Roster (List (String × List String × List String)) :=
  t.pipelines.mapM fun (label, p) => do
    let main ← places p.main
    let final ← places p.final
    return (label, main, final)

/-- Calls the processors of resolved fragments; none for a name that was not
resolved. -/
def fragments {ω : Type} (loaded : List (String × List (Instance ω))) (names : List String) :
    StateM Roster (List (String × Option (List String))) :=
  names.mapM fun name => do
    match Keyed.find? name loaded with
    | none => return (name, none)
    | some xs => return (name, some (← instances xs))

end Roster

end EventWorker
