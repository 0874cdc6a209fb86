import EventWorker.Worker.Config

/-!
# Checking fragments

Fragments may refer to each other but not in a circle, and every reference must
name a fragment. The check follows the references depth first, from the fragments
in the order of their names, and names the first offence that it meets.
-/

namespace EventWorker.Fragments

/-- The failure of a check, with the offence as its cause. -/
def invalid (offence : String) : Failure :=
  Code.invalidFragments.failure.terminal.because offence

/-- The offence of a fragment that refers to itself, directly or not. -/
def circular (name : String) : Failure :=
  invalid ("circular dependency through $" ++ name)

/-- The offence of a reference to no fragment. -/
def undefined (name : String) : Failure :=
  invalid ("undefined macro $" ++ name)

/-- The offence of a reference in a fragment without the sign of references. -/
def unsigned (name text : String) : Failure :=
  invalid ("$" ++ name ++ ": reference " ++ text ++ " must start with $")

/-- The fragment that an element of the fragment `name` refers to, none for a
processor. -/
def target (name : String) (e : Element) : Except Failure (Option String) :=
  match e with
  | .processor _ => .ok none
  | .reference text =>
    match e.target? with
    | some t => .ok (some t)
    | none => .error (unsigned name text)

/-- Visits a fragment and all it refers to. `path` holds the fragments being
visited and `done` those found sound; the result is `done` with what was found
sound. At most `fuel` more fragments can be on the path. -/
def visit (fragments : Fragments) (fuel : Nat) (path done : List String) (name : String) :
    Except Failure (List String) :=
  if name ∈ done then .ok done
  else if name ∈ path then .error (circular name)
  else
    match Keyed.find? name fragments, fuel with
    | none, _ => .error (undefined name)
    | some _, 0 => .error (circular name)
    | some elements, fuel + 1 => do
      let done ← elements.foldlM (fun done e => do
        match ← target name e with
        | none => return done
        | some t => visit fragments fuel (name :: path) done t) done
      return name :: done

/-- Checks all fragments. -/
def check (fragments : Fragments) : Except Failure Unit := do
  let _ ← (Keyed.keys fragments).foldlM
    (fun done name => visit fragments fragments.length [] done name) []

end EventWorker.Fragments
