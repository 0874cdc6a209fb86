import EventWorker.CommandLine

/-!
# The program

Reads the configuration file named by the first argument or the variable, and
then standard input line by line.
-/

namespace EventWorker.CommandLine

/-- Writes a text at once. -/
def put (text : String) : IO Unit := do
  let out ← IO.getStdout
  out.putStr text
  out.flush

/-- Feeds the lines of standard input to a worker until there are no more. -/
partial def feedLines (k : Console) : IO Console := do
  let text ← (← IO.getStdin).getLine
  match LineInput.linesOf text.toList with
  | [] => return k
  | line :: _ => do
    let (printed, k) := k.feed (← IO.monoMsNow) line
    put printed
    feedLines k

/-- The contents of a file, or why they cannot be read. -/
def readFile (path : String) : IO (Except String String) := do
  try
    return .ok (← IO.FS.readFile path)
  catch e =>
    return .error (toString e)

end EventWorker.CommandLine

open EventWorker

/-- Runs the worker on standard input and output. -/
def main (arguments : List String) : IO UInt32 := do
  let fallback ← IO.getEnv ConfigError.pathVariable
  let contents ← match Config.path arguments.head? fallback with
    | .ok path => CommandLine.readFile path
    | .error e => pure (.error e.message)
  let key := (← IO.getRandomBytes 32).data.toList
  match CommandLine.start? arguments.head? fallback (fun _ => contents) (← IO.monoMsNow) key with
  | none => return UInt32.ofNat CommandLine.failure
  | some k =>
    let k ← CommandLine.feedLines k
    CommandLine.put k.finish
    return UInt32.ofNat CommandLine.success
