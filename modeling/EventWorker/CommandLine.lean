import EventWorker.Worker.Run
import EventWorker.Worker.Site

/-!
# The command line

The worker is started from a configuration file, takes messages from the lines of
standard input, and writes to standard output what its providers print. It ends
with 1 if it cannot be started and with 0 after the last line.
-/

namespace EventWorker

/-- A worker with all that it works on. -/
structure Console where
  worker : Worker Site
  bench : Bench Site

namespace Console

/-- Starts a worker at a site with a clock and a secret key. -/
def start (c : Config) (now : Int) (key : Bytes) : Except Failure Console :=
  let site : Site := { clock := now, entropy := { key } }
  match (Plan.start { config := c, supply := Site.supply .whole Site.thread }).outcome site with
  | (.ok worker, site) => .ok { worker, bench := { world := site } }
  | (.error f, _) => .error f

/-- What has been printed and not been taken yet. -/
def printed (k : Console) : String :=
  String.ofList k.bench.world.printed.text

/-- The console with all that was printed taken. -/
def taken (k : Console) : Console :=
  { k with bench.world.printed.text := [] }

/-- Brings a line to the worker at a time, and takes what it prints. -/
def feed (now : Int) (line : String) (k : Console) : String × Console :=
  let world := { k.bench.world with
    clock := now, lines.lines := k.bench.world.lines.lines ++ [line] }
  let (_, bench) := k.worker.run 1 { k.bench with world }
  let k := { k with bench }
  (k.printed, k.taken)

/-- Brings the lines of a text to the worker. -/
def feedAll (now : Int) : List String → Console → String × Console
  | [], k => ("", k)
  | line :: rest, k =>
    let (first, k) := k.feed now line
    let (others, k) := feedAll now rest k
    (first ++ others, k)

/-- Stops the worker and takes what it prints. -/
def finish (k : Console) : String :=
  let (_, bench) := k.worker.shutdown k.bench
  ({ k with bench } : Console).printed

end Console

namespace CommandLine

/-- The exit code of a worker that ran to the end of its input. -/
def success : Nat := 0

/-- The exit code of a worker that could not be started. -/
def failure : Nat := 1

/-- The console of a configuration file, given what reading a file comes to. -/
def start? (argument fallback : Option String) (read : String → Except String String) (now : Int)
    (key : Bytes) : Option Console := do
  let path ← (Config.path argument fallback).toOption
  let config ← (Config.load path (read path)).toOption
  (Console.start config now key).toOption

/-- The exit code and the output for a whole input. -/
def run (argument fallback : Option String) (read : String → Except String String) (now : Int)
    (key : Bytes) (input : String) : Nat × String :=
  match start? argument fallback read now key with
  | none => (failure, "")
  | some k =>
    let (text, k) := k.feedAll now (LineInput.linesOf input.toList)
    (success, text ++ k.finish)

end CommandLine

end EventWorker
