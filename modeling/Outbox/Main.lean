import Outbox.Demo
import Std.Time.DateTime.Timestamp

/-!
The demonstration program: reads the configuration from the environment, runs the demonstration
at the present instant, and prints its lines. A configuration or build that fails ends the
program with status 1 and the error on standard error.
-/

set_option autoImplicit false

open Outbox

/-- Reads the settings, runs the demonstration and prints it. -/
def main : IO UInt32 := do
  let settings ← settingNames.mapM fun name => return (name, ← IO.getEnv name)
  let lookup (name : String) : Option String := (settings.lookup name).join
  match Config.ofLookup lookup with
  | .error e =>
    IO.eprintln ("Error: " ++ e.report)
    return 1
  | .ok c =>
    let stamp ← Std.Time.Timestamp.now
    let now := (Time.Instant.ofUnixNanos? stamp.toNanosecondsSinceUnixEpoch.val).getD
      Time.Instant.epoch
    match Demo.lines c now with
    | .error e =>
      IO.eprintln ("Error: " ++ e.report)
      return 1
    | .ok out =>
      for line in out do
        IO.println line
      return 0
