import Outbox.Config
import Outbox.Sdk.Registry
import Outbox.Text.Escape

/-!
What building an outbox checks before it starts: the registration of its task kinds, then its
configuration, then (when its tasks run through a registry) that every kind it expects is
registered. The first fault found is the build error.
-/

set_option autoImplicit false

namespace Outbox.Queue

open Outbox.Sdk

/-- Why an outbox cannot be built. -/
inductive BuildError where
  | alreadyRegistered (e : RegistryError)
  | invalidConfig (e : ConfigError)
  | missingTaskTypes (kinds : List String)
  deriving DecidableEq, Repr

/-- The message of a build error; missing kinds are listed quoted, in the order expected. -/
def BuildError.message : BuildError → String
  | .alreadyRegistered e => e.message
  | .invalidConfig e => "invalid queue config: " ++ e.message
  | .missingTaskTypes kinds =>
    "Missing task types: [" ++ ", ".intercalate (kinds.map Text.quoted) ++
      "]. These tasks were expected but not registered."

/-- A build error as a failed start reports it: its kind with its fields, texts quoted. -/
def BuildError.report : BuildError → String
  | .alreadyRegistered (.alreadyRegistered kind) => "AlreadyRegistered(" ++ Text.quoted kind ++ ")"
  | .invalidConfig e => "InvalidConfig(" ++ e.report ++ ")"
  | .missingTaskTypes kinds =>
    "MissingTaskTypes([" ++ ", ".intercalate (kinds.map Text.quoted) ++ "])"

/-- The expected kinds that the registry lacks, in order, repeats kept. -/
def missingKinds (r : Registry) (expected : List String) : List String :=
  expected.filter (!r.kinds.contains ·)

/-- Checks a build: the registration (`registry` is none when tasks run otherwise), the
configuration, then the expected kinds. -/
def checkBuild (c : Config) (registry : Option (Except RegistryError Registry))
    (expected : Option (List String)) : Except BuildError Unit :=
  match registry with
  | some (.error e) => .error (.alreadyRegistered e)
  | _ =>
    match c.check with
    | some e => .error (.invalidConfig e)
    | none =>
      match registry, expected with
      | some (.ok r), some kinds =>
        match missingKinds r kinds with
        | [] => .ok ()
        | missing => .error (.missingTaskTypes missing)
      | _, _ => .ok ()

end Outbox.Queue
