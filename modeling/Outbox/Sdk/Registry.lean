import Outbox.Sdk.Task

/-!
The registry of task kinds that a runner can run. A kind is registered once; registering it
again is refused. Running a stored task looks its kind up (an unknown kind has no handler),
reads the payload as that kind (a payload that does not read can never run) and yields the
request to send.
-/

set_option autoImplicit false

namespace Outbox.Sdk

open Outbox.Http

/-- Why a registration is refused. -/
inductive RegistryError where
  | alreadyRegistered (kind : String)
  deriving DecidableEq, Repr

def RegistryError.message : RegistryError → String
  | .alreadyRegistered kind => "Handler for task type '" ++ kind ++ "' is already registered"

/-- The registered kinds. -/
structure Registry where
  kinds : List String
  deriving DecidableEq, Repr

namespace Registry

def empty : Registry := ⟨[]⟩

def register (r : Registry) (kind : String) : Except RegistryError Registry :=
  if r.kinds.contains kind then .error (.alreadyRegistered kind) else .ok ⟨r.kinds ++ [kind]⟩

def registerSdk (r : Registry) : Except RegistryError Registry :=
  sdkKinds.foldlM register r

def sorted (r : Registry) : List String := r.kinds.mergeSort (fun a b => decide (a ≤ b))

/-- The request a stored task of a kind makes, or why it cannot run. -/
def prepare (r : Registry) (kind : String) (data : List UInt8) : Except RunFailure Request :=
  if !r.kinds.contains kind then .error (.noHandler kind)
  else
    match SdkTask.decode? kind data with
    | some t => .ok t.request
    | none => .error (.undecodable kind)

end Registry

end Outbox.Sdk
