import Outbox.Scenario.Queue

/-!
A demonstration run of an outbox. Six SDK tasks about one profile are queued, then one pass
delivers them to a pretend API on which every third request finds no network, so that request is
retried after the policy's delay. Each request the API accepts is shown as `-> METHOD path`;
at the end the queue's status and the tasks left are shown as indented JSON.

The outbox is built as a program builds it: SDK tasks registered and expected, the standard
retry policy, and the configured pause. Its records are kept in memory for the run.
-/

set_option autoImplicit false

namespace Outbox.Demo

open Outbox.Json Outbox.Queue Outbox.Task Outbox.Time Outbox.Http Outbox.Sdk Outbox.Scenario

/-- The pretend API's first `n` answers: the `i`-th, counted from one, finds no network when `i`
is a multiple of three, and accepts the request with an empty object otherwise. -/
def pretendAnswers (n : Nat) : List (Except TransportFailure Response) :=
  (List.range n).map fun i =>
    if (i + 1) % 3 = 0 then .error (.noNetwork "simulated outage")
    else .ok ⟨200, Utf8.encode "\x7b\x7d"⟩

/-- How many answers the pretend API is given: more than one pass asks for, since each of the
six tasks is sent at most seven times. -/
def answerCount : Nat := 64

/-- The tasks queued, in order, all made at `now`. -/
def demoTasks (now : Instant) : List SdkTask :=
  [.identifyProfile "ann" [("plan", .str "pro")],
    .trackEvent "ann" "purchase" [] (some now),
    .registerPushToken "ann" "device-token-1" "ios" now,
    .trackPushMetric "delivery-1" .opened "device-token-1" now,
    .trackDeliveryMetric "delivery-2" .clicked now,
    .deletePushToken "ann" "old-token"]

/-- Queues SDK tasks in order on the newest outbox; the outcome of the last one, if any. -/
def enqueueAll : World → List SdkTask → Option Created → Option Created × World
  | w, [], last => (last, w)
  | w, t :: rest, last =>
    match w.add t.kind (Utf8.encode t.encode) t.groupStart t.blockingGroups with
    | some (c, w) => enqueueAll w rest (some c)
    | none => enqueueAll w rest last

def acceptedLine (r : Request) : String := "-> " ++ r.method.name ++ " " ++ r.path

/-- The requests the pretend API accepted, in order: those not at a multiple of three among
the requests sent. -/
def accepted (log : List Logged) : List Request :=
  let sent := log.filterMap fun l => match l with
    | .sent r => some r
    | .ran _ => none
  (sent.zipIdx 1).filterMap fun (r, i) => if i % 3 = 0 then none else some r

def summary (siteId : String) (left : List Entry) : Value :=
  .object [("status", statusValue siteId left.length),
    ("remaining", .array (left.map Entry.toValue))]

/-- The lines a demonstration run prints for a configuration, at `now`: the tasks queued, each
request accepted, and the summary; or why the outbox could not be built. -/
def lines (c : Config) (now : Instant) : Except BuildError (List String) :=
  let registry := Registry.empty.registerSdk
  match checkBuild c (some registry) (some sdkKinds), registry with
  | .error e, _ => .error e
  | .ok (), .error e => .error (.alreadyRegistered e)
  | .ok (), .ok reg =>
    let depot : Depot := ⟨Store.MemoryStore.empty, now, []⟩
    let w := (World.init depot .registry ⟨pretendAnswers answerCount⟩).build c
      RetryPolicy.standard reg
    let q := w.newest
    let (last, w) := enqueueAll w (demoTasks now) none
    let queued := (last.map fun l => l.inventory.length).getD 0
    let w := w.runUntil (.pass q false)
    let (left, w) := (w.inventory? q).getD ([], w)
    let shown := (accepted w.runLog).map acceptedLine
    .ok (("queued: " ++ toString queued ++ " task(s) in '" ++ c.siteId ++ "'") :: shown ++
      [(summary c.siteId left).writePretty])

end Outbox.Demo
