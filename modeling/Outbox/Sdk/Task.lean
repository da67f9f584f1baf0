import Outbox.Json.Decode
import Outbox.Json.Read
import Outbox.Json.Write
import Outbox.Task.Codec
import Outbox.Time.Stamp
import Outbox.Text.Utf8
import Outbox.Http.Client

/-!
The six kinds of SDK tasks: identifying a profile, tracking an event, registering and deleting a
push token, and tracking push and delivery metrics.

Each kind has a payload (a record read and written as `Json.Decode` says, fields in the order
below), the group it opens and the groups it waits for, and the request that delivers it. A
profile's identify opens the profile's group, which every later task about the profile waits
for; registering a token opens the token's group, which deleting it waits for. Identifiers and
tokens are percent-encoded where they stand in a path. Bodies are JSON objects with sorted keys;
times in bodies are whole seconds since the epoch.
-/

set_option autoImplicit false

namespace Outbox.Sdk

open Outbox.Json Outbox.Task Outbox.Http

/-- What happened to a message. -/
inductive MetricEvent where
  | delivered
  | opened
  | converted
  | clicked
  deriving DecidableEq, Repr

def MetricEvent.name : MetricEvent → String
  | .delivered => "delivered"
  | .opened => "opened"
  | .converted => "converted"
  | .clicked => "clicked"

def MetricEvent.ofName? (s : String) : Option MetricEvent :=
  [MetricEvent.delivered, .opened, .converted, .clicked].find? (·.name == s)

/-- A metric event read from its name, or from an object whose one member is its name and
`null`. -/
def MetricEvent.read? : Node → Option MetricEvent
  | .text (some s) => MetricEvent.ofName? s
  | .object [(some k, .null)] => MetricEvent.ofName? k
  | _ => none

/-- An SDK task and its payload. -/
inductive SdkTask where
  | identifyProfile (identifier : String) (attributes : List (String × Value))
  | trackEvent (identifier name : String) (data : List (String × Value))
      (timestamp : Option Time.Instant)
  | registerPushToken (identifier token platform : String) (lastUsed : Time.Instant)
  | deletePushToken (identifier token : String)
  | trackPushMetric (deliveryId : String) (event : MetricEvent) (deviceToken : String)
      (timestamp : Time.Instant)
  | trackDeliveryMetric (deliveryId : String) (event : MetricEvent) (timestamp : Time.Instant)

def sdkKinds : List String :=
  ["identify_profile.v1", "track_event.v1", "register_push_token.v1", "delete_push_token.v1",
   "track_push_metric.v1", "track_delivery_metric.v1"]

namespace SdkTask

/-- The kind of a task. -/
def kind : SdkTask → String
  | .identifyProfile .. => "identify_profile.v1"
  | .trackEvent .. => "track_event.v1"
  | .registerPushToken .. => "register_push_token.v1"
  | .deletePushToken .. => "delete_push_token.v1"
  | .trackPushMetric .. => "track_push_metric.v1"
  | .trackDeliveryMetric .. => "track_delivery_metric.v1"

def readMap : Node → Option (List (String × Value)) := Node.mapAt? 1

/-- The payload of a kind read from a node; none for an unknown kind or a payload that does not
read. -/
def read? (kind : String) (n : Node) : Option SdkTask :=
  if kind = "identify_profile.v1" then do
    let fs ← n.fields? ["identifier", "attributes"]
    match fs with
    | [i, a] => pure (.identifyProfile (← required Node.string? i) (← withDefault [] readMap a))
    | _ => none
  else if kind = "track_event.v1" then do
    let fs ← n.fields? ["identifier", "name", "data", "timestamp"]
    match fs with
    | [i, nm, d, t] =>
      pure (.trackEvent (← required Node.string? i) (← required Node.string? nm)
        (← withDefault [] readMap d) (← optional readInstant t))
    | _ => none
  else if kind = "register_push_token.v1" then do
    let fs ← n.fields? ["identifier", "token", "platform", "last_used"]
    match fs with
    | [i, t, p, l] =>
      pure (.registerPushToken (← required Node.string? i) (← required Node.string? t)
        (← required Node.string? p) (← required readInstant l))
    | _ => none
  else if kind = "delete_push_token.v1" then do
    let fs ← n.fields? ["identifier", "token"]
    match fs with
    | [i, t] => pure (.deletePushToken (← required Node.string? i) (← required Node.string? t))
    | _ => none
  else if kind = "track_push_metric.v1" then do
    let fs ← n.fields? ["delivery_id", "event", "device_token", "timestamp"]
    match fs with
    | [d, e, t, ts] =>
      pure (.trackPushMetric (← required Node.string? d) (← required MetricEvent.read? e)
        (← required Node.string? t) (← required readInstant ts))
    | _ => none
  else if kind = "track_delivery_metric.v1" then do
    let fs ← n.fields? ["delivery_id", "event", "timestamp"]
    match fs with
    | [d, e, ts] =>
      pure (.trackDeliveryMetric (← required Node.string? d) (← required MetricEvent.read? e)
        (← required readInstant ts))
    | _ => none
  else none

def decode? (kind : String) (bytes : List UInt8) : Option SdkTask :=
  Json.read bytes >>= read? kind

/-- The payload of a kind taken from a value already read, so that its numbers stay the doubles
they were read as rather than being read again from their text. -/
def ofValue? (kind : String) (v : Value) : Option SdkTask := read? kind v.toNode

/-- The payload as a value, fields in order. -/
def toValue : SdkTask → Value
  | .identifyProfile i a => .object [("identifier", .str i), ("attributes", .object a)]
  | .trackEvent i n d t =>
    .object ([("identifier", .str i), ("name", .str n), ("data", .object d)] ++
      (match t with | some t => [("timestamp", .str t.stamp)] | none => []))
  | .registerPushToken i t p l =>
    .object [("identifier", .str i), ("token", .str t), ("platform", .str p),
      ("last_used", .str l.stamp)]
  | .deletePushToken i t => .object [("identifier", .str i), ("token", .str t)]
  | .trackPushMetric d e t ts =>
    .object [("delivery_id", .str d), ("event", .str e.name), ("device_token", .str t),
      ("timestamp", .str ts.stamp)]
  | .trackDeliveryMetric d e ts =>
    .object [("delivery_id", .str d), ("event", .str e.name), ("timestamp", .str ts.stamp)]

def encode (t : SdkTask) : String := t.toValue.write

def groupStart : SdkTask → Option String
  | .identifyProfile i _ => some (profileGroup i)
  | .registerPushToken _ t _ _ => some (pushTokenGroup t)
  | _ => none

def blockingGroups : SdkTask → List String
  | .trackEvent i .. => [profileGroup i]
  | .registerPushToken i .. => [profileGroup i]
  | .deletePushToken i t => [profileGroup i, pushTokenGroup t]
  | _ => []

def customerPath (identifier : String) : String :=
  "/api/v1/customers/" ++ Text.percentEncode identifier

def jsonBody (v : Value) : Option (List UInt8) := some (Utf8.encode v.write)

/-- The request that delivers the task. -/
def request : SdkTask → Request
  | .identifyProfile i a => ⟨.put, customerPath i, jsonBody (.object a)⟩
  | .trackEvent i n d t =>
    ⟨.post, customerPath i ++ "/events",
      jsonBody (.object ([("data", .object d), ("name", .str n)] ++
      (match t with | some t => [("timestamp", Value.int t.timestamp)] | none => [])))⟩
  | .registerPushToken i t p l =>
    ⟨.put, customerPath i ++ "/devices", jsonBody (.object [("device", .object
      [("id", .str t), ("last_used", Value.int l.timestamp), ("platform", .str p)])])⟩
  | .deletePushToken i t =>
    ⟨.delete, customerPath i ++ "/devices/" ++ Text.percentEncode t, none⟩
  | .trackPushMetric d e t ts =>
    ⟨.post, "/push/events", jsonBody (.object [("delivery_id", .str d), ("device_id", .str t),
      ("event", .str e.name), ("timestamp", Value.int ts.timestamp)])⟩
  | .trackDeliveryMetric d e ts =>
    ⟨.post, "/api/v1/cio_deliveries/events", jsonBody (.object [("delivery_id", .str d),
      ("event", .str e.name), ("timestamp", Value.int ts.timestamp)])⟩

end SdkTask

end Outbox.Sdk
