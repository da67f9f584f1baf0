import Outbox.Proofs.JsonMaps
import Outbox.Sdk.Registry

/-!
SDK payloads read back as what was written.

A task's payload is its value's text. Every task whose maps hold integers in range with their
keys sorted at every level, and whose instants are in the calendar's range (`SdkTask.valid`), is
read back from its payload exactly when its maps nest within the depth the payload leaves them
(`SdkTask.shallow`): a map is one level below the document's root, so it may nest at most 126
levels. Every task a payload reads as is shallow, and valid when its maps hold no floating-point
number (`SdkTask.integral`), so writing it and reading again gives it back
(`sdk_payloads_read_back`); a map nested 126 levels deep under its key is written but never read
back (`deep_attributes_do_not_read_back`).
-/

set_option autoImplicit false

namespace Outbox.Sdk

open Json

namespace SdkTask

/-- The free-form maps a task carries: a profile's attributes and an event's data. -/
def maps : SdkTask → List (List (String × Value))
  | .identifyProfile _ a => [a]
  | .trackEvent _ _ d _ => [d]
  | _ => []

/-- The instants a task carries. -/
def instants : SdkTask → List Time.Instant
  | .trackEvent _ _ _ t => t.toList
  | .registerPushToken _ _ _ l => [l]
  | .trackPushMetric _ _ _ ts => [ts]
  | .trackDeliveryMetric _ _ ts => [ts]
  | _ => []

/-- A task as a payload can hold it: maps of integers in range whose keys are sorted at every
level, and instants in the calendar's range. -/
def valid (t : SdkTask) : Bool :=
  t.maps.all (fun m => (Value.object m).plain && (Value.object m).sorted) &&
    t.instants.all Time.Instant.valid

/-- A task whose maps nest within the depth a payload leaves them, one level below its root. -/
def shallow (t : SdkTask) : Bool :=
  t.maps.all (fun m => decide ((Value.object m).toNode.nesting ≤ maxNesting - 1))

def integral (t : SdkTask) : Bool := t.maps.all (fun m => (Value.object m).integral)

theorem MetricEvent.read?_name (e : MetricEvent) : MetricEvent.read? (.text (some e.name)) = some e := by
  cases e <;> rfl

theorem readMap_toNode {m : List (String × Value)} (hs : (Value.object m).sorted)
    (hd : (Value.object m).toNode.nesting ≤ maxNesting - 1) :
    readMap (.object (m.map fun p => (some p.1, p.2.toNode))) = some m := by
  rw [← Value.membersToNodes_eq_map]
  exact Value.mapAt?_toNode hs hd

theorem toValue_plain (t : SdkTask) (h : t.valid) : t.toValue.plain := by
  cases t with
  | identifyProfile i a =>
    simp only [valid, maps, instants, List.all_cons, List.all_nil, Bool.and_true,
      Bool.and_eq_true] at h
    simpa [toValue, Value.plain] using h.1
  | trackEvent i n d ts =>
    simp only [valid, maps, List.all_cons, List.all_nil, Bool.and_true, Bool.and_eq_true] at h
    cases ts <;> simpa [toValue, Value.plain] using h.1.1
  | registerPushToken => simp [toValue, Value.plain]
  | deletePushToken => simp [toValue, Value.plain]
  | trackPushMetric => simp [toValue, Value.plain]
  | trackDeliveryMetric => simp [toValue, Value.plain]

/-- A valid, shallow task is read back from its payload's value. -/
theorem read?_toValue (t : SdkTask) (hv : t.valid) (hs : t.shallow) :
    read? t.kind t.toValue.toNode = some t := by
  cases t with
  | identifyProfile i a =>
    simp only [valid, shallow, maps, instants, List.all_cons, List.all_nil, Bool.and_true,
      Bool.and_eq_true, decide_eq_true_eq] at hv hs
    simp [read?, kind, toValue, Value.toNode, Node.fields?, collectFields, List.lookup, required,
      withDefault, Node.string?, readMap_toNode hv.2 hs]
  | trackEvent i n d ts =>
    simp only [valid, shallow, maps, instants, List.all_cons, List.all_nil, Bool.and_true,
      Bool.and_eq_true, decide_eq_true_eq] at hv hs
    cases ts with
    | none =>
      simp [read?, kind, toValue, Value.toNode, Node.fields?, collectFields, List.lookup, required,
        withDefault, Json.optional, Node.string?, readMap_toNode hv.1.2 hs]
    | some ts =>
      simp only [Option.toList_some, List.all_cons, List.all_nil, Bool.and_true] at hv
      simp [read?, kind, toValue, Value.toNode, Node.fields?, collectFields, List.lookup, required,
        withDefault, Json.optional, Node.string?, readMap_toNode hv.1.2 hs,
        Task.readInstant_stamp hv.2]
  | registerPushToken i t p l =>
    simp only [valid, instants, List.all_cons, List.all_nil, Bool.and_true, maps,
      Bool.true_and] at hv
    simp [read?, kind, toValue, Value.toNode, Node.fields?, collectFields, List.lookup, required,
      Node.string?, Task.readInstant_stamp hv]
  | deletePushToken i t =>
    simp [read?, kind, toValue, Value.toNode, Node.fields?, collectFields, List.lookup, required,
      Node.string?]
  | trackPushMetric d e t ts =>
    simp only [valid, instants, List.all_cons, List.all_nil, Bool.and_true, maps,
      Bool.true_and] at hv
    simp [read?, kind, toValue, Value.toNode, Node.fields?, collectFields, List.lookup, required,
      Node.string?, MetricEvent.read?_name, Task.readInstant_stamp hv]
  | trackDeliveryMetric d e ts =>
    simp only [valid, instants, List.all_cons, List.all_nil, Bool.and_true, maps,
      Bool.true_and] at hv
    simp [read?, kind, toValue, Value.toNode, Node.fields?, collectFields, List.lookup, required,
      Node.string?, MetricEvent.read?_name, Task.readInstant_stamp hv]

theorem decode?_encode (t : SdkTask) (hv : t.valid) (hs : t.shallow) :
    decode? t.kind (Utf8.encode t.encode) = some t := by
  rw [decode?, encode, read_write _ (toValue_plain t hv)]
  exact read?_toValue t hv hs

theorem mapField_sound {f : Option Node} {m : List (String × Value)}
    (h : withDefault [] readMap f = some m) :
    (Value.object m).sorted ∧ (Value.object m).toNode.nesting ≤ maxNesting - 1 ∧
      ((∀ x ∈ f, x.inRange) → (Value.object m).integral → (Value.object m).plain) := by
  cases f with
  | none =>
    cases h
    exact ⟨rfl, by decide, fun _ _ => rfl⟩
  | some x =>
    obtain ⟨hs, hd, hp⟩ := Node.mapAt?_sound h
    exact ⟨hs, hd, fun hr => hp (hr x rfl)⟩

theorem instantField_valid {f : Option Node} {t : Time.Instant}
    (h : required Task.readInstant f = some t) : t.valid := by
  cases f with
  | none => cases h
  | some x => exact Task.readInstant_valid h

theorem optionalInstant_valid {f : Option Node} {t : Option Time.Instant}
    (h : Json.optional Task.readInstant f = some t) : ∀ x ∈ t, x.valid := by
  intro x hx
  cases hx
  cases f with
  | none => cases h
  | some n =>
    unfold Json.optional at h
    split at h
    · cases h
    · obtain ⟨y, hy, hyx⟩ := Option.map_eq_some_iff.1 h
      cases hyx
      exact Task.readInstant_valid hy
    · cases h

/-- What a node reads as, for any kind: a task of that kind, whose maps are shallow, and which is
valid when the node's integers are in range and its maps hold no floating-point number. -/
theorem read?_sound {kind : String} {n : Node} {t : SdkTask} (h : read? kind n = some t) :
    t.kind = kind ∧ t.shallow ∧ (n.inRange → t.integral → t.valid) := by
  rw [read?] at h
  -- one branch per kind: its fields are read in order, and the task is built from them
  split_ifs at h with hidentify htrack hregister hdelete hpush hdelivery
  · subst hidentify
    obtain ⟨fs, hfs, h⟩ := Time.bind_eq_some.1 h
    split at h
    · next i a =>
      obtain ⟨i', -, h⟩ := Time.bind_eq_some.1 h
      obtain ⟨a', ha, h⟩ := Time.bind_eq_some.1 h
      cases h
      obtain ⟨hs, hd, hp⟩ := mapField_sound ha
      refine ⟨rfl, by simpa [shallow, maps] using hd, fun hn hi => ?_⟩
      have hplain := hp (Node.fields?_inRange hn hfs a (by simp)) (by simpa [integral, maps] using hi)
      simp [valid, maps, instants, hplain, hs]
    · cases h
  · subst htrack
    obtain ⟨fs, hfs, h⟩ := Time.bind_eq_some.1 h
    split at h
    · next i nm d ts =>
      obtain ⟨i', -, h⟩ := Time.bind_eq_some.1 h
      obtain ⟨nm', -, h⟩ := Time.bind_eq_some.1 h
      obtain ⟨d', hd', h⟩ := Time.bind_eq_some.1 h
      obtain ⟨ts', hts, h⟩ := Time.bind_eq_some.1 h
      cases h
      obtain ⟨hs, hd, hp⟩ := mapField_sound hd'
      refine ⟨rfl, by simpa [shallow, maps] using hd, fun hn hi => ?_⟩
      have hplain := hp (Node.fields?_inRange hn hfs d (by simp)) (by simpa [integral, maps] using hi)
      have hinstant := optionalInstant_valid hts
      cases ts' with
      | none => simp [valid, maps, instants, hplain, hs]
      | some x => simp [valid, maps, instants, hplain, hs, hinstant x rfl]
    · cases h
  · subst hregister
    obtain ⟨fs, hfs, h⟩ := Time.bind_eq_some.1 h
    split at h
    · next i tk p l =>
      obtain ⟨i', -, h⟩ := Time.bind_eq_some.1 h
      obtain ⟨tk', -, h⟩ := Time.bind_eq_some.1 h
      obtain ⟨p', -, h⟩ := Time.bind_eq_some.1 h
      obtain ⟨l', hl, h⟩ := Time.bind_eq_some.1 h
      cases h
      exact ⟨rfl, rfl, fun _ _ => by simp [valid, maps, instants, instantField_valid hl]⟩
    · cases h
  · subst hdelete
    obtain ⟨fs, hfs, h⟩ := Time.bind_eq_some.1 h
    split at h
    · next i tk =>
      obtain ⟨i', -, h⟩ := Time.bind_eq_some.1 h
      obtain ⟨tk', -, h⟩ := Time.bind_eq_some.1 h
      cases h
      exact ⟨rfl, rfl, fun _ _ => rfl⟩
    · cases h
  · subst hpush
    obtain ⟨fs, hfs, h⟩ := Time.bind_eq_some.1 h
    split at h
    · next d e tk ts =>
      obtain ⟨d', -, h⟩ := Time.bind_eq_some.1 h
      obtain ⟨e', -, h⟩ := Time.bind_eq_some.1 h
      obtain ⟨tk', -, h⟩ := Time.bind_eq_some.1 h
      obtain ⟨ts', hts, h⟩ := Time.bind_eq_some.1 h
      cases h
      exact ⟨rfl, rfl, fun _ _ => by simp [valid, maps, instants, instantField_valid hts]⟩
    · cases h
  · subst hdelivery
    obtain ⟨fs, hfs, h⟩ := Time.bind_eq_some.1 h
    split at h
    · next d e ts =>
      obtain ⟨d', -, h⟩ := Time.bind_eq_some.1 h
      obtain ⟨e', -, h⟩ := Time.bind_eq_some.1 h
      obtain ⟨ts', hts, h⟩ := Time.bind_eq_some.1 h
      cases h
      exact ⟨rfl, rfl, fun _ _ => by simp [valid, maps, instants, instantField_valid hts]⟩
    · cases h

theorem decode?_sound {kind : String} {bytes : List UInt8} {t : SdkTask}
    (h : decode? kind bytes = some t) : t.kind = kind ∧ t.shallow ∧ (t.integral → t.valid) := by
  obtain ⟨n, hn, h⟩ := Time.bind_eq_some.1 h
  obtain ⟨hk, hs, hv⟩ := read?_sound h
  exact ⟨hk, hs, hv (read_inRange hn)⟩

end SdkTask

theorem Registry.prepare_encode (r : Registry) (t : SdkTask) (hr : r.kinds.contains t.kind)
    (hv : t.valid) (hs : t.shallow) :
    r.prepare t.kind (Utf8.encode t.encode) = .ok t.request := by
  rw [Registry.prepare, if_neg (by rw [hr]; decide), SdkTask.decode?_encode t hv hs]

/-- What is enqueued is what runs. A task whose maps hold integers in range with sorted keys and
whose instants are in range is read back from its payload exactly when its maps nest at most 126
levels, and then a registry that knows its kind sends the task's own request. Every task a
payload decodes as is of the kind asked for and shallow, and when its maps hold no
floating-point number it is valid, so it is read back again from its own payload. -/
theorem sdk_payloads_read_back (t : SdkTask) :
    (t.valid → (SdkTask.decode? t.kind (Utf8.encode t.encode) = some t ↔ t.shallow)) ∧
    (t.valid → t.shallow → ∀ r : Registry, r.kinds.contains t.kind →
      r.prepare t.kind (Utf8.encode t.encode) = .ok t.request) ∧
    (∀ (kind : String) (bytes : List UInt8),
      SdkTask.decode? kind bytes = some t → t.integral →
        t.kind = kind ∧ t.valid ∧ t.shallow ∧
          SdkTask.decode? kind (Utf8.encode t.encode) = some t) := by
  refine ⟨fun hv => ⟨fun h => (SdkTask.decode?_sound h).2.1, SdkTask.decode?_encode t hv⟩,
    fun hv hs r hr => Registry.prepare_encode r t hr hv hs, fun kind bytes h hi => ?_⟩
  obtain ⟨hk, hs, hv⟩ := SdkTask.decode?_sound h
  subst hk
  exact ⟨rfl, hv hi, hs, SdkTask.decode?_encode t (hv hi) hs⟩

/-- A profile with a negative number, nested text and a sorted map reads back from its payload. -/
theorem sdk_payloads_read_back_profile :
    (SdkTask.identifyProfile "ann" [("plan", .object [("seats", .number (.neg 3))]),
        ("tags", .array [.str "a", .null])]).valid ∧
    (SdkTask.decode? "identify_profile.v1"
        (Utf8.encode (SdkTask.identifyProfile "ann" [("plan", .object [("seats", .number (.neg 3))]),
          ("tags", .array [.str "a", .null])]).encode) =
      some (SdkTask.identifyProfile "ann" [("plan", .object [("seats", .number (.neg 3))]),
        ("tags", .array [.str "a", .null])]) ↔
      (SdkTask.identifyProfile "ann" [("plan", .object [("seats", .number (.neg 3))]),
        ("tags", .array [.str "a", .null])]).shallow) :=
  ⟨by decide, (sdk_payloads_read_back _).1 (by decide)⟩

/-- A profile whose attribute nests 126 arrays deep under its key is valid and holds no
floating-point number, but its payload, 128 levels deep, is never read back. -/
theorem deep_attributes_do_not_read_back :
    (SdkTask.identifyProfile "i"
        [("x", Nat.iterate (fun v => Value.array [v]) 126 (Value.nat 1))]).valid ∧
    (SdkTask.identifyProfile "i"
        [("x", Nat.iterate (fun v => Value.array [v]) 126 (Value.nat 1))]).integral ∧
    SdkTask.decode? "identify_profile.v1"
        (Utf8.encode (SdkTask.identifyProfile "i"
          [("x", Nat.iterate (fun v => Value.array [v]) 126 (Value.nat 1))]).encode) ≠
      some (SdkTask.identifyProfile "i"
        [("x", Nat.iterate (fun v => Value.array [v]) 126 (Value.nat 1))]) := by
  refine ⟨by decide +kernel, by decide +kernel, fun h => ?_⟩
  have hdeep : (SdkTask.identifyProfile "i"
      [("x", Nat.iterate (fun v => Value.array [v]) 126 (Value.nat 1))]).shallow = false := by
    decide +kernel
  rw [(SdkTask.decode?_sound h).2.1] at hdeep
  cases hdeep

end Outbox.Sdk
