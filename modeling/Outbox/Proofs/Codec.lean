import Outbox.Proofs.JsonText
import Outbox.Task.Codec
import Outbox.Proofs.PassOrder

/-!
Decoding undoes encoding over the whole stored format. An entry, a record or an inventory whose
fields are in range (`Entry.valid`, `Record.valid`) is read back from the octets of its stored
text; every entry and record that reading gives is in range, so writing what was read and reading
it again gives it back.
-/

set_option autoImplicit false

namespace Outbox.Task

open Json

/-- An entry the stored format holds: an id below `2^128`, a creation time in range, group tags
sorted without repeats, and a run count below `2^32`. -/
def Entry.valid (e : Entry) : Bool :=
  e.id.bits < 2 ^ 128 && e.createdAt.valid && decide (e.groupMembers.Pairwise (· < ·)) &&
    e.runs < 2 ^ 32

/-- A record the stored format holds: an id below `2^128` and a run count below `2^32`. -/
def Record.valid (r : Record) : Bool := r.id.bits < 2 ^ 128 && r.runs < 2 ^ 32

section Tags

theorem insertTag_of_lt {t : String} {l : List String} (h : ∀ u ∈ l, u < t) :
    insertTag t l = l ++ [t] := by
  induction l with
  | nil => rfl
  | cons u rest ih =>
    have hu := h u (List.mem_cons_self ..)
    rw [insertTag, if_neg (lt_asymm hu), if_neg (ne_of_gt hu),
      ih fun v hv => h v (List.mem_cons_of_mem _ hv)]
    rfl

theorem foldl_insertTag_of_sorted (l : List String) :
    ∀ acc : List String, (acc ++ l).Pairwise (· < ·) →
      l.foldl (fun acc t => insertTag t acc) acc = acc ++ l := by
  induction l with
  | nil => simp
  | cons t l ih =>
    intro acc h
    have ht : ∀ u ∈ acc, u < t :=
      fun u hu => (List.pairwise_append.1 h).2.2 u hu t (List.mem_cons_self ..)
    rw [List.foldl_cons, insertTag_of_lt ht, ih _ (by simpa using h)]
    simp

theorem tagSet_of_sorted {l : List String} (h : l.Pairwise (· < ·)) : tagSet l = l :=
  foldl_insertTag_of_sorted l [] h

theorem insertTag_sorted (t : String) {l : List String} (h : l.Pairwise (· < ·)) :
    (insertTag t l).Pairwise (· < ·) := by
  induction l with
  | nil => simp [insertTag]
  | cons u rest ih =>
    rw [List.pairwise_cons] at h
    rw [insertTag]
    split
    · next htu =>
      exact List.Pairwise.cons (fun v hv => (List.mem_cons.1 hv).elim (· ▸ htu)
        fun hv => lt_trans htu (h.1 v hv)) (List.pairwise_cons.2 h)
    split
    · exact List.pairwise_cons.2 h
    · next htu hne =>
      have hut : u < t := lt_of_le_of_ne (not_lt.1 htu) (Ne.symm hne)
      refine List.Pairwise.cons (fun v hv => ?_) (ih h.2)
      rcases Queue.mem_insertTag.1 hv with rfl | hv
      · exact hut
      · exact h.1 v hv

theorem tagSet_sorted (l : List String) : (tagSet l).Pairwise (· < ·) := by
  suffices ∀ acc : List String, acc.Pairwise (· < ·) →
      (l.foldl (fun acc t => insertTag t acc) acc).Pairwise (· < ·) from this [] List.Pairwise.nil
  induction l with
  | nil => exact fun _ h => h
  | cons t l ih => exact fun acc h => ih _ (insertTag_sorted t h)

end Tags

section Fields

theorem readId_text {id : TaskId} (h : id.bits < 2 ^ 128) :
    readId (.text (some id.text)) = some id := by
  show (TaskId.read? id.text).toOption = some id
  rw [TaskId.read?_text id h]
  rfl

theorem readInstant_stamp {t : Time.Instant} (h : t.valid) :
    readInstant (.text (some t.stamp)) = some t := by
  simp [readInstant, Node.string?, Time.readStamp?_stamp t h]

theorem readRuns_runsValue {runs : Nat} (h : runs < 2 ^ 32) :
    readRuns (runsValue runs).toNode = some runs := by
  simp [readRuns, runsValue, Value.nat, Value.toNode, Value.membersToNodes, Node.fields?,
    collectFields, withDefault, Node.u32?, show runs < 4294967296 from h]

theorem readTags_sorted {gm : List String} (h : gm.Pairwise (· < ·)) :
    readTags (.array (Value.itemsToNodes (gm.map .str))) = some gm := by
  have hitems : ∀ l : List String,
      (Value.itemsToNodes (l.map .str)).mapM Node.string? = some l := by
    intro l
    induction l with
    | nil => rfl
    | cons g l ih => simp [Value.itemsToNodes, Value.toNode, Node.string?, ih]
  simp [readTags, Node.items?, hitems, tagSet_of_sorted h]

theorem Entry.read?_toNode (e : Entry) (h : e.valid) : Entry.read? e.toValue.toNode = some e := by
  simp only [Entry.valid, Bool.and_eq_true, decide_eq_true_eq] at h
  obtain ⟨⟨⟨hid, ht⟩, hgm⟩, hruns⟩ := h
  obtain ⟨id, kind, createdAt, groupStart, groupMembers, runs⟩ := e
  simp only at hid ht hgm hruns
  -- the optional members are written or left out; each way the reader finds what was meant
  cases groupStart <;> by_cases hempty : groupMembers.isEmpty
  all_goals
    simp [Entry.read?, Entry.toValue, hempty, Value.toNode, Value.membersToNodes, Node.fields?,
      collectFields, List.lookup, required, withDefault, Json.optional, Node.string?,
      readId_text hid, readInstant_stamp ht, readRuns_runsValue hruns, readTags_sorted hgm]
  all_goals exact List.isEmpty_iff.1 hempty

theorem Record.read?_toNode (r : Record) (h : r.valid) :
    Record.read? r.toValue.toNode = some r := by
  simp only [Record.valid, Bool.and_eq_true, decide_eq_true_eq] at h
  obtain ⟨id, kind, data, runs⟩ := r
  simp [Record.read?, Record.toValue, Value.toNode, Value.membersToNodes, Node.fields?,
    collectFields, List.lookup, required, withDefault, Node.string?, readData,
    Base64.decode?_encode, readId_text h.1, readRuns_runsValue h.2]

theorem readInventory_toNode {es : List Entry} (h : ∀ e ∈ es, e.valid) :
    readInventory (Value.array (es.map Entry.toValue)).toNode = some es := by
  have hitems : ∀ l : List Entry, (∀ e ∈ l, e.valid) →
      (Value.itemsToNodes (l.map Entry.toValue)).mapM Entry.read? = some l := by
    intro l hl
    induction l with
    | nil => rfl
    | cons e l ih =>
      simp [Value.itemsToNodes, Entry.read?_toNode e (hl e (List.mem_cons_self ..)),
        ih fun e he => hl e (List.mem_cons_of_mem _ he)]
  simp [readInventory, Value.toNode, Node.items?, hitems es h]

end Fields

section Plain

open Json

theorem Entry.toValue_plain (e : Entry) (h : e.runs < 2 ^ 64) : e.toValue.plain := by
  have hgm : Value.itemsPlain (e.groupMembers.map .str) := by
    induction e.groupMembers with
    | nil => rfl
    | cons g l ih => simp [Value.itemsPlain, Value.plain, ih]
  obtain ⟨id, kind, createdAt, groupStart, groupMembers, runs⟩ := e
  simp only at h hgm
  have h' : runs < 18446744073709551616 := h
  cases groupStart <;> by_cases hempty : groupMembers.isEmpty
  all_goals
    simp [Entry.toValue, hempty, runsValue, Value.nat, Value.plain, Value.membersPlain, hgm, h']

theorem Record.toValue_plain (r : Record) (h : r.runs < 2 ^ 64) : r.toValue.plain := by
  have h' : r.runs < 18446744073709551616 := h
  simp [Record.toValue, runsValue, Value.nat, Value.plain, Value.membersPlain, h']

end Plain


section Decoded

theorem TaskId.read?_bits {s : String} {id : TaskId} (h : TaskId.read? s = .ok id) :
    id.bits < 2 ^ 128 := by
  have hfold : ∀ (vs : List Nat) (acc : Nat), acc < 2 ^ 128 →
      vs.foldl (fun acc v => (acc * 32 + v) % 2 ^ 128) acc < 2 ^ 128 := by
    intro vs
    induction vs with
    | nil => exact fun _ h => h
    | cons v vs ih => exact fun acc _ => ih _ (Nat.mod_lt _ (by decide))
  unfold TaskId.read? at h
  split at h
  · cases h
  split at h
  · cases h
  · rename_i vs _
    cases h
    exact hfold vs 0 (by decide)

theorem readId_bits {n : Node} {id : TaskId} (h : readId n = some id) : id.bits < 2 ^ 128 := by
  simp only [readId, Option.bind_eq_bind, Option.bind_eq_some_iff] at h
  obtain ⟨s, -, h⟩ := h
  cases hr : TaskId.read? s with
  | error e => simp [hr, Except.toOption] at h
  | ok id' =>
    simp only [hr, Except.toOption, Option.some.injEq] at h
    exact h ▸ TaskId.read?_bits hr

theorem readInstant_valid {n : Node} {t : Time.Instant} (h : readInstant n = some t) : t.valid := by
  simp only [readInstant, Option.bind_eq_bind, Option.bind_eq_some_iff] at h
  obtain ⟨s, -, h⟩ := h
  exact Time.readStamp?_valid h

theorem readTags_sorted_of {n : Node} {gm : List String} (h : readTags n = some gm) :
    gm.Pairwise (· < ·) := by
  simp only [readTags, Option.map_eq_some_iff] at h
  obtain ⟨l, -, rfl⟩ := h
  exact tagSet_sorted l

theorem u32?_lt {n : Node} {r : Nat} (h : Node.u32? n = some r) : r < 2 ^ 32 := by
  unfold Node.u32? at h
  split at h
  · split at h
    · cases h
      assumption
    · cases h
  · cases h

theorem readRuns_lt {n : Node} {r : Nat} (h : readRuns n = some r) : r < 2 ^ 32 := by
  simp only [readRuns, Option.bind_eq_bind, Option.bind_eq_some_iff] at h
  obtain ⟨fs, -, h⟩ := h
  split at h
  · rename_i f
    cases f with
    | none =>
      cases h
      decide
    | some n => exact u32?_lt h
  · cases h

theorem withDefault_runs_lt {f : Option Node} {r : Nat} (h : withDefault 0 readRuns f = some r) :
    r < 2 ^ 32 := by
  cases f with
  | none =>
    cases h
    decide
  | some n => exact readRuns_lt h

theorem Entry.read?_valid {n : Node} {e : Entry} (h : Entry.read? n = some e) : e.valid := by
  simp only [Entry.read?, Option.bind_eq_bind, Option.bind_eq_some_iff] at h
  obtain ⟨fs, -, h⟩ := h
  split at h
  · rename_i i k c gs gm rh
    simp only [Option.bind_eq_some_iff, pure, Option.some.injEq] at h
    obtain ⟨id, hid, kind, -, t, ht, g, -, tags, htags, runs, hruns, rfl⟩ := h
    have hid' : id.bits < 2 ^ 128 := by
      cases i with
      | none => cases hid
      | some n => exact readId_bits hid
    have ht' : t.valid := by
      cases c with
      | none => cases ht
      | some n => exact readInstant_valid ht
    have htags' : tags.Pairwise (· < ·) := by
      cases gm with
      | none =>
        cases htags
        exact List.Pairwise.nil
      | some n => exact readTags_sorted_of htags
    simp only [Entry.valid, Bool.and_eq_true, decide_eq_true_eq]
    exact ⟨⟨⟨hid', ht'⟩, htags'⟩, withDefault_runs_lt hruns⟩
  · cases h

theorem Record.read?_valid {n : Node} {r : Record} (h : Record.read? n = some r) : r.valid := by
  simp only [Record.read?, Option.bind_eq_bind, Option.bind_eq_some_iff] at h
  obtain ⟨fs, -, h⟩ := h
  split at h
  · rename_i i k d rh
    simp only [Option.bind_eq_some_iff, pure, Option.some.injEq] at h
    obtain ⟨id, hid, kind, -, data, -, runs, hruns, rfl⟩ := h
    have hid' : id.bits < 2 ^ 128 := by
      cases i with
      | none => cases hid
      | some n => exact readId_bits hid
    simp only [Record.valid, Bool.and_eq_true, decide_eq_true_eq]
    exact ⟨hid', withDefault_runs_lt hruns⟩
  · cases h

theorem exists_of_mapM_some {α β : Type} {f : α → Option β} {y : β} :
    ∀ {xs : List α} {ys : List β}, xs.mapM f = some ys → y ∈ ys →
      ∃ x ∈ xs, f x = some y
  | [], ys, h, hy => by
    simp only [List.mapM_nil, pure, Option.some.injEq] at h
    subst h
    cases hy
  | x :: xs, ys, h, hy => by
    simp only [List.mapM_cons, Option.bind_eq_bind, Option.bind_eq_some_iff, pure,
      Option.some.injEq] at h
    obtain ⟨z, hz, zs, hzs, rfl⟩ := h
    rcases List.mem_cons.1 hy with rfl | hy
    · exact ⟨x, List.mem_cons_self, hz⟩
    · obtain ⟨x', hx', h'⟩ := exists_of_mapM_some hzs hy
      exact ⟨x', List.mem_cons_of_mem _ hx', h'⟩

theorem readInventory_valid {n : Node} {es : List Entry} (h : readInventory n = some es) :
    ∀ e ∈ es, e.valid := by
  unfold readInventory Node.items? at h
  split at h
  · intro e he
    obtain ⟨m, -, hm⟩ := exists_of_mapM_some h he
    exact Entry.read?_valid hm
  · cases h

end Decoded

section Bytes

theorem Entry.runs_lt {e : Entry} (h : e.valid) : e.runs < 2 ^ 64 := by
  simp only [Entry.valid, Bool.and_eq_true, decide_eq_true_eq] at h
  exact Nat.lt_trans h.2 (by decide)

theorem Record.runs_lt {r : Record} (h : r.valid) : r.runs < 2 ^ 64 := by
  simp only [Record.valid, Bool.and_eq_true, decide_eq_true_eq] at h
  exact Nat.lt_trans h.2 (by decide)

theorem inventory_plain {es : List Entry} (h : ∀ e ∈ es, e.valid) :
    (Value.array (es.map Entry.toValue)).plain := by
  simp only [Value.plain]
  induction es with
  | nil => rfl
  | cons e es ih =>
    simp only [List.map_cons, Value.itemsPlain, Bool.and_eq_true]
    exact ⟨Entry.toValue_plain e (Entry.runs_lt (h e List.mem_cons_self)),
      ih fun e he => h e (List.mem_cons_of_mem _ he)⟩

theorem Entry.decode_encode (e : Entry) (h : e.valid) :
    decodeBytes? Entry.read? (Utf8.encode e.encode) = some e := by
  rw [decodeBytes?, Entry.encode, read_write _ (Entry.toValue_plain e (Entry.runs_lt h))]
  exact Entry.read?_toNode e h

theorem Record.decode_encode (r : Record) (h : r.valid) :
    decodeBytes? Record.read? (Utf8.encode r.encode) = some r := by
  rw [decodeBytes?, Record.encode, read_write _ (Record.toValue_plain r (Record.runs_lt h))]
  exact Record.read?_toNode r h

theorem decodeInventory_encode (es : List Entry) (h : ∀ e ∈ es, e.valid) :
    decodeBytes? readInventory (Utf8.encode (encodeInventory es)) = some es := by
  rw [decodeBytes?, encodeInventory, read_write _ (inventory_plain h)]
  exact readInventory_toNode h

theorem exists_of_decodeBytes? {α : Type} {read : Node → Option α} {bs : List UInt8} {x : α}
    (h : decodeBytes? read bs = some x) : ∃ n, read n = some x := by
  simp only [decodeBytes?, Option.bind_eq_bind, Option.bind_eq_some_iff] at h
  obtain ⟨n, -, hn⟩ := h
  exact ⟨n, hn⟩

/-- The stored forms read back as what was stored, for every entry, inventory and record whose
fields are in range; what reads from any stored octets is in range, so writing it again and
reading gives it back. -/
theorem stored_forms_decode_encode :
    (∀ e : Entry, e.valid → decodeBytes? Entry.read? (Utf8.encode e.encode) = some e) ∧
    (∀ es : List Entry, (∀ e ∈ es, e.valid) →
      decodeBytes? readInventory (Utf8.encode (encodeInventory es)) = some es) ∧
    (∀ r : Record, r.valid → decodeBytes? Record.read? (Utf8.encode r.encode) = some r) ∧
    (∀ bs e, decodeBytes? Entry.read? bs = some e →
      decodeBytes? Entry.read? (Utf8.encode e.encode) = some e) ∧
    (∀ bs es, decodeBytes? readInventory bs = some es →
      decodeBytes? readInventory (Utf8.encode (encodeInventory es)) = some es) ∧
    (∀ bs r, decodeBytes? Record.read? bs = some r →
      decodeBytes? Record.read? (Utf8.encode r.encode) = some r) := by
  refine ⟨Entry.decode_encode, decodeInventory_encode, Record.decode_encode, ?_, ?_, ?_⟩
  · intro bs e h
    obtain ⟨n, hn⟩ := exists_of_decodeBytes? h
    exact Entry.decode_encode e (Entry.read?_valid hn)
  · intro bs es h
    obtain ⟨n, hn⟩ := exists_of_decodeBytes? h
    exact decodeInventory_encode es (readInventory_valid hn)
  · intro bs r h
    obtain ⟨n, hn⟩ := exists_of_decodeBytes? h
    exact Record.decode_encode r (Record.read?_valid hn)

/-- A grouped entry created in a leap second reads back from its stored octets. -/
theorem stored_forms_decode_encode_leap :
    Entry.valid ⟨⟨2 ^ 127⟩, "sync", ⟨-1, 86399, 1500000000⟩, some "b", ["a", "c"], 3⟩ ∧
    decodeBytes? Entry.read?
        (Utf8.encode (Entry.encode
          ⟨⟨2 ^ 127⟩, "sync", ⟨-1, 86399, 1500000000⟩, some "b", ["a", "c"], 3⟩)) =
      some ⟨⟨2 ^ 127⟩, "sync", ⟨-1, 86399, 1500000000⟩, some "b", ["a", "c"], 3⟩ :=
  ⟨by decide, stored_forms_decode_encode.1 _ (by decide)⟩

end Bytes

end Outbox.Task
