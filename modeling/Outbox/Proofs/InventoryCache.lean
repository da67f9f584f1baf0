import Outbox.Proofs.Codec
import Outbox.Queue.Pass

/-!
The inventory a shelf caches is the one its store holds.

`storedInventory` reads a site's inventory record as a fresh shelf would when reads succeed: no
record is the empty inventory, and bytes that are not an inventory read as nothing. A shelf and
its depot are `Coherent` when the cached inventory, if any, is the stored one and the clock names
a valid instant. Every storage step keeps that (`StorageStep.coherent`), so it holds along every
run from a fresh shelf, and there a shelf whose store can be read reports the inventory a fresh
shelf over the same store would.
-/

set_option autoImplicit false

namespace Outbox.Store.MemoryStore

def lookup (s : MemoryStore) (kind : RecordKind) (key : String) : Option (List UInt8) :=
  (s.records.find? (StoredRecord.at kind key)).map (·.bytes)

variable {s s' : MemoryStore} {kind kind' : RecordKind} {key key' : String}

theorem lookup_of_get {b : Option (List UInt8)} (h : s.get kind key = .ok b) :
    s.lookup kind key = b := by
  unfold get at h
  split at h
  · cases h
  · cases h
    rfl

theorem get_of_reads (h : s.failingReads.contains kind = false) :
    s.get kind key = .ok (s.lookup kind key) := by
  simp only [get, lookup, h, Bool.false_eq_true, ↓reduceIte]

theorem at_put_self (bytes : List UInt8) (r : StoredRecord) :
    StoredRecord.at kind' key'
        (if StoredRecord.at kind key r then { r with bytes := bytes } else r) =
      StoredRecord.at kind' key' r := by
  split <;> rfl

theorem not_at_of_at (hne : kind ≠ kind' ∨ key ≠ key') {r : StoredRecord}
    (h : StoredRecord.at kind' key' r = true) : StoredRecord.at kind key r = false := by
  simp only [StoredRecord.at, Bool.and_eq_true, beq_iff_eq] at h
  simp only [StoredRecord.at, Bool.and_eq_false_iff, beq_eq_false_iff_ne, ne_eq]
  rcases hne with hne | hne
  · exact .inl fun hk => hne (hk ▸ h.1)
  · exact .inr fun hk => hne (hk ▸ h.2)

theorem find?_map_put (bytes : List UInt8) (records : List StoredRecord) :
    (records.map fun r => if StoredRecord.at kind key r then { r with bytes := bytes } else r).find?
      (StoredRecord.at kind' key') =
    (records.find? (StoredRecord.at kind' key')).map
      fun r => if StoredRecord.at kind key r then { r with bytes := bytes } else r := by
  rw [List.find?_map]
  congr 2
  funext r
  exact at_put_self bytes r

theorem find?_put_self (records : List StoredRecord) (bytes : List UInt8) :
    ((put records kind key bytes).find? (StoredRecord.at kind key)).map (·.bytes) =
      some bytes := by
  unfold put
  split
  · rename_i hany
    obtain ⟨r, hr, hat⟩ := List.any_eq_true.1 hany
    obtain ⟨r', hr'⟩ := Option.isSome_iff_exists.1 (List.find?_isSome.2 ⟨r, hr, hat⟩)
    rw [find?_map_put, hr']
    simp only [Option.map_some, List.find?_some hr', ↓reduceIte]
  · rename_i hany
    have hnone : records.find? (StoredRecord.at kind key) = none := by
      simpa only [List.find?_eq_none, List.any_eq_true, not_exists, not_and,
        Bool.not_eq_true] using hany
    have hnew : StoredRecord.at kind key ⟨kind, key, bytes⟩ = true := by
      simp only [StoredRecord.at, beq_self_eq_true, Bool.and_self]
    simp only [List.find?_append, hnone, Option.none_or, List.find?_singleton, hnew, ↓reduceIte,
      Option.map_some]

theorem find?_put_other (records : List StoredRecord) (bytes : List UInt8)
    (hne : kind ≠ kind' ∨ key ≠ key') :
    (put records kind key bytes).find? (StoredRecord.at kind' key') =
      records.find? (StoredRecord.at kind' key') := by
  unfold put
  split
  · rw [find?_map_put]
    cases hr : records.find? (StoredRecord.at kind' key') with
    | none => rfl
    | some r =>
      simp only [Option.map_some, not_at_of_at hne (List.find?_some hr), Bool.false_eq_true,
        ↓reduceIte]
  · have hnew : StoredRecord.at kind' key' ⟨kind, key, bytes⟩ = false := not_at_of_at
      (hne.imp Ne.symm Ne.symm) (by simp only [StoredRecord.at, beq_self_eq_true, Bool.and_self])
    simp only [List.find?_append, List.find?_singleton, hnew, Bool.false_eq_true, ↓reduceIte,
      Option.or_none]

theorem flags_of_save {bytes : List UInt8} (h : s.save kind key bytes = .ok s') :
    s'.failingWrites = s.failingWrites ∧ s'.failingReads = s.failingReads := by
  unfold save at h
  split at h
  · cases h
  · cases h
    exact ⟨rfl, rfl⟩

theorem flags_of_delete {b : Bool} (h : s.delete kind key = .ok (b, s')) :
    s'.failingWrites = s.failingWrites ∧ s'.failingReads = s.failingReads := by
  unfold delete at h
  split at h
  · cases h
  · cases h
    exact ⟨rfl, rfl⟩

theorem lookup_of_save {bytes : List UInt8} (h : s.save kind key bytes = .ok s') :
    s'.lookup kind key = some bytes := by
  unfold save at h
  split at h
  · cases h
  · cases h
    exact find?_put_self s.records bytes

theorem lookup_of_save_other {bytes : List UInt8} (h : s.save kind key bytes = .ok s')
    (hne : kind ≠ kind' ∨ key ≠ key') : s'.lookup kind' key' = s.lookup kind' key' := by
  unfold save at h
  split at h
  · cases h
  · cases h
    simp only [lookup, find?_put_other s.records bytes hne]

theorem lookup_of_delete {b : Bool} (h : s.delete kind key = .ok (b, s')) :
    s'.lookup kind key = none := by
  unfold delete at h
  split at h
  · cases h
  · cases h
    have hnone : (s.records.filter (!StoredRecord.at kind key ·)).find?
        (StoredRecord.at kind key) = none := by
      rw [List.find?_eq_none]
      intro r hr
      simpa using (List.mem_filter.1 hr).2
    simp only [lookup, hnone, Option.map_none]

theorem lookup_of_delete_other {b : Bool} (h : s.delete kind key = .ok (b, s'))
    (hne : kind ≠ kind' ∨ key ≠ key') : s'.lookup kind' key' = s.lookup kind' key' := by
  unfold delete at h
  split at h
  · cases h
  · cases h
    have hfind : s.records.find? (StoredRecord.at kind' key') =
        (s.records.filter (!StoredRecord.at kind key ·)).find? (StoredRecord.at kind' key') := by
      rw [List.find?_filter]
      congr 1
      funext r
      cases hr : StoredRecord.at kind' key' r
      · simp
      · simp [not_at_of_at hne hr]
    simp only [lookup, hfind]

end Outbox.Store.MemoryStore

namespace Outbox.Task

theorem TaskId.ofParts_bits_lt (timestampMs random : Nat) :
    (TaskId.ofParts timestampMs random).bits < 2 ^ 128 := by
  simp only [TaskId.ofParts, timeBits, randomBits, Nat.pow_eq]
  omega

theorem Entry.valid_of_new {id : TaskId} (hid : id.bits < 2 ^ 128) {t : Time.Instant}
    (ht : t.valid) (kind : String) (groupStart : Option String) (groups : List String) :
    Entry.valid ⟨id, kind, t, groupStart, tagSet groups, 0⟩ := by
  simp only [Entry.valid, Bool.and_eq_true, decide_eq_true_eq]
  exact ⟨⟨⟨hid, ht⟩, tagSet_sorted groups⟩, by decide⟩

theorem Record.valid_of_new {id : TaskId} (hid : id.bits < 2 ^ 128) (kind : String)
    (data : List UInt8) : Record.valid ⟨id, kind, data, 0⟩ := by
  simp only [Record.valid, Bool.and_eq_true, decide_eq_true_eq]
  exact ⟨hid, by decide⟩

theorem Entry.valid_bits {e : Entry} (h : e.valid) : e.id.bits < 2 ^ 128 := by
  simp only [Entry.valid, Bool.and_eq_true, decide_eq_true_eq] at h
  exact h.1.1.1

theorem bumpRuns_lt (n : Nat) : bumpRuns n < 2 ^ 32 := by
  unfold bumpRuns maxRuns
  exact Nat.lt_of_le_of_lt (Nat.min_le_right _ _) (by decide)

end Outbox.Task

namespace Outbox.Queue

open Outbox.Task Outbox.Store MemoryStore

theorem Depot.issueId_bits_lt (d : Depot) : d.issueId.1.bits < 2 ^ 128 :=
  TaskId.ofParts_bits_lt _ _

/-- A site's inventory as its record reads: the empty inventory when there is none, nothing when
its bytes are not an inventory. -/
def storedInventory (s : MemoryStore) (site : String) : Option (List Entry) :=
  match s.lookup .inventory site with
  | none => some []
  | some bytes => decodeBytes? readInventory bytes

theorem storedInventory_valid {s : MemoryStore} {site : String} {inv : List Entry}
    (h : storedInventory s site = some inv) : ∀ e ∈ inv, e.valid := by
  unfold storedInventory at h
  split at h
  · cases h
    intro e he
    cases he
  · obtain ⟨n, hn⟩ := exists_of_decodeBytes? h
    exact readInventory_valid hn

/-- A shelf over a depot whose cached inventory, if any, is the stored one, and whose clock names
a valid instant. -/
structure Coherent (p : Shelf × Depot) : Prop where
  cache_stored : ∀ inv, p.1.cache = some inv → storedInventory p.2.store p.1.siteId = some inv
  clock_valid : p.2.clock.valid

namespace Coherent

variable {sh : Shelf} {d : Depot}

theorem of_store {d' : Depot} (h : Coherent (sh, d))
    (hs : d'.store.lookup .inventory sh.siteId = d.store.lookup .inventory sh.siteId)
    (hc : d'.clock = d.clock) : Coherent (sh, d') := by
  have hstored : storedInventory d'.store sh.siteId = storedInventory d.store sh.siteId := by
    simp only [storedInventory, hs]
  exact ⟨fun inv hinv => hstored ▸ h.cache_stored inv hinv, hc ▸ h.clock_valid⟩

theorem inventory (h : Coherent (sh, d)) : Coherent ((sh.inventory d).2, d) := by
  unfold Shelf.inventory
  split
  · exact h
  · split
    · rename_i hget
      refine ⟨fun inv hinv => ?_, h.clock_valid⟩
      obtain rfl : [] = inv := Option.some.inj hinv
      simp [storedInventory, lookup_of_get hget]
    · exact h
    · split
      · rename_i bytes hget _ inv hdec
        refine ⟨fun inv' hinv' => ?_, h.clock_valid⟩
        obtain rfl : inv = inv' := Option.some.inj hinv'
        simp [storedInventory, lookup_of_get hget, hdec]
      · exact h

theorem inventory_valid (h : Coherent (sh, d)) : ∀ e ∈ (sh.inventory d).1, e.valid := by
  unfold Shelf.inventory
  split
  · rename_i inv hc
    exact storedInventory_valid (h.cache_stored inv hc)
  · split
    · intro e he
      cases he
    · intro e he
      cases he
    · split
      · rename_i bytes hget _ inv hdec
        obtain ⟨n, hn⟩ := exists_of_decodeBytes? hdec
        exact readInventory_valid hn
      · intro e he
        cases he

theorem writeInventory (h : Coherent (sh, d)) {inv : List Entry} (hv : ∀ e ∈ inv, e.valid) :
    Coherent (sh.writeInventory d inv).2 := by
  unfold Shelf.writeInventory
  split
  · rename_i store hsave
    refine ⟨fun inv' hinv' => ?_, h.clock_valid⟩
    obtain rfl : inv = inv' := Option.some.inj hinv'
    simp only [storedInventory, lookup_of_save hsave]
    exact decodeInventory_encode inv hv
  · exact h

theorem saveRecord (h : Coherent (sh, d)) (r : Record) :
    Coherent (sh, (Shelf.saveRecord d r).2) := by
  unfold Shelf.saveRecord
  split
  · rename_i store hsave
    exact h.of_store (lookup_of_save_other hsave (.inl (by decide))) rfl
  · exact h

theorem update (h : Coherent (sh, d)) (id : TaskId) (runs : Nat) :
    Coherent (sh, (Shelf.update d id runs).2) := by
  unfold Shelf.update
  split
  · exact h
  · exact h.saveRecord _

theorem issueId (h : Coherent (sh, d)) : Coherent (sh, d.issueId.2) :=
  ⟨h.cache_stored, h.clock_valid⟩

theorem create (h : Coherent (sh, d)) (kind : String) (data : List UInt8)
    (groupStart : Option String) (groups : List String) :
    Coherent (sh.create d kind data groupStart groups).2 := by
  have h₁ := h.inventory
  have hv := h.inventory_valid
  rcases hp : sh.inventory d with ⟨inv, sh₁⟩
  rw [hp] at h₁ hv
  simp only [Shelf.create, hp]
  have h₂ := h₁.issueId.saveRecord ⟨d.issueId.1, kind, data, 0⟩
  generalize Shelf.saveRecord d.issueId.2 ⟨d.issueId.1, kind, data, 0⟩ = q at h₂ ⊢
  obtain ⟨saved, d₂⟩ := q
  -- the new entry is as valid as the clock it was created by
  have hv' : ∀ e ∈ inv ++ [⟨d.issueId.1, kind, d₂.clock, groupStart, tagSet groups, 0⟩],
      e.valid := by
    simp only [List.mem_append, List.mem_singleton]
    rintro e (he | rfl)
    · exact hv e he
    · exact Entry.valid_of_new d.issueId_bits_lt h₂.clock_valid kind groupStart groups
  split
  · exact h₂
  · split <;> exact h₂.writeInventory hv'

theorem deleteRecord (h : Coherent (sh, d)) {key : String} {b : Bool} {s : MemoryStore}
    (hdel : d.store.delete .tasks key = .ok (b, s)) : Coherent (sh, { d with store := s }) :=
  h.of_store (lookup_of_delete_other hdel (.inl (by decide))) rfl

theorem delete (h : Coherent (sh, d)) (id : TaskId) : Coherent (sh.delete d id).2 := by
  have h₁ := h.inventory
  have hv := h.inventory_valid
  rcases hp : sh.inventory d with ⟨inv, sh₁⟩
  rw [hp] at h₁ hv
  have hkept : ∀ e ∈ inv.filter (fun e => e.id != id), e.valid :=
    fun e he => hv e (List.mem_of_mem_filter he)
  unfold Shelf.delete
  rw [hp]
  dsimp only
  -- the inventory is written only when the task is in it; then the record goes
  split
  · have h₂ := h₁.writeInventory hkept
    generalize sh₁.writeInventory d _ = t at h₂ ⊢
    split
    · exact h₂
    · split
      · next _ _ hdel => exact h₂.deleteRecord hdel
      · exact h₂
  · split
    · exact h₁
    · split
      · next _ _ hdel => exact h₁.deleteRecord hdel
      · exact h₁

theorem deleteAll (h : Coherent (sh, d)) (es : List Entry) : Coherent (sh.deleteAll d es).2 := by
  induction es generalizing sh d with
  | nil => exact h
  | cons e rest ih =>
    have h₁ := h.delete e.id
    simp only [Shelf.deleteAll]
    generalize sh.delete d e.id = t at h₁ ⊢
    exact ih h₁

theorem deleteExpired (h : Coherent (sh, d)) : Coherent (sh.deleteExpired d).2 := by
  unfold Shelf.deleteExpired
  split
  · exact h
  · exact h.inventory.deleteAll _

theorem advance (h : Coherent (sh, d)) (sel : Selection) (st : PassState) :
    Coherent (Pass.advance sel sh d st).2.2 := by
  have h₁ := h.inventory
  simp only [Pass.advance]
  generalize sh.inventory d = p at h₁ ⊢
  split
  · exact h₁
  · split
    · exact h₁
    · exact h₁.delete _
    · exact h₁

theorem settle (h : Coherent (sh, d)) (next : Entry) (record : Record)
    (outcome : Except RunFailure Unit) : Coherent (Pass.settle sh d next record outcome).2 := by
  unfold Pass.settle
  split
  · exact h.delete _
  · split
    · exact h
    · exact h.delete _
    · exact h.update _ _

end Coherent

end Outbox.Queue

namespace Outbox.Queue

open Outbox.Task Outbox.Store MemoryStore

theorem Coherent.fresh (site : String) (expiry : Time.Delta) {d : Depot} (hclock : d.clock.valid) :
    Coherent (Shelf.fresh site expiry, d) where
  cache_stored _ hinv := by cases hinv
  clock_valid := hclock

/-- One step of a site's storage: an operation of its shelf, a step of a pass over it, reads or
writes of a kind starting or stopping to fail, the clock moving to a valid instant, or the shelf
reopened fresh over the same depot. Only valid entries can be written, as only they can be
named. -/
inductive StorageStep : Shelf × Depot → Shelf × Depot → Prop
  | read {sh : Shelf} {d : Depot} : StorageStep (sh, d) ((sh.inventory d).2, d)
  | write {sh : Shelf} {d : Depot} (inv : List Entry) :
      (∀ e ∈ inv, e.valid) → StorageStep (sh, d) (sh.writeInventory d inv).2
  | create {sh : Shelf} {d : Depot} (kind : String) (data : List UInt8)
      (groupStart : Option String) (groups : List String) :
      StorageStep (sh, d) (sh.create d kind data groupStart groups).2
  | update {sh : Shelf} {d : Depot} (id : TaskId) (runs : Nat) :
      StorageStep (sh, d) (sh, (Shelf.update d id runs).2)
  | delete {sh : Shelf} {d : Depot} (id : TaskId) : StorageStep (sh, d) (sh.delete d id).2
  | deleteExpired {sh : Shelf} {d : Depot} : StorageStep (sh, d) (sh.deleteExpired d).2
  | advance {sh : Shelf} {d : Depot} (sel : Selection) (st : PassState) :
      StorageStep (sh, d) (Pass.advance sel sh d st).2.2
  | settle {sh : Shelf} {d : Depot} (next : Entry) (record : Record)
      (outcome : Except RunFailure Unit) :
      StorageStep (sh, d) (Pass.settle sh d next record outcome).2
  | failReads {sh : Shelf} {d : Depot} (kind : RecordKind) (fail : Bool) :
      StorageStep (sh, d) (sh, { d with store := d.store.setFailingReads kind fail })
  | failWrites {sh : Shelf} {d : Depot} (kind : RecordKind) (fail : Bool) :
      StorageStep (sh, d) (sh, { d with store := d.store.setFailingWrites kind fail })
  | tick {sh : Shelf} {d : Depot} (t : Time.Instant) :
      t.valid → StorageStep (sh, d) (sh, { d with clock := t })
  | reopen {sh : Shelf} {d : Depot} (site : String) (expiry : Time.Delta) :
      StorageStep (sh, d) (Shelf.fresh site expiry, d)

theorem StorageStep.coherent {p q : Shelf × Depot} (step : StorageStep p q) (h : Coherent p) :
    Coherent q := by
  cases step with
  | read => exact h.inventory
  | write inv hv => exact h.writeInventory hv
  | create kind data groupStart groups => exact h.create kind data groupStart groups
  | update id runs => exact h.update id runs
  | delete id => exact h.delete id
  | deleteExpired => exact h.deleteExpired
  | advance sel st => exact h.advance sel st
  | settle next record outcome => exact h.settle next record outcome
  | failReads kind fail => exact ⟨h.cache_stored, h.clock_valid⟩
  | failWrites kind fail => exact ⟨h.cache_stored, h.clock_valid⟩
  | tick t ht => exact ⟨h.cache_stored, ht⟩
  | reopen site expiry => exact Coherent.fresh site expiry h.clock_valid

theorem Coherent.of_run {p q : Shelf × Depot} (h : Coherent p)
    (run : Relation.ReflTransGen StorageStep p q) : Coherent q := by
  induction run with
  | refl => exact h
  | tail _ step ih => exact step.coherent ih

theorem Shelf.inventory_of_reads {sh : Shelf} {d : Depot} (hc : sh.cache = none)
    (hr : d.store.failingReads.contains .inventory = false) :
    sh.inventory d = ((storedInventory d.store sh.siteId).getD [],
      { sh with cache := storedInventory d.store sh.siteId }) := by
  obtain ⟨site, expiry, cache⟩ := sh
  dsimp only at hc
  subst hc
  unfold Shelf.inventory storedInventory
  rw [get_of_reads hr]
  cases d.store.lookup .inventory site with
  | none => rfl
  | some bytes =>
    dsimp only
    cases decodeBytes? readInventory bytes with
    | none => rfl
    | some inv => rfl

theorem Coherent.inventory_stored {sh : Shelf} {d : Depot} (h : Coherent (sh, d))
    (hr : d.store.failingReads.contains .inventory = false) :
    (sh.inventory d).1 = (storedInventory d.store sh.siteId).getD [] := by
  cases hc : sh.cache with
  | none => rw [Shelf.inventory_of_reads hc hr]
  | some inv => rw [Shelf.inventory_of_cache hc, h.cache_stored inv hc, Option.getD_some]

/-- Along every run from a fresh shelf, a cached inventory is the one the store holds, and while
the store reads, the shelf reports what a fresh shelf over the same store reports. -/
theorem cache_matches_stored_inventory {site : String} {expiry : Time.Delta} {d : Depot}
    {p : Shelf × Depot} (hclock : d.clock.valid)
    (run : Relation.ReflTransGen StorageStep (Shelf.fresh site expiry, d) p) :
    (∀ inv, p.1.cache = some inv → storedInventory p.2.store p.1.siteId = some inv) ∧
    (p.2.store.failingReads.contains .inventory = false → ∀ expiry' : Time.Delta,
      (p.1.inventory p.2).1 = ((Shelf.fresh p.1.siteId expiry').inventory p.2).1) := by
  have h := (Coherent.fresh site expiry hclock).of_run run
  refine ⟨h.cache_stored, fun hr expiry' => ?_⟩
  rw [h.inventory_stored hr, Shelf.inventory_of_reads rfl hr]
  rfl

/-- A task created on a fresh shelf over an empty store. -/
theorem cache_matches_stored_inventory_created :
    Time.Instant.epoch.valid ∧
      (∀ inv, ((Shelf.fresh "site" ⟨0⟩).create ⟨.empty, .epoch, []⟩ "ping" [] none []).2.1.cache =
          some inv →
        storedInventory ((Shelf.fresh "site" ⟨0⟩).create ⟨.empty, .epoch, []⟩ "ping" [] none []).2.2.store
          ((Shelf.fresh "site" ⟨0⟩).create ⟨.empty, .epoch, []⟩ "ping" [] none []).2.1.siteId =
          some inv) ∧
      (((Shelf.fresh "site" ⟨0⟩).create ⟨.empty, .epoch, []⟩ "ping" [] none []).2.2.store.failingReads.contains
          .inventory = false → ∀ expiry' : Time.Delta,
        (((Shelf.fresh "site" ⟨0⟩).create ⟨.empty, .epoch, []⟩ "ping" [] none []).2.1.inventory
            ((Shelf.fresh "site" ⟨0⟩).create ⟨.empty, .epoch, []⟩ "ping" [] none []).2.2).1 =
          ((Shelf.fresh ((Shelf.fresh "site" ⟨0⟩).create ⟨.empty, .epoch, []⟩ "ping" [] none []).2.1.siteId
            expiry').inventory
            ((Shelf.fresh "site" ⟨0⟩).create ⟨.empty, .epoch, []⟩ "ping" [] none []).2.2).1) :=
  ⟨by decide, cache_matches_stored_inventory (by decide) (.single (.create "ping" [] none []))⟩

end Outbox.Queue
