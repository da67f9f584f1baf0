import Outbox.Proofs.StoredTasks

/-!
What creating and deleting tasks do to the inventory.

A shelf works on the inventory it reads: the cached one, the stored one, or the empty inventory
when it is blind (nothing cached, reads of the inventory failing). `Shelf.create` appends the new
entry to what it read and writes the result, so a shelf that reads the stored inventory never
loses an entry by creating a task, while a blind shelf replaces the stored inventory by the new
entry alone (`create_keeps_inventory_unless_blind`).

`Shelf.delete` drops the entries of an id from what it read, writes that, then deletes the task's
record; it answers `false` when either write fails, so when task writes fail it answers `false`
for an inventory it did change. Sweeping the expired tasks keeps the entries whose delete
answered `true` (`delete_answers_and_expiry_sweep`).
-/

set_option autoImplicit false

namespace Outbox.Store.MemoryStore

variable {s s' : MemoryStore} {kind kind' : RecordKind} {key key' : String} {bytes : List UInt8}

theorem save_ok_iff : (∃ s', s.save kind key bytes = .ok s') ↔ s.failingWrites.contains kind = false := by
  unfold save
  split
  · rename_i hf
    simp only [reduceCtorEq, exists_false, hf, Bool.true_eq_false]
  · rename_i hf
    simpa using hf

theorem delete_ok_iff : (∃ r, s.delete kind key = .ok r) ↔ s.failingWrites.contains kind = false := by
  unfold delete
  split
  · rename_i hf
    simp only [reduceCtorEq, exists_false, hf, Bool.true_eq_false]
  · rename_i hf
    simpa using hf

theorem get_of_delete_other {b : Bool} (h : s.delete kind key = .ok (b, s'))
    (hne : kind ≠ kind' ∨ key ≠ key') : s'.get kind' key' = s.get kind' key' := by
  have hlookup := lookup_of_delete_other h hne
  unfold lookup at hlookup
  simp only [get, (flags_of_delete h).2, hlookup]

end Outbox.Store.MemoryStore

namespace Outbox.Queue

open Outbox.Task Outbox.Store MemoryStore

namespace Shelf

variable {sh : Shelf} {d : Depot}

theorem inventory_congr {d' : Depot}
    (h : d'.store.get .inventory sh.siteId = d.store.get .inventory sh.siteId) :
    sh.inventory d' = sh.inventory d := by
  simp only [inventory, h]

theorem inventory_inventory : ((sh.inventory d).2.inventory d).1 = (sh.inventory d).1 := by
  cases hc : sh.cache with
  | some inv => simp [inventory_of_cache hc]
  | none =>
    cases hg : d.store.get .inventory sh.siteId with
    | error e => simp [inventory, hc, hg]
    | ok b =>
      cases b with
      | none => simp [inventory, hc, hg]
      | some bytes =>
        cases hdec : decodeBytes? readInventory bytes <;> simp [inventory, hc, hg, hdec]

theorem saveRecord_fst (d : Depot) (r : Record) :
    (saveRecord d r).1 = !d.store.failingWrites.contains .tasks := by
  unfold saveRecord save
  cases hf : d.store.failingWrites.contains .tasks <;> simp

theorem writeInventory_fst (sh : Shelf) (d : Depot) (inv : List Entry) :
    (sh.writeInventory d inv).1 = !d.store.failingWrites.contains .inventory := by
  unfold writeInventory save
  cases hf : d.store.failingWrites.contains .inventory <;> simp

/-- A delete answers `true` when the inventory it read had no entry of the id or was written
without them, and the record was deleted; the inventory it leaves has the id's entries dropped
exactly when it listed them and inventory writes work. -/
theorem delete_view (sh : Shelf) (d : Depot) (id : TaskId) :
    (sh.delete d id).1 = ((!(sh.inventory d).1.any (·.id == id) ||
        !d.store.failingWrites.contains .inventory) && !d.store.failingWrites.contains .tasks) ∧
    ((sh.delete d id).2.1.inventory (sh.delete d id).2.2).1 =
      (if (sh.inventory d).1.any (·.id == id) && !d.store.failingWrites.contains .inventory
        then (sh.inventory d).1.filter (·.id != id) else (sh.inventory d).1) ∧
    (sh.delete d id).2.2.store.failingWrites = d.store.failingWrites := by
  have hagain := @inventory_inventory sh d
  have hcache := @inventory_cache_of_ne_nil sh d
  rcases hp : sh.inventory d with ⟨seen, sh₁⟩
  rw [hp] at hagain hcache
  dsimp only at hagain hcache ⊢
  have hlen : ((seen.filter (·.id != id)).length != seen.length) = seen.any (·.id == id) := by
    rw [Bool.eq_iff_iff, bne_iff_ne, ne_eq, List.length_filter_eq_length_iff, List.any_eq_true]
    simp
  unfold delete
  rw [hp]
  dsimp only
  rw [hlen]
  cases hl : seen.any (·.id == id) with
  | false =>
    -- nothing to drop: the inventory stays as read, and only the record goes
    simp only [Bool.false_eq_true, ↓reduceIte, Bool.not_true, Bool.not_false, Bool.true_or,
      Bool.true_and, Bool.false_and]
    cases hdel : d.store.delete .tasks id.text with
    | error e =>
      have hf : d.store.failingWrites.contains .tasks = true := by
        by_contra hf
        obtain ⟨r, hr⟩ := delete_ok_iff.2 (Bool.eq_false_iff.2 hf)
        rw [hdel] at hr
        cases hr
      simp only [hf, hagain, Bool.not_true, and_self]
    | ok r =>
      obtain ⟨b, s⟩ := r
      have hf := delete_ok_iff.1 ⟨_, hdel⟩
      simp only [hf, Bool.not_false, true_and]
      refine ⟨?_, (flags_of_delete hdel).1⟩
      rw [inventory_congr (get_of_delete_other hdel (.inl (by decide))), hagain]
  | true =>
    have hc : sh₁.cache = some seen := hcache (fun h => by simp [h] at hl)
    simp only [↓reduceIte, Bool.not_true, Bool.false_or]
    rcases writeInventory_cases sh₁ d (seen.filter (·.id != id)) with hw | ⟨s, hsave, hw⟩
    · -- the inventory could not be written: nothing changes
      have hf := writeInventory_fst sh₁ d (seen.filter (·.id != id))
      rw [hw] at hf
      have hfi : d.store.failingWrites.contains .inventory = true := by simpa using hf.symm
      rw [hw]
      simp only [Bool.not_false, ↓reduceIte, hfi, Bool.not_true, Bool.false_and,
        Bool.and_false, Bool.false_eq_true, inventory_of_cache hc, and_self]
    · have hfi := save_ok_iff.1 ⟨s, hsave⟩
      have hflags := (flags_of_save hsave).1
      rw [hw]
      simp only [Bool.not_true, Bool.false_eq_true, ↓reduceIte, hfi, Bool.not_false,
        Bool.true_and]
      cases hdel : s.delete .tasks id.text with
      | error e =>
        have hft : d.store.failingWrites.contains .tasks = true := by
          by_contra hft
          obtain ⟨r, hr⟩ := delete_ok_iff.2 (hflags ▸ Bool.eq_false_iff.2 hft)
          rw [hdel] at hr
          cases hr
        simp only [hft, Bool.not_true, hflags, and_true, true_and]
        simp [inventory]
      | ok r =>
        obtain ⟨b, s'⟩ := r
        have hft := delete_ok_iff.1 ⟨_, hdel⟩
        rw [hflags] at hft
        simp only [hft, Bool.not_false, (flags_of_delete hdel).1, hflags, and_true, true_and]
        simp [inventory]

/-- Deletes one after another. While inventory writes fail, the inventory read stays, and a
delete answers `true` only for an id it does not list and while task writes work; while they
work, each delete answers whether task writes work, and the entries of every id deleted go. -/
theorem deleteAll_view (sh : Shelf) (d : Depot) (es : List Entry) :
    (sh.deleteAll d es).1 = es.filter (fun e => (!d.store.failingWrites.contains .inventory ||
        !(sh.inventory d).1.any (·.id == e.id)) && !d.store.failingWrites.contains .tasks) ∧
    ((sh.deleteAll d es).2.1.inventory (sh.deleteAll d es).2.2).1 =
      (if d.store.failingWrites.contains .inventory then (sh.inventory d).1
        else (sh.inventory d).1.filter fun x => !es.any (·.id == x.id)) ∧
    (sh.deleteAll d es).2.2.store.failingWrites = d.store.failingWrites := by
  induction es generalizing sh d with
  | nil => simp [deleteAll]
  | cons e rest ih =>
    obtain ⟨hok, hview, hflags⟩ := delete_view sh d e.id
    simp only [deleteAll]
    generalize sh.delete d e.id = t at hok hview hflags ⊢
    obtain ⟨ok, sh', d'⟩ := t
    obtain ⟨ih₁, ih₂, ih₃⟩ := ih sh' d'
    dsimp only at hok hview hflags ⊢
    rw [hflags, hview] at ih₁ ih₂
    rw [hflags] at ih₃
    refine ⟨?_, ?_, ih₃⟩
    · rw [List.filter_cons, ih₁, hok]
      cases d.store.failingWrites.contains .inventory
      · simp only [Bool.not_false, Bool.true_or, Bool.or_true, Bool.true_and]
      · simp only [Bool.not_true, Bool.or_false, Bool.false_or, Bool.and_false,
          Bool.false_eq_true, ↓reduceIte]
    · rw [ih₂]
      cases hfi : d.store.failingWrites.contains .inventory
      · -- each delete wrote the inventory without its id, listed or not
        have hdrop : (if ((sh.inventory d).1.any (·.id == e.id) && !false) = true
            then (sh.inventory d).1.filter (·.id != e.id) else (sh.inventory d).1) =
            (sh.inventory d).1.filter (·.id != e.id) := by
          cases hl : (sh.inventory d).1.any (·.id == e.id)
          · refine (List.filter_eq_self.2 fun x hx => ?_).symm
            simpa [bne] using List.any_eq_false.1 hl x hx
          · rfl
        simp only [Bool.false_eq_true, ↓reduceIte, hdrop, List.filter_filter, List.any_cons,
          Bool.not_or]
        exact List.filter_congr fun x _ => by rw [Bool.and_comm, bne, BEq.comm]
      · simp only [↓reduceIte, Bool.not_true, Bool.and_false, Bool.false_eq_true]

/-- The expiry sweep past a cutoff. The expired entries are those read that open no group and
were created strictly before the cutoff; it reports them when inventory and task writes work and
none otherwise, and the inventory loses the entries of every expired id when inventory writes
work. -/
theorem deleteExpired_view (sh : Shelf) (d : Depot) {cutoff : Time.Instant}
    (hcut : d.clock.sub? sh.expiry = some cutoff) :
    (sh.deleteExpired d).1 =
      (if d.store.failingWrites.contains .inventory || d.store.failingWrites.contains .tasks
        then [] else (sh.inventory d).1.filter fun e =>
          e.groupStart.isNone && e.createdAt.lt cutoff) ∧
    ((sh.deleteExpired d).2.1.inventory (sh.deleteExpired d).2.2).1 =
      (if d.store.failingWrites.contains .inventory then (sh.inventory d).1
        else (sh.inventory d).1.filter fun x =>
          !((sh.inventory d).1.filter fun e => e.groupStart.isNone && e.createdAt.lt cutoff).any
            (·.id == x.id)) := by
  have hagain := @inventory_inventory sh d
  rcases hp : sh.inventory d with ⟨seen, sh₁⟩
  rw [hp] at hagain
  dsimp only at hagain ⊢
  simp only [deleteExpired, hcut, hp]
  obtain ⟨h₁, h₂, -⟩ := deleteAll_view sh₁ d
    (seen.filter fun e => e.groupStart.isNone && e.createdAt.lt cutoff)
  rw [hagain] at h₁ h₂
  refine ⟨?_, h₂⟩
  rw [h₁]
  -- every expired entry is one read, so a delete that cannot write the inventory fails for it
  have hlisted : ∀ e ∈ seen.filter (fun e => e.groupStart.isNone && e.createdAt.lt cutoff),
      seen.any (·.id == e.id) = true :=
    fun e he => List.any_eq_true.2 ⟨e, List.mem_of_mem_filter he, beq_self_eq_true _⟩
  cases d.store.failingWrites.contains .inventory <;>
    cases d.store.failingWrites.contains .tasks
  · simp
  · simp
  · exact List.filter_eq_nil_iff.2 fun e he => by simp [hlisted e he]
  · simp

theorem any_filter_id {seen : List Entry} (hnd : (seen.map (·.id)).Nodup) (p : Entry → Bool)
    {x : Entry} (hx : x ∈ seen) : (seen.filter p).any (·.id == x.id) = p x := by
  cases hp : p x
  · refine List.any_eq_false.2 fun y hy hyx => ?_
    obtain ⟨hy, hpy⟩ := List.mem_filter.1 hy
    obtain rfl := List.inj_on_of_nodup_map hnd hy hx (by simpa using hyx)
    rw [hpy] at hp
    cases hp
  · exact List.any_eq_true.2 ⟨x, List.mem_filter.2 ⟨hx, hp⟩, beq_self_eq_true _⟩

/-- While task writes work, and when the ids read are distinct, the sweep reports, in inventory
order, exactly the entries read that the inventory no longer holds, and the inventory keeps
every other entry in order. -/
theorem deleteExpired_reports_removed (sh : Shelf) (d : Depot) {cutoff : Time.Instant}
    (hcut : d.clock.sub? sh.expiry = some cutoff)
    (hft : d.store.failingWrites.contains .tasks = false)
    (hnd : ((sh.inventory d).1.map (·.id)).Nodup) :
    (sh.deleteExpired d).1 = (sh.inventory d).1.filter
        (fun x => x ∉ ((sh.deleteExpired d).2.1.inventory (sh.deleteExpired d).2.2).1) ∧
    ((sh.deleteExpired d).2.1.inventory (sh.deleteExpired d).2.2).1 =
      (sh.inventory d).1.filter (fun x => x ∉ (sh.deleteExpired d).1) := by
  obtain ⟨hres, hview⟩ := deleteExpired_view sh d hcut
  rw [hres, hview, hft]
  generalize (sh.inventory d).1 = seen at hnd ⊢
  generalize (fun e : Entry => e.groupStart.isNone && e.createdAt.lt cutoff) = expired
  cases d.store.failingWrites.contains .inventory
  · -- with distinct ids, the entries sharing an id with an expired one are the expired ones
    have hdrop : seen.filter (fun x => !(seen.filter expired).any (·.id == x.id)) =
        seen.filter fun x => !expired x :=
      List.filter_congr fun x hx => by rw [any_filter_id hnd _ hx]
    simp only [Bool.or_false, Bool.false_eq_true, ↓reduceIte, hdrop]
    constructor
    · exact List.filter_congr fun x hx => by simp [List.mem_filter, hx]
    · exact List.filter_congr fun x hx => by simp [List.mem_filter, hx]
  · simp only [Bool.true_or, ↓reduceIte, List.not_mem_nil, not_false_eq_true, decide_true,
      List.filter_true, and_true]
    exact (List.filter_eq_nil_iff.2 fun x hx => by simp [hx]).symm

end Shelf

/-- A delete answers `false` only when the inventory read is left as it was, or when task writes
fail after the inventory was written without the task. The expiry sweep does nothing when the
expiry reaches past the calendar. Otherwise it reports the entries read that open no group and
were created strictly before the cutoff, in inventory order, when inventory and task writes work
and none otherwise, and the inventory loses the entries of their ids exactly when inventory
writes work. So while task writes work and ids are distinct it reports exactly the entries it
removed, keeping every other one in order; while they fail it removes them and reports none. -/
theorem delete_answers_and_expiry_sweep (sh : Shelf) (d : Depot) :
    (∀ id, (sh.delete d id).1 = false →
      ((sh.delete d id).2.1.inventory (sh.delete d id).2.2).1 = (sh.inventory d).1 ∨
      (d.store.failingWrites.contains .tasks = true ∧
        ((sh.delete d id).2.1.inventory (sh.delete d id).2.2).1 =
          (sh.inventory d).1.filter (·.id != id))) ∧
    (d.clock.sub? sh.expiry = none → sh.deleteExpired d = ([], sh, d)) ∧
    (∀ cutoff, d.clock.sub? sh.expiry = some cutoff →
      ((sh.deleteExpired d).1 =
          (if d.store.failingWrites.contains .inventory || d.store.failingWrites.contains .tasks
            then [] else (sh.inventory d).1.filter fun e =>
              e.groupStart.isNone && e.createdAt.lt cutoff) ∧
        ((sh.deleteExpired d).2.1.inventory (sh.deleteExpired d).2.2).1 =
          (if d.store.failingWrites.contains .inventory then (sh.inventory d).1
            else (sh.inventory d).1.filter fun x =>
              !((sh.inventory d).1.filter fun e =>
                e.groupStart.isNone && e.createdAt.lt cutoff).any (·.id == x.id))) ∧
      (d.store.failingWrites.contains .tasks = false → ((sh.inventory d).1.map (·.id)).Nodup →
        (sh.deleteExpired d).1 = (sh.inventory d).1.filter
            (fun x => x ∉ ((sh.deleteExpired d).2.1.inventory (sh.deleteExpired d).2.2).1) ∧
        ((sh.deleteExpired d).2.1.inventory (sh.deleteExpired d).2.2).1 =
          (sh.inventory d).1.filter (fun x => x ∉ (sh.deleteExpired d).1))) := by
  refine ⟨fun id hfalse => ?_, fun hnone => by simp [Shelf.deleteExpired, hnone],
    fun cutoff hcut => ⟨Shelf.deleteExpired_view sh d hcut,
      fun hft hnd => Shelf.deleteExpired_reports_removed sh d hcut hft hnd⟩⟩
  obtain ⟨hok, hview, -⟩ := Shelf.delete_view sh d id
  rw [hview]
  split
  · -- the inventory was written without the task, so deleting the record failed
    rename_i hw
    simp only [Bool.and_eq_true, Bool.not_eq_true'] at hw
    rw [hfalse, hw.1, hw.2] at hok
    cases hft : d.store.failingWrites.contains .tasks
    · rw [hft] at hok
      cases hok
    · exact .inr ⟨rfl, rfl⟩
  · exact .inl rfl


/-- The entry a create adds over a depot: the next id, the kind, the clock's time, the group it
opens and the groups it belongs to, with no runs. -/
def Depot.newEntry (d : Depot) (kind : String) (groupStart : Option String)
    (groups : List String) : Entry :=
  ⟨d.issueId.1, kind, d.clock, groupStart, tagSet groups, 0⟩

section Create

variable {sh sh' : Shelf} {d d' : Depot} {kind : String} {data : List UInt8}
  {groupStart : Option String} {groups : List String} {c : Created}

/-- A create on a coherent shelf answers success exactly when task and inventory writes work. It
then appends the new entry to the inventory it read, and stores and caches the result; otherwise
it answers the inventory it read, leaves the shelf as the read left it, and the stored
inventory as it was. -/
theorem Coherent.create_cases (h : Coherent (sh, d))
    (hc : sh.create d kind data groupStart groups = (c, sh', d')) :
    c.success = (!d.store.failingWrites.contains .tasks &&
      !d.store.failingWrites.contains .inventory) ∧
    (c.success = false → c = ⟨false, (sh.inventory d).1, none⟩ ∧ sh' = (sh.inventory d).2 ∧
      storedInventory d'.store sh.siteId = storedInventory d.store sh.siteId) ∧
    (c.success = true →
      c = ⟨true, (sh.inventory d).1 ++ [d.newEntry kind groupStart groups],
        some (d.newEntry kind groupStart groups)⟩ ∧
      sh' = { (sh.inventory d).2 with
        cache := some ((sh.inventory d).1 ++ [d.newEntry kind groupStart groups]) } ∧
      storedInventory d'.store sh.siteId =
        some ((sh.inventory d).1 ++ [d.newEntry kind groupStart groups])) := by
  have hv := h.inventory_valid
  have hsite := Shelf.inventory_siteId sh d
  rcases hp : sh.inventory d with ⟨seen, sh₁⟩
  rw [hp] at hv hsite
  dsimp only at hv hsite ⊢
  simp only [Shelf.create, hp] at hc
  have hft := Shelf.saveRecord_fst d.issueId.2 ⟨d.issueId.1, kind, data, 0⟩
  rcases Shelf.saveRecord_cases d.issueId.2 ⟨d.issueId.1, kind, data, 0⟩ with hsv | ⟨s, hsave, hsv⟩
  · -- the record could not be saved: only the id is spent
    rw [hsv] at hc hft
    have hft' : d.store.failingWrites.contains .tasks = true := by
      simpa [Depot.issueId] using hft.symm
    simp only [Bool.not_false, ↓reduceIte, Prod.mk.injEq] at hc
    obtain ⟨rfl, rfl, rfl⟩ := hc
    exact ⟨by rw [hft']; rfl, fun _ => ⟨rfl, rfl, rfl⟩, fun h => Bool.noConfusion h⟩
  · rw [hsv] at hc hft
    have hft' : d.store.failingWrites.contains .tasks = false := by
      simpa [Depot.issueId] using hft.symm
    have hflags : s.failingWrites = d.store.failingWrites := (flags_of_save hsave).1
    have hnew : (⟨d.issueId.1, kind, ({ d.issueId.2 with store := s } : Depot).clock, groupStart,
        tagSet groups, 0⟩ : Entry) = d.newEntry kind groupStart groups := rfl
    simp only [Bool.not_true, Bool.false_eq_true, ↓reduceIte, hnew] at hc
    have hfi := Shelf.writeInventory_fst sh₁ { d.issueId.2 with store := s }
      (seen ++ [d.newEntry kind groupStart groups])
    rcases Shelf.writeInventory_cases sh₁ { d.issueId.2 with store := s }
        (seen ++ [d.newEntry kind groupStart groups]) with hw | ⟨s', hsave', hw⟩
    · -- the inventory could not be written: the record stays, unlisted
      rw [hw] at hc hfi
      have hfi' : d.store.failingWrites.contains .inventory = true := by
        simpa [hflags] using hfi.symm
      simp only [Bool.false_eq_true, ↓reduceIte, Prod.mk.injEq] at hc
      obtain ⟨rfl, rfl, rfl⟩ := hc
      exact ⟨by rw [hft', hfi']; rfl, fun _ => ⟨rfl, rfl, storedInventory_of_save_tasks hsave _⟩,
        fun h => Bool.noConfusion h⟩
    · rw [hw] at hc hfi
      have hfi' : d.store.failingWrites.contains .inventory = false := by
        simpa [hflags] using hfi.symm
      simp only [↓reduceIte, Prod.mk.injEq] at hc
      obtain ⟨rfl, rfl, rfl⟩ := hc
      have hvalid : ∀ e ∈ seen ++ [d.newEntry kind groupStart groups], e.valid := by
        simp only [List.mem_append, List.mem_singleton]
        rintro e (he | rfl)
        · exact hv e he
        · exact Entry.valid_of_new d.issueId_bits_lt h.clock_valid kind groupStart groups
      refine ⟨by rw [hft', hfi']; rfl, fun h => Bool.noConfusion h, fun _ => ⟨rfl, rfl, ?_⟩⟩
      rw [← hsite]
      exact storedInventory_of_save hsave' hvalid

/-- Creating a task on a coherent shelf whose site's inventory record, if any, reads as `inv`. A
shelf that is not blind answers failure with `inv`, caching `inv` and leaving it stored, or
answers success and stores `inv` with the new entry appended. A blind shelf reads nothing, so a
create that succeeds through it stores the new entry alone. -/
theorem create_keeps_inventory_unless_blind {inv : List Entry} (h : Coherent (sh, d))
    (hs : storedInventory d.store sh.siteId = some inv)
    (hc : sh.create d kind data groupStart groups = (c, sh', d')) :
    (¬ Blind (sh, d) →
      (c.success = false ∧ c.inventory = inv ∧ sh'.cache = some inv ∧
        storedInventory d'.store sh.siteId = some inv) ∨
      (c.success = true ∧ c.created = some (d.newEntry kind groupStart groups) ∧
        c.inventory = inv ++ [d.newEntry kind groupStart groups] ∧
        storedInventory d'.store sh.siteId = some (inv ++ [d.newEntry kind groupStart groups]))) ∧
    (Blind (sh, d) → d.store.failingWrites.contains .tasks = false →
      d.store.failingWrites.contains .inventory = false →
      c.success = true ∧
        storedInventory d'.store sh.siteId = some [d.newEntry kind groupStart groups]) := by
  obtain ⟨hok, hfail, hsucc⟩ := h.create_cases hc
  refine ⟨fun hnb => ?_, fun hb hft hfi => ?_⟩
  · rw [h.inventory_of_stored hs hnb] at hfail hsucc
    cases hsc : c.success
    · obtain ⟨rfl, rfl, hst⟩ := hfail hsc
      exact .inl ⟨rfl, rfl, rfl, hst.trans hs⟩
    · obtain ⟨rfl, -, hst⟩ := hsucc hsc
      exact .inr ⟨rfl, rfl, rfl, hst⟩
  · rw [Shelf.inventory_of_blind hb] at hsucc
    have hsc : c.success = true := by rw [hok, hft, hfi]; rfl
    exact ⟨hsc, (hsucc hsc).2.2⟩

/-- Over a store whose inventory lists `a`: a create that reads it keeps `a`, and a blind one, on
the same store with inventory reads failing, writes its new entry alone. -/
theorem create_keeps_inventory_unless_blind_existing :
    let a : Entry := ⟨⟨1⟩, "t", .epoch, none, [], 0⟩
    ∃ s : MemoryStore, storedInventory s "site" = some [a] ∧
      (∃ inv, storedInventory ((Shelf.fresh "site" ⟨0⟩).create ⟨s, .epoch, [⟨1⟩]⟩ "t" [] none
        []).2.2.store "site" = some inv ∧ a ∈ inv) ∧
      storedInventory ((Shelf.fresh "site" ⟨0⟩).create ⟨s.setFailingReads .inventory true, .epoch,
        [⟨1⟩]⟩ "t" [] none []).2.2.store "site" =
        some [Depot.newEntry ⟨s.setFailingReads .inventory true, .epoch, [⟨1⟩]⟩ "t" none []] := by
  intro a
  obtain ⟨s, hsave⟩ : ∃ s, MemoryStore.empty.save .inventory "site"
      (Utf8.encode (encodeInventory [a])) = .ok s := ⟨_, rfl⟩
  have hs : storedInventory s "site" = some [a] := storedInventory_of_save hsave (by decide +kernel)
  have hw : s.failingWrites = [] := (flags_of_save hsave).1
  have hr : s.failingReads = [] := (flags_of_save hsave).2
  have hclock : Time.Instant.epoch.valid = true := by decide
  refine ⟨s, hs, ?_, ?_⟩
  · -- read through, the create keeps `a` whether it fails or not
    have hnb : ¬ Blind (Shelf.fresh "site" ⟨0⟩, ⟨s, .epoch, [⟨1⟩]⟩) := fun hb => by
      have := hb.2
      simp only [hr] at this
      cases this
    rcases (create_keeps_inventory_unless_blind (Coherent.fresh "site" ⟨0⟩ hclock) hs rfl).1
      hnb with ⟨-, -, -, hst⟩ | ⟨-, -, -, hst⟩
    · exact ⟨[a], hst, by simp⟩
    · exact ⟨_, hst, by simp⟩
  · -- blind, it writes the new entry alone over the inventory
    have hb : Blind (Shelf.fresh "site" ⟨0⟩, ⟨s.setFailingReads .inventory true, .epoch, [⟨1⟩]⟩) :=
      ⟨rfl, by simp only [setFailingReads, hr]; rfl⟩
    have hw' : (s.setFailingReads .inventory true).failingWrites = [] := hw
    exact ((create_keeps_inventory_unless_blind (Coherent.fresh "site" ⟨0⟩ hclock) hs rfl).2 hb
      (by simp [hw']) (by simp [hw'])).2

end Create


end Outbox.Queue
