import Outbox.Proofs.InventoryCache

/-!
What the stored inventory of a site promises: its ids were issued, in its order and never twice,
and each of its entries has a task record with the entry's id and kind and the payload the task
was created with (`Listed`). `Sound` adds a coherent cache and ids that are never issued twice.

Every step of the storage keeps it but one: a delete made while the shelf has no cached inventory
and the store cannot read it (`Blind`). The shelf then sees an empty inventory, leaves the stored
one as it is, and deletes the task's record all the same, so a task that the stored inventory
lists loses its record (`LostRecord`).
-/

set_option autoImplicit false

namespace Outbox.Task

theorem TaskId.text_injective {a b : TaskId} (ha : a.bits < 2 ^ 128) (hb : b.bits < 2 ^ 128)
    (h : a.text = b.text) : a = b := by
  have hread := TaskId.read?_text b hb
  rw [← h, TaskId.read?_text a ha] at hread
  cases hread
  rfl

end Outbox.Task

namespace Outbox.Queue

open Outbox.Task Outbox.Store MemoryStore

/-- The task record stored under an id, read as a record, whether reads fail or not. -/
def storedRecord (s : MemoryStore) (id : TaskId) : Option Record :=
  (s.lookup .tasks id.text).bind (decodeBytes? Record.read?)

/-- The task of an entry is on record: under its id, with its id and kind, holding the payload
of its id. -/
def Filed (payload : TaskId → List UInt8) (s : MemoryStore) (e : Entry) : Prop :=
  ∃ r, storedRecord s e.id = some r ∧ r.id = e.id ∧ r.kind = e.kind ∧ r.data = payload e.id

/-- An inventory over a depot whose ids were issued, in its order, and whose tasks are on
record. -/
structure Listed (payload : TaskId → List UInt8) (d : Depot) (inv : List Entry) : Prop where
  ordered : (inv.map (·.id)).Sublist d.issued
  filed : ∀ e ∈ inv, Filed payload d.store e

def Keyed (s : MemoryStore) : Prop :=
  ∀ id r, storedRecord s id = some r → r.id.text = id.text

/-- A shelf over a depot whose stored inventory reads and is listed, with a coherent cache, task
records under their own ids, and ids never issued twice. -/
structure Sound (payload : TaskId → List UInt8) (p : Shelf × Depot) : Prop where
  coherent : Coherent p
  issued_nodup : p.2.issued.Nodup
  keyed : Keyed p.2.store
  stored : ∃ inv, storedInventory p.2.store p.1.siteId = some inv ∧ Listed payload p.2 inv

/-- A shelf with no cached inventory over a store that cannot read one. -/
def Blind (p : Shelf × Depot) : Prop :=
  p.1.cache = none ∧ p.2.store.failingReads.contains .inventory = true

/-- A step that cost a listed task its record: taken blind, it leaves the stored inventory as it
was, while the record of one of its entries is gone. -/
def LostRecord (p q : Shelf × Depot) : Prop :=
  Blind p ∧ q.1.siteId = p.1.siteId ∧ ∃ inv e, storedInventory p.2.store p.1.siteId = some inv ∧
    e ∈ inv ∧ storedInventory q.2.store q.1.siteId = some inv ∧ storedRecord q.2.store e.id = none

section Frame

variable {s s' : MemoryStore} {key : String} {bytes : List UInt8}

theorem storedRecord_of_save_inventory (h : s.save .inventory key bytes = .ok s') (id : TaskId) :
    storedRecord s' id = storedRecord s id := by
  simp only [storedRecord,
    lookup_of_save_other h (.inl (show RecordKind.inventory ≠ .tasks by decide))]

theorem storedRecord_of_save_other (h : s.save .tasks key bytes = .ok s') {id : TaskId}
    (hne : key ≠ id.text) : storedRecord s' id = storedRecord s id := by
  simp only [storedRecord, lookup_of_save_other h (.inr hne)]

theorem storedRecord_of_save {r : Record}
    (h : s.save .tasks r.id.text (Utf8.encode r.encode) = .ok s') (hr : r.valid) : storedRecord s' r.id = some r := by
  simp only [storedRecord, lookup_of_save h, Option.bind_some]
  exact Record.decode_encode r hr

theorem storedRecord_of_delete_other {b : Bool} (h : s.delete .tasks key = .ok (b, s'))
    {id : TaskId} (hne : key ≠ id.text) : storedRecord s' id = storedRecord s id := by
  simp only [storedRecord, lookup_of_delete_other h (.inr hne)]

theorem storedRecord_of_delete {b : Bool} {id : TaskId}
    (h : s.delete .tasks id.text = .ok (b, s')) : storedRecord s' id = none := by
  simp only [storedRecord, lookup_of_delete h, Option.bind_none]

theorem storedInventory_of_save_tasks (h : s.save .tasks key bytes = .ok s') (site : String) :
    storedInventory s' site = storedInventory s site := by
  simp only [storedInventory,
    lookup_of_save_other h (.inl (show RecordKind.tasks ≠ .inventory by decide))]

theorem storedInventory_of_delete_tasks {b : Bool} (h : s.delete .tasks key = .ok (b, s'))
    (site : String) : storedInventory s' site = storedInventory s site := by
  simp only [storedInventory,
    lookup_of_delete_other h (.inl (show RecordKind.tasks ≠ .inventory by decide))]

theorem storedInventory_of_save {site : String} {inv : List Entry}
    (h : s.save .inventory site (Utf8.encode (encodeInventory inv)) = .ok s')
    (hv : ∀ e ∈ inv, e.valid) : storedInventory s' site = some inv := by
  simp only [storedInventory, lookup_of_save h]
  exact decodeInventory_encode inv hv

theorem storedRecord_of_text {s : MemoryStore} {a b : TaskId} (h : a.text = b.text) :
    storedRecord s a = storedRecord s b := by
  simp only [storedRecord, h]

theorem storedRecord_valid {s : MemoryStore} {id : TaskId} {r : Record}
    (h : storedRecord s id = some r) : r.valid := by
  simp only [storedRecord, Option.bind_eq_some_iff] at h
  obtain ⟨bytes, -, hdec⟩ := h
  obtain ⟨n, hn⟩ := exists_of_decodeBytes? hdec
  exact Record.read?_valid hn

namespace Keyed

theorem save (h : Keyed s) {r : Record} (hr : r.valid)
    (hsave : s.save .tasks r.id.text (Utf8.encode r.encode) = .ok s') : Keyed s' := by
  intro id r' hr'
  by_cases htext : r.id.text = id.text
  · rw [← storedRecord_of_text htext, storedRecord_of_save hsave hr] at hr'
    cases hr'
    exact htext
  · exact h id r' (by rw [← storedRecord_of_save_other hsave htext]; exact hr')

theorem save_inventory (h : Keyed s) (hsave : s.save .inventory key bytes = .ok s') : Keyed s' :=
  fun id r hr => h id r (by rw [← storedRecord_of_save_inventory hsave]; exact hr)

theorem delete (h : Keyed s) {b : Bool} (hdel : s.delete .tasks key = .ok (b, s')) : Keyed s' := by
  intro id r hr
  by_cases htext : key = id.text
  · subst htext
    rw [storedRecord_of_delete hdel] at hr
    cases hr
  · exact h id r (by rw [← storedRecord_of_delete_other hdel htext]; exact hr)

end Keyed

end Frame

section Steps

variable {sh : Shelf} {d : Depot}

theorem Shelf.saveRecord_cases (d : Depot) (r : Record) :
    Shelf.saveRecord d r = (false, d) ∨
      ∃ s, d.store.save .tasks r.id.text (Utf8.encode r.encode) = .ok s ∧
        Shelf.saveRecord d r = (true, { d with store := s }) := by
  unfold Shelf.saveRecord
  split
  · next s hsave => exact .inr ⟨s, hsave, rfl⟩
  · exact .inl rfl

theorem Shelf.writeInventory_cases (sh : Shelf) (d : Depot) (inv : List Entry) :
    sh.writeInventory d inv = (false, sh, d) ∨
      ∃ s, d.store.save .inventory sh.siteId (Utf8.encode (encodeInventory inv)) = .ok s ∧
        sh.writeInventory d inv = (true, { sh with cache := some inv }, { d with store := s }) := by
  unfold Shelf.writeInventory
  split
  · next s hsave => exact .inr ⟨s, hsave, rfl⟩
  · exact .inl rfl

theorem Shelf.inventory_of_blind (hb : Blind (sh, d)) : sh.inventory d = ([], sh) := by
  obtain ⟨hc, hr⟩ := hb
  have hmem : RecordKind.inventory ∈ d.store.failingReads := by simpa using hr
  dsimp only at hc
  simp [Shelf.inventory, hc, MemoryStore.get, hmem]

theorem Coherent.inventory_of_stored {inv : List Entry} (h : Coherent (sh, d))
    (hs : storedInventory d.store sh.siteId = some inv) (hnb : ¬ Blind (sh, d)) :
    sh.inventory d = (inv, { sh with cache := some inv }) := by
  cases hc : sh.cache with
  | none =>
    have hr : d.store.failingReads.contains .inventory = false := by
      simpa [Blind, hc] using hnb
    rw [Shelf.inventory_of_reads hc hr, hs, Option.getD_some]
  | some inv' =>
    obtain rfl : inv' = inv := Option.some.inj ((h.cache_stored inv' hc).symm.trans hs)
    rw [Shelf.inventory_of_cache hc]
    obtain ⟨site, expiry, cache⟩ := sh
    dsimp only at hc
    rw [hc]

theorem readTask_of_storedRecord {id : TaskId} {r : Record}
    (hr : d.store.failingReads.contains .tasks = false) (h : storedRecord d.store id = some r) :
    Shelf.readTask d id = .found r := by
  unfold storedRecord at h
  obtain ⟨bytes, hb, hdec⟩ := Option.bind_eq_some_iff.1 h
  simp only [Shelf.readTask, get_of_reads hr, hb, hdec]

theorem storedRecord_of_get {id : TaskId} {r : Record} (h : Shelf.get d id = some r) :
    storedRecord d.store id = some r := by
  unfold Shelf.get Shelf.readTask at h
  split at h
  · next r' hread =>
    cases h
    split at hread
    · cases hread
    · cases hread
    · next bytes hget =>
      split at hread
      · next r'' hdec =>
        cases hread
        simp [storedRecord, lookup_of_get hget, hdec]
      · cases hread
  · cases h

@[simp] theorem Shelf.inventory_siteId (sh : Shelf) (d : Depot) :
    (sh.inventory d).2.siteId = sh.siteId := by
  unfold Shelf.inventory
  split
  · rfl
  · split
    · rfl
    · rfl
    · split <;> rfl

end Steps

namespace Listed

variable {payload : TaskId → List UInt8} {d d' : Depot} {inv : List Entry}

theorem nil (payload : TaskId → List UInt8) (d : Depot) : Listed payload d [] :=
  ⟨List.nil_sublist _, fun _ he => nomatch he⟩

theorem mem_issued (h : Listed payload d inv) {e : Entry} (he : e ∈ inv) : e.id ∈ d.issued :=
  h.ordered.subset (List.mem_map_of_mem he)

theorem mono (h : Listed payload d inv) (hissued : d.issued.Sublist d'.issued)
    (hrec : ∀ e ∈ inv, storedRecord d'.store e.id = storedRecord d.store e.id) :
    Listed payload d' inv := by
  refine ⟨h.ordered.trans hissued, fun e he => ?_⟩
  obtain ⟨r, hr, hfields⟩ := h.filed e he
  exact ⟨r, (hrec e he).trans hr, hfields⟩

theorem filter (h : Listed payload d inv) (p : Entry → Bool) : Listed payload d (inv.filter p) :=
  ⟨(List.filter_sublist.map _).trans h.ordered,
    fun e he => h.filed e (List.mem_of_mem_filter he)⟩

theorem of_other_key (h : Listed payload d inv) (hv : ∀ e ∈ inv, e.valid)
    (hissued : d.issued.Sublist d'.issued) {id : TaskId}
    (hkey : ∀ id' : TaskId, id.text ≠ id'.text →
      storedRecord d'.store id' = storedRecord d.store id')
    (hid : id.bits < 2 ^ 128) (hnot : ∀ e ∈ inv, e.id ≠ id) : Listed payload d' inv := by
  refine h.mono hissued fun e he => hkey e.id fun htext => ?_
  exact hnot e he (TaskId.text_injective (Entry.valid_bits (hv e he)) hid htext.symm)

theorem issue_save (h : Listed payload d inv) (hv : ∀ e ∈ inv, e.valid)
    (hfresh : d.issueId.1 ∉ d.issued) {bytes : List UInt8} {s : MemoryStore}
    (hsave : d.store.save .tasks d.issueId.1.text bytes = .ok s) :
    Listed payload { d.issueId.2 with store := s } inv :=
  h.of_other_key hv (List.sublist_append_left _ _)
    (fun _ hne => storedRecord_of_save_other hsave hne) d.issueId_bits_lt
    fun _ he heq => hfresh (heq ▸ h.mem_issued he)

end Listed

namespace Sound

variable {payload : TaskId → List UInt8} {sh : Shelf} {d : Depot}

theorem read (h : Sound payload (sh, d)) : Sound payload ((sh.inventory d).2, d) :=
  ⟨h.coherent.inventory, h.issued_nodup, h.keyed,
    by rw [Shelf.inventory_siteId]; exact h.stored⟩

theorem listed_of_stored {p : Shelf × Depot} (h : Sound payload p) {inv : List Entry}
    (hs : storedInventory p.2.store p.1.siteId = some inv) : Listed payload p.2 inv := by
  obtain ⟨inv', hs', hl⟩ := h.stored
  rwa [Option.some.inj (hs'.symm.trans hs)] at hl

theorem writeInventory (h : Sound payload (sh, d)) {inv : List Entry} (hl : Listed payload d inv)
    (hv : ∀ e ∈ inv, e.valid) {s : MemoryStore}
    (hsave : d.store.save .inventory sh.siteId (Utf8.encode (encodeInventory inv)) = .ok s) :
    Sound payload ({ sh with cache := some inv }, { d with store := s }) := by
  have hs := storedInventory_of_save hsave hv
  refine ⟨⟨fun inv' hinv => ?_, h.coherent.clock_valid⟩, h.issued_nodup,
    h.keyed.save_inventory hsave, inv, hs, ?_⟩
  · obtain rfl := Option.some.inj hinv
    exact hs
  · exact hl.mono (List.Sublist.refl _) fun e _ => storedRecord_of_save_inventory hsave e.id

theorem inventory_listed (h : Sound payload (sh, d)) : Listed payload d (sh.inventory d).1 := by
  obtain ⟨inv, hs, hl⟩ := h.stored
  by_cases hb : Blind (sh, d)
  · rw [Shelf.inventory_of_blind hb]
    exact Listed.nil payload d
  · rw [h.coherent.inventory_of_stored hs hb]
    exact hl

theorem create (h : Sound payload (sh, d)) (hfresh : d.issueId.1 ∉ d.issued) (kind : String)
    (groupStart : Option String) (groups : List String) :
    Sound payload (sh.create d kind (payload d.issueId.1) groupStart groups).2 := by
  obtain ⟨stored, hs, hl⟩ := h.stored
  have hc := h.coherent.inventory
  have hlist := h.inventory_listed
  have hv := h.coherent.inventory_valid
  have hsite := Shelf.inventory_siteId sh d
  rcases hp : sh.inventory d with ⟨inv, sh₁⟩
  rw [hp] at hc hlist hv hsite
  have hnodup : (d.issued ++ [d.issueId.1]).Nodup :=
    List.nodup_append.2 ⟨h.issued_nodup, List.nodup_cons.2 ⟨List.not_mem_nil, List.nodup_nil⟩,
      fun a ha b hb hab => hfresh (by rw [List.mem_singleton.1 hb] at hab; exact hab ▸ ha)⟩
  simp only [Shelf.create, hp]
  rcases Shelf.saveRecord_cases d.issueId.2 ⟨d.issueId.1, kind, payload d.issueId.1, 0⟩ with
    hsv | ⟨s, hsave, hsv⟩
  · -- no record was saved: only the id is spent
    rw [hsv]
    simp only [Bool.not_false, ↓reduceIte]
    exact ⟨hc.issueId, hnodup, h.keyed, stored, by rw [hsite]; exact hs,
      hl.mono (List.sublist_append_left _ _) fun _ _ => rfl⟩
  · have hc₂ := hc.issueId.saveRecord ⟨d.issueId.1, kind, payload d.issueId.1, 0⟩
    rw [hsv] at hc₂ ⊢
    simp only [Bool.not_true, Bool.false_eq_true, ↓reduceIte]
    set new : Entry := ⟨d.issueId.1, kind, d.issueId.2.clock, groupStart, tagSet groups, 0⟩
    have hsaved := storedRecord_of_save hsave (Record.valid_of_new d.issueId_bits_lt _ _)
    have hs₂ : storedInventory s sh₁.siteId = some stored := by
      rw [storedInventory_of_save_tasks hsave, hsite]
      exact hs
    have h₂ : Sound payload (sh₁, { d.issueId.2 with store := s }) :=
      ⟨hc₂, hnodup, h.keyed.save (Record.valid_of_new d.issueId_bits_lt _ _) hsave, stored, hs₂,
        hl.issue_save (storedInventory_valid hs) hfresh hsave⟩
    have hv' : ∀ e ∈ inv ++ [new], e.valid := by
      simp only [List.mem_append, List.mem_singleton]
      rintro e (he | rfl)
      · exact hv e he
      · exact Entry.valid_of_new d.issueId_bits_lt h.coherent.clock_valid kind groupStart groups
    have hlist₂ : Listed payload { d.issueId.2 with store := s } (inv ++ [new]) := by
      refine ⟨?_, ?_⟩
      · rw [List.map_append]
        exact hlist.ordered.append (List.Sublist.refl _)
      · simp only [List.mem_append, List.mem_singleton]
        rintro e (he | rfl)
        · exact (hlist.issue_save hv hfresh hsave).filed e he
        · exact ⟨_, hsaved, rfl, rfl, rfl⟩
    rcases Shelf.writeInventory_cases sh₁ ⟨s, d.issueId.2.clock, d.issueId.2.issued⟩
        (inv ++ [new]) with hw | ⟨s', hsave', hw⟩
    · rw [hw]
      simp only [Bool.false_eq_true, ↓reduceIte]
      exact h₂
    · rw [hw]
      simp only [↓reduceIte]
      exact h₂.writeInventory hlist₂ hv' hsave'

/-- An update reads a record and saves it back, with its new count, under the id it names,
which is the id it was read under. -/
theorem update (h : Sound payload (sh, d)) (id : TaskId) {runs : Nat} (hruns : runs < 2 ^ 32) :
    Sound payload (sh, (Shelf.update d id runs).2) := by
  have hc := h.coherent.update id runs
  cases hget : Shelf.get d id with
  | none =>
    simp only [Shelf.update, hget]
    exact h
  | some r =>
    simp only [Shelf.update, hget] at hc ⊢
    have hrec := storedRecord_of_get hget
    have hkey : r.id.text = id.text := h.keyed id r hrec
    have hvalid : Record.valid { r with runs := runs } := by
      have hr := storedRecord_valid hrec
      simp only [Record.valid, Bool.and_eq_true, decide_eq_true_eq] at hr ⊢
      exact ⟨hr.1, hruns⟩
    rcases Shelf.saveRecord_cases d { r with runs := runs } with hsv | ⟨s, hsave, hsv⟩
    · rw [hsv] at hc ⊢
      exact h
    · rw [hsv] at hc ⊢
      obtain ⟨stored, hs, hl⟩ := h.stored
      refine ⟨hc, h.issued_nodup, h.keyed.save hvalid hsave, stored, ?_, hl.ordered,
        fun e he => ?_⟩
      · rw [storedInventory_of_save_tasks hsave]
        exact hs
      · obtain ⟨r₀, hr₀, hid₀, hkind₀, hdata₀⟩ := hl.filed e he
        by_cases htext : r.id.text = e.id.text
        · -- the entry's record is the one read, now with the new count
          obtain rfl : r₀ = r := by
            rw [storedRecord_of_text (htext.symm.trans hkey)] at hr₀
            exact Option.some.inj (hr₀.symm.trans hrec)
          refine ⟨{ r₀ with runs := runs }, ?_, hid₀, hkind₀, hdata₀⟩
          rw [← storedRecord_of_text htext]
          exact storedRecord_of_save hsave hvalid
        · refine ⟨r₀, ?_, hid₀, hkind₀, hdata₀⟩
          rw [storedRecord_of_save_other hsave htext]
          exact hr₀

theorem deleteRecord (h : Sound payload (sh, d)) {inv : List Entry}
    (hs : storedInventory d.store sh.siteId = some inv) {id : TaskId} (hid : id.bits < 2 ^ 128)
    (hnot : ∀ e ∈ inv, e.id ≠ id) {b : Bool} {s : MemoryStore}
    (hdel : d.store.delete .tasks id.text = .ok (b, s)) :
    Sound payload (sh, { d with store := s }) := by
  have hl := h.listed_of_stored hs
  refine ⟨h.coherent.deleteRecord hdel, h.issued_nodup, h.keyed.delete hdel, inv, ?_, ?_⟩
  · rw [storedInventory_of_delete_tasks hdel]
    exact hs
  · exact hl.of_other_key (storedInventory_valid hs) (List.Sublist.refl _)
      (fun _ hne => storedRecord_of_delete_other hdel hne) hid hnot

theorem delete_sighted (h : Sound payload (sh, d)) (hnb : ¬ Blind (sh, d)) {id : TaskId}
    (hid : id.bits < 2 ^ 128) : Sound payload (sh.delete d id).2 := by
  obtain ⟨stored, hs, hl⟩ := h.stored
  have hread := h.coherent.inventory_of_stored hs hnb
  have h₁ : Sound payload ({ sh with cache := some stored }, d) := by
    have := h.read
    rwa [hread] at this
  unfold Shelf.delete
  rw [hread]
  dsimp only
  by_cases hlen : ((stored.filter fun e => e.id != id).length != stored.length) = true
  · -- the task is listed: the inventory without it is written first
    rcases Shelf.writeInventory_cases { sh with cache := some stored } d
        (stored.filter fun e => e.id != id) with hw | ⟨s, hsave, hw⟩
    · simp only [hlen, hw, ↓reduceIte, Bool.not_false]
      exact h₁
    · simp only [hlen, hw, ↓reduceIte, Bool.not_true, Bool.false_eq_true]
      have h₂ := h.writeInventory ((h.listed_of_stored hs).filter _)
        (fun e he => storedInventory_valid hs e (List.mem_of_mem_filter he)) hsave
      have hs₂ : storedInventory s sh.siteId = some (stored.filter fun e => e.id != id) :=
        h₂.coherent.cache_stored _ rfl
      have hnot : ∀ e ∈ stored.filter (fun e => e.id != id), e.id ≠ id := by
        intro e he
        simpa using (List.mem_filter.1 he).2
      cases hdel : s.delete .tasks id.text with
      | error _ => exact h₂
      | ok res => exact h₂.deleteRecord hs₂ hid hnot hdel
  · -- the task is not listed: only its record goes
    have hnot : ∀ e ∈ stored, e.id ≠ id := by
      simpa using hlen
    simp only [hlen, ↓reduceIte, Bool.not_true, Bool.false_eq_true]
    cases hdel : d.store.delete .tasks id.text with
    | error _ => exact h₁
    | ok res => exact h₁.deleteRecord hs hid hnot hdel

theorem delete_blind (h : Sound payload (sh, d)) (hb : Blind (sh, d)) {id : TaskId}
    (hid : id.bits < 2 ^ 128) :
    Sound payload (sh.delete d id).2 ∨ LostRecord (sh, d) (sh.delete d id).2 := by
  obtain ⟨stored, hs, -⟩ := h.stored
  unfold Shelf.delete
  rw [Shelf.inventory_of_blind hb]
  simp only [List.filter_nil, bne_self_eq_false, Bool.false_eq_true, ↓reduceIte, Bool.not_true]
  cases hdel : d.store.delete .tasks id.text with
  | error _ => exact .inl h
  | ok res =>
    obtain ⟨b, s⟩ := res
    by_cases hlisted : ∃ e ∈ stored, e.id = id
    · obtain ⟨e, he, rfl⟩ := hlisted
      refine .inr ⟨hb, rfl, stored, e, hs, he, ?_, storedRecord_of_delete hdel⟩
      rw [storedInventory_of_delete_tasks hdel]
      exact hs
    · push Not at hlisted
      exact .inl (h.deleteRecord hs hid hlisted hdel)

theorem delete (h : Sound payload (sh, d)) {id : TaskId} (hid : id.bits < 2 ^ 128) :
    Sound payload (sh.delete d id).2 ∨ LostRecord (sh, d) (sh.delete d id).2 := by
  by_cases hb : Blind (sh, d)
  · exact h.delete_blind hb hid
  · exact .inl (h.delete_sighted hb hid)

theorem deleteAll (h : Sound payload (sh, d)) (hc : sh.cache.isSome) (es : List Entry)
    (hes : ∀ e ∈ es, e.valid) : Sound payload (sh.deleteAll d es).2 := by
  induction es generalizing sh d with
  | nil => exact h
  | cons e rest ih =>
    -- a cached shelf is never blind, and deleting keeps it cached
    have hnb : ¬ Blind (sh, d) := fun hb => by
      have hnone : sh.cache = none := hb.1
      simp [hnone] at hc
    obtain ⟨inv, hinv⟩ := Option.isSome_iff_exists.1 hc
    have h₁ := h.delete_sighted hnb (Entry.valid_bits (hes e List.mem_cons_self))
    have hc₁ : (sh.delete d e.id).2.1.cache.isSome := by
      rcases Shelf.delete_shelf (d := d) hinv e.id with h' | h' <;> simp [h', hinv]
    simp only [Shelf.deleteAll]
    generalize sh.delete d e.id = t at h₁ hc₁ ⊢
    exact ih h₁ hc₁ fun x hx => hes x (List.mem_cons_of_mem _ hx)

theorem deleteExpired (h : Sound payload (sh, d)) : Sound payload (sh.deleteExpired d).2 := by
  unfold Shelf.deleteExpired
  split
  · exact h
  · by_cases hb : Blind (sh, d)
    · rw [Shelf.inventory_of_blind hb]
      exact h
    · obtain ⟨stored, hs, -⟩ := h.stored
      have h₁ := h.read
      rw [h.coherent.inventory_of_stored hs hb] at h₁ ⊢
      exact h₁.deleteAll rfl _
        fun e he => storedInventory_valid hs e (List.mem_of_mem_filter he)

theorem advance (h : Sound payload (sh, d)) (sel : Selection) (st : PassState) :
    Sound payload (Pass.advance sel sh d st).2.2 := by
  have h₁ := h.read
  have hv := h.coherent.inventory_valid
  have hcache := @Shelf.inventory_cache_of_ne_nil sh d
  unfold Pass.advance
  rcases hinv : sh.inventory d with ⟨inv, sh₁⟩
  rw [hinv] at h₁ hv hcache
  rcases hn : sel.next inv st.lastRan st.lastFailed with ⟨next, sel₁⟩
  simp only [hn]
  cases next with
  | none => exact h₁
  | some e =>
    obtain ⟨hne, -, hfind⟩ := Selection.next_some hn
    -- a task was chosen, so the inventory was read and is cached
    have hnb : ¬ Blind (sh₁, d) := fun hb => by
      have hc : sh₁.cache = some inv := hcache hne
      have hnone : sh₁.cache = none := hb.1
      rw [hnone] at hc
      cases hc
    have he : e ∈ inv := Selection.mem_of_mem_remaining (List.mem_of_find?_eq_some hfind)
    dsimp only
    split
    · exact h₁
    · exact h₁.delete_sighted hnb (Entry.valid_bits (hv e he))
    · exact h₁

theorem settle (h : Sound payload (sh, d)) {next : Entry} (hid : next.id.bits < 2 ^ 128)
    (record : Record) (outcome : Except RunFailure Unit) :
    Sound payload (Pass.settle sh d next record outcome).2 ∨
      LostRecord (sh, d) (Pass.settle sh d next record outcome).2 := by
  unfold Pass.settle
  split
  · exact h.delete hid
  · split
    · exact .inl h
    · exact h.delete hid
    · exact .inl (h.update next.id (bumpRuns_lt _))

end Sound

theorem LostRecord.not_sound {payload : TaskId → List UInt8} {p q : Shelf × Depot}
    (hlost : LostRecord p q) : ¬ Sound payload q := by
  obtain ⟨-, -, inv, e, -, he, hs, hrec⟩ := hlost
  intro h
  obtain ⟨r, hr, -⟩ := (h.listed_of_stored hs).filed e he
  rw [hrec] at hr
  cases hr

theorem Shelf.delete_blind_lost {sh : Shelf} {d : Depot} (hb : Blind (sh, d)) {inv : List Entry}
    {e : Entry} (hs : storedInventory d.store sh.siteId = some inv) (he : e ∈ inv)
    (hw : d.store.failingWrites.contains .tasks = false) :
    LostRecord (sh, d) (sh.delete d e.id).2 := by
  have hmem : RecordKind.tasks ∉ d.store.failingWrites := by simpa using hw
  unfold Shelf.delete
  rw [Shelf.inventory_of_blind hb]
  simp only [List.filter_nil, bne_self_eq_false, Bool.false_eq_true, ↓reduceIte, Bool.not_true]
  cases hdel : d.store.delete .tasks e.id.text with
  | error _ => simp [MemoryStore.delete, hmem] at hdel
  | ok res =>
    obtain ⟨b, s⟩ := res
    refine ⟨hb, rfl, inv, e, hs, he, ?_, storedRecord_of_delete hdel⟩
    rw [storedInventory_of_delete_tasks hdel]
    exact hs

/-- One step of the storage of a site as the outbox takes it: an operation of its shelf, a step
of a pass, reads or writes of a kind starting or stopping to fail, the clock moving to a valid
instant, or the shelf reopened fresh. A task is created with the payload that `payload` names for
its id, which was never issued before; ids name 128-bit numbers and run counts fit 32 bits. -/
inductive QueueStep (payload : TaskId → List UInt8) : Shelf × Depot → Shelf × Depot → Prop
  | read {sh : Shelf} {d : Depot} : QueueStep payload (sh, d) ((sh.inventory d).2, d)
  | create {sh : Shelf} {d : Depot} (kind : String) (groupStart : Option String)
      (groups : List String) : d.issueId.1 ∉ d.issued →
      QueueStep payload (sh, d) (sh.create d kind (payload d.issueId.1) groupStart groups).2
  | update {sh : Shelf} {d : Depot} (id : TaskId) (runs : Nat) :
      runs < 2 ^ 32 → QueueStep payload (sh, d) (sh, (Shelf.update d id runs).2)
  | delete {sh : Shelf} {d : Depot} (id : TaskId) :
      id.bits < 2 ^ 128 → QueueStep payload (sh, d) (sh.delete d id).2
  | deleteExpired {sh : Shelf} {d : Depot} : QueueStep payload (sh, d) (sh.deleteExpired d).2
  | advance {sh : Shelf} {d : Depot} (sel : Selection) (st : PassState) :
      QueueStep payload (sh, d) (Pass.advance sel sh d st).2.2
  | settle {sh : Shelf} {d : Depot} (next : Entry) (record : Record)
      (outcome : Except RunFailure Unit) :
      next.id.bits < 2 ^ 128 → QueueStep payload (sh, d) (Pass.settle sh d next record outcome).2
  | failReads {sh : Shelf} {d : Depot} (kind : RecordKind) (fail : Bool) :
      QueueStep payload (sh, d) (sh, { d with store := d.store.setFailingReads kind fail })
  | failWrites {sh : Shelf} {d : Depot} (kind : RecordKind) (fail : Bool) :
      QueueStep payload (sh, d) (sh, { d with store := d.store.setFailingWrites kind fail })
  | tick {sh : Shelf} {d : Depot} (t : Time.Instant) :
      t.valid → QueueStep payload (sh, d) (sh, { d with clock := t })
  | reopen {sh : Shelf} {d : Depot} (expiry : Time.Delta) :
      QueueStep payload (sh, d) (Shelf.fresh sh.siteId expiry, d)

/-- A depot with the same records, the same ids issued and a valid clock keeps a shelf sound. -/
theorem Sound.of_depot {payload : TaskId → List UInt8} {sh : Shelf} {d d' : Depot}
    (h : Sound payload (sh, d)) (hrec : d'.store.records = d.store.records)
    (hissued : d'.issued = d.issued) (hclock : d'.clock.valid) : Sound payload (sh, d') := by
  have hlookup : d'.store.lookup = d.store.lookup := by
    funext kind key
    simp only [lookup, hrec]
  have hinv : storedInventory d'.store = storedInventory d.store := by
    funext site
    simp only [storedInventory, hlookup]
  have hrecord : storedRecord d'.store = storedRecord d.store := by
    funext id
    simp only [storedRecord, hlookup]
  obtain ⟨inv, hs, hl⟩ := h.stored
  refine ⟨⟨fun inv' hc => ?_, hclock⟩, hissued ▸ h.issued_nodup, ?_, inv, ?_, ?_⟩
  · rw [hinv]
    exact h.coherent.cache_stored inv' hc
  · intro id r hr
    rw [hrecord] at hr
    exact h.keyed id r hr
  · rw [hinv]
    exact hs
  · refine ⟨hissued ▸ hl.ordered, fun e he => ?_⟩
    simp only [Filed, hrecord]
    exact hl.filed e he

theorem QueueStep.sound {payload : TaskId → List UInt8} {p q : Shelf × Depot}
    (step : QueueStep payload p q) (h : Sound payload p) : Sound payload q ∨ LostRecord p q := by
  cases step with
  | read => exact .inl h.read
  | create kind groupStart groups fresh => exact .inl (h.create fresh kind groupStart groups)
  | update id runs hruns => exact .inl (h.update id hruns)
  | delete id hid => exact h.delete hid
  | deleteExpired => exact .inl h.deleteExpired
  | advance sel st => exact .inl (h.advance sel st)
  | settle next record outcome hid => exact h.settle hid record outcome
  | failReads kind fail => exact .inl (h.of_depot rfl rfl h.coherent.clock_valid)
  | failWrites kind fail => exact .inl (h.of_depot rfl rfl h.coherent.clock_valid)
  | tick t ht => exact .inl (h.of_depot rfl rfl ht)
  | reopen expiry =>
    exact .inl ⟨Coherent.fresh _ expiry h.coherent.clock_valid, h.issued_nodup, h.keyed,
      h.stored⟩

theorem Sound.of_run {payload : TaskId → List UInt8} {p q : Shelf × Depot} (h : Sound payload p)
    (run : Relation.ReflTransGen (fun a b => QueueStep payload a b ∧ ¬ Blind a) p q) :
    Sound payload q := by
  induction run with
  | refl => exact h
  | tail _ step ih =>
    obtain ⟨step, hnb⟩ := step
    rcases step.sound ih with h' | hlost
    · exact h'
    · exact absurd hlost.1 hnb

/-- The stored inventory stays sound through every step but a blind delete, which leaves a listed
task without its record; runs with no blind step keep it sound; and a blind delete of a listed
task always breaks it while task writes work. -/
theorem stored_inventory_sound_except_blind_delete (payload : TaskId → List UInt8) :
    (∀ p q, Sound payload p → QueueStep payload p q → Sound payload q ∨ LostRecord p q) ∧
    (∀ p q, Sound payload p →
      Relation.ReflTransGen (fun a b => QueueStep payload a b ∧ ¬ Blind a) p q →
      Sound payload q) ∧
    (∀ (sh : Shelf) (d : Depot) (inv : List Entry) (e : Entry), Blind (sh, d) →
      storedInventory d.store sh.siteId = some inv → e ∈ inv →
      d.store.failingWrites.contains .tasks = false →
      LostRecord (sh, d) (sh.delete d e.id).2 ∧ ¬ Sound payload (sh.delete d e.id).2) := by
  refine ⟨fun p q h step => step.sound h, fun p q h run => h.of_run run, ?_⟩
  intro sh d inv e hb hs he hw
  have hlost := Shelf.delete_blind_lost hb hs he hw
  exact ⟨hlost, hlost.not_sound⟩

/-- A sound store whose inventory lists `a`, with `a`'s record: once inventory reads fail it is
still sound, but blind, and deleting `a` then loses its record. -/
theorem stored_inventory_sound_except_blind_delete_loses_record :
    let a : Entry := ⟨⟨0⟩, "a", .epoch, none, [], 0⟩
    ∃ s : MemoryStore, Sound (fun _ => []) (Shelf.fresh "site" ⟨0⟩, ⟨s, .epoch, [⟨0⟩]⟩) ∧
      Sound (fun _ => [])
        (Shelf.fresh "site" ⟨0⟩, ⟨s.setFailingReads .inventory true, .epoch, [⟨0⟩]⟩) ∧
      LostRecord (Shelf.fresh "site" ⟨0⟩, ⟨s.setFailingReads .inventory true, .epoch, [⟨0⟩]⟩)
        ((Shelf.fresh "site" ⟨0⟩).delete ⟨s.setFailingReads .inventory true, .epoch, [⟨0⟩]⟩
          a.id).2 ∧
      ¬ Sound (fun _ => []) ((Shelf.fresh "site" ⟨0⟩).delete
          ⟨s.setFailingReads .inventory true, .epoch, [⟨0⟩]⟩ a.id).2 := by
  intro a
  have hthm := stored_inventory_sound_except_blind_delete fun _ => []
  obtain ⟨s₁, h₁⟩ : ∃ s, MemoryStore.empty.save .tasks (⟨0⟩ : TaskId).text
      (Utf8.encode (⟨⟨0⟩, "a", [], 0⟩ : Record).encode) = .ok s := ⟨_, rfl⟩
  have hw₁ : s₁.failingWrites = [] := (flags_of_save h₁).1
  obtain ⟨s, h₂⟩ : ∃ s, s₁.save .inventory "site" (Utf8.encode (encodeInventory [a])) = .ok s :=
    ⟨_, by unfold save; rw [if_neg (by simp [hw₁])]⟩
  have hw : s.failingWrites = [] := (flags_of_save h₂).1.trans hw₁
  have hr : s.failingReads = [] := (flags_of_save h₂).2.trans (flags_of_save h₁).2
  have hclock : Time.Instant.epoch.valid = true := by decide
  have hk₀ : Keyed MemoryStore.empty := fun id r h => by cases h
  have hs : storedInventory s "site" = some [a] := storedInventory_of_save h₂ (by decide +kernel)
  have hrec : storedRecord s ⟨0⟩ = some ⟨⟨0⟩, "a", [], 0⟩ := by
    rw [storedRecord_of_save_inventory h₂, storedRecord_of_save (r := ⟨⟨0⟩, "a", [], 0⟩) h₁
      (by decide +kernel)]
  have hsound : Sound (fun _ => []) (Shelf.fresh "site" ⟨0⟩, ⟨s, .epoch, [⟨0⟩]⟩) :=
    ⟨Coherent.fresh "site" ⟨0⟩ hclock, by simp,
      (hk₀.save (r := ⟨⟨0⟩, "a", [], 0⟩) (by decide +kernel) h₁).save_inventory h₂,
      [a], hs, ⟨by simp [a], fun e he => by
        rw [List.mem_singleton] at he
        subst he
        exact ⟨_, hrec, rfl, rfl, rfl⟩⟩⟩
  -- inventory reads start failing: still sound, but now blind
  have hblind_sound : Sound (fun _ => [])
      (Shelf.fresh "site" ⟨0⟩, ⟨s.setFailingReads .inventory true, .epoch, [⟨0⟩]⟩) := by
    rcases hthm.1 _ _ hsound (.failReads .inventory true) with h | hlost
    · exact h
    · exact absurd hlost.1.2 (by simp [hr])
  have hb : Blind (Shelf.fresh "site" ⟨0⟩, ⟨s.setFailingReads .inventory true, .epoch, [⟨0⟩]⟩) :=
    ⟨rfl, by simp only [setFailingReads, hr]; rfl⟩
  have hw' : (s.setFailingReads .inventory true).failingWrites = [] := hw
  exact ⟨s, hsound, hblind_sound, hthm.2.2 _ _ [a] a hb hs (List.mem_singleton_self a)
    (by simp [hw'])⟩

end Outbox.Queue
