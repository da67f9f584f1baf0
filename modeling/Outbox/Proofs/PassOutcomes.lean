import Outbox.Proofs.InventoryWrites

/-!
What a pass leaves of each task it chooses, when it runs alone over a store whose writes work.

The runner's outcome decides a task's fate (`Fate`). A success, or a failure that can never pass,
deletes the task: its entry and its record. A failure that may pass later keeps the entry where
it stands and saves the record with one run more, saturating. A pause or a panic leaves both as
they were and ends the pass. A chosen task whose record is gone, or is not a record, is dropped
without running; one whose record the store cannot read is left alone; both end the pass.

`pass_settles_each_task_by_its_fate` states this for every pass and every sequence of outcomes,
over a store whose task records name the ids they are stored under (`Keyed`). The proof follows
the pass round by round: `Acts` says what one step does as its task sees it, and `Tracks` what
all the rounds so far have done. Which task a pass chooses in each round, whatever the rest of the
outbox does meanwhile, is `pass_chooses_first_runnable`.
-/

set_option autoImplicit false

namespace Outbox.Store.MemoryStore

variable {s s' : MemoryStore} {kind kind' : RecordKind} {key key' : String} {bytes : List UInt8}

theorem get_of_save_other (h : s.save kind key bytes = .ok s')
    (hne : kind ≠ kind' ∨ key ≠ key') : s'.get kind' key' = s.get kind' key' := by
  have hlookup := lookup_of_save_other h hne
  unfold lookup at hlookup
  simp only [get, (flags_of_save h).2, hlookup]

end Outbox.Store.MemoryStore

namespace Outbox.Task

theorem bumpRuns_bounds {n : Nat} (h : n < 2 ^ 32) : n ≤ bumpRuns n ∧ bumpRuns n ≤ n + 1 := by
  have hmax : maxRuns = 2 ^ 32 - 1 := by decide
  unfold bumpRuns
  rw [hmax]
  unfold Nat.min
  omega

end Outbox.Task

namespace Outbox.Queue

open Outbox.Task Outbox.Store MemoryStore

/-- How a task chosen by a pass fares. -/
inductive Fate where
  /-- The runner ran the task on this record and answered. -/
  | answered (record : Record) (outcome : Except RunFailure Unit)
  /-- The runner panicked running the task on this record. -/
  | panicked (record : Record)
  /-- The record is gone or is not a record: the task is dropped without running. -/
  | lost
  /-- The store cannot read the record: the task is left alone. -/
  | unread

namespace Fate

/-- Whether the task keeps its inventory entry. -/
def keeps : Fate → Bool
  | .answered _ (.ok ()) => false
  | .answered _ (.error f) => f.disposition != .terminal
  | .panicked _ => true
  | .lost => false
  | .unread => true

/-- The task's record after the pass, given the one before it. -/
def leaves : Fate → Option Record → Option Record
  | .answered _ (.ok ()), _ => none
  | .answered r (.error f), before =>
    match f.disposition with
    | .paused => before
    | .terminal => none
    | .retryable => some { r with runs := bumpRuns r.runs }
  | .panicked _, before => before
  | .lost, _ => none
  | .unread, before => before

def goesOn : Fate → Bool
  | .answered _ (.ok ()) => true
  | .answered _ (.error f) => f.disposition != .paused
  | _ => false

def ran : Fate → Option Record
  | .answered r _ | .panicked r => some r
  | _ => none

def failed : Fate → Bool
  | .answered _ (.ok ()) => false
  | _ => true

theorem failed_answered (r : Record) (o : Except RunFailure Unit) :
    (answered r o).failed = !o.isOk := by
  cases o <;> rfl

/-- A fate leaves the record it was run on, or that record with one run more, or none. -/
theorem runs_of_leaves {φ : Fate} {r r' : Record} (hran : ∀ r₀, φ.ran = some r₀ → r₀ = r)
    (hr : r.runs < 2 ^ 32) (h : φ.leaves (some r) = some r') :
    r.runs ≤ r'.runs ∧ r'.runs ≤ r.runs + 1 := by
  cases φ with
  | answered r₀ o =>
    obtain rfl := hran r₀ rfl
    cases o with
    | ok u => cases h
    | error f =>
      cases hf : f.disposition <;> simp only [leaves, hf, Option.some.injEq, reduceCtorEq] at h
      · subst h
        omega
      · subst h
        exact bumpRuns_bounds hr
  | panicked r₀ =>
    cases h
    omega
  | lost => cases h
  | unread =>
    cases h
    omega

end Fate

def droppedBy (rounds : List (Entry × Fate)) (x : Entry) : Bool :=
  rounds.any fun q => !q.2.keeps && q.1.id == x.id

@[simp] theorem droppedBy_nil (x : Entry) : droppedBy [] x = false := rfl

theorem droppedBy_append (rounds : List (Entry × Fate)) (e : Entry) (φ : Fate) (x : Entry) :
    droppedBy (rounds ++ [(e, φ)]) x = (droppedBy rounds x || (!φ.keeps && e.id == x.id)) := by
  simp [droppedBy]

/-- The rounds of a pass running alone from `(sh₀, d₀)`, each a task run and settled with its
outcome, up to the top of the loop. -/
inductive Alone (sh₀ : Shelf) (d₀ : Depot) :
    Selection → PassState → Shelf → Depot → List (Entry × Fate) → Prop
  | start : Alone sh₀ d₀ Selection.fresh PassState.start sh₀ d₀ []
  | round {sel sel₁ : Selection} {st st' : PassState} {sh sh₁ sh₂ : Shelf} {d d₁ d₂ : Depot}
      {rounds : List (Entry × Fate)} {e : Entry} {r : Record} {o : Except RunFailure Unit} :
      Alone sh₀ d₀ sel st sh d rounds →
      Pass.advance sel sh d st = (.run e r, sel₁, sh₁, d₁) →
      Pass.settle sh₁ d₁ e r o = (some st', sh₂, d₂) →
      Alone sh₀ d₀ sel₁ st' sh₂ d₂ (rounds ++ [(e, .answered r o)])

/-- A pass run alone from `(sh₀, d₀)` that has ended, with the task each round chose and its
fate, and the shelf and depot it leaves. It ends when nothing is left to choose, when the task
chosen has lost its record or cannot be read, when an outcome stops it, or when the runner
panics. -/
inductive Finished (sh₀ : Shelf) (d₀ : Depot) : List (Entry × Fate) → Shelf → Depot → Prop
  | drained {sel sel₁ : Selection} {st : PassState} {sh sh₁ : Shelf} {d d₁ : Depot}
      {rounds : List (Entry × Fate)} :
      Alone sh₀ d₀ sel st sh d rounds →
      Pass.advance sel sh d st = (.stop, sel₁, sh₁, d₁) →
      (sel.next (sh.inventory d).1 st.lastRan st.lastFailed).1 = none →
      Finished sh₀ d₀ rounds sh₁ d₁
  | lost {sel sel₁ : Selection} {st : PassState} {sh sh₁ : Shelf} {d d₁ : Depot}
      {rounds : List (Entry × Fate)} {e : Entry} :
      Alone sh₀ d₀ sel st sh d rounds →
      Pass.advance sel sh d st = (.stop, sel₁, sh₁, d₁) →
      (sel.next (sh.inventory d).1 st.lastRan st.lastFailed).1 = some e →
      Shelf.readTask d e.id = .missing →
      Finished sh₀ d₀ (rounds ++ [(e, .lost)]) sh₁ d₁
  | unread {sel sel₁ : Selection} {st : PassState} {sh sh₁ : Shelf} {d d₁ : Depot}
      {rounds : List (Entry × Fate)} {e : Entry} :
      Alone sh₀ d₀ sel st sh d rounds →
      Pass.advance sel sh d st = (.stop, sel₁, sh₁, d₁) →
      (sel.next (sh.inventory d).1 st.lastRan st.lastFailed).1 = some e →
      Shelf.readTask d e.id = .unreadable →
      Finished sh₀ d₀ (rounds ++ [(e, .unread)]) sh₁ d₁
  | halted {sel sel₁ : Selection} {st : PassState} {sh sh₁ sh₂ : Shelf} {d d₁ d₂ : Depot}
      {rounds : List (Entry × Fate)} {e : Entry} {r : Record} {o : Except RunFailure Unit} :
      Alone sh₀ d₀ sel st sh d rounds →
      Pass.advance sel sh d st = (.run e r, sel₁, sh₁, d₁) →
      Pass.settle sh₁ d₁ e r o = (none, sh₂, d₂) →
      Finished sh₀ d₀ (rounds ++ [(e, .answered r o)]) sh₂ d₂
  | panicked {sel sel₁ : Selection} {st : PassState} {sh sh₁ : Shelf} {d d₁ : Depot}
      {rounds : List (Entry × Fate)} {e : Entry} {r : Record} :
      Alone sh₀ d₀ sel st sh d rounds →
      Pass.advance sel sh d st = (.run e r, sel₁, sh₁, d₁) →
      Finished sh₀ d₀ (rounds ++ [(e, .panicked r)]) sh₁ d₁

namespace Shelf

variable {sh : Shelf} {d : Depot}

/-- A delete saves at most the inventory; then, when it answers `true`, it has deleted the
record. -/
theorem delete_store (sh : Shelf) (d : Depot) (id : TaskId) :
    ∃ s, (s = d.store ∨ ∃ bytes, d.store.save .inventory sh.siteId bytes = .ok s) ∧
      ((sh.delete d id).1 = false ∧ (sh.delete d id).2.2.store = s ∨
        (sh.delete d id).1 = true ∧
          ∃ b, s.delete .tasks id.text = .ok (b, (sh.delete d id).2.2.store)) := by
  have hsite := inventory_siteId sh d
  unfold delete
  rcases hp : sh.inventory d with ⟨seen, sh₁⟩
  rw [hp] at hsite
  dsimp only at hsite ⊢
  split
  · rcases writeInventory_cases sh₁ d (seen.filter (·.id != id)) with hw | ⟨s, hsave, hw⟩
    · rw [hw]
      exact ⟨d.store, .inl rfl, .inl ⟨rfl, rfl⟩⟩
    · rw [hw]
      rw [hsite] at hsave
      cases hdel : s.delete .tasks id.text with
      | error e => exact ⟨s, .inr ⟨_, hsave⟩, .inl ⟨rfl, rfl⟩⟩
      | ok r => exact ⟨s, .inr ⟨_, hsave⟩, .inr ⟨rfl, r.1, hdel⟩⟩
  · cases hdel : d.store.delete .tasks id.text with
    | error e => exact ⟨d.store, .inl rfl, .inl ⟨rfl, rfl⟩⟩
    | ok r => exact ⟨d.store, .inl rfl, .inr ⟨rfl, r.1, hdel⟩⟩

theorem delete_record_other (id : TaskId) {id' : TaskId} (hne : id'.text ≠ id.text) :
    storedRecord (sh.delete d id).2.2.store id' = storedRecord d.store id' := by
  obtain ⟨s, hs, hdel⟩ := delete_store sh d id
  have hs' : storedRecord s id' = storedRecord d.store id' := by
    rcases hs with rfl | ⟨bytes, hsave⟩
    · rfl
    · exact storedRecord_of_save_inventory hsave id'
  rcases hdel with ⟨-, hstore⟩ | ⟨-, b, hdel⟩
  · rw [hstore, hs']
  · rw [storedRecord_of_delete_other hdel (Ne.symm hne), hs']

theorem delete_record (id : TaskId) (h : (sh.delete d id).1 = true) :
    storedRecord (sh.delete d id).2.2.store id = none := by
  obtain ⟨s, -, hdel⟩ := delete_store sh d id
  rcases hdel with ⟨hfalse, -⟩ | ⟨-, b, hdel⟩
  · rw [h] at hfalse
    cases hfalse
  · exact storedRecord_of_delete hdel

theorem delete_reads (sh : Shelf) (d : Depot) (id : TaskId) :
    (sh.delete d id).2.2.store.failingReads = d.store.failingReads := by
  obtain ⟨s, hs, hdel⟩ := delete_store sh d id
  have hs' : s.failingReads = d.store.failingReads := by
    rcases hs with rfl | ⟨bytes, hsave⟩
    · rfl
    · exact (flags_of_save hsave).2
  rcases hdel with ⟨-, hstore⟩ | ⟨-, b, hdel⟩
  · rw [hstore, hs']
  · rw [(flags_of_delete hdel).2, hs']

end Shelf

theorem Keyed.shelf_delete {sh : Shelf} {d : Depot} (h : Keyed d.store) (id : TaskId) :
    Keyed (sh.delete d id).2.2.store := by
  obtain ⟨s, hs, hdel⟩ := Shelf.delete_store sh d id
  have hk : Keyed s := by
    rcases hs with rfl | ⟨bytes, hsave⟩
    · exact h
    · exact h.save_inventory hsave
  rcases hdel with ⟨-, hstore⟩ | ⟨-, b, hdel⟩
  · rw [hstore]
    exact hk
  · exact hk.delete hdel

/-- One step of a pass as its task `e` sees it: the shelf reads its inventory without `e`'s
entries unless `keeps`, `e`'s record becomes `leaves` of what it was, no other record changes,
and the shelf stays coherent over a keyed store whose writes fail as before. -/
structure Acts (e : Entry) (keeps : Bool) (leaves : Option Record → Option Record)
    (p q : Shelf × Depot) : Prop where
  coherent : Coherent q
  keyed : Keyed q.2.store
  writes : q.2.store.failingWrites = p.2.store.failingWrites
  view : (q.1.inventory q.2).1 = (p.1.inventory p.2).1.filter fun x => keeps || x.id != e.id
  record : storedRecord q.2.store e.id = leaves (storedRecord p.2.store e.id)
  others : ∀ id, id.text ≠ e.id.text → storedRecord q.2.store id = storedRecord p.2.store id

namespace Acts

variable {e : Entry} {sh : Shelf} {d : Depot} {keeps : Bool}
  {leaves : Option Record → Option Record}

theorem stay (hc : Coherent (sh, d)) (hk : Keyed d.store) (hkeep : keeps = true)
    (hleave : ∀ b, leaves b = b) : Acts e keeps leaves (sh, d) (sh, d) where
  coherent := hc
  keyed := hk
  writes := rfl
  view := by simp [hkeep]
  record := (hleave _).symm
  others _ _ := rfl

theorem delete (hc : Coherent (sh, d)) (hk : Keyed d.store) (hw : d.store.failingWrites = [])
    (hkeep : keeps = false) (hleave : ∀ b, leaves b = none) :
    Acts e keeps leaves (sh, d) (sh.delete d e.id).2 := by
  obtain ⟨hanswer, hview, hwrites⟩ := Shelf.delete_view sh d e.id
  simp only [hw, List.contains_nil, Bool.not_false, Bool.or_true, Bool.and_true] at hanswer hview
  refine ⟨hc.delete e.id, hk.shelf_delete e.id, hwrites, ?_, ?_, ?_⟩
  · rw [hview, hkeep]
    split
    · rfl
    · -- nothing listed the id: dropping its entries keeps them all
      rename_i hl
      refine (List.filter_eq_self.2 fun x hx => ?_).symm
      simpa [bne, BEq.comm] using List.any_eq_false.1 (Bool.eq_false_iff.2 hl) x hx
  · rw [Shelf.delete_record e.id hanswer, hleave]
  · exact fun id hne => Shelf.delete_record_other e.id hne

/-- With writes working, an update saves the record it reads, with the new count, under the key
it was read from. -/
theorem update (hc : Coherent (sh, d)) (hk : Keyed d.store) (hw : d.store.failingWrites = [])
    {r : Record} (hget : Shelf.get d e.id = some r) {n : Nat} (hn : n < 2 ^ 32) :
    Acts e true (fun _ => some { r with runs := n }) (sh, d) (sh, (Shelf.update d e.id n).2) := by
  have hc' := hc.update e.id n
  have hkey : r.id.text = e.id.text := hk e.id r (storedRecord_of_get hget)
  have hvalid : Record.valid { r with runs := n } := by
    have hr := storedRecord_valid (storedRecord_of_get hget)
    simp only [Record.valid, Bool.and_eq_true, decide_eq_true_eq] at hr ⊢
    exact ⟨hr.1, hn⟩
  simp only [Shelf.update, hget] at hc' ⊢
  rcases Shelf.saveRecord_cases d { r with runs := n } with hsv | ⟨s, hsave, hsv⟩
  · have hfst := Shelf.saveRecord_fst d { r with runs := n }
    simp [hsv, hw] at hfst
  · rw [hsv] at hc' ⊢
    refine ⟨hc', hk.save hvalid hsave, (flags_of_save hsave).1, ?_, ?_, ?_⟩
    · rw [Shelf.inventory_congr (get_of_save_other hsave (.inl (by decide)))]
      simp
    · rw [← storedRecord_of_text hkey]
      exact storedRecord_of_save hsave hvalid
    · intro id hne
      exact storedRecord_of_save_other hsave (hkey ▸ Ne.symm hne)

/-- Settling an outcome does what the task's fate says. -/
theorem settle (hc : Coherent (sh, d)) (hk : Keyed d.store) (hw : d.store.failingWrites = [])
    {r : Record} (hget : Shelf.get d e.id = some r) (o : Except RunFailure Unit) :
    Acts e (Fate.answered r o).keeps (Fate.answered r o).leaves (sh, d)
      (Pass.settle sh d e r o).2 := by
  cases o with
  | ok u =>
    exact delete hc hk hw rfl fun _ => rfl
  | error f =>
    cases hf : f.disposition with
    | paused =>
      simp only [Pass.settle, hf]
      exact stay hc hk (by simp [Fate.keeps, hf]) fun b => by simp [Fate.leaves, hf]
    | terminal =>
      simp only [Pass.settle, hf]
      exact delete hc hk hw (by simp [Fate.keeps, hf]) fun b => by simp [Fate.leaves, hf]
    | retryable =>
      have hleave : (Fate.answered r (.error f)).leaves =
          fun _ => some { r with runs := bumpRuns r.runs } := by
        funext b
        simp [Fate.leaves, hf]
      have hkeep : (Fate.answered r (.error f)).keeps = true := by simp [Fate.keeps, hf]
      simp only [Pass.settle, hf]
      rw [hleave, hkeep]
      exact update hc hk hw hget (bumpRuns_lt _)

end Acts

/-- What the rounds of a pass run alone from `(sh₀, d₀)` have done: the shelf is coherent over a
keyed store whose writes fail as they did; it reads the first inventory without the entries of
the tasks the rounds dropped; each task chosen came from that inventory, was run on the record it
had, and has what its fate leaves of that record; no other record changed. -/
structure Tracks (sh₀ : Shelf) (d₀ : Depot) (rounds : List (Entry × Fate)) (p : Shelf × Depot) :
    Prop where
  coherent : Coherent p
  keyed : Keyed p.2.store
  writes : p.2.store.failingWrites = d₀.store.failingWrites
  view : (p.1.inventory p.2).1 = (sh₀.inventory d₀).1.filter fun x => !droppedBy rounds x
  chosen : ∀ q ∈ rounds, q.1 ∈ (sh₀.inventory d₀).1
  records : ∀ q ∈ rounds, storedRecord p.2.store q.1.id = q.2.leaves (storedRecord d₀.store q.1.id)
  ran : ∀ q ∈ rounds, ∀ r, q.2.ran = some r → storedRecord d₀.store q.1.id = some r
  others : ∀ id, (∀ q ∈ rounds, q.1.id.text ≠ id.text) →
    storedRecord p.2.store id = storedRecord d₀.store id

namespace Tracks

variable {sh₀ sh : Shelf} {d₀ d : Depot} {rounds : List (Entry × Fate)}

theorem start (hc : Coherent (sh₀, d₀)) (hk : Keyed d₀.store) : Tracks sh₀ d₀ [] (sh₀, d₀) where
  coherent := hc
  keyed := hk
  writes := rfl
  view := by simp
  chosen := by simp
  records := by simp
  ran := by simp
  others _ _ := rfl

theorem read (h : Tracks sh₀ d₀ rounds (sh, d)) : Tracks sh₀ d₀ rounds ((sh.inventory d).2, d) :=
  { h with
    coherent := h.coherent.inventory
    view := Shelf.inventory_inventory.trans h.view }

/-- A step that acts on a task chosen from the first inventory, under a key no earlier round
chose, adds its round. -/
theorem step {p q : Shelf × Depot} {e : Entry} {φ : Fate} (h : Tracks sh₀ d₀ rounds p)
    (ha : Acts e φ.keeps φ.leaves p q) (he : e ∈ (sh₀.inventory d₀).1)
    (hnew : ∀ x ∈ rounds, x.1.id.text ≠ e.id.text)
    (hran : ∀ r, φ.ran = some r → storedRecord p.2.store e.id = some r) :
    Tracks sh₀ d₀ (rounds ++ [(e, φ)]) q := by
  -- before this step, `e`'s record is the one the pass started with
  have hbefore : storedRecord p.2.store e.id = storedRecord d₀.store e.id :=
    h.others e.id hnew
  refine ⟨ha.coherent, ha.keyed, ha.writes.trans h.writes, ?_, ?_, ?_, ?_, ?_⟩
  · rw [ha.view, h.view, List.filter_filter]
    refine List.filter_congr fun x _ => ?_
    rw [droppedBy_append]
    cases φ.keeps <;> cases droppedBy rounds x <;> simp [bne, BEq.comm]
  · intro x hx
    rcases List.mem_append.1 hx with hx | hx
    · exact h.chosen x hx
    · rw [List.mem_singleton.1 hx]
      exact he
  · intro x hx
    rcases List.mem_append.1 hx with hx | hx
    · rw [ha.others _ (hnew x hx)]
      exact h.records x hx
    · rw [List.mem_singleton.1 hx, ha.record, hbefore]
  · intro x hx r hr
    rcases List.mem_append.1 hx with hx | hx
    · exact h.ran x hx r hr
    · rw [List.mem_singleton.1 hx] at hr ⊢
      rw [← hbefore]
      exact hran r hr
  · intro id hid
    rw [ha.others id fun heq => hid (e, φ) (by simp) heq.symm]
    exact h.others id fun x hx => hid x (List.mem_append_left _ hx)

theorem choose (h : Tracks sh₀ d₀ rounds (sh, d)) (hc₀ : Coherent (sh₀, d₀)) {e : Entry}
    (he : e ∈ (sh.inventory d).1) (hfresh : ∀ q ∈ rounds, q.1.id ≠ e.id) :
    e ∈ (sh₀.inventory d₀).1 ∧ ∀ q ∈ rounds, q.1.id.text ≠ e.id.text := by
  have he₀ : e ∈ (sh₀.inventory d₀).1 := by
    rw [h.view] at he
    exact List.mem_of_mem_filter he
  refine ⟨he₀, fun q hq htext => hfresh q hq ?_⟩
  exact TaskId.text_injective (Entry.valid_bits (hc₀.inventory_valid _ (h.chosen q hq)))
    (Entry.valid_bits (hc₀.inventory_valid _ he₀)) htext

theorem mem_view (h : Tracks sh₀ d₀ rounds (sh, d)) (hnd : (rounds.map (·.1.id)).Nodup)
    {q : Entry × Fate} (hq : q ∈ rounds) :
    (q.2.keeps = true → q.1 ∈ (sh.inventory d).1) ∧
      (q.2.keeps = false → ∀ x ∈ (sh.inventory d).1, x.id ≠ q.1.id) := by
  rw [h.view]
  constructor
  · intro hkeep
    refine List.mem_filter.2 ⟨h.chosen q hq, ?_⟩
    -- the only round with this id is `q` itself, which keeps it
    simp only [droppedBy, Bool.not_eq_true', List.any_eq_false, Bool.and_eq_true, beq_iff_eq,
      not_and]
    intro q' hq' hdrop hid
    rw [List.inj_on_of_nodup_map hnd hq' hq hid, hkeep] at hdrop
    cases hdrop
  · intro hdrop x hx hid
    have hx' := (List.mem_filter.1 hx).2
    simp only [droppedBy, Bool.not_eq_true', List.any_eq_false] at hx'
    exact hx' q hq (by simp [hdrop, hid])

theorem runs_le (h : Tracks sh₀ d₀ rounds (sh, d)) {id : TaskId} {r r' : Record}
    (hr : storedRecord d₀.store id = some r) (hr' : storedRecord d.store id = some r') :
    r.runs ≤ r'.runs ∧ r'.runs ≤ r.runs + 1 := by
  by_cases hq : ∃ q ∈ rounds, q.1.id.text = id.text
  · obtain ⟨q, hq, htext⟩ := hq
    rw [← storedRecord_of_text htext] at hr hr'
    rw [h.records q hq, hr] at hr'
    have hvalid := storedRecord_valid hr
    simp only [Record.valid, Bool.and_eq_true, decide_eq_true_eq] at hvalid
    exact Fate.runs_of_leaves
      (fun r₀ h₀ => Option.some.inj ((h.ran q hq r₀ h₀).symm.trans hr)) hvalid.2 hr'
  · push Not at hq
    rw [h.others id hq, hr] at hr'
    cases hr'
    omega

end Tracks

section Advance

variable {sel sel' : Selection} {sh sh' : Shelf} {d d' : Depot} {st : PassState} {e : Entry}

theorem Pass.advance_get {r : Record} (h : Pass.advance sel sh d st = (.run e r, sel', sh', d')) :
    Shelf.get d e.id = some r := by
  unfold Pass.advance at h
  rcases hinv : sh.inventory d with ⟨inv, sh₁⟩
  rcases hn : sel.next inv st.lastRan st.lastFailed with ⟨next, sel₁⟩
  simp only [hinv, hn] at h
  cases next with
  | none => simp at h
  | some e' =>
    simp only at h
    split at h
    · next r' hread =>
      simp only [Prod.mk.injEq, PassStep.run.injEq] at h
      obtain ⟨⟨rfl, rfl⟩, -⟩ := h
      simp [Shelf.get, hread]
    · simp at h
    · simp at h

theorem Pass.advance_found {r : Record}
    (hn : sel.next (sh.inventory d).1 st.lastRan st.lastFailed = (some e, sel'))
    (hread : Shelf.readTask d e.id = .found r) :
    Pass.advance sel sh d st = (.run e r, sel', (sh.inventory d).2, d) := by
  unfold Pass.advance
  rcases hinv : sh.inventory d with ⟨inv, sh₁⟩
  rw [hinv] at hn
  simp only [hn, hread]

theorem Pass.advance_none (hn : (sel.next (sh.inventory d).1 st.lastRan st.lastFailed).1 = none) :
    Pass.advance sel sh d st =
      (.stop, (sel.next (sh.inventory d).1 st.lastRan st.lastFailed).2, (sh.inventory d).2, d) := by
  unfold Pass.advance
  rcases hinv : sh.inventory d with ⟨inv, sh₁⟩
  rw [hinv] at hn
  rcases hnext : sel.next inv st.lastRan st.lastFailed with ⟨next, sel₁⟩
  rw [hnext] at hn
  dsimp only at hn
  subst hn
  simp only [hnext]

theorem Pass.advance_missing
    (hn : (sel.next (sh.inventory d).1 st.lastRan st.lastFailed).1 = some e)
    (hread : Shelf.readTask d e.id = .missing) :
    (Pass.advance sel sh d st).2.2 = ((sh.inventory d).2.delete d e.id).2 := by
  unfold Pass.advance
  rcases hinv : sh.inventory d with ⟨inv, sh₁⟩
  rcases hnext : sel.next inv st.lastRan st.lastFailed with ⟨next, sel₁⟩
  rw [hinv, hnext] at hn
  dsimp only at hn
  subst hn
  simp only [hnext, hread]

theorem Pass.advance_unreadable
    (hn : (sel.next (sh.inventory d).1 st.lastRan st.lastFailed).1 = some e)
    (hread : Shelf.readTask d e.id = .unreadable) :
    (Pass.advance sel sh d st).2.2 = ((sh.inventory d).2, d) := by
  unfold Pass.advance
  rcases hinv : sh.inventory d with ⟨inv, sh₁⟩
  rcases hnext : sel.next inv st.lastRan st.lastFailed with ⟨next, sel₁⟩
  rw [hinv, hnext] at hn
  dsimp only at hn
  subst hn
  simp only [hnext, hread]

theorem Pass.settle_goesOn {r : Record} {o : Except RunFailure Unit} {st' : PassState}
    (h : Pass.settle sh d e r o = (some st', sh', d')) : (Fate.answered r o).goesOn = true := by
  cases o with
  | ok u => rfl
  | error f =>
    cases hf : f.disposition <;> simp [Pass.settle, Fate.goesOn, hf] at h ⊢

end Advance

namespace Alone

variable {sh₀ sh sh₁ : Shelf} {d₀ d d₁ : Depot} {sel sel₁ : Selection} {st : PassState}
  {rounds : List (Entry × Fate)} {e : Entry} {r : Record}

theorem reach (h : Alone sh₀ d₀ sel st sh d rounds) :
    PassReach sel st sh d (rounds.map fun q => (q.1, q.2.failed)) := by
  induction h with
  | start => exact PassReach.start sh₀ d₀
  | round _ hadv hset ih =>
    rw [List.map_append, List.map_singleton, Fate.failed_answered]
    exact ih.round hadv Relation.ReflTransGen.refl hset

theorem nodup (h : Alone sh₀ d₀ sel st sh d rounds) : (rounds.map (·.1.id)).Nodup := by
  have hnd := h.reach.inv.nodup
  rw [ranIds, List.map_map] at hnd
  exact hnd

theorem goesOn (h : Alone sh₀ d₀ sel st sh d rounds) : ∀ q ∈ rounds, q.2.goesOn = true := by
  induction h with
  | start => simp
  | round _ _ hset ih =>
    intro q hq
    rcases List.mem_append.1 hq with hq | hq
    · exact ih q hq
    · rw [List.mem_singleton.1 hq]
      exact Pass.settle_goesOn hset

theorem fresh (h : Alone sh₀ d₀ sel st sh d rounds)
    (hn : (sel.next (sh.inventory d).1 st.lastRan st.lastFailed).1 = some e) :
    e ∈ (sh.inventory d).1 ∧ ∀ q ∈ rounds, q.1.id ≠ e.id := by
  have hfind := h.reach.inv.next_eq d
  rw [hn] at hfind
  refine ⟨List.mem_of_find?_eq_some hfind.symm, fun q hq heq => ?_⟩
  have hrun := List.find?_some hfind.symm
  simp only [runnable, ranIds, List.map_map, Bool.and_eq_true, Bool.not_eq_true',
    List.contains_eq_mem, decide_eq_false_iff_not, List.mem_map] at hrun
  exact hrun.1 ⟨q, hq, heq⟩

theorem nodup_append (h : Alone sh₀ d₀ sel st sh d rounds)
    (hn : (sel.next (sh.inventory d).1 st.lastRan st.lastFailed).1 = some e) (φ : Fate) :
    ((rounds ++ [(e, φ)]).map (·.1.id)).Nodup := by
  rw [List.map_append, List.nodup_append]
  refine ⟨h.nodup, by simp, fun a ha b hb => ?_⟩
  obtain ⟨q, hq, rfl⟩ := List.mem_map.1 ha
  have hb' : b = e.id := by simpa using hb
  rw [hb']
  exact (h.fresh hn).2 q hq

theorem run (h : Alone sh₀ d₀ sel st sh d rounds) (ht : Tracks sh₀ d₀ rounds (sh, d))
    (hc₀ : Coherent (sh₀, d₀)) (hadv : Pass.advance sel sh d st = (.run e r, sel₁, sh₁, d₁)) :
    sh₁ = (sh.inventory d).2 ∧ d₁ = d ∧ Shelf.get d e.id = some r ∧
      e ∈ (sh₀.inventory d₀).1 ∧ ∀ q ∈ rounds, q.1.id.text ≠ e.id.text := by
  obtain ⟨hnext, rfl, rfl⟩ := Pass.advance_run hadv
  obtain ⟨he, hfresh⟩ := h.fresh (congrArg Prod.fst hnext)
  exact ⟨rfl, rfl, Pass.advance_get hadv, ht.choose hc₀ he hfresh⟩

theorem settle {sh₂ : Shelf} {d₂ : Depot} {o : Except RunFailure Unit} {st' : Option PassState}
    (h : Alone sh₀ d₀ sel st sh d rounds) (ht : Tracks sh₀ d₀ rounds (sh, d))
    (hc₀ : Coherent (sh₀, d₀)) (hw₀ : d₀.store.failingWrites = [])
    (hadv : Pass.advance sel sh d st = (.run e r, sel₁, sh₁, d₁))
    (hset : Pass.settle sh₁ d₁ e r o = (st', sh₂, d₂)) :
    Tracks sh₀ d₀ (rounds ++ [(e, .answered r o)]) (sh₂, d₂) := by
  obtain ⟨rfl, rfl, hget, he, hnew⟩ := h.run ht hc₀ hadv
  have h₁ := ht.read
  have ha := Acts.settle h₁.coherent h₁.keyed (h₁.writes.trans hw₀) hget o
  rw [hset] at ha
  exact h₁.step ha he hnew fun r' hr' => Option.some.inj hr' ▸ storedRecord_of_get hget

theorem panic (h : Alone sh₀ d₀ sel st sh d rounds) (ht : Tracks sh₀ d₀ rounds (sh, d))
    (hc₀ : Coherent (sh₀, d₀)) (hadv : Pass.advance sel sh d st = (.run e r, sel₁, sh₁, d₁)) :
    Tracks sh₀ d₀ (rounds ++ [(e, .panicked r)]) (sh₁, d₁) := by
  obtain ⟨rfl, rfl, hget, he, hnew⟩ := h.run ht hc₀ hadv
  have h₁ := ht.read
  exact h₁.step (Acts.stay h₁.coherent h₁.keyed rfl fun _ => rfl) he hnew
    fun r' hr' => Option.some.inj hr' ▸ storedRecord_of_get hget

theorem tracks (h : Alone sh₀ d₀ sel st sh d rounds) (hc₀ : Coherent (sh₀, d₀))
    (hk₀ : Keyed d₀.store) (hw₀ : d₀.store.failingWrites = []) : Tracks sh₀ d₀ rounds (sh, d) := by
  induction h with
  | start => exact Tracks.start hc₀ hk₀
  | round hprev hadv hset ih => exact hprev.settle ih hc₀ hw₀ hadv hset

end Alone

namespace Finished

variable {sh₀ sh : Shelf} {d₀ d : Depot} {rounds : List (Entry × Fate)}

theorem tracks (h : Finished sh₀ d₀ rounds sh d) (hc₀ : Coherent (sh₀, d₀))
    (hk₀ : Keyed d₀.store) (hw₀ : d₀.store.failingWrites = []) : Tracks sh₀ d₀ rounds (sh, d) := by
  cases h with
  | drained hprev hadv hn =>
    have hstate := congrArg (·.2.2) hadv
    simp only [Pass.advance_none hn] at hstate
    rw [← hstate]
    exact (hprev.tracks hc₀ hk₀ hw₀).read
  | lost hprev hadv hn hread =>
    have hstate := congrArg (·.2.2) hadv
    simp only [Pass.advance_missing hn hread] at hstate
    rw [← hstate]
    have ht := hprev.tracks hc₀ hk₀ hw₀
    obtain ⟨he, hnew⟩ := ht.choose hc₀ (hprev.fresh hn).1 (hprev.fresh hn).2
    have h₁ := ht.read
    exact h₁.step (Acts.delete h₁.coherent h₁.keyed (h₁.writes.trans hw₀) rfl fun _ => rfl)
      he hnew fun r hr => by cases hr
  | unread hprev hadv hn hread =>
    have hstate := congrArg (·.2.2) hadv
    simp only [Pass.advance_unreadable hn hread] at hstate
    rw [← hstate]
    have ht := hprev.tracks hc₀ hk₀ hw₀
    obtain ⟨he, hnew⟩ := ht.choose hc₀ (hprev.fresh hn).1 (hprev.fresh hn).2
    have h₁ := ht.read
    exact h₁.step (Acts.stay h₁.coherent h₁.keyed rfl fun _ => rfl) he hnew
      fun r hr => by cases hr
  | halted hprev hadv hset => exact hprev.settle (hprev.tracks hc₀ hk₀ hw₀) hc₀ hw₀ hadv hset
  | panicked hprev hadv => exact hprev.panic (hprev.tracks hc₀ hk₀ hw₀) hc₀ hadv

theorem nodup (h : Finished sh₀ d₀ rounds sh d) : (rounds.map (·.1.id)).Nodup := by
  cases h with
  | drained hprev => exact hprev.nodup
  | lost hprev _ hn => exact hprev.nodup_append hn _
  | unread hprev _ hn => exact hprev.nodup_append hn _
  | halted hprev hadv =>
    exact hprev.nodup_append (congrArg Prod.fst (Pass.advance_run hadv).1) _
  | panicked hprev hadv =>
    exact hprev.nodup_append (congrArg Prod.fst (Pass.advance_run hadv).1) _

theorem goesOn (h : Finished sh₀ d₀ rounds sh d) : ∀ q ∈ rounds.dropLast, q.2.goesOn = true := by
  cases h with
  | drained hprev => exact fun q hq => hprev.goesOn q (List.mem_of_mem_dropLast hq)
  | lost hprev => simpa using hprev.goesOn
  | unread hprev => simpa using hprev.goesOn
  | halted hprev => simpa using hprev.goesOn
  | panicked hprev => simpa using hprev.goesOn

end Finished

/-- Every pass run alone over a coherent shelf and a store whose task records name the ids they
are stored under and whose writes work, for every sequence of outcomes: no task is chosen twice,
and only the last round may stop the pass; the shelf ends coherent and reads the first inventory
without the entries of the tasks dropped, in their order; each task chosen came from the first
inventory, keeps its entry exactly when its fate keeps it, was run on the record it had, and has
what its fate leaves of that record; no other record changes, and no run count grows by more
than one. -/
theorem pass_settles_each_task_by_its_fate {sh₀ sh : Shelf} {d₀ d : Depot}
    {rounds : List (Entry × Fate)} (h : Finished sh₀ d₀ rounds sh d) (hc : Coherent (sh₀, d₀))
    (hk : Keyed d₀.store) (hw : d₀.store.failingWrites = []) :
    (rounds.map (·.1.id)).Nodup ∧ (∀ q ∈ rounds.dropLast, q.2.goesOn = true) ∧
      Coherent (sh, d) ∧
      (sh.inventory d).1 = (sh₀.inventory d₀).1.filter (fun x => !droppedBy rounds x) ∧
      (∀ q ∈ rounds, q.1 ∈ (sh₀.inventory d₀).1 ∧
        (q.2.keeps = true → q.1 ∈ (sh.inventory d).1) ∧
        (q.2.keeps = false → ∀ x ∈ (sh.inventory d).1, x.id ≠ q.1.id) ∧
        (∀ r, q.2.ran = some r → storedRecord d₀.store q.1.id = some r) ∧
        storedRecord d.store q.1.id = q.2.leaves (storedRecord d₀.store q.1.id)) ∧
      (∀ id, (∀ q ∈ rounds, q.1.id.text ≠ id.text) →
        storedRecord d.store id = storedRecord d₀.store id) ∧
      (∀ id r r', storedRecord d₀.store id = some r → storedRecord d.store id = some r' →
        r.runs ≤ r'.runs ∧ r'.runs ≤ r.runs + 1) := by
  have ht := h.tracks hc hk hw
  have hnd := h.nodup
  refine ⟨hnd, h.goesOn, ht.coherent, ht.view, fun q hq => ?_, ht.others,
    fun id r r' => ht.runs_le⟩
  obtain ⟨hkeep, hdrop⟩ := ht.mem_view hnd hq
  exact ⟨ht.chosen q hq, hkeep, hdrop, ht.ran q hq, ht.records q hq⟩

/-- A pass over `a` and `b` that deletes `a`, whose run succeeds, and keeps `b`, whose run fails
for a retry, with one run more on its record; then nothing is left to choose. -/
theorem pass_settles_each_task_by_its_fate_success_then_retry :
    let a : Entry := ⟨⟨1⟩, "t", .epoch, none, [], 0⟩
    let b : Entry := ⟨⟨2⟩, "t", .epoch, none, [], 0⟩
    ∃ (d₀ : Depot) (sh : Shelf) (d : Depot),
      Finished ⟨"site", ⟨0⟩, some [a, b]⟩ d₀ [(a, .answered ⟨⟨1⟩, "t", [], 0⟩ (.ok ())),
          (b, .answered ⟨⟨2⟩, "t", [], 0⟩ (.error (.http .serverDown)))] sh d ∧
        (sh.inventory d).1 = [b] ∧ storedRecord d.store ⟨1⟩ = none ∧
        storedRecord d.store ⟨2⟩ = some ⟨⟨2⟩, "t", [], 1⟩ := by
  intro a b
  obtain ⟨s₁, h₁⟩ : ∃ s, MemoryStore.empty.save .tasks (⟨1⟩ : TaskId).text
      (Utf8.encode (⟨⟨1⟩, "t", [], 0⟩ : Record).encode) = .ok s := ⟨_, rfl⟩
  have hw₁ : s₁.failingWrites = [] := (flags_of_save h₁).1
  obtain ⟨s₂, h₂⟩ : ∃ s, s₁.save .tasks (⟨2⟩ : TaskId).text
      (Utf8.encode (⟨⟨2⟩, "t", [], 0⟩ : Record).encode) = .ok s :=
    ⟨_, by unfold save; rw [if_neg (by simp [hw₁])]⟩
  have hw₂ : s₂.failingWrites = [] := (flags_of_save h₂).1.trans hw₁
  obtain ⟨s₃, h₃⟩ : ∃ s, s₂.save .inventory "site" (Utf8.encode (encodeInventory [a, b])) = .ok s :=
    ⟨_, by unfold save; rw [if_neg (by simp [hw₂])]⟩
  have hw₃ : s₃.failingWrites = [] := (flags_of_save h₃).1.trans hw₂
  have hr₃ : s₃.failingReads = [] :=
    (flags_of_save h₃).2.trans ((flags_of_save h₂).2.trans (flags_of_save h₁).2)
  have hc : Coherent (⟨"site", ⟨0⟩, some [a, b]⟩, ⟨s₃, .epoch, []⟩) :=
    ⟨fun inv hinv => by
      cases hinv
      exact storedInventory_of_save h₃ (by decide +kernel), show Time.Instant.epoch.valid by decide⟩
  have hk₀ : Keyed MemoryStore.empty := fun id r h => by cases h
  have hk : Keyed s₃ :=
    ((hk₀.save (r := ⟨⟨1⟩, "t", [], 0⟩) (by decide +kernel) h₁).save (r := ⟨⟨2⟩, "t", [], 0⟩)
      (by decide +kernel) h₂).save_inventory h₃
  have hne : (⟨2⟩ : TaskId).text ≠ (⟨1⟩ : TaskId).text := by decide +kernel
  have hra : storedRecord s₃ ⟨1⟩ = some ⟨⟨1⟩, "t", [], 0⟩ := by
    rw [storedRecord_of_save_inventory h₃, storedRecord_of_save_other h₂ hne,
      storedRecord_of_save (r := ⟨⟨1⟩, "t", [], 0⟩) h₁ (by decide +kernel)]
  have hrb : storedRecord s₃ ⟨2⟩ = some ⟨⟨2⟩, "t", [], 0⟩ := by
    rw [storedRecord_of_save_inventory h₃, storedRecord_of_save (r := ⟨⟨2⟩, "t", [], 0⟩) h₂
      (by decide +kernel)]
  -- the first round: `a` runs and succeeds, and its delete writes the inventory `[b]`
  have hn₁ : Selection.fresh.next (Shelf.inventory ⟨"site", ⟨0⟩, some [a, b]⟩ ⟨s₃, .epoch, []⟩).1
      PassState.start.lastRan PassState.start.lastFailed =
        (some a, (Selection.fresh.next [a, b] none none).2) := by
    rw [Shelf.inventory_of_cache rfl]
    exact Prod.ext (by decide) rfl
  have hadv₁ := Pass.advance_found hn₁ (readTask_of_storedRecord (by simp [hr₃]) hra)
  rw [Shelf.inventory_of_cache rfl] at hadv₁
  have hset₁ : Pass.settle ⟨"site", ⟨0⟩, some [a, b]⟩ ⟨s₃, .epoch, []⟩ a ⟨⟨1⟩, "t", [], 0⟩ (.ok ()) =
      (some ⟨some a, none⟩, (Shelf.delete ⟨"site", ⟨0⟩, some [a, b]⟩ ⟨s₃, .epoch, []⟩ a.id).2.1,
        (Shelf.delete ⟨"site", ⟨0⟩, some [a, b]⟩ ⟨s₃, .epoch, []⟩ a.id).2.2) := rfl
  generalize hdel : Shelf.delete ⟨"site", ⟨0⟩, some [a, b]⟩ ⟨s₃, .epoch, []⟩ a.id = del at hset₁
  obtain ⟨ok, sh₂, d₂⟩ := del
  have hview := (Shelf.delete_view ⟨"site", ⟨0⟩, some [a, b]⟩ ⟨s₃, .epoch, []⟩ a.id).2.1
  have hreads := Shelf.delete_reads ⟨"site", ⟨0⟩, some [a, b]⟩ ⟨s₃, .epoch, []⟩ a.id
  have hrb₂ : storedRecord (Shelf.delete ⟨"site", ⟨0⟩, some [a, b]⟩ ⟨s₃, .epoch, []⟩ a.id).2.2.store
      ⟨2⟩ = storedRecord s₃ ⟨2⟩ := Shelf.delete_record_other a.id hne
  rcases Shelf.delete_shelf (d := ⟨s₃, .epoch, []⟩)
      (rfl : (⟨"site", ⟨0⟩, some [a, b]⟩ : Shelf).cache = some [a, b]) a.id with hsh | hsh <;>
    rw [hdel] at hsh hview hreads hrb₂ <;> dsimp only at hsh hview hreads hrb₂ <;> subst hsh
  · rw [Shelf.inventory_of_cache rfl, Shelf.inventory_of_cache rfl] at hview
    simp only [hw₃] at hview
    exact absurd hview (by decide)
  -- the second round: `b` runs and fails for a retry
  have hcache : ([a, b].filter fun e => e.id != a.id) = [b] := by decide
  rw [hcache] at hset₁
  have hn₂ : (Selection.fresh.next [a, b] none none).2.next
      (Shelf.inventory ⟨"site", ⟨0⟩, some [b]⟩ d₂).1 (⟨some a, none⟩ : PassState).lastRan
        (⟨some a, none⟩ : PassState).lastFailed =
        (some b, ((Selection.fresh.next [a, b] none none).2.next [b] (some a) none).2) := by
    rw [Shelf.inventory_of_cache rfl]
    exact Prod.ext (by decide) rfl
  have hread₂ : Shelf.readTask d₂ ⟨2⟩ = .found ⟨⟨2⟩, "t", [], 0⟩ :=
    readTask_of_storedRecord (by simp [hreads, hr₃]) (hrb₂.trans hrb)
  have hadv₂ := Pass.advance_found hn₂ hread₂
  rw [Shelf.inventory_of_cache rfl] at hadv₂
  have hset₂ : Pass.settle ⟨"site", ⟨0⟩, some [b]⟩ d₂ b ⟨⟨2⟩, "t", [], 0⟩
      (.error (.http .serverDown)) =
        (some ⟨some b, some b⟩, ⟨"site", ⟨0⟩, some [b]⟩, (Shelf.update d₂ b.id 1).2) := rfl
  have hn₃ : (((Selection.fresh.next [a, b] none none).2.next [b] (some a) none).2.next
      (Shelf.inventory ⟨"site", ⟨0⟩, some [b]⟩ (Shelf.update d₂ b.id 1).2).1
        (⟨some b, some b⟩ : PassState).lastRan (⟨some b, some b⟩ : PassState).lastFailed).1 =
        none := by
    rw [Shelf.inventory_of_cache rfl]
    decide
  have hfin := Finished.drained (.round (.round .start hadv₁ hset₁) hadv₂ hset₂)
    (Pass.advance_none hn₃) hn₃
  obtain ⟨-, -, -, hview, hq, -, -⟩ := pass_settles_each_task_by_its_fate hfin hc hk hw₃
  refine ⟨_, _, _, hfin, ?_, ?_, ?_⟩
  · rw [hview, Shelf.inventory_of_cache rfl]
    decide
  · exact (hq (a, .answered ⟨⟨1⟩, "t", [], 0⟩ (.ok ())) (by simp)).2.2.2.2
  · have hb := (hq (b, .answered ⟨⟨2⟩, "t", [], 0⟩ (.error (.http .serverDown))) (by simp)).2.2.2.2
    rw [show b.id = ⟨2⟩ from rfl, hrb] at hb
    exact hb.trans (by decide)

/-! ### Which task a pass chooses -/

/-- At the top of the loop of a pass, whatever the outbox did while its tasks ran: the selection
chooses the first entry of the current inventory that has not run in the pass and belongs to no
group whose opening task failed in it; no task ran twice; no member of a failed group ran after
the failure; the task chosen stands after every task run that is still in the inventory; and when
nothing is chosen, nothing in the inventory may run. -/
theorem pass_chooses_first_runnable {sel : Selection} {st : PassState} {sh : Shelf} {d : Depot}
    {hist : List (Entry × Bool)} (h : PassReach sel st sh d hist) :
    (sel.next (sh.inventory d).1 st.lastRan st.lastFailed).1 =
        firstRunnable hist (sh.inventory d).1 ∧
      (ranIds hist).Nodup ∧
      hist.Pairwise (fun a b => a.2 = true → ∀ g, a.1.groupStart = some g → g ∉ b.1.groupMembers) ∧
      (∀ b, firstRunnable hist (sh.inventory d).1 = some b → ∀ a ∈ hist,
        a.1 ∈ (sh.inventory d).1 → (sh.inventory d).1.idxOf a.1 < (sh.inventory d).1.idxOf b) ∧
      ((sel.next (sh.inventory d).1 st.lastRan st.lastFailed).1 = none →
        ∀ e ∈ (sh.inventory d).1, runnable hist e = false) := by
  have hinv := h.inv
  have hnext := hinv.next_eq d
  refine ⟨hnext, hinv.nodup, hinv.blocked, fun _ => (hinv.cut_inventory d).idxOf_lt_first,
    fun hnone => ?_⟩
  rw [hnext] at hnone
  intro e he
  simpa using List.find?_eq_none.1 hnone e he

/-- A pass over `a`, opening group `g`, then `b`, a member of `g`, then `c`: once `a` has run and
failed for a retry, the selection passes over `b` and chooses `c`. -/
theorem pass_chooses_first_runnable_past_failed_group :
    let a : Entry := ⟨⟨1⟩, "t", default, some "g", [], 0⟩
    let b : Entry := ⟨⟨2⟩, "t", default, none, ["g"], 0⟩
    let c : Entry := ⟨⟨3⟩, "t", default, none, [], 0⟩
    let sel := (Selection.fresh.next [a, b, c] none none).2
    (sel.next [a, b, c] (some a) (some a)).1 = firstRunnable [(a, true)] [a, b, c] ∧
      firstRunnable [(a, true)] [a, b, c] = some c := by
  intro a b c sel
  obtain ⟨s, hsave⟩ : ∃ s, MemoryStore.empty.save .tasks (⟨1⟩ : TaskId).text
      (Utf8.encode (⟨⟨1⟩, "t", [], 0⟩ : Record).encode) = .ok s := ⟨_, rfl⟩
  have hstored : storedRecord s ⟨1⟩ = some ⟨⟨1⟩, "t", [], 0⟩ :=
    storedRecord_of_save (r := ⟨⟨1⟩, "t", [], 0⟩) hsave (by decide +kernel)
  have hread : Shelf.readTask ⟨s, .epoch, []⟩ ⟨1⟩ = .found ⟨⟨1⟩, "t", [], 0⟩ :=
    readTask_of_storedRecord (by simp [(flags_of_save hsave).2, MemoryStore.empty]) hstored
  have hnext : Selection.fresh.next
      (Shelf.inventory ⟨"site", ⟨0⟩, some [a, b, c]⟩ ⟨s, .epoch, []⟩).1 PassState.start.lastRan
        PassState.start.lastFailed = (some a, sel) := by
    rw [Shelf.inventory_of_cache rfl]
    exact Prod.ext (by decide) rfl
  have hadv := Pass.advance_found hnext hread
  rw [Shelf.inventory_of_cache rfl] at hadv
  have hset : Pass.settle ⟨"site", ⟨0⟩, some [a, b, c]⟩ ⟨s, .epoch, []⟩ a ⟨⟨1⟩, "t", [], 0⟩
      (.error (.http .serverDown)) = (some ⟨some a, some a⟩, ⟨"site", ⟨0⟩, some [a, b, c]⟩,
        (Shelf.update ⟨s, .epoch, []⟩ a.id 1).2) := rfl
  have h := (pass_chooses_first_runnable (.round (.start _ _) hadv .refl hset)).1
  rw [Shelf.inventory_of_cache rfl] at h
  exact ⟨h, by decide⟩

end Outbox.Queue
