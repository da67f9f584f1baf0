import Outbox.Proofs.Encodings
import Outbox.Proofs.InventoryCache
import Outbox.Config
import Outbox.Store.Files

/-!
Which keys the directory store can keep.

A key names the file `<key>.json`, and a save first writes `<key>.json.tmp`: a valid key is saved
and read back exactly when that temporary name fits the file system's limit, while reading needs
only the shorter final name to fit (`FileStore.get_save`, `FileStore.save_of_long`,
`FileStore.get_of_short`).

Both kinds of keys an outbox hands the store pass its check: a task's key is its 26-symbol text,
and a checked configuration's site id holds only ASCII letters, digits, `-` and `_`, the store's
own alphabet. Nothing bounds the site id's length, so a site id of 247 to 250 characters names an
inventory that can be read but never written (`queue_keys_store_within_name_limit`).
-/

set_option autoImplicit false

namespace Outbox.Store

theorem utf8Size_of_isAlphanum {c : Char} (h : c.isAlphanum) : c.utf8Size = 1 := by
  simp only [Char.isAlphanum, Char.isAlpha, Char.isDigit, Char.isUpper, Char.isLower,
    Bool.or_eq_true, Bool.and_eq_true, decide_eq_true_eq, UInt32.le_iff_toNat_le] at h
  rw [Char.utf8Size_eq_one_iff, UInt32.le_iff_toNat_le]
  have : 'Z'.val.toNat = 90 := rfl
  have : 'z'.val.toNat = 122 := rfl
  have : '9'.val.toNat = 57 := rfl
  have : (127 : UInt32).toNat = 127 := rfl
  omega

theorem utf8ByteSize_of_utf8Size {s : String} (h : ∀ c ∈ s.toList, c.utf8Size = 1) :
    s.utf8ByteSize = s.length := by
  rw [← String.ofList_toList (s := s), Task.TaskId.utf8ByteSize_ofList, String.length_ofList,
    List.map_congr_left h]
  simp

theorem utf8ByteSize_of_validKey {key : String} (h : validKey key) :
    key.utf8ByteSize = key.length := by
  simp only [validKey, Bool.and_eq_true, Bool.not_eq_true', List.all_eq_true] at h
  refine utf8ByteSize_of_utf8Size fun c hc => ?_
  have hc := h.2 c hc
  simp only [Bool.or_eq_true, decide_eq_true_eq] at hc
  rcases hc with (hc | rfl) | rfl
  · exact utf8Size_of_isAlphanum hc
  · rfl
  · rfl

namespace FileStore

variable {s : FileStore} {kind : RecordKind} {key : String} {bytes : List UInt8}

@[simp] theorem records_withDirectory : (s.withDirectory kind).records = s.records := by
  unfold withDirectory
  split <;> rfl

theorem contains_withDirectory : (s.withDirectory kind).directories.contains kind := by
  unfold withDirectory
  split
  · assumption
  · simp

theorem save_of_fits (hk : validKey key) (hl : key.utf8ByteSize + 9 ≤ maxNameLength) :
    s.save kind key bytes =
      (.ok (), { s.withDirectory kind with records := MemoryStore.put s.records kind key bytes }) := by
  have htmp : ".json.tmp".utf8ByteSize = 9 := rfl
  simp only [save, hk, Bool.not_true, Bool.false_eq_true, ↓reduceIte, htmp, records_withDirectory]
  rw [if_neg (by omega)]

theorem get_save (hk : validKey key) (hl : key.utf8ByteSize + 9 ≤ maxNameLength) :
    (s.save kind key bytes).2.get kind key = .ok (some bytes) := by
  have hname : ".json".utf8ByteSize = 5 := rfl
  rw [save_of_fits hk hl]
  simp only [get, lookup, hk, contains_withDirectory, Bool.not_true, Bool.false_eq_true,
    ↓reduceIte, hname]
  rw [if_neg (by omega)]
  exact congrArg Except.ok (MemoryStore.find?_put_self s.records bytes)

theorem save_of_long (hk : validKey key) (hl : maxNameLength < key.utf8ByteSize + 9) :
    (s.save kind key bytes).1 = .error .io := by
  have htmp : ".json.tmp".utf8ByteSize = 9 := rfl
  simp only [save, hk, Bool.not_true, Bool.false_eq_true, ↓reduceIte, htmp]
  rw [if_pos hl]

theorem get_of_short (hk : validKey key) (hl : key.utf8ByteSize + 5 ≤ maxNameLength) :
    ∃ b, s.get kind key = .ok b := by
  have hname : ".json".utf8ByteSize = 5 := rfl
  simp only [get, lookup, hk, Bool.not_true, Bool.false_eq_true, ↓reduceIte, hname]
  split
  · exact ⟨none, rfl⟩
  · rw [if_neg (by omega)]
    exact ⟨_, rfl⟩

end FileStore

theorem Config.validKey_siteId {c : Config} (h : c.check = none) : validKey c.siteId := by
  unfold Config.check at h
  split at h
  · cases h
  · rename_i hblank
    split at h
    · cases h
    · rename_i hall
      have hne : c.siteId.isEmpty = false := by
        cases hs : c.siteId.isEmpty
        · rfl
        · rw [String.isEmpty_iff.1 hs] at hblank
          exact absurd rfl hblank
      simp only [Bool.not_eq_true', Bool.not_eq_false] at hall
      simp only [validKey, hne, Bool.not_false, Bool.true_and]
      exact hall

private theorem symbol_isAlphanum : ∀ v : Fin 32, (Task.TaskId.symbol v).isAlphanum := by
  decide

theorem Task.TaskId.validKey_text (id : Task.TaskId) : validKey id.text := by
  have hne : id.text.isEmpty = false := by
    cases hs : id.text.isEmpty
    · rfl
    · have := Task.TaskId.utf8ByteSize_text id
      rw [String.isEmpty_iff.1 hs] at this
      cases this
  simp only [validKey, hne, Bool.not_false, Bool.true_and, List.all_eq_true, Bool.or_eq_true,
    decide_eq_true_eq]
  intro c hc
  simp only [Task.TaskId.text, String.toList_ofList, List.mem_map] at hc
  obtain ⟨i, -, rfl⟩ := hc
  exact .inl (.inl (symbol_isAlphanum ⟨_, Nat.mod_lt _ (by omega)⟩))

/-- Every key an outbox with a checked configuration hands the directory store passes the store's
check. A task's record is saved and read back under its key. The site's inventory is saved and
read back when the site id has at most 246 characters, and never saved when it has more, though
up to 250 characters it can still be read. -/
theorem queue_keys_store_within_name_limit (c : Config) (hc : c.check = none)
    (id : Task.TaskId) (s : FileStore) (bytes : List UInt8) :
    validKey c.siteId ∧ validKey id.text ∧
    ((s.save .tasks id.text bytes).1 = .ok () ∧
      (s.save .tasks id.text bytes).2.get .tasks id.text = .ok (some bytes)) ∧
    (c.siteId.length ≤ 246 → (s.save .inventory c.siteId bytes).1 = .ok () ∧
      (s.save .inventory c.siteId bytes).2.get .inventory c.siteId = .ok (some bytes)) ∧
    (246 < c.siteId.length → (s.save .inventory c.siteId bytes).1 = .error .io) ∧
    (c.siteId.length ≤ 250 → ∃ b, s.get .inventory c.siteId = .ok b) := by
  have hsite := Config.validKey_siteId hc
  have hid := Task.TaskId.validKey_text id
  have hsize := utf8ByteSize_of_validKey hsite
  have hidsize := Task.TaskId.utf8ByteSize_text id
  have hmax : maxNameLength = 255 := rfl
  refine ⟨hsite, hid, ⟨?_, FileStore.get_save hid (by omega)⟩, fun hl => ⟨?_,
    FileStore.get_save hsite (by omega)⟩, fun hl => FileStore.save_of_long hsite (by omega),
    fun hl => FileStore.get_of_short hsite (by omega)⟩
  · rw [FileStore.save_of_fits hid (by omega)]
  · rw [FileStore.save_of_fits hsite (by omega)]

/-- The default site's inventory is saved in an empty directory; a checked site id of 247
characters is refused by the save, though its inventory can still be read. -/
theorem queue_keys_store_within_name_limit_long_site :
    let c : Config := { Config.default with siteId := String.ofList (List.replicate 247 'a') }
    Config.default.check = none ∧
      (FileStore.empty.save .inventory Config.default.siteId []).1 = .ok () ∧
      c.check = none ∧ (FileStore.empty.save .inventory c.siteId []).1 = .error .io ∧
      ∃ b, FileStore.empty.get .inventory c.siteId = .ok b := by
  intro c
  have hdef : Config.default.check = none := by decide
  have hc : c.check = none := by decide +kernel
  have hshort := queue_keys_store_within_name_limit _ hdef ⟨0⟩ FileStore.empty []
  have hlong := queue_keys_store_within_name_limit c hc ⟨0⟩ FileStore.empty []
  have hlen : c.siteId.length = 247 := by decide +kernel
  exact ⟨hdef, (hshort.2.2.2.1 (by decide)).1, hc, hlong.2.2.2.2.1 (by omega),
    hlong.2.2.2.2.2 (by omega)⟩

end Outbox.Store
