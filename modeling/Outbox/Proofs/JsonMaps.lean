import Outbox.Proofs.JsonText
import Outbox.Proofs.Codec

/-!
Objects as maps, and what reading a document can give.

Reading turns every object into a map (`toMap`): its members sorted by key, a repeated key keeping
its last value. A value whose objects are all maps already (`Value.sorted`) is read back as itself
(`Value.toValue?_toNode`). Conversely every value that reading gives is such a value, nested no
deeper than the node it was read from, and its integers lie in the ranges the reader keeps as
integers (`read_inRange`, `Node.toValue?_sound`): when it holds no floating-point number, its text
reads back as written.
-/

set_option autoImplicit false

open Outbox.Task (insertTag tagSet)

namespace Outbox.Json

section Members

theorem keys_insertMember (k : String) (v : Value) (l : List (String × Value)) :
    (insertMember k v l).map Prod.fst = insertTag k (l.map Prod.fst) := by
  induction l with
  | nil => rfl
  | cons m rest ih =>
    obtain ⟨k', v'⟩ := m
    by_cases hlt : k < k'
    · simp [insertMember, insertTag, hlt]
    · by_cases heq : k = k'
      · subst heq
        simp [insertMember, insertTag]
      · simp [insertMember, insertTag, hlt, heq, ih]

theorem keys_toMap (ms : List (String × Value)) :
    (toMap ms).map Prod.fst = tagSet (ms.map Prod.fst) := by
  suffices ∀ acc : List (String × Value),
      (ms.foldl (fun acc m => insertMember m.1 m.2 acc) acc).map Prod.fst =
        (ms.map Prod.fst).foldl (fun acc t => insertTag t acc) (acc.map Prod.fst) from this []
  induction ms with
  | nil => intro acc; rfl
  | cons m ms ih =>
    intro acc
    simp only [List.foldl_cons, List.map_cons, ih, keys_insertMember]

theorem toMap_sorted (ms : List (String × Value)) :
    ((toMap ms).map Prod.fst).Pairwise (· < ·) := by
  rw [keys_toMap]
  exact Outbox.Task.tagSet_sorted _

theorem mem_insertMember {k : String} {v : Value} {l : List (String × Value)}
    {m : String × Value} (h : m ∈ insertMember k v l) : m = (k, v) ∨ m ∈ l := by
  induction l with
  | nil => simpa [insertMember] using h
  | cons p rest ih =>
    obtain ⟨k', v'⟩ := p
    rw [insertMember] at h
    split at h
    · simpa using h
    · split at h
      · rcases List.mem_cons.1 h with h | h
        · exact .inl h
        · exact .inr (List.mem_cons_of_mem _ h)
      · rcases List.mem_cons.1 h with h | h
        · exact .inr (h ▸ List.mem_cons_self)
        · rcases ih h with h | h
          · exact .inl h
          · exact .inr (List.mem_cons_of_mem _ h)

theorem mem_foldl_insertMember {m : String × Value} (ms : List (String × Value)) :
    ∀ acc : List (String × Value),
      m ∈ ms.foldl (fun acc m => insertMember m.1 m.2 acc) acc → m ∈ acc ∨ m ∈ ms := by
  induction ms with
  | nil => exact fun _ h => .inl h
  | cons p ms ih =>
    intro acc h
    rcases ih _ h with h | h
    · rcases mem_insertMember h with rfl | h
      · exact .inr List.mem_cons_self
      · exact .inl h
    · exact .inr (List.mem_cons_of_mem _ h)

theorem mem_toMap {ms : List (String × Value)} {m : String × Value} (h : m ∈ toMap ms) :
    m ∈ ms :=
  (mem_foldl_insertMember ms [] h).resolve_left List.not_mem_nil

theorem insertMember_of_lt {k : String} {v : Value} {l : List (String × Value)}
    (h : ∀ m ∈ l, m.1 < k) : insertMember k v l = l ++ [(k, v)] := by
  induction l with
  | nil => rfl
  | cons m rest ih =>
    obtain ⟨k', v'⟩ := m
    have hk := h (k', v') List.mem_cons_self
    rw [insertMember, if_neg (lt_asymm hk), if_neg (ne_of_gt hk),
      ih fun p hp => h p (List.mem_cons_of_mem _ hp)]
    rfl

theorem foldl_insertMember_of_sorted (ms : List (String × Value)) :
    ∀ acc : List (String × Value), ((acc ++ ms).map Prod.fst).Pairwise (· < ·) →
      ms.foldl (fun acc m => insertMember m.1 m.2 acc) acc = acc ++ ms := by
  induction ms with
  | nil => intro acc _; simp
  | cons m ms ih =>
    intro acc h
    rw [List.map_append, List.pairwise_append] at h
    have hm : ∀ p ∈ acc, p.1 < m.1 :=
      fun p hp => h.2.2 _ (List.mem_map_of_mem hp) _ List.mem_cons_self
    have hrest : ((acc ++ [m]) ++ ms).map Prod.fst = acc.map Prod.fst ++ m.1 :: ms.map Prod.fst := by
      simp
    rw [List.foldl_cons, insertMember_of_lt hm, ih _ ?_]
    · simp
    · rw [hrest, List.pairwise_append]
      exact h

theorem toMap_of_sorted {ms : List (String × Value)} (h : (ms.map Prod.fst).Pairwise (· < ·)) :
    toMap ms = ms :=
  foldl_insertMember_of_sorted ms [] h

end Members

section Predicates

mutual
/-- Values whose objects are all maps: each object's keys strictly ascending, as reading leaves
them. -/
def Value.sorted : Value → Bool
  | .array items => Value.itemsSorted items
  | .object members =>
    decide ((members.map Prod.fst).Pairwise (· < ·)) && Value.membersSorted members
  | _ => true

def Value.itemsSorted : List Value → Bool
  | [] => true
  | v :: rest => v.sorted && Value.itemsSorted rest

def Value.membersSorted : List (String × Value) → Bool
  | [] => true
  | (_, v) :: rest => v.sorted && Value.membersSorted rest
end

mutual
def Value.integral : Value → Bool
  | .number (.float _) => false
  | .array items => Value.itemsIntegral items
  | .object members => Value.membersIntegral members
  | _ => true

def Value.itemsIntegral : List Value → Bool
  | [] => true
  | v :: rest => v.integral && Value.itemsIntegral rest

def Value.membersIntegral : List (String × Value) → Bool
  | [] => true
  | (_, v) :: rest => v.integral && Value.membersIntegral rest
end

mutual
/-- Nodes whose integers lie in the ranges the reader keeps as integers: naturals below `2^64`
and negatives down to `-2^63`. -/
def Node.inRange : Node → Bool
  | .number (some (.nat n)) => n < 2 ^ 64
  | .number (some (.neg n)) => 0 < n && n ≤ 2 ^ 63
  | .array items => Node.itemsInRange items
  | .object members => Node.membersInRange members
  | _ => true

def Node.itemsInRange : List Node → Bool
  | [] => true
  | n :: rest => n.inRange && Node.itemsInRange rest

def Node.membersInRange : List (Option String × Node) → Bool
  | [] => true
  | (_, n) :: rest => n.inRange && Node.membersInRange rest
end

/-! The list halves of the predicates are `List.all`, and nesting is a bound over the list. -/

@[simp] theorem Value.itemsSorted_eq_all (l : List Value) :
    Value.itemsSorted l = l.all Value.sorted := by
  induction l with
  | nil => rfl
  | cons v l ih => simp [Value.itemsSorted, ih]

@[simp] theorem Value.membersSorted_eq_all (l : List (String × Value)) :
    Value.membersSorted l = l.all (fun m => m.2.sorted) := by
  induction l with
  | nil => rfl
  | cons m l ih => simp [Value.membersSorted, ih]

@[simp] theorem Value.itemsIntegral_eq_all (l : List Value) :
    Value.itemsIntegral l = l.all Value.integral := by
  induction l with
  | nil => rfl
  | cons v l ih => simp [Value.itemsIntegral, ih]

@[simp] theorem Value.membersIntegral_eq_all (l : List (String × Value)) :
    Value.membersIntegral l = l.all (fun m => m.2.integral) := by
  induction l with
  | nil => rfl
  | cons m l ih => simp [Value.membersIntegral, ih]

@[simp] theorem Value.itemsPlain_eq_all (l : List Value) :
    Value.itemsPlain l = l.all Value.plain := by
  induction l with
  | nil => rfl
  | cons v l ih => simp [Value.itemsPlain, ih]

@[simp] theorem Value.membersPlain_eq_all (l : List (String × Value)) :
    Value.membersPlain l = l.all (fun m => m.2.plain) := by
  induction l with
  | nil => rfl
  | cons m l ih => simp [Value.membersPlain, ih]

@[simp] theorem Node.itemsInRange_eq_all (l : List Node) :
    Node.itemsInRange l = l.all Node.inRange := by
  induction l with
  | nil => rfl
  | cons n l ih => simp [Node.itemsInRange, ih]

@[simp] theorem Node.membersInRange_eq_all (l : List (Option String × Node)) :
    Node.membersInRange l = l.all (fun m => m.2.inRange) := by
  induction l with
  | nil => rfl
  | cons m l ih => simp [Node.membersInRange, ih]

@[simp] theorem Value.itemsToNodes_eq_map (l : List Value) :
    Value.itemsToNodes l = l.map Value.toNode := by
  induction l with
  | nil => rfl
  | cons v l ih => simp [Value.itemsToNodes, ih]

@[simp] theorem Value.membersToNodes_eq_map (l : List (String × Value)) :
    Value.membersToNodes l = l.map (fun m => (some m.1, m.2.toNode)) := by
  induction l with
  | nil => rfl
  | cons m l ih => simp [Value.membersToNodes, ih]

theorem Node.itemsNesting_le_iff {l : List Node} {bound : Nat} :
    Node.itemsNesting l ≤ bound ↔ ∀ n ∈ l, n.nesting ≤ bound := by
  induction l with
  | nil => simp [Node.itemsNesting]
  | cons n l ih => simp [Node.itemsNesting, ih]

theorem Node.membersNesting_le_iff {l : List (Option String × Node)} {bound : Nat} :
    Node.membersNesting l ≤ bound ↔ ∀ m ∈ l, m.2.nesting ≤ bound := by
  induction l with
  | nil => simp [Node.membersNesting]
  | cons m l ih => simp [Node.membersNesting, ih]

end Predicates

section Forward

mutual

theorem Value.toValue?_toNode (v : Value) (h : v.sorted) : v.toNode.toValue? = some v := by
  cases v with
  | null => rfl
  | bool b => rfl
  | number n => rfl
  | str s => rfl
  | array items =>
    have hitems : Value.itemsSorted items := h
    rw [Value.toNode, Node.toValue?, Value.itemsToValues?_itemsToNodes items hitems]
    rfl
  | object members =>
    have hmembers : decide ((members.map Prod.fst).Pairwise (· < ·)) &&
        Value.membersSorted members := h
    rw [Bool.and_eq_true, decide_eq_true_eq] at hmembers
    rw [Value.toNode, Node.toValue?, Value.membersToValues?_membersToNodes members hmembers.2,
      Option.map_some, toMap_of_sorted hmembers.1]
termination_by structural v

theorem Value.itemsToValues?_itemsToNodes (items : List Value) (h : Value.itemsSorted items) :
    Node.itemsToValues? (Value.itemsToNodes items) = some items := by
  cases items with
  | nil => rfl
  | cons v rest =>
    have hcons : v.sorted && Value.itemsSorted rest := h
    rw [Bool.and_eq_true] at hcons
    rw [Value.itemsToNodes, Node.itemsToValues?, Value.toValue?_toNode v hcons.1,
      Value.itemsToValues?_itemsToNodes rest hcons.2]
    rfl
termination_by structural items

theorem Value.membersToValues?_membersToNodes (members : List (String × Value))
    (h : Value.membersSorted members) :
    Node.membersToValues? (Value.membersToNodes members) = some members := by
  cases members with
  | nil => rfl
  | cons m rest =>
    obtain ⟨k, v⟩ := m
    have hcons : v.sorted && Value.membersSorted rest := h
    rw [Bool.and_eq_true] at hcons
    rw [Value.membersToNodes, Node.membersToValues?, Value.toValue?_toNode v hcons.1,
      Value.membersToValues?_membersToNodes rest hcons.2]
    rfl
termination_by structural members

end

end Forward

section Backward

mutual

/-- What a node reads as: a value whose objects are maps, nested no deeper than the node, and
whose integers are in range when the node's are. -/
theorem Node.toValue?_sound (n : Node) {v : Value} (h : n.toValue? = some v) :
    v.sorted ∧ v.toNode.nesting ≤ n.nesting ∧ (n.inRange → v.integral → v.plain) := by
  cases n with
  | null =>
    simp only [Node.toValue?, Option.some.injEq] at h
    subst h
    exact ⟨rfl, le_refl _, fun _ _ => rfl⟩
  | bool b =>
    simp only [Node.toValue?, Option.some.injEq] at h
    subst h
    exact ⟨rfl, le_refl _, fun _ _ => rfl⟩
  | number x =>
    obtain ⟨y, rfl, rfl⟩ := Option.map_eq_some_iff.1 h
    refine ⟨rfl, le_refl _, fun hr hi => ?_⟩
    cases y with
    | nat k => simpa [Node.inRange, Value.plain] using hr
    | neg k => simpa [Node.inRange, Value.plain] using hr
    | float b => simp [Value.integral] at hi
  | text t =>
    obtain ⟨s, rfl, rfl⟩ := Option.map_eq_some_iff.1 h
    exact ⟨rfl, le_refl _, fun _ _ => rfl⟩
  | array items =>
    obtain ⟨vs, hvs, rfl⟩ := Option.map_eq_some_iff.1 h
    have hitems := Node.itemsToValues?_sound items hvs
    refine ⟨?_, ?_, fun hr hi => ?_⟩
    · show Value.itemsSorted vs = true
      simp only [Value.itemsSorted_eq_all, List.all_eq_true]
      exact fun w hw => (hitems w hw).1
    · show Node.itemsNesting (Value.itemsToNodes vs) + 1 ≤ Node.itemsNesting items + 1
      simp only [Value.itemsToNodes_eq_map, Nat.add_le_add_iff_right, Node.itemsNesting_le_iff,
        List.mem_map]
      rintro _ ⟨w, hw, rfl⟩
      exact (hitems w hw).2.1
    · show Value.itemsPlain vs = true
      simp only [Value.integral, Value.itemsIntegral_eq_all, List.all_eq_true] at hi
      simp only [Value.itemsPlain_eq_all, List.all_eq_true]
      exact fun w hw => (hitems w hw).2.2 hr (hi w hw)
  | object members =>
    obtain ⟨ms, hms, rfl⟩ := Option.map_eq_some_iff.1 h
    -- the members of the map are members of the object, whatever the map dropped
    have hmembers : ∀ m ∈ toMap ms, m.2.sorted ∧ m.2.toNode.nesting ≤ Node.membersNesting members ∧
        (Node.membersInRange members → m.2.integral → m.2.plain) :=
      fun m hm => Node.membersToValues?_sound members hms m (mem_toMap hm)
    refine ⟨?_, ?_, fun hr hi => ?_⟩
    · show (decide (((toMap ms).map Prod.fst).Pairwise (· < ·)) &&
        Value.membersSorted (toMap ms)) = true
      simp only [Bool.and_eq_true, decide_eq_true_eq, Value.membersSorted_eq_all,
        List.all_eq_true]
      exact ⟨toMap_sorted ms, fun m hm => (hmembers m hm).1⟩
    · show Node.membersNesting (Value.membersToNodes (toMap ms)) + 1 ≤
        Node.membersNesting members + 1
      simp only [Value.membersToNodes_eq_map, Nat.add_le_add_iff_right,
        Node.membersNesting_le_iff, List.mem_map]
      rintro _ ⟨m, hm, rfl⟩
      exact (hmembers m hm).2.1
    · show Value.membersPlain (toMap ms) = true
      simp only [Value.integral, Value.membersIntegral_eq_all, List.all_eq_true] at hi
      simp only [Value.membersPlain_eq_all, List.all_eq_true]
      exact fun m hm => (hmembers m hm).2.2 hr (hi m hm)
termination_by structural n

theorem Node.itemsToValues?_sound (items : List Node) {vs : List Value}
    (h : Node.itemsToValues? items = some vs) :
    ∀ w ∈ vs, w.sorted ∧ w.toNode.nesting ≤ Node.itemsNesting items ∧
      (Node.itemsInRange items → w.integral → w.plain) := by
  cases items with
  | nil =>
    simp only [Node.itemsToValues?, Option.some.injEq] at h
    subst h
    simp
  | cons n rest =>
    rw [Node.itemsToValues?] at h
    obtain ⟨w₀, h₀, h⟩ := Time.bind_eq_some.1 h
    obtain ⟨ws, hws, h⟩ := Time.bind_eq_some.1 h
    cases h
    have hhead := Node.toValue?_sound n h₀
    have hrest := Node.itemsToValues?_sound rest hws
    intro w hw
    simp only [Node.itemsNesting, Node.itemsInRange, Bool.and_eq_true]
    rcases List.mem_cons.1 hw with rfl | hw
    · exact ⟨hhead.1, le_trans hhead.2.1 (le_max_left _ _), fun hr => hhead.2.2 hr.1⟩
    · obtain ⟨hs, hd, hp⟩ := hrest w hw
      exact ⟨hs, le_trans hd (le_max_right _ _), fun hr => hp hr.2⟩
termination_by structural items

theorem Node.membersToValues?_sound (members : List (Option String × Node))
    {ms : List (String × Value)} (h : Node.membersToValues? members = some ms) :
    ∀ m ∈ ms, m.2.sorted ∧ m.2.toNode.nesting ≤ Node.membersNesting members ∧
      (Node.membersInRange members → m.2.integral → m.2.plain) := by
  cases members with
  | nil =>
    simp only [Node.membersToValues?, Option.some.injEq] at h
    subst h
    simp
  | cons p rest =>
    obtain ⟨k, n⟩ := p
    rw [Node.membersToValues?] at h
    obtain ⟨k, -, h⟩ := Time.bind_eq_some.1 h
    obtain ⟨w₀, h₀, h⟩ := Time.bind_eq_some.1 h
    obtain ⟨ws, hws, h⟩ := Time.bind_eq_some.1 h
    cases h
    have hhead := Node.toValue?_sound n h₀
    have hrest := Node.membersToValues?_sound rest hws
    intro m hm
    simp only [Node.membersNesting, Node.membersInRange, Bool.and_eq_true]
    rcases List.mem_cons.1 hm with rfl | hm
    · exact ⟨hhead.1, le_trans hhead.2.1 (le_max_left _ _), fun hr => hhead.2.2 hr.1⟩
    · obtain ⟨hs, hd, hp⟩ := hrest m hm
      exact ⟨hs, le_trans hd (le_max_right _ _), fun hr => hp hr.2⟩
termination_by structural members

end

end Backward

section Reading

theorem digit?_lt {b : UInt8} {d : Nat} (h : digit? b = some d) : d < 10 := by
  simp only [digit?] at h
  split at h
  · next hb =>
    cases h
    omega
  · cases h

theorem intDigits_le (bs : List UInt8) :
    ∀ sig dropped, sig ≤ significandLimit → (intDigits sig dropped bs).1 ≤ significandLimit := by
  induction bs with
  | nil => exact fun _ _ h => h
  | cons b rest ih =>
    intro sig dropped h
    rw [intDigits]
    split
    · exact h
    · split
      · next hle => exact ih _ _ hle.2
      · exact ih _ _ h

theorem readIntPart_le {bs rest : List UInt8} {sig dropped : Nat}
    (h : readIntPart bs = some (sig, dropped, rest)) : sig ≤ significandLimit := by
  have hlimit : 9 ≤ significandLimit := by rw [significandLimit, Nat.pow_eq]; omega
  cases bs with
  | nil => cases h
  | cons b bs =>
    rw [readIntPart] at h
    split at h
    · cases h
    · split at h
      · cases h
      · cases h
        exact Nat.zero_le _
    · next _ d _ hd =>
      have hsig : (intDigits d 0 bs).1 = sig := congrArg Prod.fst (Option.some.inj h)
      rw [← hsig]
      exact intDigits_le _ _ _ (by have := digit?_lt hd; omega)

theorem readFraction_of_no_point {sig sig' : Nat} {exp exp' : Int} {bs rest : List UInt8}
    (h : readFraction sig exp bs = some (sig', exp', false, rest)) : sig' = sig := by
  cases bs with
  | nil =>
    cases h
    rfl
  | cons b bs =>
    rw [readFraction] at h
    split at h
    · split at h
      · cases h
      · cases h
    · cases h
      rfl

/-- A number is read as an integer only in the ranges kept as integers. -/
theorem readNumber_inRange {negative : Bool} {bs rest : List UInt8} {x : Option Number}
    (h : readNumber negative bs = some (x, rest)) : (Node.number x).inRange := by
  rw [readNumber] at h
  obtain ⟨⟨sig, dropped, r₁⟩, hint, h⟩ := Time.bind_eq_some.1 h
  obtain ⟨⟨sig', exp, point, r₂⟩, hfrac, h⟩ := Time.bind_eq_some.1 h
  obtain ⟨⟨exp', hasExp, r₃⟩, -, h⟩ := Time.bind_eq_some.1 h
  dsimp only at h
  -- a double is in range whatever it is; an integer was checked on the way
  split_ifs at h with hexact hsign hrange
  · cases h
    have hpoint : point = false := by simpa using hexact.2.1
    have hsig : sig' = sig := readFraction_of_no_point (hpoint ▸ hfrac)
    have hle := readIntPart_le hint
    simp only [Node.inRange, decide_eq_true_eq]
    rw [significandLimit, Nat.pow_eq] at hle
    omega
  · cases h
    simp only [Node.inRange, Bool.and_eq_true, decide_eq_true_eq]
    rw [Nat.pow_eq] at hrange
    exact hrange
  all_goals
    cases h
    cases Decimal.ofParts _ _ _ <;> rfl

/-- Every node the reader gives has its integers in range: by induction on the fuel, which the
value, item and member readers share. -/
theorem read_inRange_fuel (fuel : Nat) :
    (∀ bs n r, readValue fuel bs = some (n, r) → n.inRange) ∧
    (∀ acc bs ns r, (∀ x ∈ acc, x.inRange) → readItems fuel acc bs = some (ns, r) →
      ∀ x ∈ ns, x.inRange) ∧
    (∀ acc bs ms r, (∀ m ∈ acc, m.2.inRange) → readMembers fuel acc bs = some (ms, r) →
      ∀ m ∈ ms, m.2.inRange) := by
  induction fuel with
  | zero =>
    refine ⟨fun _ _ _ h => ?_, fun _ _ _ _ _ h => ?_, fun _ _ _ _ _ h => ?_⟩ <;>
      simp [readValue, readItems, readMembers] at h
  | succ fuel ih =>
    obtain ⟨hvalue, hitems, hmembers⟩ := ih
    refine ⟨?_, ?_, ?_⟩
    · intro bs n r h
      rw [readValue] at h
      split at h
      · cases h
      · -- one branch per first octet: words and text hold no number, the rest is read on
        split_ifs at h
        · obtain ⟨_, -, ⟨⟩⟩ := Option.map_eq_some_iff.1 h
          rfl
        · obtain ⟨_, -, ⟨⟩⟩ := Option.map_eq_some_iff.1 h
          rfl
        · obtain ⟨_, -, ⟨⟩⟩ := Option.map_eq_some_iff.1 h
          rfl
        · obtain ⟨⟨_, _⟩, -, ⟨⟩⟩ := Option.map_eq_some_iff.1 h
          rfl
        · obtain ⟨⟨_, _⟩, hx, ⟨⟩⟩ := Option.map_eq_some_iff.1 h
          exact readNumber_inRange hx
        · obtain ⟨⟨_, _⟩, hx, ⟨⟩⟩ := Option.map_eq_some_iff.1 h
          exact readNumber_inRange hx
        · cases h
          rfl
        · obtain ⟨⟨items, _⟩, hread, ⟨⟩⟩ := Option.map_eq_some_iff.1 h
          simpa [Node.inRange] using hitems _ _ _ _ (by simp) hread
        · cases h
          rfl
        · obtain ⟨⟨ms, _⟩, hread, ⟨⟩⟩ := Option.map_eq_some_iff.1 h
          simpa [Node.inRange] using hmembers _ _ _ _ (by simp) hread
    · intro acc bs ns r hacc h
      rw [readItems] at h
      split at h
      · cases h
      · next v rest hv =>
        have hcons : ∀ x ∈ v :: acc, x.inRange := by
          intro x hx
          rcases List.mem_cons.1 hx with rfl | hx
          · exact hvalue _ _ _ hv
          · exact hacc x hx
        dsimp only at h
        split at h
        · exact hitems _ _ _ _ hcons h
        · split at h
          · cases h
            exact fun x hx => hcons x (List.mem_reverse.1 hx)
          · cases h
    · intro acc bs ms r hacc h
      rw [readMembers] at h
      dsimp only at h
      split at h
      · split at h
        · cases h
        · next k r' _ =>
          split at h
          · split at h
            · cases h
            · next v rest hv =>
              have hcons : ∀ m ∈ (k, v) :: acc, m.2.inRange := by
                intro m hm
                rcases List.mem_cons.1 hm with rfl | hm
                · exact hvalue _ _ _ hv
                · exact hacc m hm
              split at h
              · exact hmembers _ _ _ _ hcons h
              · split at h
                · cases h
                  exact fun m hm => hcons m (List.mem_reverse.1 hm)
                · cases h
          · cases h
      · cases h

theorem read_inRange {bs : List UInt8} {n : Node} (h : read bs = some n) : n.inRange := by
  rw [read] at h
  split at h
  · next v rest hv =>
    split at h
    · cases h
      exact (read_inRange_fuel _).1 _ _ _ hv
    · cases h
  · cases h

end Reading

section Records

/-- A map field read from an object node: a value whose objects are maps, nested within what is
left of the document's depth, with its integers in range when the node's are. -/
theorem Node.mapAt?_sound {depth : Nat} {n : Node} {ms : List (String × Value)}
    (h : n.mapAt? depth = some ms) :
    (Value.object ms).sorted ∧ (Value.object ms).toNode.nesting ≤ maxNesting - depth ∧
      (n.inRange → (Value.object ms).integral → (Value.object ms).plain) := by
  cases n with
  | object members =>
    rw [Node.mapAt?] at h
    split at h
    · next ms' hv =>
      cases h
      rw [Node.valueWithin?] at hv
      split at hv
      · next hdepth =>
        obtain ⟨hs, hd, hp⟩ := Node.toValue?_sound _ hv
        exact ⟨hs, le_trans hd hdepth, hp⟩
      · cases hv
    · cases h
  | null => simp [Node.mapAt?] at h
  | bool _ => simp [Node.mapAt?] at h
  | number _ => simp [Node.mapAt?] at h
  | text _ => simp [Node.mapAt?] at h
  | array _ => simp [Node.mapAt?] at h

theorem Value.mapAt?_toNode {depth : Nat} {ms : List (String × Value)}
    (hs : (Value.object ms).sorted) (hd : (Value.object ms).toNode.nesting ≤ maxNesting - depth) :
    (Value.object ms).toNode.mapAt? depth = some ms := by
  have hnesting : (Node.object (Value.membersToNodes ms)).nesting ≤ maxNesting - depth := hd
  have hv : (Node.object (Value.membersToNodes ms)).valueWithin? (maxNesting - depth) =
      some (.object ms) := by
    rw [Node.valueWithin?, if_pos hnesting]
    exact Value.toValue?_toNode _ hs
  show (Node.object (Value.membersToNodes ms)).mapAt? depth = some ms
  simp only [Node.mapAt?, hv]

theorem collectFields_mem {names : List String} :
    ∀ {members : List (Option String × Node)} {acc found : List (String × Node)},
      collectFields names members acc = some found →
        ∀ p ∈ found, p ∈ acc ∨ (some p.1, p.2) ∈ members
  | [], acc, found, h => by
    cases h
    exact fun p hp => .inl hp
  | (none, _) :: _, _, _, h => by cases h
  | (some k, v) :: rest, acc, found, h => by
    rw [collectFields] at h
    intro p hp
    split at h
    · split at h
      · cases h
      · rcases collectFields_mem h p hp with hp | hp
        · rcases List.mem_cons.1 hp with rfl | hp
          · exact .inr List.mem_cons_self
          · exact .inl hp
        · exact .inr (List.mem_cons_of_mem _ hp)
    · rcases collectFields_mem h p hp with hp | hp
      · exact .inl hp
      · exact .inr (List.mem_cons_of_mem _ hp)

/-- The fields of a record are nodes of the node it is read from. -/
theorem Node.fields?_inRange {names : List String} {n : Node} {fs : List (Option Node)}
    (hn : n.inRange) (h : n.fields? names = some fs) : ∀ f ∈ fs, ∀ x ∈ f, x.inRange := by
  cases n with
  | object members =>
    rw [Node.fields?] at h
    obtain ⟨found, hfound, h⟩ := Time.bind_eq_some.1 h
    cases h
    simp only [List.mem_map, Option.mem_def]
    rintro _ ⟨name, -, rfl⟩ x hx
    obtain ⟨l₁, l₂, rfl, -⟩ := List.lookup_eq_some_iff.1 hx
    rcases collectFields_mem hfound (name, x) (by simp) with hp | hp
    · cases hp
    · simp only [Node.inRange, Node.membersInRange_eq_all, List.all_eq_true] at hn
      exact hn _ hp
  | array items =>
    rw [Node.fields?] at h
    split at h
    · cases h
      simp only [List.mem_append, List.mem_map, List.mem_replicate, Option.mem_def]
      rintro _ (⟨y, hy, rfl⟩ | ⟨-, rfl⟩) x hx
      · cases hx
        simp only [Node.inRange, Node.itemsInRange_eq_all, List.all_eq_true] at hn
        exact hn _ hy
      · cases hx
    · cases h
  | null => cases h
  | bool _ => cases h
  | number _ => cases h
  | text _ => cases h

end Records

end Outbox.Json
