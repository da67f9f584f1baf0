import Outbox.Proofs.Encodings
import Outbox.Sdk.Task

/-!
Where the identifiers and tokens of SDK tasks stand in their request paths.

A path is read as its segments, the text between slashes (`pathSegments`), and a segment as the
octets its percent escapes stand for (`Text.percentDecode?`, the reading of RFC 3986, section
2.1). Every user string is written as its percent-encoding, which holds no slash and reads back as
the string: each string fills exactly one segment, fixed by the kind of task, so the path tells
the strings apart (`request_paths_keep_user_strings_in_segments`).

The encoding leaves `.` alone, so the segment of the identifier `.` or `..` is a dot-segment, which
dot-segment removal (RFC 3986, section 5.2.4; `normalizeSegments`) takes out of the path with the
segment before it (`dot_identifier_leaves_customers`). For every other string the path has no
dot-segment and removal leaves it as it is.
-/

set_option autoImplicit false

namespace Outbox.Text

def hexValue? (c : Char) : Option Nat :=
  if '0' ≤ c ∧ c ≤ '9' then some (c.toNat - 48)
  else if 'A' ≤ c ∧ c ≤ 'F' then some (c.toNat - 55)
  else if 'a' ≤ c ∧ c ≤ 'f' then some (c.toNat - 87)
  else none

/-- The octets percent-encoded text stands for: `%` and two hexadecimal digits stand for one
octet, any other character for its UTF-8 octets. -/
def percentOctets? : List Char → Option (List UInt8)
  | [] => some []
  | '%' :: h :: l :: rest => do
    let a ← hexValue? h
    let b ← hexValue? l
    let bs ← percentOctets? rest
    pure ((16 * a + b).toUInt8 :: bs)
  | '%' :: _ => none
  | c :: rest => (Utf8.encodeChar c ++ ·) <$> percentOctets? rest

/-- The text percent-encoded text stands for, when its octets are UTF-8. -/
def percentDecode? (s : String) : Option String :=
  percentOctets? s.toList >>= Utf8.toText?

private theorem upperHex_table :
    ∀ d : Fin 16, hexValue? (upperHex d) = some d ∧ upperHex d ≠ '%' ∧ upperHex d ≠ '/' := by
  decide

theorem hexValue?_upperHex {d : Nat} (h : d < 16) : hexValue? (upperHex d) = some d :=
  (upperHex_table ⟨d, h⟩).1

theorem lt_of_isUnreserved {b : UInt8} (h : isUnreserved b) :
    b.toNat < 128 ∧ b.toNat ≠ 0x25 ∧ b.toNat ≠ 0x2F := by
  simp only [isUnreserved, Bool.or_eq_true, Bool.and_eq_true, decide_eq_true_eq,
    beq_iff_eq] at h
  omega

theorem toNat_ofNat_octet (b : UInt8) : (Char.ofNat b.toNat).toNat = b.toNat := by
  rw [Char.toNat_ofNat, if_pos (Or.inl (by have := b.toNat_lt; omega))]

theorem percentOctets?_cons_of_ne {c : Char} (hc : c ≠ '%') (rest : List Char) :
    percentOctets? (c :: rest) = (Utf8.encodeChar c ++ ·) <$> percentOctets? rest := by
  simp [percentOctets?, hc]

theorem percentOctets?_percentOctet (b : UInt8) (cs : List Char) :
    percentOctets? (percentOctet b ++ cs) = (percentOctets? cs).map (b :: ·) := by
  unfold percentOctet
  split
  · rename_i hb
    obtain ⟨hlt, hpct, -⟩ := lt_of_isUnreserved hb
    have hc : Char.ofNat b.toNat ≠ '%' := fun h => hpct (by rw [← toNat_ofNat_octet b, h]; rfl)
    rw [List.singleton_append, percentOctets?_cons_of_ne hc,
      Utf8.encodeChar_of_lt (by rw [toNat_ofNat_octet]; omega), toNat_ofNat_octet]
    simp
  · -- a percent escape: the two digits give back the octet's high and low half
    have hhi : b.toNat / 16 < 16 := by have := b.toNat_lt; omega
    have hlo : b.toNat % 16 < 16 := Nat.mod_lt _ (by omega)
    simp only [List.cons_append, List.nil_append, percentOctets?, hexValue?_upperHex hhi,
      hexValue?_upperHex hlo, Option.bind_eq_bind, Option.bind_some]
    rw [show 16 * (b.toNat / 16) + b.toNat % 16 = b.toNat by omega]
    cases percentOctets? cs <;> simp

theorem percentOctets?_flatMap (bs : List UInt8) :
    percentOctets? (bs.flatMap percentOctet) = some bs := by
  induction bs with
  | nil => rfl
  | cons b bs ih => rw [List.flatMap_cons, percentOctets?_percentOctet, ih]; rfl

theorem percentDecode?_percentEncode (s : String) : percentDecode? (percentEncode s) = some s := by
  simp only [percentDecode?, percentEncode, String.toList_ofList, percentOctets?_flatMap,
    Option.bind_eq_bind, Option.bind_some, Outbox.Utf8.toText?_encode]

theorem percentEncode_injective {s t : String} (h : percentEncode s = percentEncode t) : s = t := by
  have hs := percentDecode?_percentEncode s
  rw [h, percentDecode?_percentEncode] at hs
  exact Option.some.inj hs.symm

theorem slash_not_mem_percentEncode (s : String) : '/' ∉ (percentEncode s).toList := by
  simp only [percentEncode, String.toList_ofList, List.mem_flatMap, not_exists, not_and]
  intro b _ hb
  unfold percentOctet at hb
  split at hb
  · rename_i hu
    obtain ⟨-, -, hslash⟩ := lt_of_isUnreserved hu
    simp only [List.mem_singleton] at hb
    exact hslash (by rw [← toNat_ofNat_octet b, ← hb]; rfl)
  · have hhi : b.toNat / 16 < 16 := by have := b.toNat_lt; omega
    have hlo : b.toNat % 16 < 16 := Nat.mod_lt _ (by omega)
    simp only [List.mem_cons, List.not_mem_nil, or_false] at hb
    rcases hb with h | h | h
    · cases h
    · exact (upperHex_table ⟨_, hhi⟩).2.2 h.symm
    · exact (upperHex_table ⟨_, hlo⟩).2.2 h.symm

end Outbox.Text

namespace Outbox.Http

open Outbox.Text Outbox.Sdk

/-- The segments of a path: the texts between its slashes, in order. An absolute path's first
segment is the empty text before its leading slash. -/
def pathSegments (p : String) : List String := (p.toList.splitOn '/').map String.ofList

/-- A dot-segment, `.` or `..`: the segment before it itself, or its parent. -/
def IsDotSegment (s : String) : Prop := s = "." ∨ s = ".."

instance (s : String) : Decidable (IsDotSegment s) := inferInstanceAs (Decidable (_ ∨ _))

/-- Dot-segment removal (RFC 3986, section 5.2.4) on the segments after an absolute path's
leading slash, `kept` holding the segments kept so far, the last first. A `.` is dropped and a
`..` drops the last segment kept; either leaves an empty last segment, a trailing slash, when it
ends the path. -/
def dropDots (kept : List String) : List String → List String
  | [] => kept.reverse
  | [s] =>
    if s = "." then ("" :: kept).reverse
    else if s = ".." then ("" :: kept.tail).reverse
    else (s :: kept).reverse
  | s :: rest =>
    if s = "." then dropDots kept rest
    else if s = ".." then dropDots kept.tail rest
    else dropDots (s :: kept) rest

/-- The segments of a path after dot-segment removal; a relative path is left as it is. -/
def normalizeSegments : List String → List String
  | "" :: segs => "" :: dropDots [] segs
  | segs => segs

theorem dropDots_of_plain (kept segs : List String) (h : ∀ s ∈ segs, ¬IsDotSegment s) :
    dropDots kept segs = kept.reverse ++ segs := by
  induction segs generalizing kept with
  | nil => simp [dropDots]
  | cons s rest ih =>
    have hs : ¬IsDotSegment s := h s List.mem_cons_self
    simp only [IsDotSegment, not_or] at hs
    cases rest with
    | nil => simp [dropDots, hs.1, hs.2]
    | cons r more =>
      rw [dropDots, if_neg hs.1, if_neg hs.2, ih _ fun x hx => h x (List.mem_cons_of_mem _ hx)]
      · simp
      · exact List.cons_ne_nil r more

theorem normalizeSegments_of_plain {segs : List String} (h : ∀ s ∈ segs, ¬IsDotSegment s) :
    normalizeSegments ("" :: segs) = "" :: segs := by
  rw [normalizeSegments, dropDots_of_plain [] segs h]
  rfl

theorem pathSegments_append_slash (p s : String) (h : '/' ∉ s.toList) :
    pathSegments (p ++ "/" ++ s) = pathSegments p ++ [s] := by
  have hslash : "/".toList = ['/'] := by decide
  rw [pathSegments, String.toList_append, String.toList_append, hslash, List.append_assoc,
    List.singleton_append, List.splitOn_append_cons_self, List.splitOn_eq_singleton h]
  simp [pathSegments]

theorem pathSegments_customerPath (i : String) :
    pathSegments (SdkTask.customerPath i) = ["", "api", "v1", "customers", percentEncode i] := by
  have hpath : SdkTask.customerPath i = "/api/v1/customers" ++ "/" ++ percentEncode i := rfl
  have hbase : pathSegments "/api/v1/customers" = ["", "api", "v1", "customers"] := by decide
  rw [hpath, pathSegments_append_slash _ _ (slash_not_mem_percentEncode i), hbase]
  rfl

theorem pathSegments_identifyProfile (i : String) (a : List (String × Json.Value)) :
    pathSegments (SdkTask.identifyProfile i a).request.path =
      ["", "api", "v1", "customers", percentEncode i] :=
  pathSegments_customerPath i

theorem pathSegments_trackEvent (i n : String) (d : List (String × Json.Value))
    (ts : Option Time.Instant) :
    pathSegments (SdkTask.trackEvent i n d ts).request.path =
      ["", "api", "v1", "customers", percentEncode i, "events"] := by
  have hpath : (SdkTask.trackEvent i n d ts).request.path =
      SdkTask.customerPath i ++ "/" ++ "events" := by
    rw [String.append_assoc]; rfl
  rw [hpath, pathSegments_append_slash _ _ (by decide), pathSegments_customerPath]
  rfl

theorem pathSegments_registerPushToken (i t p : String) (l : Time.Instant) :
    pathSegments (SdkTask.registerPushToken i t p l).request.path =
      ["", "api", "v1", "customers", percentEncode i, "devices"] := by
  have hpath : (SdkTask.registerPushToken i t p l).request.path =
      SdkTask.customerPath i ++ "/" ++ "devices" := by
    rw [String.append_assoc]; rfl
  rw [hpath, pathSegments_append_slash _ _ (by decide), pathSegments_customerPath]
  rfl

theorem pathSegments_deletePushToken (i t : String) :
    pathSegments (SdkTask.deletePushToken i t).request.path =
      ["", "api", "v1", "customers", percentEncode i, "devices", percentEncode t] := by
  have hpath : (SdkTask.deletePushToken i t).request.path =
      SdkTask.customerPath i ++ "/" ++ "devices" ++ "/" ++ percentEncode t := by
    have hlit : "/devices/" = "/" ++ "devices" ++ "/" := by decide
    show SdkTask.customerPath i ++ "/devices/" ++ percentEncode t = _
    rw [hlit]
    simp only [String.append_assoc]
  rw [hpath, pathSegments_append_slash _ _ (slash_not_mem_percentEncode t),
    pathSegments_append_slash _ _ (by decide), pathSegments_customerPath]
  rfl

theorem isDotSegment_percentEncode (s : String) :
    IsDotSegment (percentEncode s) ↔ IsDotSegment s := by
  have hdot : percentEncode "." = "." := by decide
  have hdots : percentEncode ".." = ".." := by decide
  constructor
  · rintro (h | h)
    · exact .inl (percentEncode_injective (h.trans hdot.symm))
    · exact .inr (percentEncode_injective (h.trans hdots.symm))
  · rintro (rfl | rfl)
    · exact .inl hdot
    · exact .inr hdots

/-- A path is normal when dot-segment removal leaves its segments as they are. -/
def IsNormalPath (p : String) : Prop := normalizeSegments (pathSegments p) = pathSegments p

theorem normalizeSegments_customer {i : String} (hi : ¬IsDotSegment i) (rest : List String)
    (hrest : ∀ s ∈ rest, ¬IsDotSegment s) :
    normalizeSegments (["", "api", "v1", "customers", percentEncode i] ++ rest) =
      ["", "api", "v1", "customers", percentEncode i] ++ rest := by
  have henc : ¬IsDotSegment (percentEncode i) := (isDotSegment_percentEncode i).not.2 hi
  rw [List.cons_append]
  refine normalizeSegments_of_plain fun s hs => ?_
  simp only [List.cons_append, List.nil_append, List.mem_cons] at hs
  rcases hs with rfl | rfl | rfl | rfl | hs
  · decide
  · decide
  · decide
  · exact henc
  · exact hrest s hs

theorem deletePushToken_path_injective {i t i' t' : String}
    (h : (SdkTask.deletePushToken i t).request.path =
      (SdkTask.deletePushToken i' t').request.path) : i = i' ∧ t = t' := by
  have hsegs := congrArg pathSegments h
  simp only [pathSegments_deletePushToken, List.cons.injEq, true_and, and_true] at hsegs
  exact ⟨percentEncode_injective hsegs.1, percentEncode_injective hsegs.2⟩

theorem request_paths_normal {i t n p : String} (a d : List (String × Json.Value))
    (ts : Option Time.Instant) (l : Time.Instant) (hi : ¬IsDotSegment i)
    (ht : ¬IsDotSegment t) :
    IsNormalPath (SdkTask.identifyProfile i a).request.path ∧
      IsNormalPath (SdkTask.trackEvent i n d ts).request.path ∧
      IsNormalPath (SdkTask.registerPushToken i t p l).request.path ∧
      IsNormalPath (SdkTask.deletePushToken i t).request.path := by
  have ht' : ¬IsDotSegment (percentEncode t) := (isDotSegment_percentEncode t).not.2 ht
  unfold IsNormalPath
  rw [pathSegments_identifyProfile, pathSegments_trackEvent, pathSegments_registerPushToken,
    pathSegments_deletePushToken]
  refine ⟨by simpa using normalizeSegments_customer hi [] (by simp),
    normalizeSegments_customer hi ["events"] (by decide),
    normalizeSegments_customer hi ["devices"] (by decide),
    normalizeSegments_customer hi ["devices", percentEncode t] ?_⟩
  simp only [List.mem_cons, List.not_mem_nil, or_false]
  rintro s (rfl | rfl)
  · decide
  · exact ht'

/-- Every user string in a request path fills exactly one segment of its own, after
`/api/v1/customers`: its percent-encoding, which holds no slash and decodes back to the string.
So the path tells the strings apart, and it is normal unless a string is itself `.` or `..`,
the only strings whose segment is a dot-segment. -/
theorem request_paths_keep_user_strings_in_segments (i t n p : String)
    (a d : List (String × Json.Value)) (ts : Option Time.Instant) (l : Time.Instant) :
    pathSegments (SdkTask.identifyProfile i a).request.path =
      ["", "api", "v1", "customers", percentEncode i] ∧
    pathSegments (SdkTask.trackEvent i n d ts).request.path =
      ["", "api", "v1", "customers", percentEncode i, "events"] ∧
    pathSegments (SdkTask.registerPushToken i t p l).request.path =
      ["", "api", "v1", "customers", percentEncode i, "devices"] ∧
    pathSegments (SdkTask.deletePushToken i t).request.path =
      ["", "api", "v1", "customers", percentEncode i, "devices", percentEncode t] ∧
    '/' ∉ (percentEncode i).toList ∧ '/' ∉ (percentEncode t).toList ∧
    percentDecode? (percentEncode i) = some i ∧ percentDecode? (percentEncode t) = some t ∧
    (∀ i' t', (SdkTask.deletePushToken i t).request.path =
      (SdkTask.deletePushToken i' t').request.path → i = i' ∧ t = t') ∧
    (IsDotSegment (percentEncode i) ↔ IsDotSegment i) ∧
    (IsDotSegment (percentEncode t) ↔ IsDotSegment t) ∧
    (¬IsDotSegment i → ¬IsDotSegment t →
      IsNormalPath (SdkTask.identifyProfile i a).request.path ∧
      IsNormalPath (SdkTask.trackEvent i n d ts).request.path ∧
      IsNormalPath (SdkTask.registerPushToken i t p l).request.path ∧
      IsNormalPath (SdkTask.deletePushToken i t).request.path) :=
  ⟨pathSegments_identifyProfile i a, pathSegments_trackEvent i n d ts,
    pathSegments_registerPushToken i t p l, pathSegments_deletePushToken i t,
    slash_not_mem_percentEncode i, slash_not_mem_percentEncode t, percentDecode?_percentEncode i,
    percentDecode?_percentEncode t, fun _ _ => deletePushToken_path_injective,
    isDotSegment_percentEncode i, isDotSegment_percentEncode t, request_paths_normal a d ts l⟩

/-- An identifier and a token with no dot-segment, and every other field empty. -/
theorem request_paths_keep_user_strings_in_segments_plain :
    (¬IsDotSegment "ann@example.com" ∧ ¬IsDotSegment "a b/c") ∧
    IsNormalPath (SdkTask.deletePushToken "ann@example.com" "a b/c").request.path := by
  obtain ⟨-, -, -, -, -, -, -, -, -, -, -, hnormal⟩ :=
    request_paths_keep_user_strings_in_segments "ann@example.com" "a b/c" "" "" [] [] none .epoch
  exact ⟨⟨by decide, by decide⟩, (hnormal (by decide) (by decide)).2.2.2⟩

/-- The identifier `..` fills the customer's segment with a dot-segment, and dot-segment removal
takes it out together with `customers`: the request no longer addresses a customer. -/
theorem dot_identifier_leaves_customers :
    pathSegments (SdkTask.identifyProfile ".." []).request.path =
      ["", "api", "v1", "customers", ".."] ∧ IsDotSegment ".." ∧
    normalizeSegments (pathSegments (SdkTask.identifyProfile ".." []).request.path) =
      ["", "api", "v1", ""] := by
  have henc : percentEncode ".." = ".." := by decide
  rw [pathSegments_identifyProfile, henc]
  exact ⟨rfl, .inr rfl, by decide⟩

end Outbox.Http
