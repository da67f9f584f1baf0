import Mathlib
import Outbox.Scenario.Exchange

/-!
One request of the client, round by round. A request that starts while requests are paused sends
nothing. Otherwise each round sends the request once and reads the transport's next answer: a
server error (5xx) is retried after the policy's delay for the next retry as long as the policy
has one, and any other answer, or a server error once the retries are used up, ends the request as
`Client.conclude` says, which pauses requests on a 401 and on a server that stays down. So a
request sends at most `maxRetries + 1` times, sleeps the delays of retries `1, 2, …` in order, each
at most the policy's longest, and ends with what its last answer concludes
(`request_retries_server_errors`); a pause that would end past the calendar's last day makes it
panic instead (`unauthorized_at_calendar_end_panics`).
-/

set_option autoImplicit false

namespace Outbox.Http

open Time

/-! ### The retry policy -/

namespace RetryPolicy

variable (p : RetryPolicy)

theorem nextDelay_eq_none_iff (r : Nat) : p.nextDelay r = none ↔ r = 0 ∨ p.maxRetries < r := by
  unfold nextDelay
  split
  · simpa using ‹_›
  · simp only [reduceCtorEq, false_iff]
    omega

theorem nextDelay_le {r : Nat} {d : Duration} (h : p.nextDelay r = some d) :
    d.nanos ≤ p.maxDelay.nanos := by
  unfold nextDelay at h
  split at h
  · cases h
  · simp only [Option.some.injEq] at h
    rw [← h]
    unfold Duration.min
    split <;> omega

theorem exists_nextDelay {r : Nat} (h₀ : 0 < r) (h : r ≤ p.maxRetries) :
    ∃ d, p.nextDelay r = some d := by
  cases hd : p.nextDelay r with
  | none =>
    rw [nextDelay_eq_none_iff] at hd
    omega
  | some d => exact ⟨d, rfl⟩

end RetryPolicy

/-! ### The client's steps -/

/-- An outcome that tells of a pause made by the request: credentials refused, or the server
down. -/
def pausesOn : Outcome → Bool
  | .ok (.error .unauthorized) => true
  | .ok (.error .serverDown) => true
  | _ => false

namespace Client

variable (c : Client) (now : Instant)

theorem checkPaused_of_none {c : Client} (h : c.pausedUntil = none) (now : Instant) :
    c.checkPaused now = (false, c) := by
  simp [checkPaused, h]

theorem checkPaused_of_paused {c : Client} {now : Instant} (h : (c.checkPaused now).1 = true) :
    c.checkPaused now = (true, c) := by
  unfold checkPaused at h ⊢
  split at h <;> [split at h; skip] <;> simp_all

theorem checkPaused_of_unpaused {c : Client} {now : Instant} (h : (c.checkPaused now).1 = false) :
    c.checkPaused now = (false, { c with pausedUntil := none }) := by
  unfold checkPaused at h ⊢
  cases hc : c.pausedUntil with
  | none =>
    obtain ⟨p, d, u⟩ := c
    simp_all
  | some limit =>
    simp only [hc] at h ⊢
    by_cases hl : now.lt limit = true <;> simp_all

theorem pauseFailing_cases (f : HttpFailure) :
    (∃ e, c.windowEnd now = some e ∧
      c.pauseFailing now f = (.ok (.error f), { c with pausedUntil := some e })) ∨
    (c.windowEnd now = none ∧ c.pauseFailing now f = (.error calendarOverflow, c)) := by
  unfold pauseFailing pauseRequests
  cases he : c.windowEnd now with
  | none => exact .inr ⟨rfl, rfl⟩
  | some e => exact .inl ⟨e, rfl, rfl⟩

/-- Concluding pauses requests from `now` exactly when the outcome tells of a pause; otherwise
the client is left as it was. -/
theorem conclude_client (a : Except TransportFailure Response) :
    (pausesOn (c.conclude now a).1 = true → ∃ e, c.windowEnd now = some e ∧
      (c.conclude now a).2 = { c with pausedUntil := some e }) ∧
    (pausesOn (c.conclude now a).1 = false → (c.conclude now a).2 = c) := by
  -- the two pausing branches go through `pauseFailing`; the others keep the client
  have hp : ∀ f : HttpFailure, pausesOn (.ok (.error f)) = true →
      (pausesOn (c.pauseFailing now f).1 = true → ∃ e, c.windowEnd now = some e ∧
        (c.pauseFailing now f).2 = { c with pausedUntil := some e }) ∧
      (pausesOn (c.pauseFailing now f).1 = false → (c.pauseFailing now f).2 = c) := by
    intro f hf
    rcases c.pauseFailing_cases now f with ⟨e, he, h⟩ | ⟨-, h⟩ <;> rw [h]
    · exact ⟨fun _ => ⟨e, he, rfl⟩, fun h' => absurd hf (by simp_all)⟩
    · exact ⟨fun h' => absurd h' (by simp [pausesOn]), fun _ => rfl⟩
  unfold conclude
  cases a with
  | error f => cases f <;> simp [pausesOn, TransportFailure.toHttp]
  | ok r =>
    dsimp only
    split
    · simp [pausesOn]
    split
    · simp [pausesOn]
    split
    · exact hp .unauthorized rfl
    split
    · exact hp .serverDown rfl
    · simp [pausesOn]

theorem decide_retry {a : Except TransportFailure Response} {j : Nat} {d : Duration}
    (ha : isServerError a = true) (hd : c.policy.nextDelay (j + 1) = some d) :
    c.decide now j a = (.retryAfter d (j + 1), c) := by
  simp [decide, ha, hd]

theorem decide_over {a : Except TransportFailure Response} {j : Nat}
    (h : isServerError a = false ∨ c.policy.nextDelay (j + 1) = none) :
    c.decide now j a = (Attempt.ofOutcome (c.conclude now a).1, (c.conclude now a).2) := by
  unfold decide
  rcases h with h | h
  · simp [h]
  · simp [h]

end Client

end Outbox.Http

namespace Outbox.Scenario

open Outbox.Http Outbox.Time

/-! ### The transport's answers -/

namespace Transport

/-- The `i`-th answer the transport gives from now on: its script's, then 200 for ever. -/
def nth (t : Transport) (i : Nat) : Except TransportFailure Response :=
  t.script.getD i (.ok ⟨200, []⟩)

def drop (t : Transport) (k : Nat) : Transport := ⟨t.script.drop k⟩

theorem answer_eq (t : Transport) : t.answer = (t.nth 0, t.drop 1) := by
  obtain ⟨script⟩ := t
  cases script <;> rfl

theorem nth_drop (t : Transport) (k i : Nat) : (t.drop k).nth i = t.nth (k + i) := by
  simp [nth, drop, List.getD_eq_getElem?_getD, List.getElem?_drop]

theorem drop_drop (t : Transport) (a b : Nat) : (t.drop a).drop b = t.drop (a + b) := by
  simp [drop, List.drop_drop]

theorem nth_of_length_le {t : Transport} {i : Nat} (h : t.script.length ≤ i) :
    t.nth i = .ok ⟨200, []⟩ := by
  simp [nth, List.getD_eq_getElem?_getD, List.getElem?_eq_none h]

theorem lt_length_of_serverError {t : Transport} {i : Nat} (h : isServerError (t.nth i) = true) :
    i < t.script.length := by
  by_contra hi
  rw [nth_of_length_le (Nat.le_of_not_lt hi)] at h
  exact absurd h (by decide)

theorem le_length_of_lead {t : Transport} {n : Nat}
    (h : ∀ i < n, isServerError (t.nth i) = true) : n ≤ t.script.length := by
  by_contra hn
  exact absurd (lt_length_of_serverError (h t.script.length (by omega))) (lt_irrefl _)

end Transport

/-! ### The rounds of a request -/

namespace Line

variable (req : Request)

theorem sendRounds_of_paused {l : Line} (h : (l.client.checkPaused l.now).1 = true)
    (fuel j : Nat) : sendRounds (fuel + 1) l req j = ⟨.ok (.error .paused), l, [], []⟩ := by
  simp only [sendRounds, Client.checkPaused_of_paused h, ↓reduceIte]

theorem sendRounds_forget {l : Line} (h : (l.client.checkPaused l.now).1 = false)
    (fuel j : Nat) :
    sendRounds (fuel + 1) l req j =
      sendRounds (fuel + 1) { l with client := (l.client.checkPaused l.now).2 } req j := by
  have hc := Client.checkPaused_of_unpaused h
  have hn : ({ l.client with pausedUntil := none } : Client).checkPaused l.now =
      (false, { l.client with pausedUntil := none }) :=
    Client.checkPaused_of_none rfl l.now
  simp only [sendRounds, hc, hn, Bool.false_eq_true, ↓reduceIte]

theorem sendRounds_retry {l : Line} (hc : l.client.pausedUntil = none)
    (ha : isServerError (l.transport.nth 0) = true) {j : Nat} {d : Duration}
    (hd : l.client.policy.nextDelay (j + 1) = some d) (fuel : Nat) :
    sendRounds (fuel + 1) l req j =
      let e := sendRounds fuel { l with transport := l.transport.drop 1 } req (j + 1)
      { e with sent := req :: e.sent, slept := d :: e.slept } := by
  simp only [sendRounds, Client.checkPaused_of_none hc, Transport.answer_eq,
    Client.decide_retry _ _ ha hd, Bool.false_eq_true, ↓reduceIte]

theorem sendRounds_over {l : Line} (hc : l.client.pausedUntil = none) {j : Nat}
    (h : isServerError (l.transport.nth 0) = false ∨ l.client.policy.nextDelay (j + 1) = none)
    (fuel : Nat) :
    sendRounds (fuel + 1) l req j =
      ⟨(l.client.conclude l.now (l.transport.nth 0)).1,
        { l with client := (l.client.conclude l.now (l.transport.nth 0)).2,
                 transport := l.transport.drop 1 }, [req], []⟩ := by
  simp only [sendRounds, Client.checkPaused_of_none hc, Transport.answer_eq,
    Client.decide_over _ _ h, Bool.false_eq_true, ↓reduceIte]
  cases (l.client.conclude l.now (l.transport.nth 0)).1 <;> rfl

/-- With requests not paused, the first `n` answers server errors and the policy's retries
lasting exactly that far or the next answer no server error, the rounds retry `n` times and end
with what answer `n` concludes. The induction is on `n`; each retry leaves the client as it was
and gives up one answer of the transport. -/
theorem sendRounds_retries (n : Nat) :
    ∀ (fuel : Nat) (l : Line) (j : Nat), l.client.pausedUntil = none → n < fuel →
      j + n ≤ l.client.policy.maxRetries →
      (∀ i < n, isServerError (l.transport.nth i) = true) →
      (j + n = l.client.policy.maxRetries ∨ isServerError (l.transport.nth n) = false) →
      ((sendRounds fuel l req j).outcome, (sendRounds fuel l req j).line.client) =
          l.client.conclude l.now (l.transport.nth n) ∧
        (sendRounds fuel l req j).line.now = l.now ∧
        (sendRounds fuel l req j).line.transport = l.transport.drop (n + 1) ∧
        (sendRounds fuel l req j).sent = List.replicate (n + 1) req ∧
        (sendRounds fuel l req j).slept.map some =
          (List.range n).map fun i => l.client.policy.nextDelay (j + i + 1) := by
  induction n with
  | zero =>
    intro fuel l j hc hf _ _ hend
    obtain ⟨fuel, rfl⟩ : ∃ f, fuel = f + 1 := ⟨fuel - 1, by omega⟩
    have hover : isServerError (l.transport.nth 0) = false ∨
        l.client.policy.nextDelay (j + 1) = none := by
      rcases hend with h | h
      · exact .inr ((RetryPolicy.nextDelay_eq_none_iff _ _).2 (.inr (by omega)))
      · exact .inl h
    rw [sendRounds_over req hc hover]
    exact ⟨rfl, rfl, rfl, rfl, rfl⟩
  | succ n ih =>
    intro fuel l j hc hf hj hlead hend
    obtain ⟨fuel, rfl⟩ : ∃ f, fuel = f + 1 := ⟨fuel - 1, by omega⟩
    obtain ⟨d, hd⟩ := l.client.policy.exists_nextDelay (Nat.succ_pos j) (by omega)
    rw [sendRounds_retry req hc (hlead 0 (by omega)) hd]
    -- the rest of the request is the same request one answer on, one retry further
    set l' : Line := { l with transport := l.transport.drop 1 } with hl'
    have hcl : l'.client = l.client := rfl
    have hnth : ∀ i, l'.transport.nth i = l.transport.nth (i + 1) := fun i => by
      rw [hl', Transport.nth_drop, Nat.add_comm]
    have hend' : j + 1 + n = l'.client.policy.maxRetries ∨
        isServerError (l'.transport.nth n) = false := by
      rw [hnth, hcl]
      rcases hend with h | h
      · exact .inl (by omega)
      · exact .inr h
    obtain ⟨h₁, h₂, h₃, h₄, h₅⟩ := ih fuel l' (j + 1) hc (by omega) (by rw [hcl]; omega)
      (fun i hi => by rw [hnth]; exact hlead (i + 1) (by omega)) hend'
    refine ⟨?_, h₂, ?_, ?_, ?_⟩
    · rw [hnth] at h₁
      exact h₁
    · rw [h₃, hl', Transport.drop_drop, Nat.add_comm 1]
    · simp only [h₄, List.replicate_succ]
    · rw [List.map_cons, h₅, List.range_succ_eq_map, List.map_cons, List.map_map, hcl]
      congr 1
      · exact hd.symm
      · refine List.map_congr_left fun i _ => ?_
        simp only [Function.comp_apply]
        congr 1
        omega

/-- However many answers are server errors, the rounds of an unpaused request stop at the first
answer that is none, or once the retries are used up. The induction is on the retries. -/
theorem exists_retries (t : Transport) (m : Nat) :
    ∃ n ≤ m, (∀ i < n, isServerError (t.nth i) = true) ∧
      (n = m ∨ isServerError (t.nth n) = false) := by
  induction m generalizing t with
  | zero => exact ⟨0, le_rfl, fun i hi => absurd hi (Nat.not_lt_zero i), .inl rfl⟩
  | succ m ih =>
    cases h₀ : isServerError (t.nth 0) with
    | false => exact ⟨0, Nat.zero_le _, fun i hi => absurd hi (Nat.not_lt_zero i), .inr h₀⟩
    | true =>
      obtain ⟨n, hn, hlead, hend⟩ := ih (t.drop 1)
      refine ⟨n + 1, by omega, fun i hi => ?_, ?_⟩
      · cases i with
        | zero => exact h₀
        | succ i =>
          rw [Nat.add_comm i 1, ← Transport.nth_drop]
          exact hlead i (by omega)
      · rcases hend with h | h
        · exact .inl (by omega)
        · rw [Nat.add_comm n 1, ← Transport.nth_drop]
          exact .inr h

end Line

/-! ### A whole request -/

namespace Line

variable {l : Line} {req : Request} {n : Nat}

theorem send_of_paused (h : (l.client.checkPaused l.now).1 = true) :
    l.send req = ⟨.ok (.error .paused), l, [], []⟩ :=
  sendRounds_of_paused req h _ 0

/-- A request started unpaused forgets the pause, retries the `n` server errors it meets first and
ends with what answer `n` concludes, the clock where it was. -/
theorem send_of_unpaused (h : (l.client.checkPaused l.now).1 = false)
    (hn : n ≤ l.client.policy.maxRetries)
    (hlead : ∀ i < n, isServerError (l.transport.nth i) = true)
    (hend : n = l.client.policy.maxRetries ∨ isServerError (l.transport.nth n) = false) :
    (l.send req).sent = List.replicate (n + 1) req ∧
    (l.send req).slept.map some =
      (List.range n).map (fun i => l.client.policy.nextDelay (i + 1)) ∧
    ((l.send req).outcome, (l.send req).line.client) =
      (l.client.checkPaused l.now).2.conclude l.now (l.transport.nth n) ∧
    (l.send req).line.now = l.now := by
  have hfuel : n < l.transport.script.length + 1 + 1 := by
    have := Transport.le_length_of_lead hlead
    omega
  set l₁ : Line := { l with client := (l.client.checkPaused l.now).2 }
  have hc₁ : l₁.client = { l.client with pausedUntil := none } := by
    simp only [l₁, Client.checkPaused_of_unpaused h]
  have hsend : l.send req = sendRounds (l.transport.script.length + 1 + 1) l req 0 := rfl
  rw [hsend, sendRounds_forget req h]
  obtain ⟨h₁, h₂, -, h₄, h₅⟩ := sendRounds_retries req n _ l₁ 0 (by rw [hc₁]) hfuel
    (by rw [hc₁]; exact (show 0 + n ≤ l.client.policy.maxRetries by omega)) hlead
    (by
      rw [hc₁]
      exact (show 0 + n = l.client.policy.maxRetries ∨
        isServerError (l.transport.nth n) = false by simpa using hend))
  refine ⟨h₄, ?_, h₁, h₂⟩
  rw [h₅, hc₁]
  simp only [Nat.zero_add]

end Line

/-- A request sends at most `maxRetries + 1` times. Started while requests are paused it sends
nothing and is refused as paused. Otherwise, when its first `n` answers are server errors and
either the retries are used up there or the next answer is none: it sends the request `n + 1`
times, sleeps the delays of retries `1, …, n` in order (each one the policy gives, and at most the
policy's longest), and ends with what answer `n` concludes, which for a server error is the server
reported down, and for a 401 credentials refused, each after pausing requests. -/
theorem request_retries_server_errors (l : Line) (req : Request) (n : Nat)
    (hn : n ≤ l.client.policy.maxRetries)
    (hlead : ∀ i < n, isServerError (l.transport.nth i) = true)
    (hend : n = l.client.policy.maxRetries ∨ isServerError (l.transport.nth n) = false) :
    (l.send req).sent.length ≤ l.client.policy.maxRetries + 1 ∧
    ((l.client.checkPaused l.now).1 = true →
      (l.send req).outcome = .ok (.error .paused) ∧ (l.send req).sent = [] ∧
        (l.send req).slept = []) ∧
    ((l.client.checkPaused l.now).1 = false →
      (l.send req).sent = List.replicate (n + 1) req ∧
      (l.send req).slept.map some =
        (List.range n).map (fun i => l.client.policy.nextDelay (i + 1)) ∧
      (∀ d ∈ (l.send req).slept, d.nanos ≤ l.client.policy.maxDelay.nanos) ∧
      ((l.send req).outcome, (l.send req).line.client) =
        (l.client.checkPaused l.now).2.conclude l.now (l.transport.nth n)) := by
  have hpaused : (l.client.checkPaused l.now).1 = true →
      (l.send req).outcome = .ok (.error .paused) ∧ (l.send req).sent = [] ∧
        (l.send req).slept = [] := fun h => by
    rw [Line.send_of_paused h]
    exact ⟨rfl, rfl, rfl⟩
  refine ⟨?_, hpaused, fun h => ?_⟩
  · cases h : (l.client.checkPaused l.now).1
    · rw [(Line.send_of_unpaused h hn hlead hend).1, List.length_replicate]
      omega
    · rw [(hpaused h).2.1, List.length_nil]
      omega
  · obtain ⟨h₁, h₂, h₃, -⟩ := @Line.send_of_unpaused l req n h hn hlead hend
    refine ⟨h₁, h₂, fun d hd => ?_, h₃⟩
    have hmem : some d ∈ (List.range n).map (fun i => l.client.policy.nextDelay (i + 1)) := by
      rw [← h₂]
      exact List.mem_map_of_mem hd
    obtain ⟨i, -, hi⟩ := List.mem_map.1 hmem
    exact l.client.policy.nextDelay_le hi

/-- Under the standard policy, a request answered 503 and then 200 is retried once. -/
theorem request_retries_server_errors_once :
    let l : Line := ⟨Client.new RetryPolicy.standard (Duration.ofSecs 300), Instant.epoch,
      ⟨[.ok ⟨503, []⟩]⟩⟩
    let req : Request := ⟨.get, "/", none⟩
    1 ≤ l.client.policy.maxRetries ∧ (∀ i < 1, isServerError (l.transport.nth i) = true) ∧
    (1 = l.client.policy.maxRetries ∨ isServerError (l.transport.nth 1) = false) ∧
    (l.send req).sent.length ≤ l.client.policy.maxRetries + 1 ∧
    ((l.client.checkPaused l.now).1 = true →
      (l.send req).outcome = .ok (.error .paused) ∧ (l.send req).sent = [] ∧
        (l.send req).slept = []) ∧
    ((l.client.checkPaused l.now).1 = false →
      (l.send req).sent = List.replicate (1 + 1) req ∧
      (l.send req).slept.map some =
        (List.range 1).map (fun i => l.client.policy.nextDelay (i + 1)) ∧
      (∀ d ∈ (l.send req).slept, d.nanos ≤ l.client.policy.maxDelay.nanos) ∧
      ((l.send req).outcome, (l.send req).line.client) =
        (l.client.checkPaused l.now).2.conclude l.now (l.transport.nth 1)) :=
  ⟨by decide, by decide, by decide,
    request_retries_server_errors _ _ 1 (by decide) (by decide) (by decide)⟩

/-- Five minutes before the calendar's end, a 401 cannot open a pause of five minutes: the
request panics instead of reporting the credentials refused. -/
theorem unauthorized_at_calendar_end_panics :
    let l : Line := ⟨Client.new RetryPolicy.standard (Duration.ofSecs 300),
      ⟨Instant.lastDay, 86100, 0⟩, ⟨[.ok ⟨401, []⟩]⟩⟩
    (l.send ⟨.get, "/", none⟩).outcome = .error calendarOverflow := by
  rfl

end Outbox.Scenario
