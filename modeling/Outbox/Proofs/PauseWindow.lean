import Mathlib
import Outbox.Proofs.ClientRounds

/-!
The pause window over a whole history of calls on a client line: requests, answers given to the
transport, pauses, looks at the pause and moves of the clock. A pause is made, at the time the
clock shows, by a pause call that does not panic and by a request refused as unauthorized or given
up with the server down. Reading the replies in order, requests are paused at a time exactly when
it is before the end of the window of the latest pause so far: the pause duration after it (no
time at all when the duration does not fit a delta), as the calendar moves instants. As long as
the clock never moves back, a look at the pause answers exactly that, a request started then is
refused as paused without sending anything, and any other request reaches the transport
(`requests_paused_within_latest_window`).

Only the latest pause counts. Moving an instant is not monotone across a leap second (a move from
inside one first steps to the second after it), so an earlier pause may end after a later one.
A pause duration too long for a delta opens no window at all (`overlong_pause_opens_no_window`).

The proof keeps one invariant, `Tracks`: the pause the client holds is the end of the latest
window, and a client that holds none is past that end. Every call keeps it (`call_tracks`), the
clock's moves because they go forward, and the client's answers are read off it.
-/

set_option autoImplicit false

namespace Outbox.Time.Instant

theorem lt_eq_false_trans {a b c : Instant} (hab : a.lt b = false) (hca : c.lt a = false) :
    c.lt b = false := by
  simp only [Instant.lt, Bool.or_eq_false_iff, Bool.and_eq_false_iff, decide_eq_false_iff_not,
    beq_eq_false_iff_ne, ne_eq] at *
  omega

end Outbox.Time.Instant

namespace Outbox.Http.Client

open Time

theorem windowEnd_congr {c c' : Client} (h : c.pause = c'.pause) : c.windowEnd = c'.windowEnd := by
  unfold windowEnd
  rw [h]

end Outbox.Http.Client

namespace Outbox.Scenario

open Outbox.Http Outbox.Time

namespace Line

/-- Whether a reply tells of a pause made at its time: a pause call that did not panic, or a
request refused as unauthorized or given up with the server down. -/
def Reply.pauses : Reply → Bool
  | .requested o _ => pausesOn o
  | .paused (.ok ()) => true
  | _ => false

/-- Calls in order on a line: each reply, with the time the clock shows after its call, and the
line after them all. -/
def session (l : Line) : List Call → List (Instant × Reply) × Line
  | [] => ([], l)
  | c :: rest =>
    let s := (l.call c).2.session rest
    (((l.call c).2.now, (l.call c).1) :: s.1, s.2)

end Line

def latestPause (h : List (Instant × Line.Reply)) : Option Instant :=
  h.foldl (fun last e => if e.2.pauses then some e.1 else last) none

/-- Whether, after the history `h`, requests of a client with the pause duration of `c` are paused
at `now`: `now` is before the end of the latest pause's window. -/
def pausedAfter (c : Client) (h : List (Instant × Line.Reply)) (now : Instant) : Bool :=
  ((latestPause h).bind c.windowEnd).any fun e => now.lt e

theorem latestPause_append (h : List (Instant × Line.Reply)) (t : Instant) (r : Line.Reply) :
    latestPause (h ++ [(t, r)]) = if r.pauses then some t else latestPause h := by
  simp [latestPause, List.foldl_append]

/-- What a line keeps of the pauses of a history, for a client `c₀` whose pause duration it
keeps: the pause it holds ends where the latest pause's window ends, and a line that holds none is
past the end of that window, if there is one. -/
structure Tracks (c₀ : Client) (l : Line) (h : List (Instant × Line.Reply)) : Prop where
  pause : l.client.pause = c₀.pause
  held : ∀ e, l.client.pausedUntil = some e → (latestPause h).bind c₀.windowEnd = some e
  past : l.client.pausedUntil = none →
    ∀ e, (latestPause h).bind c₀.windowEnd = some e → l.now.lt e = false

/-- A reply answers as the history before it says: a request started while requests are paused
is refused as paused without sending, any other reaches the transport, and a look sees whether
requests are paused. -/
def Answers (c₀ : Client) (h : List (Instant × Line.Reply)) (t : Instant) (r : Line.Reply) :
    Prop :=
  (∀ o sent, r = .requested o sent →
    (pausedAfter c₀ h t = true → o = .ok (.error .paused) ∧ sent = []) ∧
    (pausedAfter c₀ h t = false → sent ≠ [])) ∧
  (∀ b, r = .looked b → b = pausedAfter c₀ h t)

namespace Tracks

variable {c₀ : Client} {l : Line} {h : List (Instant × Line.Reply)}

theorem congr {l' : Line} (ht : Tracks c₀ l h) (hc : l'.client = l.client) (hn : l'.now = l.now) :
    Tracks c₀ l' h :=
  ⟨hc ▸ ht.pause, hc ▸ ht.held, by rw [hc, hn]; exact ht.past⟩

theorem checkPaused (ht : Tracks c₀ l h) :
    (l.client.checkPaused l.now).1 = pausedAfter c₀ h l.now := by
  unfold Client.checkPaused pausedAfter
  cases hp : l.client.pausedUntil with
  | none =>
    cases he : (latestPause h).bind c₀.windowEnd with
    | none => rfl
    | some e => simp [ht.past hp e he]
  | some e =>
    rw [ht.held e hp]
    by_cases hl : l.now.lt e = true <;> simp [hl]

theorem forget (ht : Tracks c₀ l h) (hp : (l.client.checkPaused l.now).1 = false) :
    Tracks c₀ { l with client := { l.client with pausedUntil := none } } h := by
  refine ⟨ht.pause, fun e he => (by cases he), fun _ e he => ?_⟩
  rw [ht.checkPaused] at hp
  simp only [pausedAfter, he, Option.any_some] at hp
  exact hp

theorem look (ht : Tracks c₀ l h) :
    Tracks c₀ { l with client := (l.client.checkPaused l.now).2 } h := by
  cases hp : (l.client.checkPaused l.now).1
  · rw [Client.checkPaused_of_unpaused hp]
    exact ht.forget hp
  · rw [Client.checkPaused_of_paused hp]
    exact ht

theorem move (ht : Tracks c₀ l h) {now : Instant} (hn : now.lt l.now = false) :
    Tracks c₀ { l with now := now } h :=
  ⟨ht.pause, ht.held, fun hp e he => Instant.lt_eq_false_trans (ht.past hp e he) hn⟩

theorem quiet (ht : Tracks c₀ l h) {t : Instant} {r : Line.Reply} (hr : r.pauses = false) :
    Tracks c₀ l (h ++ [(t, r)]) := by
  have hl : latestPause (h ++ [(t, r)]) = latestPause h := by
    rw [latestPause_append, hr, if_neg Bool.false_ne_true]
  exact ⟨ht.pause, fun e he => hl ▸ ht.held e he, fun hp e he => ht.past hp e (hl ▸ he)⟩

theorem paused (ht : Tracks c₀ l h) {e : Instant} (he : c₀.windowEnd l.now = some e)
    {r : Line.Reply} (hr : r.pauses = true) :
    Tracks c₀ { l with client := { l.client with pausedUntil := some e } } (h ++ [(l.now, r)]) := by
  have hl : latestPause (h ++ [(l.now, r)]) = some l.now := by
    rw [latestPause_append, hr, if_pos rfl]
  refine ⟨ht.pause, fun e' he' => ?_, fun hp => (by cases hp)⟩
  rw [hl, Option.bind_some, he]
  exact he'

end Tracks

/-! ### Each call keeps the invariant -/

variable {c₀ : Client} {l : Line} {h : List (Instant × Line.Reply)}

theorem Answers.of_other {t : Instant} {r : Line.Reply} (h₁ : ∀ o sent, r ≠ .requested o sent)
    (h₂ : ∀ b, r ≠ .looked b) : Answers c₀ h t r :=
  ⟨fun o sent he => absurd he (h₁ o sent), fun b he => absurd he (h₂ b)⟩

theorem Line.moveClock_client {l' : Line} {d : Except String Delta} (hm : l.moveClock d = .ok l') :
    l'.client = l.client := by
  unfold Line.moveClock at hm
  cases hd : (d >>= fun d => (l.now.add? d).elim (.error calendarOverflow) .ok) with
  | error m =>
    rw [hd] at hm
    cases hm
  | ok t =>
    rw [hd] at hm
    cases hm
    rfl

/-- A request started while requests are paused is refused without sending; any other is
answered as its last answer concludes, which pauses exactly when it tells of a pause. -/
theorem request_tracks (ht : Tracks c₀ l h) (req : Request) :
    Tracks c₀ (l.send req).line (h ++ [(l.now, .requested (l.send req).outcome (l.send req).sent)]) ∧
      (l.send req).line.now = l.now ∧
      Answers c₀ h l.now (.requested (l.send req).outcome (l.send req).sent) := by
  have hr : (Line.Reply.requested (l.send req).outcome (l.send req).sent).pauses =
      pausesOn (l.send req).outcome := rfl
  cases hp : (l.client.checkPaused l.now).1
  · -- unpaused: the request reaches the transport, and its last answer concludes it
    obtain ⟨n, hn, hlead, hend⟩ := Line.exists_retries l.transport l.client.policy.maxRetries
    obtain ⟨hsent, -, hout, hnow⟩ := @Line.send_of_unpaused l req n hp hn hlead hend
    have hf := ht.forget hp
    have hpa : pausedAfter c₀ h l.now = false := ht.checkPaused ▸ hp
    set c₁ : Client := { l.client with pausedUntil := none }
    simp only [Client.checkPaused_of_unpaused hp, Prod.ext_iff] at hout
    obtain ⟨hout₁, hout₂⟩ := hout
    obtain ⟨hpause, hquiet⟩ := c₁.conclude_client l.now (l.transport.nth n)
    refine ⟨?_, hnow, fun o sent he => ⟨fun h' => absurd (hpa ▸ h') Bool.false_ne_true,
      fun _ => ?_⟩, fun b he => (by cases he)⟩
    · cases hpo : pausesOn (l.send req).outcome
      · -- no pause: the client has forgotten the pause and keeps none
        have hc : (l.send req).line.client = c₁ := hout₂.trans (hquiet (by rw [← hout₁]; exact hpo))
        exact (hf.congr hc hnow).quiet (hr.trans hpo)
      · -- a pause made now
        obtain ⟨e, he, hc⟩ := hpause (by rw [← hout₁]; exact hpo)
        have he₀ : c₀.windowEnd l.now = some e := by
          rw [← Client.windowEnd_congr ht.pause]
          exact he
        exact (ht.paused he₀ (hr.trans hpo)).congr (hout₂.trans hc) hnow
    · cases he
      rw [hsent]
      exact List.cons_ne_nil _ _
  · -- paused: nothing is sent and nothing changes
    rw [Line.send_of_paused hp]
    have hpa : pausedAfter c₀ h l.now = true := ht.checkPaused ▸ hp
    refine ⟨ht.quiet rfl, rfl, fun o sent he => ⟨fun _ => ?_, fun h' => ?_⟩, fun b he => (by cases he)⟩
    · cases he
      exact ⟨rfl, rfl⟩
    · rw [hpa] at h'
      cases h'

/-- Every call keeps the invariant, as long as it moves the clock forward if at all, and its
reply answers as the history before it says. -/
theorem call_tracks (ht : Tracks c₀ l h) (c : Line.Call)
    (hn : (l.call c).2.now.lt l.now = false) :
    Tracks c₀ (l.call c).2 (h ++ [((l.call c).2.now, (l.call c).1)]) ∧
      Answers c₀ h (l.call c).2.now (l.call c).1 := by
  cases c with
  | request req =>
    obtain ⟨h₁, h₂, h₃⟩ := request_tracks ht req
    simp only [Line.call, h₂]
    exact ⟨h₁, h₃⟩
  | respond more =>
    simp only [Line.call]
    have hr : Tracks c₀ (l.respond more) h := ht.congr rfl rfl
    exact ⟨hr.quiet rfl, .of_other (by simp) (by simp)⟩
  | pause =>
    cases hw : l.client.windowEnd l.now with
    | none =>
      simp only [Line.call, Client.pauseRequests, hw]
      exact ⟨ht.quiet rfl, .of_other (by simp) (by simp)⟩
    | some e =>
      simp only [Line.call, Client.pauseRequests, hw]
      refine ⟨ht.paused ?_ rfl, .of_other (by simp) (by simp)⟩
      rw [← Client.windowEnd_congr ht.pause]
      exact hw
  | isPaused =>
    have hl := ht.look
    have hb := ht.checkPaused
    cases hc : l.client.checkPaused l.now with
    | mk b c =>
      simp only [hc] at hl hb
      simp only [Line.call, hc]
      exact ⟨hl.quiet rfl, fun o sent he => (by cases he), fun b' he => by cases he; exact hb⟩
  | advance d =>
    cases hm : l.moveClock d with
    | error m =>
      simp only [Line.call, hm]
      exact ⟨ht.quiet rfl, .of_other (by simp) (by simp)⟩
    | ok l' =>
      simp only [Line.call, hm] at hn ⊢
      have hc := Line.moveClock_client hm
      exact ⟨((ht.move hn).congr hc rfl).quiet rfl, .of_other (by simp) (by simp)⟩
  | setClock t =>
    simp only [Line.call] at hn ⊢
    exact ⟨(ht.move hn).quiet rfl, .of_other (by simp) (by simp)⟩
  | unknown name =>
    simp only [Line.call]
    exact ⟨ht.quiet rfl, .of_other (by simp) (by simp)⟩

/-- Along a session whose clock never moves back, every reply answers as the history before it
says. The induction is on the calls; `Tracks` carries the history. -/
theorem session_answers (calls : List Line.Call) :
    ∀ (l : Line) (h : List (Instant × Line.Reply)), Tracks c₀ l h →
      (l.now :: (l.session calls).1.map Prod.fst).IsChain (fun a b => b.lt a = false) →
      ∀ pre t r post, (l.session calls).1 = pre ++ (t, r) :: post → Answers c₀ (h ++ pre) t r := by
  induction calls with
  | nil =>
    intro l h _ _ pre t r post he
    simp [Line.session] at he
  | cons c rest ih =>
    intro l h ht hchain pre t r post he
    simp only [Line.session, List.map_cons, List.isChain_cons_cons] at hchain he
    obtain ⟨hn, hchain⟩ := hchain
    obtain ⟨ht', hans⟩ := call_tracks ht c hn
    cases pre with
    | nil =>
      simp only [List.nil_append, List.cons.injEq, Prod.mk.injEq] at he
      obtain ⟨⟨rfl, rfl⟩, -⟩ := he
      rw [List.append_nil]
      exact hans
    | cons p pre =>
      simp only [List.cons_append, List.cons.injEq] at he
      obtain ⟨rfl, he⟩ := he
      rw [← List.singleton_append, ← List.append_assoc]
      exact ih _ _ ht' hchain pre t r post he

/-- Over any history of calls on a client line that starts with no pause and whose clock never
moves back: a request started while requests are paused, that is before the end of the window of
the latest pause made so far, is refused as paused without sending anything; a request started at
any other time reaches the transport; and every look at the pause sees whether requests are
paused. A pause is made by a pause call that does not panic and by a request refused as
unauthorized or given up with the server down, at the clock's time; its window ends the pause
duration later as the calendar counts, or at once when the duration does not fit a delta. -/
theorem requests_paused_within_latest_window (l : Line) (calls : List Line.Call)
    (hfresh : l.client.pausedUntil = none)
    (hclock : (l.now :: (l.session calls).1.map Prod.fst).IsChain fun a b => b.lt a = false) :
    ∀ pre t r post, (l.session calls).1 = pre ++ (t, r) :: post →
      (∀ o sent, r = .requested o sent →
        (pausedAfter l.client pre t = true → o = .ok (.error .paused) ∧ sent = []) ∧
        (pausedAfter l.client pre t = false → sent ≠ [])) ∧
      (∀ b, r = .looked b → b = pausedAfter l.client pre t) := by
  have ht : Tracks l.client l [] := ⟨rfl, fun e he => (by rw [hfresh] at he; cases he),
    fun _ e he => (by simp [latestPause] at he)⟩
  intro pre t r post he
  have hans := session_answers calls l [] ht hclock pre t r post he
  rw [List.nil_append] at hans
  exact hans

/-- A request refused as unauthorized pauses the next request, which is refused as paused. -/
theorem requests_paused_within_latest_window_unauthorized :
    let l : Line := ⟨Client.new RetryPolicy.standard (Duration.ofSecs 300), Instant.epoch,
      ⟨[.ok ⟨401, []⟩]⟩⟩
    let calls : List Line.Call := [.request ⟨.get, "/", none⟩, .isPaused, .request ⟨.get, "/", none⟩]
    l.client.pausedUntil = none ∧
    (l.now :: (l.session calls).1.map Prod.fst).IsChain (fun a b => b.lt a = false) ∧
    ∀ pre t r post, (l.session calls).1 = pre ++ (t, r) :: post →
      (∀ o sent, r = .requested o sent →
        (pausedAfter l.client pre t = true → o = .ok (.error .paused) ∧ sent = []) ∧
        (pausedAfter l.client pre t = false → sent ≠ [])) ∧
      (∀ b, r = .looked b → b = pausedAfter l.client pre t) :=
  ⟨rfl, by decide, requests_paused_within_latest_window _ _ rfl (by decide)⟩

/-- A pause longer than a delta can hold opens no window: right after the pause, requests are
not paused and the next request is sent. -/
theorem overlong_pause_opens_no_window :
    let l : Line := ⟨Client.new RetryPolicy.standard (Duration.ofSecs 18446744073709551615),
      Instant.epoch, ⟨[]⟩⟩
    (l.session [.pause, .isPaused, .request ⟨.get, "/", none⟩]).1 =
      [(Instant.epoch, .paused (.ok ())), (Instant.epoch, .looked false),
        (Instant.epoch, .requested (.ok (.ok ⟨200, []⟩)) [⟨.get, "/", none⟩])] := by
  rfl

end Outbox.Scenario
