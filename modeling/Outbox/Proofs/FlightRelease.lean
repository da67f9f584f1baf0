import Mathlib
import Outbox.Queue.Flight

/-!
The flight of passes as its callers see it. Read the notes callers are told from the start: the
*window* after them is the list of callbacks left since the last completion began (since the
start, before the first one). Every ask and every look is answered from the window alone: a pass
is running exactly when the window is not empty, so an ask starts a pass exactly when it is the
first since the last completion began. A completion calls, before the next one begins, exactly
the callbacks of the window it closed, in the order they were left, and nothing is called before
the first completion. So every callback is called once, by the first completion that begins after
it was left, also when it was left by a callback of an earlier completion, to any depth.

The proof reads the notes with a `Watch`, which keeps the window and the callbacks the completion
under way has still to call, and accepts only the notes these allow (`Watch.Reads`). Each call on
a flight whose running flag agrees with its waiting list is read by the watch (`call_reads`), and
the properties above are read off an accepted history.
-/

set_option autoImplicit false

namespace Outbox.Queue.Flight

variable {α : Type}

/-- The window after one more note: an ask leaves its callback, a completion that begins closes
the window. -/
def Note.shift (w : List α) : Note α → List α
  | .asked c _ => w ++ [c]
  | .began => []
  | .looked _ => w
  | .called _ => w

/-- The callbacks left since the last completion began, in the order they were left. -/
def window (ns : List (Note α)) : List α := ns.foldl Note.shift []

/-- The callbacks called before the first completion in the notes begins. -/
def calledBefore : List (Note α) → List α
  | [] => []
  | .began :: _ => []
  | .called c :: rest => c :: calledBefore rest
  | .asked _ _ :: rest => calledBefore rest
  | .looked _ :: rest => calledBefore rest

/-- Calls from outside in order, from the flight `f`: what the callers are told, and the flight
after. -/
def session (does : α → List (Act α)) (f : Flight α) : List (Call α) → List (Note α) × Flight α
  | [] => ([], f)
  | c :: rest =>
    let (ns, f) := f.call does c
    let (ns', f) := session does f rest
    (ns ++ ns', f)

/-- What a watch of the notes keeps: the window, and the callbacks the completion under way has
still to call. -/
structure Watch (α : Type) where
  window : List α
  due : List α

/-- The notes a watch accepts, and the watch after them: an ask or a look is answered by whether
the window is empty, and an ask adds to it; a completion begins only once the last one has called
all it had to, and has to call the window it closes; a callback is called only when it is the
next one due. -/
inductive Watch.Reads : Watch α → List (Note α) → Watch α → Prop
  | nil (s : Watch α) : Reads s [] s
  | asked {w d : List α} {ns : List (Note α)} {s : Watch α} (c : α) :
      Reads ⟨w ++ [c], d⟩ ns s → Reads ⟨w, d⟩ (.asked c (!w.isEmpty) :: ns) s
  | looked {w d : List α} {ns : List (Note α)} {s : Watch α} :
      Reads ⟨w, d⟩ ns s → Reads ⟨w, d⟩ (.looked (!w.isEmpty) :: ns) s
  | began {w : List α} {ns : List (Note α)} {s : Watch α} :
      Reads ⟨[], w⟩ ns s → Reads ⟨w, []⟩ (.began :: ns) s
  | called {w d : List α} {ns : List (Note α)} {s : Watch α} (c : α) :
      Reads ⟨w, d⟩ ns s → Reads ⟨w, c :: d⟩ (.called c :: ns) s

namespace Watch

variable {s s' s'' : Watch α} {ns ms : List (Note α)}

theorem Reads.append (h : Reads s ns s') (h' : Reads s' ms s'') : Reads s (ns ++ ms) s'' := by
  induction h with
  | nil => exact h'
  | asked c _ ih => exact .asked c (ih h')
  | looked _ ih => exact .looked (ih h')
  | began _ ih => exact .began (ih h')
  | called c _ ih => exact .called c (ih h')

theorem Reads.split (h : Reads s (ns ++ ms) s'') : ∃ s', Reads s ns s' ∧ Reads s' ms s'' := by
  induction ns generalizing s with
  | nil => exact ⟨s, .nil s, h⟩
  | cons n ns ih =>
    cases h with
    | asked c h =>
      obtain ⟨s', h₁, h₂⟩ := ih h
      exact ⟨s', .asked c h₁, h₂⟩
    | looked h =>
      obtain ⟨s', h₁, h₂⟩ := ih h
      exact ⟨s', .looked h₁, h₂⟩
    | began h =>
      obtain ⟨s', h₁, h₂⟩ := ih h
      exact ⟨s', .began h₁, h₂⟩
    | called c h =>
      obtain ⟨s', h₁, h₂⟩ := ih h
      exact ⟨s', .called c h₁, h₂⟩

theorem Reads.window_eq {w d : List α} (h : Reads ⟨w, d⟩ ns s) :
    s.window = ns.foldl Note.shift w := by
  generalize hs : (⟨w, d⟩ : Watch α) = s₀ at h
  induction h generalizing w d with
  | nil => rw [← hs]; rfl
  | asked c _ ih =>
    cases hs
    exact ih rfl
  | looked _ ih =>
    cases hs
    exact ih rfl
  | began _ ih =>
    cases hs
    exact ih rfl
  | called c _ ih =>
    cases hs
    exact ih rfl

theorem Reads.calledBefore_eq {w d : List α} (h : Reads ⟨w, d⟩ ns s) (hs : s.due = []) :
    calledBefore ns = d := by
  generalize he : (⟨w, d⟩ : Watch α) = s₀ at h
  induction h generalizing w d with
  | nil =>
    cases he
    exact hs.symm
  | asked c _ ih =>
    cases he
    exact ih hs rfl
  | looked _ ih =>
    cases he
    exact ih hs rfl
  | began _ _ =>
    cases he
    rfl
  | called c _ ih =>
    cases he
    exact congrArg (c :: ·) (ih hs rfl)

end Watch

/-! ### Calls on the flight, read by the watch -/

def Coherent (f : Flight α) : Prop := f.running = !f.waiting.isEmpty

theorem idle_coherent : Coherent (idle : Flight α) := rfl

open Watch

theorem act_reads {f : Flight α} (hf : Coherent f) (a : Act α) (d : List α) :
    Reads ⟨f.waiting, d⟩ [(f.act a).1] ⟨(f.act a).2.waiting, d⟩ ∧ Coherent (f.act a).2 := by
  cases a with
  | ask c =>
    refine ⟨?_, by simp [Coherent, act, request]⟩
    simp only [act, request]
    rw [hf]
    exact .asked c (.nil _)
  | look =>
    refine ⟨?_, hf⟩
    simp only [act]
    rw [hf]
    exact .looked (.nil _)

theorem acts_reads {f : Flight α} (hf : Coherent f) (as : List (Act α)) (d : List α) :
    Reads ⟨f.waiting, d⟩ (f.acts as).1 ⟨(f.acts as).2.waiting, d⟩ ∧ Coherent (f.acts as).2 := by
  induction as generalizing f with
  | nil => exact ⟨.nil _, hf⟩
  | cons a rest ih =>
    obtain ⟨h₁, hf₁⟩ := act_reads hf a d
    obtain ⟨h₂, hf₂⟩ := ih hf₁
    exact ⟨h₁.append h₂, hf₂⟩

theorem callEach_reads (does : α → List (Act α)) {f : Flight α} (hf : Coherent f)
    (cbs d : List α) :
    Reads ⟨f.waiting, cbs ++ d⟩ (callEach does f cbs).1 ⟨(callEach does f cbs).2.waiting, d⟩ ∧
      Coherent (callEach does f cbs).2 := by
  induction cbs generalizing f with
  | nil => exact ⟨.nil _, hf⟩
  | cons c rest ih =>
    obtain ⟨h₁, hf₁⟩ := acts_reads hf (does c) (rest ++ d)
    obtain ⟨h₂, hf₂⟩ := ih hf₁
    exact ⟨.called c (h₁.append h₂), hf₂⟩

theorem release_reads (does : α → List (Act α)) {f : Flight α} :
    Reads ⟨f.waiting, []⟩ (f.release does).1 ⟨(f.release does).2.waiting, []⟩ ∧
      Coherent (f.release does).2 := by
  -- the completion closes the window: what waited becomes due, and the flight is idle
  obtain ⟨h, hf'⟩ := callEach_reads does idle_coherent f.waiting []
  rw [List.append_nil] at h
  exact ⟨.began h, hf'⟩

theorem call_reads (does : α → List (Act α)) {f : Flight α} (hf : Coherent f) (c : Call α) :
    Reads ⟨f.waiting, []⟩ (f.call does c).1 ⟨(f.call does c).2.waiting, []⟩ ∧
      Coherent (f.call does c).2 := by
  cases c with
  | act a => exact act_reads hf a []
  | release => exact release_reads does

theorem session_reads (does : α → List (Act α)) {f : Flight α} (hf : Coherent f)
    (calls : List (Call α)) :
    Reads ⟨f.waiting, []⟩ (session does f calls).1 ⟨(session does f calls).2.waiting, []⟩ ∧
      Coherent (session does f calls).2 := by
  induction calls generalizing f with
  | nil => exact ⟨.nil _, hf⟩
  | cons c rest ih =>
    obtain ⟨h₁, hf₁⟩ := call_reads does hf c
    obtain ⟨h₂, hf₂⟩ := ih hf₁
    exact ⟨h₁.append h₂, hf₂⟩

/-! ### What an accepted history says -/

theorem window_of_reads {s : Watch α} {ns : List (Note α)} (h : Reads ⟨[], []⟩ ns s) :
    s.window = window ns :=
  h.window_eq

/-- Every ask of a session is told it joined a running pass exactly when it was not the first since
the last completion began, and every look sees a pass running exactly then; each completion calls
the callbacks left since the one before it began, in the order they were left, before the next
one begins, and nothing is called before the first; the callbacks left since the last completion
began still wait, and a pass runs exactly when there are any. -/
theorem session_answers_and_calls_by_window (does : α → List (Act α)) (calls : List (Call α)) :
    (∀ pre c joined post, (session does idle calls).1 = pre ++ .asked c joined :: post →
      joined = !(window pre).isEmpty) ∧
    (∀ pre running post, (session does idle calls).1 = pre ++ .looked running :: post →
      running = !(window pre).isEmpty) ∧
    calledBefore (session does idle calls).1 = [] ∧
    (∀ pre post, (session does idle calls).1 = pre ++ .began :: post →
      calledBefore post = window pre) ∧
    (session does idle calls).2.waiting = window (session does idle calls).1 ∧
    (session does idle calls).2.running = !(window (session does idle calls).1).isEmpty := by
  obtain ⟨h, hf⟩ := session_reads does (@idle_coherent α) calls
  set ns := (session does idle calls).1
  have hw : (session does idle calls).2.waiting = window ns := window_of_reads h
  refine ⟨?_, ?_, h.calledBefore_eq rfl, ?_, hw, hw ▸ hf⟩
  · intro pre c joined post he
    rw [he] at h
    obtain ⟨s, h₁, h₂⟩ := h.split
    cases h₂ with
    | asked _ _ => rw [← window_of_reads h₁]
  · intro pre running post he
    rw [he] at h
    obtain ⟨s, h₁, h₂⟩ := h.split
    cases h₂ with
    | looked _ => rw [← window_of_reads h₁]
  · intro pre post he
    rw [he] at h
    obtain ⟨s, h₁, h₂⟩ := h.split
    cases h₂ with
    | began h₃ =>
      rw [← window_of_reads h₁]
      exact h₃.calledBefore_eq rfl

end Outbox.Queue.Flight
