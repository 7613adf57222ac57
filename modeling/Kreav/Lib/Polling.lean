import Mathlib.Data.List.Basic

/-!
# Polling in an effect

A component polls at the ticks of an interval that an effect starts. The callback of the
interval keeps the values the component had when the effect ran, its `closure`. When they
change, the effect runs again (`rerun`) : it clears the interval, and if it starts a new one
it counts the polls from zero. Polls that wait for an answer stay, and are answered in any
order (`answer`).

`Poller.All P` : what holds of the closures at each run of the effect holds of every poll that
waits.
-/

/-- A poll that waits for its answer : the interval that sent it, with its closure. -/
structure Poll (κ : Type) where
  interval : ℕ
  closure : κ
  deriving DecidableEq, Repr

/-- The effect : the number of its last interval with the closure, whether it ticks, how many
polls were counted, and the polls that wait. -/
structure Poller (κ : Type) where
  interval : ℕ
  closure : Option κ
  ticking : Bool
  polls : ℕ
  waiting : List (Poll κ)
  deriving DecidableEq, Repr

namespace Poller

variable {κ : Type}

/-- Before the effect has run. -/
def idle : Poller κ :=
  ⟨0, none, false, 0, []⟩

/-- The effect runs again, and starts an interval if it is given a closure. -/
def rerun (closure : Option κ) (p : Poller κ) : Poller κ :=
  match closure with
  | none => { p with closure := none, ticking := false }
  | some k =>
    { p with interval := p.interval + 1, closure := some k, ticking := true, polls := 0 }

/-- The interval ticks : one more poll. -/
def tick (p : Poller κ) : Poller κ :=
  match p.closure with
  | none => p
  | some k =>
    if p.ticking then
      { p with polls := p.polls + 1, waiting := p.waiting ++ [⟨p.interval, k⟩] }
    else p

/-- The `i`-th poll gets its answer. -/
def answer (i : ℕ) (p : Poller κ) : Poller κ :=
  { p with waiting := p.waiting.eraseIdx i }

/-- `clearInterval`. -/
def clear (interval : ℕ) (p : Poller κ) : Poller κ :=
  if p.interval = interval then { p with ticking := false } else p

@[simp] theorem polls_answer (i : ℕ) (p : Poller κ) : (p.answer i).polls = p.polls :=
  rfl

@[simp] theorem polls_clear (interval : ℕ) (p : Poller κ) :
    (p.clear interval).polls = p.polls := by
  unfold clear
  split <;> rfl

@[simp] theorem waiting_clear (interval : ℕ) (p : Poller κ) :
    (p.clear interval).waiting = p.waiting := by
  unfold clear
  split <;> rfl

@[simp] theorem closure_clear (interval : ℕ) (p : Poller κ) :
    (p.clear interval).closure = p.closure := by
  unfold clear
  split <;> rfl

theorem polls_rerun_le (closure : Option κ) (p : Poller κ) :
    (p.rerun closure).polls ≤ p.polls := by
  cases closure with
  | none => exact Nat.le_refl _
  | some k => exact Nat.zero_le _

theorem polls_tick_le (p : Poller κ) : p.tick.polls ≤ p.polls + 1 := by
  unfold tick
  split
  · exact Nat.le_succ _
  · split
    · exact Nat.le_refl _
    · exact Nat.le_succ _

/-! ## Closures -/

/-- The closures of the interval and of all polls that wait are in `P`. -/
structure All (P : κ → Prop) (p : Poller κ) : Prop where
  closure : ∀ k ∈ p.closure, P k
  waiting : ∀ poll ∈ p.waiting, P poll.closure

variable {P : κ → Prop} {p : Poller κ}

theorem all_idle (P : κ → Prop) : (idle : Poller κ).All P :=
  ⟨fun _ h => (Option.not_mem_none _ h).elim, fun _ h => absurd h List.not_mem_nil⟩

namespace All

theorem rerun (h : p.All P) {closure : Option κ} (hk : ∀ k ∈ closure, P k) :
    (p.rerun closure).All P := by
  cases closure with
  | none => exact ⟨fun _ hk => (Option.not_mem_none _ hk).elim, h.waiting⟩
  | some k => exact ⟨hk, h.waiting⟩

theorem tick (h : p.All P) : p.tick.All P := by
  unfold Poller.tick
  split
  · exact h
  next k hk =>
  split
  · refine ⟨h.closure, fun poll hpoll => ?_⟩
    rcases List.mem_append.1 hpoll with hpoll | hpoll
    · exact h.waiting poll hpoll
    · obtain rfl := List.mem_singleton.1 hpoll
      exact h.closure k hk
  · exact h

theorem answer (h : p.All P) (i : ℕ) : (p.answer i).All P :=
  ⟨h.closure, fun poll hpoll => h.waiting poll (List.mem_of_mem_eraseIdx hpoll)⟩

theorem clear (h : p.All P) (interval : ℕ) : (p.clear interval).All P :=
  ⟨by simpa using h.closure, by simpa using h.waiting⟩

/-- The closure of a poll that is answered. -/
theorem poll (h : p.All P) {i : ℕ} {poll : Poll κ} (hi : p.waiting[i]? = some poll) :
    P poll.closure :=
  h.waiting poll (List.mem_of_getElem? hi)

end All

end Poller
