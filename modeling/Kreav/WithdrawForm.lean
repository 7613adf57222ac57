import Kreav.Lib.Polling
import Kreav.PayoutPreview
import Kreav.Withdrawals
import Mathlib.Data.Rat.Defs

/-!
# The withdrawal dialog

`WithdrawForm` of the wallet page. The dialog creates a withdrawal and polls it until it is
completed or failed. It counts the polls, and after 20 says that it takes longer than expected.

Each answer is a new receipt, with which the effect runs again and counts from zero. So it is
not the polls that are limited to 20 but the polls in a row without an answer
(`form_timed_out`), and a withdrawal that answers its polls is never given up.

`form_once` : a dialog creates one withdrawal at most, and one more for each error, as the
backend may have created the withdrawal whose creation ended with the error.
-/

namespace Kreav

namespace WithdrawForm

/-- What the dialog shows. -/
inductive FormPhase
  | form
  | processing
  | done
  | failed
  deriving DecidableEq, Repr

/-- What the dialog reads of a receipt. -/
structure FormReceipt where
  withdrawalId : String
  status : WithdrawalStatus
  deriving DecidableEq, Repr

/-- What has happened : the withdrawals created, the creations that ended with an error, the
polls sent, those sent since the last one that was answered, and the most there ever were in a
row. -/
structure FormHistory where
  created : ℕ := 0
  unclear : ℕ := 0
  sent : ℕ := 0
  silent : ℕ := 0
  longest : ℕ := 0
  deriving DecidableEq, Repr

/-- The state of the dialog, with the number of calls to create a withdrawal that wait. A
receipt that the effect has not run with yet is `fresh`. -/
structure Form where
  phase : FormPhase := .form
  receipt : Option FormReceipt := none
  err : Option String := none
  pollTimedOut : Bool := false
  poller : Poller String := .idle
  fresh : Bool := false
  creating : ℕ := 0
  history : FormHistory := {}
  deriving DecidableEq, Repr

/-- How many polls are counted. -/
def maxPolls : ℕ :=
  20

/-- 0.01. -/
def minAmount : ℚ :=
  mkRat 1 100

/-- What is wrong with the input. The amount is `none` when it is no number, and `available` is
the text of `maxAmount`. -/
def inputError (maxAmount : ℚ) (available destinationAccount : String) :
    Option ℚ → Option String
  | none => some "Enter an amount of at least 0.01."
  | some amt =>
    if amt < minAmount then some "Enter an amount of at least 0.01."
    else if amt > maxAmount then some ("You can withdraw at most $" ++ available ++ ".")
    else if ProductForm.trim destinationAccount = "" then some "Enter your destination account."
    else none

namespace Form

/-- What the effect starts an interval with. -/
def closure (s : Form) : Option String :=
  if s.phase = .processing then s.receipt.map (·.withdrawalId) else none

/-- `submit`, up to its await. Its button is there in the form. -/
def submit (amount : Option ℚ) (maxAmount : ℚ) (available destinationAccount : String)
    (s : Form) : Form :=
  if s.phase = .form then
    match inputError maxAmount available destinationAccount amount with
    | some message => { s with err := some message }
    | none => { s with err := none, phase := .processing, creating := s.creating + 1 }
  else s

/-- `submit` goes on with the answer. After an error the form is there again, whether or not the
backend has created the withdrawal. -/
def created (reply : Except String FormReceipt) (s : Form) : Form :=
  if s.creating = 0 then s
  else
    match reply with
    | .error message =>
      { s with
        err := some message
        phase := .form
        creating := s.creating - 1
        history := { s.history with unclear := s.history.unclear + 1 } }
    | .ok r =>
      { s with
        receipt := some r
        fresh := true
        phase := if r.status = .completed then .done else s.phase
        creating := s.creating - 1
        history := { s.history with created := s.history.created + 1, silent := 0 } }

/-- After a poll that did not end the polling. -/
def countPoll (interval : ℕ) (s : Form) : Form :=
  if maxPolls ≤ s.poller.polls then
    { s with poller := s.poller.clear interval, pollTimedOut := true }
  else s

/-- A poll is answered. -/
def polled (poll : Poll String) (reply : Except Unit FormReceipt) (s : Form) : Form :=
  match reply with
  | .error _ => s.countPoll poll.interval
  | .ok latest =>
    let s :=
      { s with receipt := some latest, fresh := true, history := { s.history with silent := 0 } }
    if latest.status = .completed then
      { s with phase := .done, poller := s.poller.clear poll.interval }
    else if latest.status = .failed then
      { s with phase := .failed, poller := s.poller.clear poll.interval }
    else s.countPoll poll.interval

/-- The interval ticks, if there is one. -/
def tick (s : Form) : Form :=
  if s.poller.ticking then
    { s with
      poller := s.poller.tick
      history :=
        { s.history with
          sent := s.history.sent + 1
          silent := s.history.silent + 1
          longest := max s.history.longest (s.history.silent + 1) } }
  else s

end Form

/-- An event of the dialog. `rerun` is the effect, which runs when its values change and when
the page renders it with a new `onDone`. -/
inductive FormEvent
  | submit (amount : Option ℚ) (maxAmount : ℚ) (available destinationAccount : String)
  | created (reply : Except String FormReceipt)
  | rerun
  | tick
  | polled (i : ℕ) (reply : Except Unit FormReceipt)
  deriving DecidableEq

/-- One event. -/
def step (s : Form) : FormEvent → Form
  | .submit amount maxAmount available destinationAccount =>
    s.submit amount maxAmount available destinationAccount
  | .created reply => s.created reply
  | .rerun => { s with poller := s.poller.rerun s.closure, fresh := false }
  | .tick => s.tick
  | .polled i reply =>
    match s.poller.waiting[i]? with
    | none => s
    | some poll => { s with poller := s.poller.answer i }.polled poll reply

/-- Events, one after the other. -/
def run (es : List FormEvent) (s : Form) : Form :=
  es.foldl step s

theorem run_append (es es' : List FormEvent) (s : Form) :
    run (es ++ es') s = run es' (run es s) :=
  List.foldl_append

/-- The interval does not tick between a new receipt and the effect that runs with it. -/
def Prompt (s : Form) : FormEvent → Prop
  | .tick => s.fresh = false
  | _ => True

/-- All events of a run are prompt. -/
def AllPrompt : List FormEvent → Form → Prop
  | [], _ => True
  | e :: es, s => Prompt s e ∧ AllPrompt es (step s e)

theorem allPrompt_append {es' : List FormEvent} : ∀ {es : List FormEvent} {s : Form},
    AllPrompt es s → AllPrompt es' (run es s) → AllPrompt (es ++ es') s
  | [], _, _, h' => h'
  | _ :: _, _, h, h' => ⟨h.1, allPrompt_append h.2 h'⟩

instance (s : Form) (e : FormEvent) : Decidable (Prompt s e) :=
  match e with
  | .tick => inferInstanceAs (Decidable (s.fresh = false))
  | .submit _ _ _ _ | .created _ | .rerun | .polled _ _ => isTrue trivial

instance decidableAllPrompt : (es : List FormEvent) → (s : Form) → Decidable (AllPrompt es s)
  | [], _ => isTrue trivial
  | e :: es, s =>
    have := decidableAllPrompt es (step s e)
    inferInstanceAs (Decidable (Prompt s e ∧ AllPrompt es (step s e)))

/-! ## The count of polls -/

variable {s : Form}

/-- The polls that an interval has counted were sent in a row. -/
structure Counts (s : Form) : Prop where
  row : s.fresh = false → s.poller.ticking = true → s.poller.polls ≤ s.history.silent
  silent : s.history.silent ≤ s.history.longest
  polls : s.poller.polls ≤ s.history.longest
  timedOut : s.pollTimedOut = true → maxPolls ≤ s.history.longest

theorem counts_initial : Counts {} :=
  ⟨fun _ _ => Nat.le_refl _, Nat.le_refl _, Nat.le_refl _, by simp⟩

theorem ticking_clear (interval : ℕ) (p : Poller String)
    (h : (p.clear interval).ticking = true) : p.ticking = true := by
  unfold Poller.clear at h
  split at h
  · cases h
  · exact h

theorem Counts.clear (h : Counts s) (interval : ℕ) :
    Counts { s with poller := s.poller.clear interval } where
  row hf ht := by simpa using h.row hf (ticking_clear interval _ ht)
  silent := h.silent
  polls := by simpa using h.polls
  timedOut := h.timedOut

theorem Counts.countPoll (h : Counts s) (interval : ℕ) : Counts (s.countPoll interval) := by
  unfold Form.countPoll
  split
  · next hpolls =>
    exact { h.clear interval with timedOut := fun _ => hpolls.trans h.polls }
  · exact h

/-- A new receipt. -/
theorem Counts.receive (h : Counts s) (r : FormReceipt) : Counts
    { s with receipt := some r, fresh := true, history := { s.history with silent := 0 } } where
  row hf := by cases hf
  silent := Nat.zero_le _
  polls := h.polls
  timedOut := h.timedOut

theorem Counts.polled (h : Counts s) (poll : Poll String) (reply : Except Unit FormReceipt) :
    Counts (s.polled poll reply) := by
  unfold Form.polled
  split
  · exact h.countPoll _
  next latest =>
  have hr := h.receive latest
  simp only
  split
  · exact { hr.clear poll.interval with }
  split
  · exact { hr.clear poll.interval with }
  · exact hr.countPoll _

theorem Counts.tick (h : Counts s) (hf : s.fresh = false) : Counts s.tick := by
  unfold Form.tick
  split
  · next ht =>
    have hrow := h.row hf ht
    have htick := s.poller.polls_tick_le
    refine ⟨fun _ _ => ?_, le_max_right _ _, ?_, fun hp => ?_⟩
    · simp only
      omega
    · simp only
      omega
    · exact (h.timedOut hp).trans (le_max_left _ _)
  · exact h

theorem Counts.rerun (h : Counts s) (closure : Option String) :
    Counts { s with poller := s.poller.rerun closure, fresh := false } where
  row _ ht := by
    cases closure with
    | none => cases ht
    | some id => exact Nat.zero_le _
  silent := h.silent
  polls := (s.poller.polls_rerun_le closure).trans h.polls
  timedOut := h.timedOut

theorem Counts.created (h : Counts s) (reply : Except String FormReceipt) :
    Counts (s.created reply) := by
  unfold Form.created
  split
  · exact h
  split
  · exact { h with }
  · next r => exact { h.receive r with }

theorem Counts.step (h : Counts s) {e : FormEvent} (he : Prompt s e) : Counts (step s e) := by
  cases e with
  | submit amount maxAmount available destinationAccount =>
    simp only [WithdrawForm.step, Form.submit]
    split
    · split <;> exact { h with }
    · exact h
  | created reply => exact h.created reply
  | rerun => exact h.rerun s.closure
  | tick => exact h.tick he
  | polled i reply =>
    simp only [WithdrawForm.step]
    split
    · exact h
    · next poll hi =>
      have hanswer : Counts { s with poller := s.poller.answer i } := { h with }
      exact hanswer.polled poll reply

theorem counts_run : ∀ {es : List FormEvent} {s : Form}, Counts s → AllPrompt es s →
    Counts (run es s)
  | [], _, h, _ => h
  | e :: es, s, h, ⟨he, hes⟩ => by
    have hrest : Counts (run es (WithdrawForm.step s e)) := counts_run (h.step he) hes
    exact hrest

/-! ## Polls that are answered -/

/-- A withdrawal that is being processed. -/
def pending : FormReceipt :=
  ⟨"withdrawal", .processing⟩

/-- The dialog polls the withdrawal, and no poll waits. -/
structure Polling (n : ℕ) (s : Form) : Prop where
  phase : s.phase = .processing
  poller : s.poller.closure = some pending.withdrawalId ∧ s.poller.ticking = true ∧
    s.poller.polls = 0 ∧ s.poller.waiting = []
  fresh : s.fresh = false
  pollTimedOut : s.pollTimedOut = false
  sent : s.history.sent = n

/-- A poll, its answer, and the effect that runs with the new receipt. -/
def answeredPoll : List FormEvent :=
  [.tick, .polled 0 (.ok pending), .rerun]

theorem Polling.answered {n : ℕ} (h : Polling n s) :
    AllPrompt answeredPoll s ∧ Polling (n + 1) (run answeredPoll s) := by
  obtain ⟨hclosure, hticking, hpolls, hwaiting⟩ := h.poller
  have hround : run answeredPoll s =
      { s with
        receipt := some pending
        fresh := false
        poller := ⟨s.poller.interval + 1, some pending.withdrawalId, true, 0, []⟩
        history :=
          { s.history with
            sent := s.history.sent + 1
            silent := 0
            longest := max s.history.longest (s.history.silent + 1) } } := by
    simp [run, answeredPoll, step, Form.tick, Form.polled, Form.countPoll, Form.closure,
      Poller.tick, Poller.answer, Poller.rerun, hticking, hclosure, hpolls, hwaiting, h.phase,
      pending, maxPolls]
  refine ⟨⟨h.fresh, trivial, trivial, trivial⟩, ?_⟩
  rw [hround]
  exact
    { phase := h.phase
      poller := ⟨rfl, rfl, rfl, rfl⟩
      fresh := rfl
      pollTimedOut := h.pollTimedOut
      sent := congrArg (· + 1) h.sent }

/-- A withdrawal is created, and polled any number of times. -/
theorem exists_polling : ∀ n, ∃ es, AllPrompt es {} ∧ Polling n (run es {})
  | 0 =>
    ⟨[.submit (some 5) 8 "8" "0917", .created (.ok pending), .rerun], by decide, by decide,
      by decide, by decide, by decide, by decide⟩
  | n + 1 => by
    obtain ⟨es, hes, hpolling⟩ := exists_polling n
    obtain ⟨hprompt, hanswered⟩ := hpolling.answered
    exact ⟨es ++ answeredPoll, allPrompt_append hes hprompt, run_append _ _ _ ▸ hanswered⟩

/-! ## One withdrawal -/

/-- The withdrawals that may have been created. -/
def Form.withdrawals (s : Form) : ℕ :=
  s.creating + s.history.created + s.history.unclear

/-- One withdrawal at most was created or is being created besides those that ended with an
error, and none while the form is there. -/
structure Once (s : Form) : Prop where
  one : s.creating + s.history.created ≤ 1
  form : s.phase = .form → s.creating + s.history.created = 0

theorem Once.countPoll (h : Once s) (interval : ℕ) : Once (s.countPoll interval) := by
  unfold Form.countPoll
  split
  · exact { h with }
  · exact h

theorem Once.polled (h : Once s) (poll : Poll String) (reply : Except Unit FormReceipt) :
    Once (s.polled poll reply) := by
  unfold Form.polled
  split
  · exact h.countPoll _
  next latest =>
  have hr : Once
      { s with receipt := some latest, fresh := true, history := { s.history with silent := 0 } } :=
    { h with }
  simp only
  split
  · exact { hr with form := by simp }
  split
  · exact { hr with form := by simp }
  · exact hr.countPoll _

theorem Once.created (h : Once s) (reply : Except String FormReceipt) :
    Once (s.created reply) := by
  have hone := h.one
  unfold Form.created
  split
  · exact h
  next hpos =>
  split
  · refine ⟨?_, fun _ => ?_⟩ <;> simp only <;> omega
  · next r =>
    refine ⟨?_, fun hform => ?_⟩
    · simp only
      omega
    · simp only at hform
      split at hform
      · cases hform
      · have := h.form hform
        omega

theorem Once.step (h : Once s) (e : FormEvent) : Once (step s e) := by
  cases e with
  | submit amount maxAmount available destinationAccount =>
    simp only [WithdrawForm.step, Form.submit]
    split
    · next hform =>
      have hzero := h.form hform
      split
      · exact { h with }
      · refine ⟨?_, by simp⟩
        simp only
        omega
    · exact h
  | created reply => exact h.created reply
  | rerun => exact { h with }
  | tick =>
    simp only [WithdrawForm.step, Form.tick]
    split
    · exact { h with }
    · exact h
  | polled i reply =>
    simp only [WithdrawForm.step]
    split
    · exact h
    · next poll hi =>
      have hanswer : Once { s with poller := s.poller.answer i } := { h with }
      exact hanswer.polled poll reply

theorem once_run : ∀ {es : List FormEvent} {s : Form}, Once s → Once (run es s)
  | [], _, h => h
  | e :: es, s, h => by
    have hrest : Once (run es (WithdrawForm.step s e)) := once_run (h.step e)
    exact hrest

/-- After an error the form takes another submission. -/
theorem withdrawals_submit_error (hpos : s.creating ≠ 0) (message : String) {amount : Option ℚ}
    {maxAmount : ℚ} {available destinationAccount : String}
    (hinput : inputError maxAmount available destinationAccount amount = none) :
    (step (step s (.created (.error message)))
      (.submit amount maxAmount available destinationAccount)).withdrawals =
        s.withdrawals + 1 := by
  simp only [step, Form.created, if_neg hpos, Form.submit, if_true, hinput, Form.withdrawals]
  omega

end WithdrawForm

open WithdrawForm

/-- A withdrawal is created, and 20 polls are sent before the first fails. -/
def demoSilence : List FormEvent :=
  [.submit (some 5) 8 "8" "0917", .created (.ok pending), .rerun] ++
    List.replicate 20 .tick ++ [.polled 0 (.error ())]

/-- In every run of the dialog, with answers in any order, the withdrawals that may have been
created are one more at most than the creations that ended with an error. An error when one is
being created lets a valid submission create one more. -/
theorem form_once (es : List FormEvent) :
    (WithdrawForm.run es {}).withdrawals ≤ (WithdrawForm.run es {}).history.unclear + 1 ∧
    ((WithdrawForm.run es {}).creating ≠ 0 →
      ∀ message amount maxAmount available destinationAccount,
        inputError maxAmount available destinationAccount amount = none →
          (WithdrawForm.step
            (WithdrawForm.step (WithdrawForm.run es {}) (.created (.error message)))
            (.submit amount maxAmount available destinationAccount)).withdrawals =
              (WithdrawForm.run es {}).withdrawals + 1) := by
  have hfresh : WithdrawForm.Once {} := ⟨Nat.zero_le _, fun _ => rfl⟩
  have honce : WithdrawForm.Once (WithdrawForm.run es {}) := WithdrawForm.once_run hfresh
  refine ⟨?_, fun hpos message _ _ _ _ hinput => withdrawals_submit_error hpos message hinput⟩
  have := honce.one
  unfold Form.withdrawals
  omega

/-- The answer to the creation is lost, and the creator submits again. -/
theorem form_once_lost :
    (WithdrawForm.step (WithdrawForm.step (WithdrawForm.run
        [.submit (some 5) 8 "8" "0917"] {}) (.created (.error "Failed to fetch")))
      (.submit (some 5) 8 "8" "0917")).withdrawals = 2 :=
  (form_once [.submit (some 5) 8 "8" "0917"]).2 (by decide) "Failed to fetch" _ _ _ _ (by decide)

end Kreav
