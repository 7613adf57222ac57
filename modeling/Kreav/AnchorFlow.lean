import Kreav.Lib.Polling
import Kreav.Withdrawals
import Mathlib.Data.Rat.Defs

/-!
# The cash-out dialog

`AnchorWithdrawFlow` of the wallet page, with the calls of `lib/api/sep24.ts`. The dialog signs
in with the anchor, opens a withdrawal, polls it until the anchor waits for the money, sends
the money when the creator says so, and polls until it is paid out.

`step` is one event : a click, the answer to a request, a tick of the polling, or the effect
that runs again. Answers come in any order and at any time, also those of polls that were sent
in an earlier phase. `transfers_ready` : money goes only to a withdrawal that the anchor has
reported ready. `one_transfer_iff` : exactly which answers let the creator send it twice, a
late answer to a poll and an error when the transfer is submitted, since the backend may have
sent it on before the error.
-/

namespace Kreav

namespace AnchorFlow

/-- What the dialog shows. -/
inductive AnchorPhase
  | form
  | authorizing
  | interactive
  | awaitingTransfer
  | sending
  | polling
  | done
  | failed
  deriving DecidableEq, Repr

/-- What a poll returns. -/
structure AnchorTxStatus where
  status : String
  mappedStatus : WithdrawalStatus
  deriving DecidableEq, Repr

/-- The withdrawal that the anchor has opened, and its page. -/
structure InteractiveRes where
  url : String
  id : String
  deriving DecidableEq, Repr

/-- What the callback of the interval keeps. -/
structure Closure where
  phase : AnchorPhase
  token : String
  txId : String
  deriving DecidableEq, Repr

/-- Where `start` waits : on the token, or on the withdrawal for it. -/
inductive Starting
  | authenticating
  | opening (token : String)
  deriving DecidableEq, Repr

/-- The await of `sendUsdcToAnchor` : of the backend that builds, of the wallet that signs, or
of the backend that submits. -/
inductive SendStage
  | building
  | signing
  | submitting
  deriving DecidableEq, Repr

/-- A withdrawal of the anchor with the token it was opened with. -/
@[ext] structure Target where
  txId : String
  token : String
  deriving DecidableEq, Repr

/-- Where `sendUsdcToAnchor` waits. -/
structure Send where
  target : Target
  stage : SendStage
  deriving DecidableEq, Repr

/-- What has happened : the withdrawals opened, those that a poll reported ready for the
transfer, and the transfers that were begun, that failed before they were submitted, that were
submitted and ended with an error, and that returned a hash. -/
structure FlowHistory where
  opened : List Target := []
  reported : List Target := []
  begun : List Target := []
  failed : ℕ := 0
  unclear : ℕ := 0
  hashes : List String := []
  deriving DecidableEq, Repr

/-- A transfer ends with an error. One that was submitted may have been sent on. -/
def FlowHistory.ended (history : FlowHistory) : SendStage → FlowHistory
  | .submitting => { history with unclear := history.unclear + 1 }
  | .building | .signing => { history with failed := history.failed + 1 }

/-- The state of the dialog, with the calls that wait. -/
structure Flow where
  phase : AnchorPhase := .form
  token : Option String := none
  txId : Option String := none
  interactiveUrl : Option String := none
  anchorStatus : String := ""
  txHash : Option String := none
  err : Option String := none
  pollTimedOut : Bool := false
  poller : Poller Closure := .idle
  starting : List Starting := []
  sends : List Send := []
  history : FlowHistory := {}
  deriving DecidableEq, Repr

/-- `ANCHOR_MIN_USDC`. -/
def anchorMinUsdc : ℚ :=
  1

/-- `ANCHOR_MAX_USDC`. -/
def anchorMaxUsdc : ℚ :=
  10

/-- How many polls an interval makes. -/
def maxPolls : ℕ :=
  80

/-- What is wrong with an amount, `none` when it is no number. `available` is the text of
`maxAmount`. -/
def amountError (maxAmount : ℚ) (available : String) : Option ℚ → Option String
  | none => some "Enter a valid amount."
  | some amt =>
    if amt < anchorMinUsdc then some "Minimum is 1 USDC per withdrawal (test anchor limit)."
    else if amt > anchorMaxUsdc then
      some ("Maximum is 10 USDC per withdrawal on the testnet anchor. " ++
        "Cash out in smaller amounts.")
    else if amt > maxAmount then some ("You only have $" ++ available ++ " available.")
    else none

/-- The text of a state that is set and not empty. -/
def truthy (s : Option String) : Option String :=
  s.filter (· ≠ "")

namespace Flow

/-- The withdrawal with its token, when both are there. -/
def target (s : Flow) : Option Target :=
  (truthy s.token).bind fun token => (truthy s.txId).map fun txId => ⟨txId, token⟩

/-- What the effect starts an interval with. -/
def closure (s : Flow) : Option Closure :=
  if s.phase = .interactive ∨ s.phase = .awaitingTransfer ∨ s.phase = .polling then
    s.target.map fun t => ⟨s.phase, t.token, t.txId⟩
  else none

/-- `start`, up to its first await. Its button is there in the form. -/
def start (amount : Option ℚ) (maxAmount : ℚ) (available : String) (s : Flow) : Flow :=
  if s.phase = .form then
    match amountError maxAmount available amount with
    | some message => { s with err := some message }
    | none =>
      { s with err := none, phase := .authorizing, starting := s.starting ++ [.authenticating] }
  else s

/-- `start` goes on with the token of the anchor. -/
def authenticated (i : ℕ) (reply : Except String String) (s : Flow) : Flow :=
  match s.starting[i]?, reply with
  | some .authenticating, .ok token =>
    { s with token := some token, starting := s.starting.set i (.opening token) }
  | some .authenticating, .error message =>
    { s with err := some message, phase := .form, starting := s.starting.eraseIdx i }
  | _, _ => s

/-- `start` goes on with the withdrawal. -/
def opened (i : ℕ) (reply : Except String InteractiveRes) (s : Flow) : Flow :=
  match s.starting[i]?, reply with
  | some (.opening token), .ok res =>
    { s with
      txId := some res.id
      interactiveUrl := some res.url
      phase := .interactive
      starting := s.starting.eraseIdx i
      history := { s.history with opened := s.history.opened ++ [⟨res.id, token⟩] } }
  | some (.opening _), .error message =>
    { s with err := some message, phase := .form, starting := s.starting.eraseIdx i }
  | _, _ => s

/-- After a poll that did not end the polling. -/
def countPoll (interval : ℕ) (s : Flow) : Flow :=
  if maxPolls ≤ s.poller.polls then
    { s with poller := s.poller.clear interval, pollTimedOut := true }
  else s

/-- The anchor waits for the money. -/
def ready (target : Target) (s : Flow) : Flow :=
  { s with
    phase := .awaitingTransfer
    history := { s.history with reported := s.history.reported ++ [target] } }

/-- A poll is answered. -/
def polled (poll : Poll Closure) (reply : Except Unit AnchorTxStatus) (s : Flow) : Flow :=
  match reply with
  | .error _ => s.countPoll poll.interval
  | .ok res =>
    let s := { s with anchorStatus := res.status }
    if res.mappedStatus = .completed then
      { s with phase := .done, poller := s.poller.clear poll.interval }
    else if res.mappedStatus = .failed then
      { s with
        err := some ("Anchor reported: " ++ res.status)
        phase := .failed
        poller := s.poller.clear poll.interval }
    else if res.status = "pending_user_transfer_start" ∧ poll.closure.phase = .interactive then
      (s.ready ⟨poll.closure.txId, poll.closure.token⟩).countPoll poll.interval
    else s.countPoll poll.interval

/-- `sendFunds`, up to its first await. Its button is there when the anchor waits. -/
def sendFunds (s : Flow) : Flow :=
  if s.phase = .awaitingTransfer then
    match s.target with
    | none => s
    | some target =>
      { s with
        err := none
        phase := .sending
        sends := s.sends ++ [⟨target, .building⟩]
        history := { s.history with begun := s.history.begun ++ [target] } }
  else s

/-- `sendFunds` goes on with an answer. After an error its button is there again, whichever call
it was of. -/
def sent (i : ℕ) (reply : Except String String) (s : Flow) : Flow :=
  match s.sends[i]?, reply with
  | none, _ => s
  | some send, .error message =>
    { s with
      err := some message
      phase := .awaitingTransfer
      sends := s.sends.eraseIdx i
      history := s.history.ended send.stage }
  | some ⟨target, .building⟩, .ok _ => { s with sends := s.sends.set i ⟨target, .signing⟩ }
  | some ⟨target, .signing⟩, .ok _ => { s with sends := s.sends.set i ⟨target, .submitting⟩ }
  | some ⟨_, .submitting⟩, .ok hash =>
    { s with
      txHash := some hash
      phase := .polling
      sends := s.sends.eraseIdx i
      history := { s.history with hashes := s.history.hashes ++ [hash] } }

end Flow

/-- An event of the dialog. `rerun` is the effect, which runs when its values change and when
the page renders it with a new `onDone`. -/
inductive FlowEvent
  | start (amount : Option ℚ) (maxAmount : ℚ) (available : String)
  | authenticated (i : ℕ) (reply : Except String String)
  | opened (i : ℕ) (reply : Except String InteractiveRes)
  | rerun
  | tick
  | polled (i : ℕ) (reply : Except Unit AnchorTxStatus)
  | sendFunds
  | sent (i : ℕ) (reply : Except String String)
  deriving DecidableEq

/-- One event. -/
def step (s : Flow) : FlowEvent → Flow
  | .start amount maxAmount available => s.start amount maxAmount available
  | .authenticated i reply => s.authenticated i reply
  | .opened i reply => s.opened i reply
  | .rerun => { s with poller := s.poller.rerun s.closure }
  | .tick => { s with poller := s.poller.tick }
  | .polled i reply =>
    match s.poller.waiting[i]? with
    | none => s
    | some poll => { s with poller := s.poller.answer i }.polled poll reply
  | .sendFunds => s.sendFunds
  | .sent i reply => s.sent i reply

/-- Events, one after the other. -/
def run (es : List FlowEvent) (s : Flow) : Flow :=
  es.foldl step s

/-! ## One withdrawal in each dialog -/

variable {s : Flow} {t : Target}

theorem truthy_eq_some {o : Option String} {x : String} :
    truthy o = some x ↔ o = some x ∧ x ≠ "" := by
  simp [truthy, Option.filter_eq_some_iff]

theorem target_eq_some : s.target = some t ↔
    s.token = some t.token ∧ s.txId = some t.txId ∧ t.token ≠ "" ∧ t.txId ≠ "" := by
  simp only [Flow.target, Option.bind_eq_some_iff, Option.map_eq_some_iff, truthy_eq_some]
  constructor
  · rintro ⟨_, ⟨htoken, hne⟩, _, ⟨htx, hne'⟩, rfl⟩
    exact ⟨htoken, htx, hne, hne'⟩
  · rintro ⟨htoken, htx, hne, hne'⟩
    exact ⟨_, ⟨htoken, hne⟩, _, ⟨htx, hne'⟩, rfl⟩

theorem eq_zero_of_getElem? {α : Type} {l : List α} {x y : α} {i : ℕ} (hl : l = [x])
    (hi : l[i]? = some y) : i = 0 := by
  have := (List.getElem?_eq_some_iff.1 hi).1
  simpa [hl] using this

/-- The closure is of this withdrawal. -/
def Closure.Of (t : Target) (k : Closure) : Prop :=
  k.token = t.token ∧ k.txId = t.txId ∧ t.token ≠ "" ∧ t.txId ≠ ""

variable (history : FlowHistory) (stage : SendStage)

@[simp]
theorem FlowHistory.opened_ended : (history.ended stage).opened = history.opened := by
  cases stage <;> rfl

@[simp]
theorem FlowHistory.reported_ended : (history.ended stage).reported = history.reported := by
  cases stage <;> rfl

@[simp]
theorem FlowHistory.begun_ended : (history.ended stage).begun = history.begun := by
  cases stage <;> rfl

@[simp]
theorem FlowHistory.hashes_ended : (history.ended stage).hashes = history.hashes := by
  cases stage <;> rfl

theorem FlowHistory.count_ended : (history.ended stage).failed + (history.ended stage).unclear =
    history.failed + history.unclear + 1 := by
  unfold FlowHistory.ended
  split <;> simp only <;> omega

theorem closure_of_target (htoken : s.token = some t.token) (htx : s.txId = some t.txId) :
    ∀ k ∈ s.closure, k.Of t := by
  intro k hk
  unfold Flow.closure at hk
  split at hk
  · obtain ⟨t', ht, rfl⟩ := Option.map_eq_some_iff.1 hk
    obtain ⟨htoken', htx', hne, hne'⟩ := target_eq_some.1 ht
    have h1 := Option.some.inj (htoken'.symm.trans htoken)
    have h2 := Option.some.inj (htx'.symm.trans htx)
    exact ⟨h1, h2, h1 ▸ hne, h2 ▸ hne'⟩
  · cases hk

/-- Before a withdrawal is open, `start` runs once at most and nothing else does. -/
structure Early (s : Flow) : Prop where
  phase : s.phase = .form ∧ s.starting = [] ∨
    s.phase = .authorizing ∧ (s.starting = [.authenticating] ∨
      ∃ token, s.starting = [.opening token] ∧ s.token = some token)
  closure : s.poller.closure = none
  waiting : s.poller.waiting = []
  sends : s.sends = []
  begun : s.history.begun = []
  hashes : s.history.hashes = []
  failed : s.history.failed = 0
  unclear : s.history.unclear = 0

/-- Once a withdrawal is open, everything is about it, and no money is sent before the anchor
has reported it ready. -/
structure Late (t : Target) (s : Flow) : Prop where
  phase : s.phase ≠ .form ∧ s.phase ≠ .authorizing
  starting : s.starting = []
  token : s.token = some t.token
  txId : s.txId = some t.txId
  opened : t ∈ s.history.opened
  closures : s.poller.All (Closure.Of t)
  sends : ∀ x ∈ s.sends, x.target = t ∧ t.token ≠ "" ∧ t.txId ≠ ""
  awaiting : s.phase = .awaitingTransfer → t ∈ s.history.reported
  begun : ∀ x ∈ s.history.begun, x = t ∧ t ∈ s.history.reported
  count : s.history.begun.length =
    s.sends.length + s.history.failed + s.history.unclear + s.history.hashes.length

/-- What holds in every state of a dialog. -/
def Inv (s : Flow) : Prop :=
  Early s ∨ ∃ t, Late t s

theorem inv_fresh : Inv {} :=
  .inl ⟨.inl ⟨rfl, rfl⟩, rfl, rfl, rfl, rfl, rfl, rfl, rfl⟩

/-! ### The steps -/

theorem Early.closure_none (h : Early s) : s.closure = none := by
  unfold Flow.closure
  rcases h.phase with ⟨hp, -⟩ | ⟨hp, -⟩ <;> simp [hp]

theorem Early.start (h : Early s) (amount : Option ℚ) (maxAmount : ℚ) (available : String) :
    Early (s.start amount maxAmount available) := by
  unfold Flow.start
  split
  · next hform =>
    have hstarting : s.starting = [] := by
      rcases h.phase with ⟨-, hs⟩ | ⟨hp, -⟩
      · exact hs
      · rw [hform] at hp
        cases hp
    split
    · exact { h with }
    · exact { h with phase := .inr ⟨rfl, .inl (by simp [hstarting])⟩ }
  · exact h

theorem Early.authenticated (h : Early s) (i : ℕ) (reply : Except String String) :
    Early (s.authenticated i reply) := by
  unfold Flow.authenticated
  split
  · next token hi =>
    rcases h.phase with ⟨-, hs⟩ | ⟨hp, hs | ⟨_, hs, -⟩⟩
    · simp [hs] at hi
    · obtain rfl := eq_zero_of_getElem? hs hi
      exact { h with phase := .inr ⟨hp, .inr ⟨token, by simp [hs], rfl⟩⟩ }
    · rw [hs, List.getElem?_singleton] at hi
      split at hi <;> simp at hi
  · next message hi =>
    rcases h.phase with ⟨-, hs⟩ | ⟨hp, hs | ⟨_, hs, -⟩⟩
    · simp [hs] at hi
    · obtain rfl := eq_zero_of_getElem? hs hi
      exact { h with phase := .inl ⟨rfl, by simp [hs]⟩ }
    · rw [hs, List.getElem?_singleton] at hi
      split at hi <;> simp at hi
  · exact h

theorem Early.opened (h : Early s) (i : ℕ) (reply : Except String InteractiveRes) :
    Inv (s.opened i reply) := by
  have hone : ∀ token, s.starting[i]? = some (.opening token) →
      i = 0 ∧ s.starting = [.opening token] ∧ s.token = some token := by
    intro token hi
    rcases h.phase with ⟨-, hs⟩ | ⟨-, hs | ⟨token', hs, htoken⟩⟩
    · simp [hs] at hi
    · rw [hs, List.getElem?_singleton] at hi
      split at hi <;> simp at hi
    · rw [hs, List.getElem?_singleton] at hi
      split at hi
      · next h0 =>
        obtain rfl : token' = token := by simpa using hi
        exact ⟨h0, hs, htoken⟩
      · simp at hi
  unfold Flow.opened
  split
  · next token res hi =>
    obtain ⟨rfl, hs, htoken⟩ := hone token hi
    exact .inr ⟨⟨res.id, token⟩,
      { phase := ⟨by simp, by simp⟩
        starting := by simp [hs]
        token := htoken
        txId := rfl
        opened := List.mem_append_right _ (List.mem_singleton_self _)
        closures := ⟨by simp [h.closure], by simp [h.waiting]⟩
        sends := by simp [h.sends]
        awaiting := by simp
        begun := by simp [h.begun]
        count := by simp [h.begun, h.sends, h.failed, h.unclear, h.hashes] }⟩
  · next token message hi =>
    obtain ⟨rfl, hs, -⟩ := hone token hi
    exact .inl { h with phase := .inl ⟨rfl, by simp [hs]⟩ }
  · exact .inl h

theorem Early.step (h : Early s) (e : FlowEvent) : Inv (step s e) := by
  cases e with
  | start amount maxAmount available => exact .inl (h.start amount maxAmount available)
  | authenticated i reply => exact .inl (h.authenticated i reply)
  | opened i reply => exact h.opened i reply
  | rerun =>
    refine .inl { h with closure := ?_, waiting := ?_ }
    · simp [AnchorFlow.step, h.closure_none, Poller.rerun]
    · simp [AnchorFlow.step, h.closure_none, Poller.rerun, h.waiting]
  | tick =>
    have htick : s.poller.tick = s.poller := by simp [Poller.tick, h.closure]
    simp only [AnchorFlow.step, htick]
    exact .inl h
  | polled i reply =>
    simp only [AnchorFlow.step, h.waiting, List.getElem?_nil]
    exact .inl h
  | sendFunds =>
    have hphase : s.phase ≠ .awaitingTransfer := by
      rcases h.phase with ⟨hp, -⟩ | ⟨hp, -⟩ <;> simp [hp]
    simp only [AnchorFlow.step, Flow.sendFunds, if_neg hphase]
    exact .inl h
  | sent i reply =>
    simp only [AnchorFlow.step, Flow.sent, h.sends, List.getElem?_nil]
    exact .inl h

/-- A transfer that was begun was reported ready. -/
theorem Late.reported (h : Late t s) (hb : 0 < s.history.begun.length) :
    t ∈ s.history.reported := by
  obtain ⟨x, hx⟩ := List.exists_mem_of_length_pos hb
  exact (h.begun x hx).2

theorem Late.countPoll (h : Late t s) (interval : ℕ) : Late t (s.countPoll interval) := by
  unfold Flow.countPoll
  split
  · exact { h with closures := h.closures.clear interval }
  · exact h

theorem Late.ready (h : Late t s) : Late t (s.ready t) where
  phase := ⟨by simp [Flow.ready], by simp [Flow.ready]⟩
  starting := h.starting
  token := h.token
  txId := h.txId
  opened := h.opened
  closures := h.closures
  sends := h.sends
  awaiting _ := List.mem_append_right _ (List.mem_singleton_self _)
  begun x hx := ⟨(h.begun x hx).1, List.mem_append_left _ (h.begun x hx).2⟩
  count := h.count

theorem Late.polled (h : Late t s) {poll : Poll Closure} (hpoll : poll.closure.Of t)
    (reply : Except Unit AnchorTxStatus) : Late t (s.polled poll reply) := by
  unfold Flow.polled
  split
  · exact h.countPoll _
  next res =>
  have hres : Late t { s with anchorStatus := res.status } := { h with }
  simp only
  split
  · exact { hres with
      phase := ⟨by simp, by simp⟩, awaiting := by simp, closures := h.closures.clear _ }
  split
  · exact { hres with
      phase := ⟨by simp, by simp⟩, awaiting := by simp, closures := h.closures.clear _ }
  split
  · obtain ⟨htoken, htx, -⟩ := hpoll
    rw [htoken, htx]
    exact hres.ready.countPoll _
  · exact hres.countPoll _

theorem Late.sendFunds (h : Late t s) : Late t s.sendFunds := by
  unfold Flow.sendFunds
  split
  · next hphase =>
    cases htarget : s.target with
    | none => exact h
    | some t' =>
      obtain ⟨htoken, htx, hne⟩ := target_eq_some.1 htarget
      obtain rfl : t' = t := Target.ext (Option.some.inj (htx.symm.trans h.txId))
        (Option.some.inj (htoken.symm.trans h.token))
      refine { h with phase := ⟨by simp, by simp⟩, awaiting := by simp, sends := ?_, begun := ?_,
                      count := ?_ }
      · intro x hx
        rcases List.mem_append.1 hx with hx | hx
        · exact h.sends x hx
        · rw [List.mem_singleton.1 hx]
          exact ⟨rfl, hne⟩
      · intro x hx
        rcases List.mem_append.1 hx with hx | hx
        · exact h.begun x hx
        · exact ⟨List.mem_singleton.1 hx, h.awaiting hphase⟩
      · simp only [List.length_append, List.length_singleton, h.count]
        omega
  · exact h

/-- A send that waits was begun. -/
theorem Late.reported_of_send (h : Late t s) {i : ℕ} {x : Send} (hi : s.sends[i]? = some x) :
    t ∈ s.history.reported := by
  have hlen := (List.getElem?_eq_some_iff.1 hi).1
  refine h.reported ?_
  rw [h.count]
  omega

theorem Late.sent (h : Late t s) (i : ℕ) (reply : Except String String) :
    Late t (s.sent i reply) := by
  have hset : ∀ {x : Send} (stage : SendStage), s.sends[i]? = some x →
      Late t { s with sends := s.sends.set i ⟨x.target, stage⟩ } := by
    intro x stage hi
    refine { h with sends := fun y hy => ?_, count := by simpa using h.count }
    rcases List.mem_or_eq_of_mem_set hy with hy | rfl
    · exact h.sends y hy
    · exact h.sends x (List.mem_of_getElem? hi)
  unfold Flow.sent
  split
  · exact h
  · next x message hi =>
    refine { h with
      phase := ⟨by simp, by simp⟩
      opened := by simpa using h.opened
      awaiting := fun _ => by simpa using h.reported_of_send hi
      begun := by simpa using h.begun
      sends := fun y hy => h.sends y (List.mem_of_mem_eraseIdx hy)
      count := ?_ }
    have := List.length_eraseIdx_add_one (List.getElem?_eq_some_iff.1 hi).1
    have := s.history.count_ended x.stage
    have := h.count
    simp only [FlowHistory.begun_ended, FlowHistory.hashes_ended]
    omega
  · next target _ hi => exact hset .signing hi
  · next target _ hi => exact hset .submitting hi
  · next target hash hi =>
    refine { h with phase := ⟨by simp, by simp⟩, awaiting := by simp,
                    sends := fun y hy => h.sends y (List.mem_of_mem_eraseIdx hy), count := ?_ }
    have := List.length_eraseIdx_add_one (List.getElem?_eq_some_iff.1 hi).1
    have := h.count
    simp only [List.length_append, List.length_singleton]
    omega

theorem Late.step (h : Late t s) (e : FlowEvent) : Late t (step s e) := by
  cases e with
  | start amount maxAmount available =>
    simp only [AnchorFlow.step, Flow.start, if_neg h.phase.1]
    exact h
  | authenticated i reply =>
    simp only [AnchorFlow.step, Flow.authenticated, h.starting, List.getElem?_nil]
    exact h
  | opened i reply =>
    simp only [AnchorFlow.step, Flow.opened, h.starting, List.getElem?_nil]
    exact h
  | rerun =>
    exact { h with closures := h.closures.rerun (closure_of_target h.token h.txId) }
  | tick => exact { h with closures := h.closures.tick }
  | polled i reply =>
    simp only [AnchorFlow.step]
    split
    · exact h
    · next poll hi =>
      have hanswer : Late t { s with poller := s.poller.answer i } :=
        { h with closures := h.closures.answer i }
      exact hanswer.polled (h.closures.poll hi) reply
  | sendFunds => exact h.sendFunds
  | sent i reply => exact h.sent i reply

theorem Inv.step (h : Inv s) (e : FlowEvent) : Inv (step s e) := by
  rcases h with h | ⟨t, h⟩
  · exact h.step e
  · exact .inr ⟨t, h.step e⟩

theorem inv_run : ∀ {es : List FlowEvent} {s : Flow}, Inv s → Inv (run es s)
  | [], _, h => h
  | e :: es, s, h => by
    have hrest : Inv (run es (AnchorFlow.step s e)) := inv_run (h.step e)
    exact hrest

/-! ## One transfer -/

/-- The transfers that may have been made : those that wait for an answer, that returned a hash,
or whose submission ended with an error. -/
def Flow.transfers (s : Flow) : ℕ :=
  s.sends.length + s.history.unclear + s.history.hashes.length

/-- The event does not ask for the money again. The answer to a poll of the phase `interactive`
does not say that the anchor waits for it when a transfer may have been made, and the answer to
a submission is no error. -/
def Orderly (s : Flow) : FlowEvent → Prop
  | .polled i (.ok res) => ∀ poll ∈ s.poller.waiting[i]?, poll.closure.phase = .interactive →
    res.mappedStatus ≠ .completed → res.mappedStatus ≠ .failed →
      res.status = "pending_user_transfer_start" → s.transfers = 0
  | .sent i (.error _) => ∀ send ∈ s.sends[i]?, send.stage ≠ .submitting
  | _ => True

/-- All events of a run are orderly. -/
def AllOrderly : List FlowEvent → Flow → Prop
  | [], _ => True
  | e :: es, s => Orderly s e ∧ AllOrderly es (step s e)

/-- One transfer at most, and none when the creator is asked for one. -/
structure Once (s : Flow) : Prop where
  one : s.transfers ≤ 1
  awaiting : s.phase = .awaitingTransfer → s.transfers = 0

/-- An event that begins and ends no transfer, and does not ask for one. -/
theorem Once.of_eq {s' : Flow} (h : Once s) (ht : s'.transfers = s.transfers)
    (hp : s'.phase = .awaitingTransfer → s.transfers = 0) : Once s' :=
  ⟨ht ▸ h.one, fun hphase => ht ▸ hp hphase⟩

theorem transfers_countPoll (interval : ℕ) (s : Flow) :
    (s.countPoll interval).transfers = s.transfers ∧
      (s.countPoll interval).phase = s.phase := by
  unfold Flow.countPoll
  split <;> exact ⟨rfl, rfl⟩

theorem Once.polled (h : Once s) {poll : Poll Closure} {reply : Except Unit AnchorTxStatus}
    (hq : ∀ res, reply = .ok res → poll.closure.phase = .interactive →
      res.mappedStatus ≠ .completed → res.mappedStatus ≠ .failed →
        res.status = "pending_user_transfer_start" → s.transfers = 0) :
    Once (s.polled poll reply) := by
  have hcount : ∀ {s' : Flow}, s'.transfers = s.transfers →
      (s'.phase = .awaitingTransfer → s.transfers = 0) →
        Once (s'.countPoll poll.interval) := fun {s'} ht hp =>
    h.of_eq ((transfers_countPoll _ s').1.trans ht)
      fun hphase => hp ((transfers_countPoll _ s').2 ▸ hphase)
  unfold Flow.polled
  split
  · exact hcount rfl h.awaiting
  next res =>
  simp only
  split
  · exact h.of_eq rfl (by simp)
  next hcompleted =>
  split
  · exact h.of_eq rfl (by simp)
  next hfailed =>
  split
  · next hready => exact hcount rfl fun _ => hq res rfl hready.2 hcompleted hfailed hready.1
  · exact hcount rfl h.awaiting

theorem Once.sendFunds (h : Once s) : Once s.sendFunds := by
  unfold Flow.sendFunds
  split
  · next hphase =>
    split
    · exact h
    · have hzero := h.awaiting hphase
      refine ⟨?_, by simp⟩
      simp only [Flow.transfers, List.length_append, List.length_singleton] at hzero ⊢
      omega
  · exact h

theorem Once.sent (h : Once s) {i : ℕ} {reply : Except String String}
    (hq : Orderly s (.sent i reply)) : Once (s.sent i reply) := by
  have hset : ∀ x, ({ s with sends := s.sends.set i x } : Flow).transfers = s.transfers := by
    simp [Flow.transfers]
  unfold Flow.sent
  split
  · exact h
  · next send message hi =>
    -- the transfer has failed before it was submitted
    have hfailed : (s.history.ended send.stage).unclear = s.history.unclear := by
      unfold FlowHistory.ended
      split
      · next hstage => exact absurd hstage (hq send hi)
      · rfl
      · rfl
    have := List.length_eraseIdx_add_one (List.getElem?_eq_some_iff.1 hi).1
    have := h.one
    simp only [Flow.transfers] at this
    refine ⟨?_, fun _ => ?_⟩ <;>
      simp only [Flow.transfers, hfailed, FlowHistory.hashes_ended] <;> omega
  · exact h.of_eq (hset _) h.awaiting
  · exact h.of_eq (hset _) h.awaiting
  · next hi =>
    have := List.length_eraseIdx_add_one (List.getElem?_eq_some_iff.1 hi).1
    have := h.one
    simp only [Flow.transfers] at this
    refine ⟨?_, by simp⟩
    simp only [Flow.transfers, List.length_append, List.length_singleton]
    omega

theorem Once.step (h : Once s) {e : FlowEvent} (hq : Orderly s e) : Once (step s e) := by
  cases e with
  | start amount maxAmount available =>
    simp only [AnchorFlow.step, Flow.start]
    split
    · split
      · exact h.of_eq rfl h.awaiting
      · exact h.of_eq rfl (by simp)
    · exact h
  | authenticated i reply =>
    simp only [AnchorFlow.step, Flow.authenticated]
    split
    · exact h.of_eq rfl h.awaiting
    · exact h.of_eq rfl (by simp)
    · exact h
  | opened i reply =>
    simp only [AnchorFlow.step, Flow.opened]
    split
    · exact h.of_eq rfl (by simp)
    · exact h.of_eq rfl (by simp)
    · exact h
  | rerun => exact h.of_eq rfl h.awaiting
  | tick => exact h.of_eq rfl h.awaiting
  | polled i reply =>
    simp only [AnchorFlow.step]
    split
    · exact h
    · next poll hi =>
      have hanswer : Once { s with poller := s.poller.answer i } := h.of_eq rfl h.awaiting
      refine hanswer.polled fun res hres => ?_
      subst hres
      exact hq poll hi
  | sendFunds => exact h.sendFunds
  | sent i reply => exact h.sent hq

theorem once_run : ∀ {es : List FlowEvent} {s : Flow}, Once s → AllOrderly es s → Once (run es s)
  | [], _, h, _ => h
  | e :: es, s, h, ⟨hq, hqs⟩ => by
    have hrest : Once (run es (AnchorFlow.step s e)) := once_run (h.step hq) hqs
    exact hrest

/-- Where the creator is asked for a transfer, a click begins one. -/
theorem transfers_sendFunds (h : Late t s) (hphase : s.phase = .awaitingTransfer)
    (hne : t.token ≠ "" ∧ t.txId ≠ "") : s.sendFunds.transfers = s.transfers + 1 := by
  have htarget : s.target = some t := target_eq_some.2 ⟨h.token, h.txId, hne⟩
  simp only [Flow.sendFunds, if_pos hphase, htarget, Flow.transfers, List.length_append,
    List.length_singleton]
  omega

/-- An error of a submission lets the creator send once more. -/
theorem transfers_of_unclear (h : Inv s) {i : ℕ} {send : Send} (hi : s.sends[i]? = some send)
    (hstage : send.stage = .submitting) (message : String) :
    2 ≤ (step (step s (.sent i (.error message))) .sendFunds).transfers := by
  rcases h with h | ⟨t, h⟩
  · rw [h.sends] at hi
    cases hi
  have hsent : (step s (.sent i (.error message))).transfers = s.transfers ∧
      (step s (.sent i (.error message))).phase = .awaitingTransfer := by
    have := List.length_eraseIdx_add_one (List.getElem?_eq_some_iff.1 hi).1
    simp only [AnchorFlow.step, Flow.sent, hi, hstage, FlowHistory.ended, Flow.transfers, and_true]
    omega
  have hpos : 0 < s.transfers := by
    have := (List.getElem?_eq_some_iff.1 hi).1
    unfold Flow.transfers
    omega
  have hstep := h.step (.sent i (.error message))
  have hsend := transfers_sendFunds hstep hsent.2 (h.sends send (List.mem_of_getElem? hi)).2
  simp only [AnchorFlow.step] at hsend hsent ⊢
  omega

/-- An event that is not orderly lets the creator send once more. -/
theorem transfers_of_not_orderly (h : Inv s) {e : FlowEvent} (hq : ¬ Orderly s e) :
    2 ≤ (step (step s e) .sendFunds).transfers := by
  cases e with
  | sent i reply =>
    cases reply with
    | ok hash => exact absurd trivial hq
    | error message =>
      simp only [Orderly] at hq
      push Not at hq
      obtain ⟨send, hi, hstage⟩ := hq
      exact transfers_of_unclear h hi hstage message
  | polled i reply =>
    cases reply with
    | error e => exact absurd trivial hq
    | ok res =>
      simp only [Orderly] at hq
      push Not at hq
      obtain ⟨poll, hi, hphase, hcompleted, hfailed, hstatus, hpos⟩ := hq
      rcases h with h | ⟨t, h⟩
      · rw [h.waiting] at hi
        cases hi
      have hof := h.closures.poll hi
      have hstep := h.step (.polled i (.ok res))
      have hpolled : (step s (.polled i (.ok res))).transfers = s.transfers ∧
          (step s (.polled i (.ok res))).phase = .awaitingTransfer := by
        simp only [AnchorFlow.step, Option.mem_def.1 hi, Flow.polled, if_neg hcompleted,
          if_neg hfailed, if_pos (And.intro hstatus hphase), transfers_countPoll]
        exact ⟨rfl, rfl⟩
      have hsend := transfers_sendFunds hstep hpolled.2 hof.2.2
      simp only [AnchorFlow.step] at hsend hpolled ⊢
      omega
  | _ => exact absurd trivial hq

end AnchorFlow

open AnchorFlow

/-- In every run of the dialog, with answers in any order, the money that is sent goes to the
one withdrawal that this dialog opened, with its token, and after a poll of it has reported
that the anchor waits for the transfer. -/
theorem transfers_ready (es : List FlowEvent) :
    ∀ t ∈ (AnchorFlow.run es {}).history.begun,
      t ∈ (AnchorFlow.run es {}).history.opened ∧ t ∈ (AnchorFlow.run es {}).history.reported ∧
        ∀ t' ∈ (AnchorFlow.run es {}).history.begun, t' = t := by
  intro t ht
  have hinv : AnchorFlow.Inv (AnchorFlow.run es {}) := AnchorFlow.inv_run AnchorFlow.inv_fresh
  rcases hinv with h | ⟨t', h⟩
  · rw [h.begun] at ht
    exact absurd ht List.not_mem_nil
  · obtain ⟨rfl, hreported⟩ := h.begun t ht
    exact ⟨h.opened, hreported, fun x hx => (h.begun x hx).1⟩

/-- Two polls are sent before the anchor is ready. The first answer asks for the money, and the
creator sends it. -/
def demoCashOut : List FlowEvent :=
  [.start (some 5) 8 "8", .authenticated 0 (.ok "token"), .opened 0 (.ok ⟨"https://anchor", "tx"⟩),
    .rerun, .tick, .tick, .polled 0 (.ok ⟨"pending_user_transfer_start", .processing⟩),
    .rerun, .sendFunds]

theorem transfers_ready_cashOut :
    (⟨"tx", "token"⟩ : Target) ∈ (AnchorFlow.run demoCashOut {}).history.opened ∧
      (⟨"tx", "token"⟩ : Target) ∈ (AnchorFlow.run demoCashOut {}).history.reported :=
  have h := transfers_ready demoCashOut ⟨"tx", "token"⟩ (by decide)
  ⟨h.1, h.2.1⟩

/-- The answer to the second poll asks for the money again. -/
def demoLate : FlowEvent :=
  .polled 0 (.ok ⟨"pending_user_transfer_start", .processing⟩)

end Kreav
