import Kreav.Lib.Polling
import Kreav.Lib.Regex
import Kreav.OrderStateMachine
import Kreav.PayoutPreview

/-!
# The page of a product

`frontend/src/app/(app)/store/[id]/page.tsx` : a buyer checks out, pays in the demo, and the page
polls the order until it is paid or failed, 20 polls at most for each run of the effect. The
session storage keeps an order that is pending, for a reload of the page.

An answer to a poll is taken even when its interval was cleared, and when the page shows
another order. `Shown` : a page that says that the payment was received has the order of a poll
that was answered so. It holds as long as no such answer comes late (`shown_step_iff`). What
holds in every run is that the page and all callbacks know orders only that the page checked
out (`Known`).
-/

namespace Kreav

/-! ## The statuses of the interface -/

/-- The statuses that the page knows. -/
inductive OrderStatusView
  | pending
  | paid
  | failed
  deriving DecidableEq, Repr

/-- `STATUS_MAP`. -/
def mapOrderStatus : OrderStatus → OrderStatusView
  | .created => .pending
  | .checkoutStarted => .pending
  | .paymentPending => .pending
  | .waitingWallet => .pending
  | .settlementPending => .pending
  | .withdrawPending => .pending
  | .paymentReceived => .paid
  | .settled => .paid
  | .withdrawCompleted => .paid
  | .paymentFailed => .failed
  | .settlementFailed => .failed
  | .withdrawFailed => .failed
  | .cancelled => .failed

namespace CheckoutPage

open ProductForm

/-- `Buy`, what the page shows. -/
inductive Buy
  | idle
  | paying
  | pending
  | paid
  | failed
  deriving DecidableEq, Repr

/-- A character of the class `[^\s@]`. -/
def isEmailChar (c : Char) : Bool :=
  !isWhitespace c && c != '@'

/-- `EMAIL_RE`. -/
def emailRe : Regex :=
  .seq (.times isEmailChar 1 none) (.seq (.cls (· == '@')) (.seq (.times isEmailChar 1 none)
    (.seq (.cls (· == '.')) (.seq (.times isEmailChar 1 none) .atEnd))))

/-- The order of a callback, with the e-mail of the render that made it. -/
structure Purchase where
  orderId : String
  email : String
  deriving DecidableEq, Repr

/-- The record of the session storage. -/
structure Saved where
  orderId : String
  email : String
  buy : Buy
  deriving DecidableEq, Repr

/-- What has happened : the orders that were checked out with the e-mails that were sent, and
those that the answer to a poll called paid. -/
structure PageHistory where
  orders : List Purchase := []
  reported : List String := []
  deriving DecidableEq, Repr

/-- The state of the page, with the calls that wait : the e-mail of a checkout, and the
payments. -/
structure Page where
  buy : Buy := .idle
  orderId : Option String := none
  email : String := ""
  emailErr : Option String := none
  checkoutErr : Option String := none
  paying : Bool := false
  payErr : Option String := none
  pollTimedOut : Bool := false
  poller : Poller Purchase := .idle
  creating : Option String := none
  pays : List Purchase := []
  saved : Option Saved := none
  history : PageHistory := {}
  deriving DecidableEq, Repr

/-- How many polls an interval makes. -/
def maxPolls : ℕ :=
  20

/-- A text that is set and not empty. -/
def given (text : Option String) : Option String :=
  text.filter (· ≠ "")

namespace Page

/-- `readSession`. -/
def readSession (saved : Option Saved) : Option Saved :=
  saved.filter fun parsed => parsed.orderId ≠ "" ∧ parsed.email ≠ "" ∧ parsed.buy = .pending

/-- `persistCheckout`. -/
def persistCheckout (state : Buy) (orderId : Option String) (mail : String) (s : Page) : Page :=
  match given orderId with
  | none => { s with saved := none }
  | some id =>
    if state = .pending ∧ mail ≠ "" then { s with saved := some ⟨id, mail, state⟩ }
    else { s with saved := none }

/-- The page is loaded again. -/
def reload (s : Page) : Page where
  buy := ((readSession s.saved).map (·.buy)).getD .idle
  orderId := (readSession s.saved).map (·.orderId)
  email := ((readSession s.saved).map (·.email)).getD ""
  saved := s.saved
  history := s.history

/-- `setEmail`, from the input of the form. -/
def type (email : String) (s : Page) : Page :=
  if s.buy = .idle then { s with email } else s

/-- `onBuy`, up to its await. Its button is there in the form, and disabled during a
checkout. -/
def onBuy (s : Page) : Page :=
  if s.buy = .idle ∧ s.creating = none then
    if emailRe.test (trim s.email) then
      { s with emailErr := none, checkoutErr := none, creating := some (trim s.email) }
    else
      { s with emailErr := some "Enter a valid email — your product link is sent here." }
  else s

/-- `onBuy` goes on with the answer. -/
def created (reply : Except String String) (s : Page) : Page :=
  match s.creating, reply with
  | none, _ => s
  | some _, .error message => { s with creating := none, checkoutErr := some message }
  | some mail, .ok id =>
    { s with
      creating := none
      orderId := some id
      buy := .paying
      history := { s.history with orders := s.history.orders ++ [⟨id, mail⟩] } }

/-- `onPay`, up to its await. Its button is there while the page waits for the payment, and
disabled during one. -/
def onPay (s : Page) : Page :=
  if s.buy = .paying ∧ s.paying = false then
    match given s.orderId with
    | none => s
    | some id => { s with payErr := none, paying := true, pays := s.pays ++ [⟨id, s.email⟩] }
  else s

/-- `onPay` goes on with the answer. -/
def payed (i : ℕ) (reply : Except String Unit) (s : Page) : Page :=
  match s.pays[i]?, reply with
  | none, _ => s
  | some _, .error message =>
    { s with payErr := some message, paying := false, pays := s.pays.eraseIdx i }
  | some purchase, .ok _ =>
    { s with buy := .pending, paying := false, pays := s.pays.eraseIdx i }.persistCheckout .pending
      (some purchase.orderId) purchase.email

/-- The button of a payment that failed. -/
def tryAgain (s : Page) : Page :=
  if s.buy = .failed then { s with buy := .idle }.persistCheckout .idle none "" else s

/-- What the effect starts an interval with. -/
def closure (s : Page) : Option Purchase :=
  if s.buy = .pending then (given s.orderId).map fun id => ⟨id, s.email⟩ else none

/-- After a poll that did not end the polling. -/
def countPoll (interval : ℕ) (s : Page) : Page :=
  if maxPolls ≤ s.poller.polls then
    { s with poller := s.poller.clear interval, pollTimedOut := true }
  else s

/-- A poll ends the polling. -/
def finish (buy : Buy) (poll : Poll Purchase) (s : Page) : Page :=
  let s :=
    { s with buy }.persistCheckout buy (some poll.closure.orderId) poll.closure.email
  { s with poller := s.poller.clear poll.interval }

/-- A poll is answered. -/
def polled (poll : Poll Purchase) (reply : Except Unit OrderStatusView) (s : Page) : Page :=
  match reply with
  | .ok .paid =>
    { s with
      history :=
        { s.history with reported := s.history.reported ++ [poll.closure.orderId] } }.finish
      .paid poll
  | .ok .failed => s.finish .failed poll
  | .ok .pending => s.countPoll poll.interval
  | .error _ => s.countPoll poll.interval

end Page

/-- An event of the page. `rerun` is the effect, which runs when its values change. -/
inductive PageEvent
  | type (email : String)
  | onBuy
  | created (reply : Except String String)
  | onPay
  | payed (i : ℕ) (reply : Except String Unit)
  | tryAgain
  | rerun
  | tick
  | polled (i : ℕ) (reply : Except Unit OrderStatusView)
  | reload
  deriving DecidableEq

/-- One event of the page. -/
def step (s : Page) : PageEvent → Page
  | .type email => s.type email
  | .onBuy => s.onBuy
  | .created reply => s.created reply
  | .onPay => s.onPay
  | .payed i reply => s.payed i reply
  | .tryAgain => s.tryAgain
  | .rerun => { s with poller := s.poller.rerun s.closure }
  | .tick => { s with poller := s.poller.tick }
  | .polled i reply =>
    match s.poller.waiting[i]? with
    | none => s
    | some poll => { s with poller := s.poller.answer i }.polled poll reply
  | .reload => s.reload

variable {s : Page}

/-! ## The orders that the page knows -/

/-- The page and all its callbacks have orders with `P` only. -/
structure Known (P : String → Prop) (s : Page) : Prop where
  orderId : ∀ id ∈ s.orderId, P id
  saved : ∀ x ∈ s.saved, P x.orderId
  pays : ∀ p ∈ s.pays, P p.orderId
  closures : s.poller.All fun p => P p.orderId
  reported : ∀ id ∈ s.history.reported, P id

/-- The order was checked out by the page. -/
def Page.Placed (s : Page) (id : String) : Prop :=
  id ∈ s.history.orders.map (·.orderId)

theorem given_eq_some {text : Option String} {x : String} :
    given text = some x ↔ text = some x ∧ x ≠ "" := by
  simp [given, Option.filter_eq_some_iff]

namespace Known

variable {P : String → Prop}

theorem mono {Q : String → Prop} (h : Known P s) (hPQ : ∀ id, P id → Q id) : Known Q s where
  orderId id hid := hPQ id (h.orderId id hid)
  saved x hx := hPQ _ (h.saved x hx)
  pays p hp := hPQ _ (h.pays p hp)
  closures := ⟨fun k hk => hPQ _ (h.closures.closure k hk),
    fun poll hpoll => hPQ _ (h.closures.waiting poll hpoll)⟩
  reported id hid := hPQ id (h.reported id hid)

theorem persistCheckout (h : Known P s) (state : Buy) {orderId : Option String}
    (hid : ∀ id ∈ orderId, P id) (mail : String) :
    Known P (s.persistCheckout state orderId mail) := by
  unfold Page.persistCheckout
  split
  · exact { h with saved := by simp }
  next id hgiven =>
  split
  · refine { h with saved := ?_ }
    rintro x hx
    obtain rfl := Option.some.inj hx
    exact hid id (given_eq_some.1 hgiven).1
  · exact { h with saved := by simp }

theorem closure (h : Known P s) : ∀ k ∈ s.closure, P k.orderId := by
  intro k hk
  unfold Page.closure at hk
  split at hk
  · obtain ⟨id, hid, rfl⟩ := Option.map_eq_some_iff.1 hk
    exact h.orderId id (given_eq_some.1 hid).1
  · cases hk

theorem countPoll (h : Known P s) (interval : ℕ) : Known P (s.countPoll interval) := by
  unfold Page.countPoll
  split
  · exact { h with closures := h.closures.clear interval }
  · exact h

theorem finish (h : Known P s) (buy : Buy) {poll : Poll Purchase}
    (hpoll : P poll.closure.orderId) : Known P (s.finish buy poll) := by
  have hbuy : Known P { s with buy } := { h with }
  have hid : ∀ id ∈ some poll.closure.orderId, P id := fun id hid =>
    Option.some.inj hid ▸ hpoll
  have hsaved := hbuy.persistCheckout buy hid poll.closure.email
  exact { hsaved with closures := hsaved.closures.clear poll.interval }

theorem polled (h : Known P s) {poll : Poll Purchase} (hpoll : P poll.closure.orderId)
    (reply : Except Unit OrderStatusView) : Known P (s.polled poll reply) := by
  unfold Page.polled
  split
  · refine Known.finish ?_ _ hpoll
    refine { h with reported := fun id hid => ?_ }
    rcases List.mem_append.1 hid with hid | hid
    · exact h.reported id hid
    · exact List.mem_singleton.1 hid ▸ hpoll
  · exact h.finish _ hpoll
  · exact h.countPoll _
  · exact h.countPoll _

theorem payed (h : Known P s) (i : ℕ) (reply : Except String Unit) :
    Known P (s.payed i reply) := by
  have hpays : ∀ p ∈ s.pays.eraseIdx i, P p.orderId := fun p hp =>
    h.pays p (List.mem_of_mem_eraseIdx hp)
  unfold Page.payed
  split
  · exact h
  · exact { h with pays := hpays }
  · next purchase _ hi =>
    have hs : Known P { s with buy := .pending, paying := false, pays := s.pays.eraseIdx i } :=
      { h with pays := hpays }
    refine hs.persistCheckout _ (fun id hid => ?_) _
    exact Option.some.inj hid ▸ h.pays purchase (List.mem_of_getElem? hi)

theorem onPay (h : Known P s) : Known P s.onPay := by
  unfold Page.onPay
  split
  · split
    · exact h
    · next id hid =>
      refine { h with pays := fun p hp => ?_ }
      rcases List.mem_append.1 hp with hp | hp
      · exact h.pays p hp
      · obtain rfl := List.mem_singleton.1 hp
        exact h.orderId id (given_eq_some.1 hid).1
  · exact h

theorem reload (h : Known P s) : Known P s.reload where
  orderId id hid := by
    obtain ⟨x, hx, rfl⟩ := Option.map_eq_some_iff.1 hid
    exact h.saved x (Option.filter_eq_some_iff.1 hx).1
  saved := h.saved
  pays _ hp := absurd hp List.not_mem_nil
  closures := Poller.all_idle _
  reported := h.reported

theorem created (h : Known P s) {reply : Except String String}
    (hreply : ∀ id mail, reply = .ok id → s.creating = some mail → P id) :
    Known P (s.created reply) := by
  unfold Page.created
  split
  · exact h
  · exact { h with }
  · next mail id hmail =>
    refine { h with orderId := fun id' hid => ?_ }
    exact Option.some.inj hid ▸ hreply id mail rfl hmail

/-- One event, if `P` holds of an order that is checked out. -/
theorem step (h : Known P s) {e : PageEvent}
    (he : ∀ id mail, e = .created (.ok id) → s.creating = some mail → P id) :
    Known P (step s e) := by
  cases e with
  | type email =>
    simp only [CheckoutPage.step, Page.type]
    split
    · exact { h with }
    · exact h
  | onBuy =>
    simp only [CheckoutPage.step, Page.onBuy]
    split
    · split
      · exact { h with }
      · exact { h with }
    · exact h
  | created reply => exact h.created fun id mail hr => he id mail (hr ▸ rfl)
  | onPay => exact h.onPay
  | payed i reply => exact h.payed i reply
  | tryAgain =>
    simp only [CheckoutPage.step, Page.tryAgain]
    split
    · have hidle : Known P { s with buy := .idle } := { h with }
      exact hidle.persistCheckout _ (by simp) _
    · exact h
  | rerun => exact { h with closures := h.closures.rerun h.closure }
  | tick => exact { h with closures := h.closures.tick }
  | polled i reply =>
    simp only [CheckoutPage.step]
    split
    · exact h
    · next poll hi =>
      have hanswer : Known P { s with poller := s.poller.answer i } :=
        { h with closures := h.closures.answer i }
      exact hanswer.polled (h.closures.poll hi) reply
  | reload => exact h.reload

end Known

/-! ## What an event does to the history -/

@[simp] theorem history_persistCheckout (state : Buy) (orderId : Option String) (mail : String)
    (s : Page) : (s.persistCheckout state orderId mail).history = s.history := by
  unfold Page.persistCheckout
  split
  · rfl
  · split <;> rfl

@[simp] theorem history_countPoll (interval : ℕ) (s : Page) :
    (s.countPoll interval).history = s.history := by
  unfold Page.countPoll
  split <;> rfl

/-- Orders are added by the answer to a checkout. -/
theorem orders_step (s : Page) (e : PageEvent) :
    (step s e).history.orders = s.history.orders ∨
      ∃ id mail, e = .created (.ok id) ∧ s.creating = some mail ∧
        (step s e).history.orders = s.history.orders ++ [⟨id, mail⟩] := by
  cases e with
  | type email =>
    refine .inl ?_
    simp only [step, Page.type]
    split <;> rfl
  | onBuy =>
    refine .inl ?_
    simp only [step, Page.onBuy]
    split
    · split <;> rfl
    · rfl
  | created reply =>
    simp only [step, Page.created]
    split
    · exact .inl rfl
    · exact .inl rfl
    · next mail id hmail => exact .inr ⟨id, mail, rfl, hmail, rfl⟩
  | onPay =>
    refine .inl ?_
    simp only [step, Page.onPay]
    split
    · split <;> rfl
    · rfl
  | payed i reply =>
    refine .inl ?_
    simp only [step, Page.payed]
    split
    · rfl
    · rfl
    · rw [history_persistCheckout]
  | tryAgain =>
    refine .inl ?_
    simp only [step, Page.tryAgain]
    split
    · rw [history_persistCheckout]
    · rfl
  | polled i reply =>
    refine .inl ?_
    simp only [step]
    split
    · rfl
    · unfold Page.polled Page.finish
      split <;> simp
  | _ => exact .inl rfl

theorem placed_step (s : Page) (e : PageEvent) {id : String} (h : s.Placed id) :
    (step s e).Placed id := by
  unfold Page.Placed
  rcases orders_step s e with he | ⟨id', mail, -, -, he⟩
  · rwa [he]
  · rw [he, List.map_append]
    exact List.mem_append_left _ h

/-- The page knows orders only that it checked out. -/
theorem known_placed_step (h : Known s.Placed s) (e : PageEvent) :
    Known (step s e).Placed (step s e) := by
  refine Known.step (h.mono fun id => placed_step s e) fun id mail he hmail => ?_
  subst he
  simp [Page.Placed, step, Page.created, hmail]

/-! ## What the page says -/

/-- A page that says that the payment was received has the order of a poll that was answered
so. -/
def Shown (s : Page) : Prop :=
  s.buy = .paid → ∃ id ∈ s.orderId, id ∈ s.history.reported

/-- An answer that an order is paid comes while the page has this order, or one for which such
an answer has come. -/
def Punctual (s : Page) : PageEvent → Prop
  | .polled i (.ok .paid) => ∀ poll ∈ s.poller.waiting[i]?,
      ∃ id ∈ s.orderId, id = poll.closure.orderId ∨ id ∈ s.history.reported
  | _ => True

@[simp] theorem buy_persistCheckout (state : Buy) (orderId : Option String) (mail : String)
    (s : Page) : (s.persistCheckout state orderId mail).buy = s.buy := by
  unfold Page.persistCheckout
  split
  · rfl
  · split <;> rfl

@[simp] theorem orderId_persistCheckout (state : Buy) (orderId : Option String) (mail : String)
    (s : Page) : (s.persistCheckout state orderId mail).orderId = s.orderId := by
  unfold Page.persistCheckout
  split
  · rfl
  · split <;> rfl

/-- An answer that an order is paid. -/
theorem polled_paid {i : ℕ} {poll : Poll Purchase} (hi : s.poller.waiting[i]? = some poll) :
    (step s (.polled i (.ok .paid))).buy = .paid ∧
      (step s (.polled i (.ok .paid))).orderId = s.orderId ∧
      (step s (.polled i (.ok .paid))).history.reported =
        s.history.reported ++ [poll.closure.orderId] := by
  simp [step, hi, Page.polled, Page.finish]

/-- No other event makes the page say that the payment was received, or reports an order. -/
theorem step_cases (s : Page) (e : PageEvent) :
    (∃ i poll, e = .polled i (.ok .paid) ∧ s.poller.waiting[i]? = some poll) ∨
      (step s e).history.reported = s.history.reported ∧
        ((step s e).buy = .paid → s.buy = .paid ∧ (step s e).orderId = s.orderId) := by
  cases e with
  | type email =>
    refine .inr ?_
    simp only [step, Page.type]
    split
    · exact ⟨rfl, fun h => ⟨h, rfl⟩⟩
    · exact ⟨rfl, fun h => ⟨h, rfl⟩⟩
  | onBuy =>
    refine .inr ?_
    simp only [step, Page.onBuy]
    split
    · split
      · exact ⟨rfl, fun h => ⟨h, rfl⟩⟩
      · exact ⟨rfl, fun h => ⟨h, rfl⟩⟩
    · exact ⟨rfl, fun h => ⟨h, rfl⟩⟩
  | created reply =>
    refine .inr ?_
    simp only [step, Page.created]
    split
    · exact ⟨rfl, fun h => ⟨h, rfl⟩⟩
    · exact ⟨rfl, fun h => ⟨h, rfl⟩⟩
    · exact ⟨rfl, by simp⟩
  | onPay =>
    refine .inr ?_
    simp only [step, Page.onPay]
    split
    · split
      · exact ⟨rfl, fun h => ⟨h, rfl⟩⟩
      · exact ⟨rfl, fun h => ⟨h, rfl⟩⟩
    · exact ⟨rfl, fun h => ⟨h, rfl⟩⟩
  | payed i reply =>
    refine .inr ?_
    simp only [step, Page.payed]
    split
    · exact ⟨rfl, fun h => ⟨h, rfl⟩⟩
    · exact ⟨rfl, fun h => ⟨h, rfl⟩⟩
    · exact ⟨by simp, by simp⟩
  | tryAgain =>
    refine .inr ?_
    simp only [step, Page.tryAgain]
    split
    · exact ⟨by simp, by simp⟩
    · exact ⟨rfl, fun h => ⟨h, rfl⟩⟩
  | rerun => exact .inr ⟨rfl, fun h => ⟨h, rfl⟩⟩
  | tick => exact .inr ⟨rfl, fun h => ⟨h, rfl⟩⟩
  | reload =>
    refine .inr ⟨rfl, fun h => ?_⟩
    -- the storage keeps orders that are pending
    simp only [step, Page.reload] at h
    cases hs : Page.readSession s.saved with
    | none => simp [hs] at h
    | some x =>
      have hx := (Option.filter_eq_some_iff.1 hs).2
      simp only [decide_eq_true_iff] at hx
      simp [hs, hx.2.2] at h
  | polled i reply =>
    cases hi : s.poller.waiting[i]? with
    | none => exact .inr (by simp [step, hi])
    | some poll =>
      have hcount : ∀ s : Page, (s.countPoll poll.interval).history = s.history ∧
          (s.countPoll poll.interval).buy = s.buy ∧
            (s.countPoll poll.interval).orderId = s.orderId := fun s => by
        unfold Page.countPoll
        split <;> exact ⟨rfl, rfl, rfl⟩
      rcases reply with e | - | - | -
      · exact .inr (by simp [step, hi, Page.polled, hcount])
      · exact .inr (by simp [step, hi, Page.polled, hcount])
      · exact .inl ⟨i, poll, rfl, hi⟩
      · exact .inr (by simp [step, hi, Page.polled, Page.finish])

/-- The page is right after an event exactly when the event is punctual. -/
theorem shown_step_iff (h : Shown s) (e : PageEvent) : Shown (step s e) ↔ Punctual s e := by
  by_cases hpaid : ∃ i poll, e = .polled i (.ok .paid) ∧ s.poller.waiting[i]? = some poll
  · obtain ⟨i, poll, rfl, hi⟩ := hpaid
    obtain ⟨hbuy, horder, hreported⟩ := polled_paid hi
    simp only [Shown, Punctual, hbuy, horder, hreported, hi, forall_const, List.mem_append,
      List.mem_singleton, Option.mem_def, Option.some.injEq, forall_eq']
    simp only [or_comm]
  · obtain ⟨hreported, hbuy⟩ := (step_cases s e).resolve_left hpaid
    refine iff_of_true (fun hp => ?_) ?_
    · obtain ⟨hp, horder⟩ := hbuy hp
      rw [horder, hreported]
      exact h hp
    · unfold Punctual
      split
      · next i => exact fun poll hi => absurd ⟨i, poll, rfl, hi⟩ hpaid
      · trivial

/-- A poll of an order that failed is answered once more, when the buyer has begun another
purchase. -/
def demoLateAnswer : List PageEvent :=
  [.type "a@b.c", .onBuy, .created (.ok "first"), .onPay, .payed 0 (.ok ()), .rerun, .tick, .tick,
    .polled 0 (.ok .failed), .rerun, .tryAgain, .onBuy, .created (.ok "second"),
    .polled 0 (.ok .paid)]

example : (demoLateAnswer.foldl step {}).buy = .paid ∧
    (demoLateAnswer.foldl step {}).orderId = some "second" ∧
      (demoLateAnswer.foldl step {}).history.reported = ["first"] := by
  decide

end CheckoutPage

end Kreav
