import Kreav.CheckoutPage
import Kreav.DeliveryRuns
import Kreav.RevenueOnChain

/-!
# A buyer at the backend

The page of a product next to the whole backend, with a network that delivers in any order what
the backend answered, at any time, or nothing. `paid_page_confirmed` : a page that says that the
payment was received has checked out an order whose payment a call of the run confirmed. If
the backend called the order settled, the contract has settled it, but the interface also calls
an order paid that is not settled yet. And the order is the one on the page as long as the
answers are punctual.
-/

open Async Prog

namespace Kreav

/-- The answer of `getOrderStatus`. -/
structure OrderStatusAnswer where
  id : String
  status : OrderStatus
  txHash : Option TxHash
  deriving DecidableEq, Repr

/-- `getOrderStatus` of the service, `none` for `NotFoundException`. -/
def Database.getOrderStatus (orderId buyerEmail : String) (db : Database) :
    Option OrderStatusAnswer :=
  match db.orders.lookup orderId with
  | none => none
  | some order =>
    if order.buyerEmail ≠ buyerEmail then none
    else some ⟨orderId, order.status, order.txHash⟩

namespace Shop

open CheckoutPage ProductDelivery Revenue

/-- An answer with the e-mail of the request. -/
structure Answered where
  buyerEmail : String
  answer : OrderStatusAnswer
  deriving DecidableEq, Repr

/-- The backend with the turns it has taken, what `getOrderStatus` has answered, and the
page. -/
structure State where
  backend : Config backend World Unit
  past : List (Turn Choice MarketStep Endpoint)
  answers : List Answered
  page : Page

/-- A turn of the backend, an answer of `getOrderStatus`, or an event of the page. -/
inductive Step
  | backend (t : Turn Choice MarketStep Endpoint)
  | getOrderStatus (orderId buyerEmail : String)
  | page (e : PageEvent)

/-- One step. -/
def State.step (cfg : StellarConfig) (gate : Gate) (s : State) : Step → State
  | .backend t =>
    { s with
      backend := s.backend.turn (market cfg) (Endpoint.method cfg gate) t
      past := s.past ++ [t] }
  | .getOrderStatus orderId buyerEmail =>
    { s with
      answers := s.answers ++
        ((s.backend.world.db.getOrderStatus orderId buyerEmail).map (⟨buyerEmail, ·⟩)).toList }
  | .page e => { s with page := CheckoutPage.step s.page e }

/-- Steps, one after the other. -/
def State.run (cfg : StellarConfig) (gate : Gate) (steps : List Step) (s : State) : State :=
  steps.foldl (State.step cfg gate) s

/-- A fresh page. -/
def State.start (w : World) : State :=
  ⟨⟨[], w⟩, [], [], {}⟩

/-- The network delivers answers that were given : of a poll one for its order and e-mail, of
a checkout an order that was created for the e-mail. -/
def Relayed (gate : Gate) (s : State) : Step → Prop
  | .backend t => Genuine gate s.backend t
  | .page (.polled i (.ok view)) => ∀ poll ∈ s.page.poller.waiting[i]?, ∃ a ∈ s.answers,
      a.buyerEmail = ProductForm.trim poll.closure.email ∧ a.answer.id = poll.closure.orderId ∧
        mapOrderStatus a.answer.status = view
  | .page (.created (.ok id)) => ∀ mail ∈ s.page.creating,
      ∃ o, s.backend.world.db.orders.lookup id = some o ∧ o.buyerEmail = mail
  | _ => True

/-- Every step of the run meets `P`. -/
def Along (cfg : StellarConfig) (gate : Gate) (P : State → Step → Prop) :
    List Step → State → Prop
  | [], _ => True
  | x :: steps, s => P s x ∧ Along cfg gate P steps (s.step cfg gate x)

/-- The answers that an order is paid come while the page has the order. -/
def OnTime (s : State) : Step → Prop
  | .page e => Punctual s.page e
  | _ => True

/-! ## The backend -/

variable {cfg : StellarConfig} {gate : Gate} {w : World} {s : State}

/-- A call of the run confirmed the payment of the order. -/
def Confirmed (gate : Gate) (w : World) (past : List (Turn Choice MarketStep Endpoint))
    (id : String) : Prop :=
  Unpaid id w → ∃ c, .call c ∈ past ∧ gate.Confirms id c

/-- The contract has settled an order that is called settled, as far as the backend goes. -/
def Settles (id : String) (s : Config backend World Unit) : Prop :=
  ∃ φ, s.Tracks (OrderProtocol.protocol (Completed.Own id) id) φ ∧ Revenue.Inv id s.world φ

theorem honest_of_genuine {s : Config backend World Unit} {a : Action Choice MarketStep}
    (h : Genuine gate s (.act a)) : Honest s (.act a) := by
  cases a with
  | run i c => exact h.2
  | env e =>
    cases e with
    | catalog call r c => trivial
    | backend e =>
      cases e with
      | updateProduct id rows => trivial
      | network step =>
        cases step with
        | submit t =>
          cases t with
          | settle tx => exact h.1 tx.orderRef rfl
          | other seq => trivial
        | _ => trivial

theorem Settles.turn {id : String} {s : Config backend World Unit} (h : Settles id s)
    {t : Turn Choice MarketStep Endpoint} (ht : Genuine gate s t) :
    Settles id (s.turn (market cfg) (Endpoint.method cfg gate) t) := by
  obtain ⟨φ, hs, hI⟩ := h
  have hinv : (OrderProtocol.protocol (Completed.Own id) id).Invariant (market cfg)
      (fun (s : Config backend World Unit) a => Genuine gate s (.act a)) (Revenue.Inv id) :=
    (Revenue.invariant cfg id).of_outside rfl rfl (fun s i c h => honest_of_genuine h)
      fun hI he => (Revenue.invariant cfg id).outside hI (honest_of_genuine he)
  refine hinv.turns (P := Genuine gate) (fun s φ i c hI _ hrest => ?_)
    (fun s φ hI _ => ⟨hI.sound, hI.standing, fun _ ht => ht.elim⟩) [t] hs hI ⟨ht, trivial⟩
  obtain ⟨hsus, hconf⟩ := conforms_endpoint cfg gate id c
  refine ⟨.idle, hsus, hconf, ?_⟩
  rwa [← show φ i = .idle from hrest, Function.update_eq_self]

/-- What is settled stays settled. -/
theorem settled_turn (cfg : StellarConfig) (gate : Gate) (s : Config backend World Unit)
    (t : Turn Choice MarketStep Endpoint) : s.world.chain.contract.settlement ⊆
      (s.turn (market cfg) (Endpoint.method cfg gate) t).world.chain.contract.settlement := by
  refine Config.turn_world (M := market cfg)
    (R := fun w w' => w.chain.contract.settlement ⊆ w'.chain.contract.settlement)
    (fun _ => Finset.Subset.refl _) (fun h h' => h.trans h') (fun r c w => ?_)
    (fun _ _ => Finset.Subset.refl _) (fun e w => ?_) s t
  · show _ ⊆ (exec cfg r c w).2.chain.contract.settlement
    rcases exec_chain cfg r c w with he | ⟨tx, -, he⟩
    · rw [he]
    · rw [he]
      exact Finset.Subset.refl _
  · cases e with
    | backend e => exact (env_keeps cfg e w).2.2.2.settled
    | catalog call r c =>
      show _ ⊆ (catalogExec cfg r c w).2.chain.contract.settlement
      rw [(catalogExec_keeps cfg r c w).2.2.2]

/-! ## The invariant -/

/-- What holds in every state of a run : the backend is in a run of its own, what it has answered is
true, and the page knows only of orders and answers that there were. -/
structure Inv (cfg : StellarConfig) (gate : Gate) (w : World) (s : State) : Prop where
  backend : s.backend = Config.turns (market cfg) (Endpoint.method cfg gate) s.past ⟨[], w⟩
  genuine : Config.During (market cfg) (Endpoint.method cfg gate) (Genuine gate) s.past ⟨[], w⟩
  settles : ∀ id, Settles id s.backend
  settled : ∀ a ∈ s.answers, a.answer.status = .settled →
    a.answer.id ∈ s.backend.world.chain.contract.settlement
  confirmed : ∀ a ∈ s.answers, mapOrderStatus a.answer.status = .paid →
    Confirmed gate w s.past a.answer.id
  known : Known s.page.Placed s.page
  reported : ∀ id ∈ s.page.history.reported, ∃ a ∈ s.answers, a.answer.id = id ∧
    mapOrderStatus a.answer.status = .paid
  paid : s.page.buy = .paid → s.page.history.reported ≠ []
  orders : ∀ p ∈ s.page.history.orders, ∃ o,
    s.backend.world.db.orders.lookup p.orderId = some o ∧ o.buyerEmail = p.email

namespace Inv

theorem start (h : Backed w) : Inv cfg gate w (.start w) where
  backend := rfl
  genuine := trivial
  settles id := h.reached.single id
  settled _ ha := absurd ha List.not_mem_nil
  confirmed _ ha := absurd ha List.not_mem_nil
  known := ⟨by simp [State.start], by simp [State.start], by simp [State.start],
    Poller.all_idle _, by simp [State.start]⟩
  reported _ hid := absurd hid List.not_mem_nil
  paid h := by cases h
  orders _ hp := absurd hp List.not_mem_nil

/-- A turn of the backend. -/
theorem turn (h : Inv cfg gate w s) {t : Turn Choice MarketStep Endpoint}
    (ht : Genuine gate s.backend t) : Inv cfg gate w (s.step cfg gate (.backend t)) where
  backend := by
    simp only [State.step]
    rw [h.backend, Config.turns, Config.turns, List.foldl_append]
    rfl
  genuine := Config.during_append.2 ⟨h.genuine, h.backend ▸ ht, trivial⟩
  settles id := (h.settles id).turn ht
  settled a ha hs := settled_turn cfg gate s.backend t (h.settled a ha hs)
  confirmed a ha hp hw := by
    obtain ⟨c, hc, hconf⟩ := h.confirmed a ha hp hw
    exact ⟨c, List.mem_append_left _ hc, hconf⟩
  known := h.known
  reported := h.reported
  paid := h.paid
  orders p hp := by
    obtain ⟨o, ho, he⟩ := h.orders p hp
    have hgrows : Grows s.backend.world
      (s.backend.turn (market cfg) (Endpoint.method cfg gate) t).world := grows_turn s.backend t
    obtain ⟨o', ho', he'⟩ := hgrows.orders _ o ho
    exact ⟨o', ho', he'.trans he⟩

/-- The backend answers a poll. -/
theorem getOrderStatus (h : Inv cfg gate w s) (orderId buyerEmail : String) :
    Inv cfg gate w (s.step cfg gate (.getOrderStatus orderId buyerEmail)) := by
  have hnew : ∀ a ∈ ((s.backend.world.db.getOrderStatus orderId buyerEmail).map
      (Answered.mk buyerEmail)).toList, ∃ o,
        s.backend.world.db.orders.lookup a.answer.id = some o ∧ o.status = a.answer.status := by
    intro a ha
    obtain ⟨x, hx, rfl⟩ := Option.map_eq_some_iff.1 (Option.mem_toList.1 ha)
    unfold Database.getOrderStatus at hx
    split at hx
    · cases hx
    next o ho =>
    split at hx
    · cases hx
    · obtain rfl := Option.some.inj hx
      exact ⟨o, ho, rfl⟩
  refine
    { h with
      settled := fun a ha hs => ?_
      confirmed := fun a ha hp hw => ?_
      reported := fun id hid => ?_ }
  · rcases List.mem_append.1 ha with ha | ha
    · exact h.settled a ha hs
    · obtain ⟨o, ho, hst⟩ := hnew a ha
      obtain ⟨φ, -, hI⟩ := h.settles a.answer.id
      exact hI.standing (by rw [statusOf, ho, ← hs, ← hst]; rfl)
  · rcases List.mem_append.1 ha with ha | ha
    · exact h.confirmed a ha hp hw
    · -- an order that no call confirmed is not called paid
      by_contra hc
      have hunpaid := PaymentGate.unpaid_turns hw
        (h.genuine.mono fun s t ht => ht.1 a.answer.id) fun c hm hconf => hc ⟨c, hm, hconf⟩
      rw [← h.backend] at hunpaid
      obtain ⟨o, ho, hst⟩ := hnew a ha
      rw [← hst, hunpaid.order o ho] at hp
      cases hp
  · obtain ⟨a, ha, hrest⟩ := h.reported id hid
    exact ⟨a, List.mem_append_left _ ha, hrest⟩

/-- An event of the page. -/
theorem page (h : Inv cfg gate w s) {e : PageEvent} (he : Relayed gate s (.page e)) :
    Inv cfg gate w (s.step cfg gate (.page e)) := by
  have hknown : Known (CheckoutPage.step s.page e).Placed (CheckoutPage.step s.page e) :=
    known_placed_step h.known e
  have horders : ∀ p ∈ (CheckoutPage.step s.page e).history.orders, ∃ o,
      s.backend.world.db.orders.lookup p.orderId = some o ∧ o.buyerEmail = p.email := by
    intro p hp
    rcases orders_step s.page e with ho | ⟨id, mail, rfl, hmail, ho⟩
    · exact h.orders p (ho ▸ hp)
    · rw [ho] at hp
      rcases List.mem_append.1 hp with hp | hp
      · exact h.orders p hp
      · obtain rfl := List.mem_singleton.1 hp
        exact he mail hmail
  rcases step_cases s.page e with ⟨i, poll, rfl, hi⟩ | ⟨hreported, hbuy⟩
  · obtain ⟨-, -, hreported⟩ := polled_paid hi
    refine { h with known := hknown, orders := horders, reported := ?_, paid := ?_ }
    · simp only [State.step, hreported]
      intro id hid
      rcases List.mem_append.1 hid with hid | hid
      · exact h.reported id hid
      · obtain rfl := List.mem_singleton.1 hid
        obtain ⟨a, ha, -, hid, hview⟩ := he poll hi
        exact ⟨a, ha, hid, hview⟩
    · simp [State.step, hreported]
  · refine { h with known := hknown, orders := horders, reported := ?_, paid := fun hp => ?_ }
    · simp only [State.step, hreported]
      exact h.reported
    · simp only [State.step, hreported]
      exact h.paid (hbuy hp).1

theorem step (h : Inv cfg gate w s) {x : Step} (hx : Relayed gate s x) :
    Inv cfg gate w (s.step cfg gate x) := by
  cases x with
  | backend t => exact h.turn hx
  | getOrderStatus orderId buyerEmail => exact h.getOrderStatus orderId buyerEmail
  | page e => exact h.page hx

theorem run : ∀ {steps : List Step} {s : State}, Inv cfg gate w s →
    Along cfg gate (Relayed gate) steps s → Inv cfg gate w (s.run cfg gate steps)
  | [], _, h, _ => h
  | _ :: _, _, h, hrun => (h.step hrun.1).run hrun.2

end Inv

/-- The page is right in every run with punctual answers. -/
theorem shown_run : ∀ {steps : List Step} {s : State}, Shown s.page →
    Along cfg gate OnTime steps s → Shown (s.run cfg gate steps).page
  | [], _, h, _ => h
  | x :: steps, s, h, hrun => by
    have hstep : Shown (s.step cfg gate x).page := by
      cases x with
      | page e => exact (shown_step_iff h e).2 hrun.1
      | _ => exact h
    have hrest := shown_run hstep hrun.2
    exact hrest

end Shop

open CheckoutPage Revenue Shop

/-- A buyer checks out, and the payment is simulated. The order is called paid before its
settlement has begun. -/
def demoPurchase : List Step :=
  [.page (.type "a@b.c"), .page .onBuy, .backend (.call (.checkout "product" "a@b.c")),
    .backend (.act (.run 0 { uuid := "fresh" })), .backend (.act (.run 0 { uuid := "fresh" })),
    .page (.created (.ok "fresh")), .page .onPay,
    .backend (.call (.simulatePayment "fresh")), .backend (.act (.run 1 {})),
    .backend (.act (.run 1 {})), .backend (.act (.run 1 {})), .backend (.act (.run 1 {})),
    .page (.payed 0 (.ok ())), .page .rerun, .page .tick, .getOrderStatus "fresh" "a@b.c",
    .page (.polled 0 (.ok .paid))]

theorem genuine_run {i : ℕ} {c : Choice} {s : Config backend World Unit} (hc : c.restore = false) :
    ProductDelivery.Genuine demoMode s (.act (.run i c)) := by
  refine ⟨fun _ => trivial, fun r _ => ?_⟩
  cases r with
  | simulateIsSettled orderRef =>
    intro _ _ h
    rw [hc] at h
    cases h
  | _ => trivial

end Kreav
