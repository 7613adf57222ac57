import Kreav.Market
import Kreav.OrderChain

/-!
# The gate of the payments

`backend/src/orders/webhook-signature.ts` and the webhooks of `orders.controller.ts`. A payment
is confirmed by a webhook with a signature over its raw body, by any webhook where no secret is
configured and the environment is not `production`, and in the demo mode by a button.

The whole backend runs behind this gate : checkouts, wallets, the products service, the handler
of `payment.received`, which starts for emitted events only, and the recovery at each start.
`payment_confirmed` : an order that is `Unpaid` stays so in every run in which no call confirms
its payment. It keeps `paymentPending`, no event tells of it, and neither the database nor the
contract has a settlement of it.

`PaymentGate.protocol` is the reason. A call writes, emits and sends for orders only that it
was made for, or that a query for another status has returned (`learned`).
-/

open Async Prog

namespace Kreav

/-! ## The signature of a webhook -/

/-- The bytes of a body. -/
abbrev Buffer :=
  List UInt8

/-- The body of a webhook. -/
structure GcashWebhookDto where
  orderId : String
  paymentRef : String
  deriving DecidableEq, Repr

/-- The configured values and the code outside of the repository. -/
structure Gate where
  gcashWebhookSecret : Option String
  nodeEnv : String
  demoMode : Option Bool
  /-- The digest of `createHmac('sha256', secret).update(rawBody)` in hexadecimal digits. -/
  hmacSha256 : String → Buffer → String
  /-- The body as the parser and the validation pipe leave it. -/
  parse : Buffer → Option GcashWebhookDto

/-- `DEMO_MODE`. Without a value it is on everywhere except production. -/
def Gate.isDemo (gate : Gate) : Bool :=
  gate.demoMode.getD (gate.nodeEnv != "production")

/-- `timingSafeEqual`, of buffers with the same length. -/
def timingSafeEqual (received wanted : ByteArray) : Bool :=
  received.data = wanted.data

/-- `WebhookSignature.verify`. -/
def Gate.verify (gate : Gate) (rawBody : Buffer) (signatureHeader secret : Option String) :
    Bool :=
  match secret, signatureHeader with
  | none, _ => false
  | some _, none => false
  | some secret, some signature =>
    if secret = "" then false
    else if signature = "" then false
    else
      let received := signature.toByteArray
      let wanted := (gate.hmacSha256 secret rawBody).toByteArray
      if received.size ≠ wanted.size then false else timingSafeEqual received wanted

/-- A request of the webhook. -/
structure WebhookRequest where
  rawBody : Option Buffer
  signature : Option String
  dto : GcashWebhookDto
  deriving DecidableEq, Repr

/-- The answer to a webhook that the service did not throw on. -/
inductive WebhookAnswer
  | confirmed
  | forbidden
  | unauthorized
  deriving DecidableEq, Repr

/-- The webhook of the payment provider. -/
def handleGcashWebhook (gate : Gate) (req : WebhookRequest) : Method WebhookAnswer :=
  let confirm : Method WebhookAnswer := do
    handleGcashPayment req.dto.orderId req.dto.paymentRef
    return .confirmed
  if gate.gcashWebhookSecret.getD "" = "" then
    if gate.nodeEnv = "production" then return .forbidden else confirm
  else if !gate.verify (req.rawBody.getD []) req.signature gate.gcashWebhookSecret then
    return .unauthorized
  else confirm

/-! ## The calls behind the gate -/

/-- The endpoints of the orders and the wallets, the handler of `payment.received` and the start
of the process. -/
inductive Endpoint
  | checkout (productId buyerEmail : String)
  | handleGcashWebhook (req : WebhookRequest)
  | simulatePayment (id : String)
  | connect (creatorId walletAddress : String) (provider : WalletProvider)
  | paymentReceived (payload : PaymentReceivedPayload)
  | bootstrap

/-- The method of an endpoint. -/
def Endpoint.method (cfg : StellarConfig) (gate : Gate) : Endpoint → Method Unit
  | .checkout productId buyerEmail => (ServiceCall.checkout productId buyerEmail).method cfg
  | .handleGcashWebhook req => (Kreav.handleGcashWebhook gate req).bind fun _ => .ret ()
  | .simulatePayment id => Kreav.simulatePayment gate.isDemo id
  | .connect creatorId walletAddress provider =>
    (ServiceCall.connect creatorId walletAddress provider).method cfg
  | .paymentReceived payload => (ServiceCall.paymentReceived payload).method cfg
  | .bootstrap => ServiceCall.bootstrap.method cfg

/-- No secret is configured outside of production, or the signature is that of the body. -/
def Gate.Accepts (gate : Gate) (body : Buffer) (signature : Option String) : Prop :=
  gate.gcashWebhookSecret.getD "" = "" ∧ gate.nodeEnv ≠ "production" ∨
    ∃ secret, gate.gcashWebhookSecret = some secret ∧ secret ≠ "" ∧
      signature = some (gate.hmacSha256 secret body)

/-- The call confirms the payment of the order. -/
def Gate.Confirms (gate : Gate) (id : String) : Endpoint → Prop
  | .handleGcashWebhook req => ∃ body dto, req.rawBody = some body ∧ gate.parse body = some dto ∧
      dto.orderId = id ∧ gate.Accepts body req.signature
  | .simulatePayment id' => id' = id ∧ gate.isDemo = true
  | _ => False

/-- The order was not paid : it is not there or `paymentPending`, nothing was emitted, recorded
or sent for it, and the contract has not settled it. -/
structure Unpaid (id : String) (w : World) : Prop where
  order : ∀ o, w.db.orders.lookup id = some o → o.status = .paymentPending
  settlement : w.db.settlements.lookup id = none
  emitted : ∀ v ∈ w.emitted, v.orderId ≠ id
  chain : Untouched id w.chain

/-- The body of a webhook was read from its bytes, `payment.received` is handled after it was
emitted, and no other process of the platform settles the order. -/
def Gate.Received (gate : Gate) (id : String) (s : Config backend World Unit) :
    Turn Choice MarketStep Endpoint → Prop
  | .act (.env (.backend e)) => Foreign id e
  | .call (.handleGcashWebhook req) =>
    ∃ body, req.rawBody = some body ∧ gate.parse body = some req.dto
  | .call (.paymentReceived payload) => payload ∈ payments s.world.emitted
  | _ => True

namespace PaymentGate

/-! ## What a call may touch -/

/-- The orders that an answer tells of, unless they wait for their payment. -/
def learned : (r : Request) → Except Failure r.Ans → List String
  | .orderFindMany _, .ok (rows : List StuckOrder) =>
    (rows.filter (·.order.status ≠ .paymentPending)).map (·.id)
  | .orderFindWaiting _, .ok (rows : List StuckOrder) => rows.map (·.id)
  | _, _ => []

/-- The request writes and sends for these orders only, and creates orders in
`paymentPending`. -/
def Permits (held : List String) : Request → Prop
  | .orderCreate data => data.status = .paymentPending
  | .orderUpdate id _ => id ∈ held
  | .settlementCreate data => data.orderId ∈ held
  | .sendTransaction tx => tx.orderRef ∈ held
  | _ => True

/-- The phases are the orders that a call may touch. -/
def protocol : Protocol backend (List String) where
  answers _ _ := True
  reply held r x held' := Permits held r ∧ held' ⊆ learned r x ++ held
  event held v held' := held' = held ∧ v.orderId ∈ held
  final _ := True
  rest := []

variable {held : List String} {id : String}

theorem stays_held {r : Request} (h : Permits held r) : (await r).Stays protocol held :=
  Stays.ask fun _ _ => ⟨h, List.subset_append_right _ _⟩

theorem stays_emit {v : AppEvent} (h : v.orderId ∈ held) : (emit v).Stays protocol held :=
  Follows.signal ⟨rfl, h⟩ rfl

theorem permits_reads {r : Request} (h : Reads r) : Permits held r := by
  cases r with
  | orderCreate data => cases h
  | orderUpdate id data => cases h
  | settlementCreate data => cases h
  | sendTransaction tx => cases h
  | _ => trivial

theorem mem_held {id' : String} (he : id' = id) (h : id ∈ held) : id' ∈ held :=
  he ▸ h

/-- A call that holds the order may do all that concerns it. -/
theorem ofOrder_held (h : id ∈ held) : OfOrder (fun _ p => p.Stays protocol held) id where
  toCompositional := Stays.compositional protocol held
  read hr := stays_held (permits_reads hr)
  update _ := stays_held h
  signal _ hv := stays_emit (hv ▸ h)

theorem stays_recordRecoveredSettlement (h : id ∈ held) (txHash : TxHash) :
    (recordRecoveredSettlement id txHash).Stays protocol held :=
  (ofOrder_held h).settlement.recordRecoveredSettlement
    (fun data hdata => stays_held (r := .settlementCreate data) (mem_held hdata h)) txHash

theorem stays_handlePaymentReceived (cfg : StellarConfig) {payload : PaymentReceivedPayload}
    (h : payload.orderId ∈ held) :
    (handlePaymentReceived cfg payload).Stays protocol held :=
  (ofOrder_held h).settlement.handlePaymentReceived
    (fun tx href _ => ⟨stays_held trivial, stays_held (r := .sendTransaction tx) (mem_held href h)⟩)
    fun data hdata => stays_held (r := .settlementCreate data) (mem_held hdata h)

theorem stays_claimPayment (h : id ∈ held) (paymentRef : String) (target : OrderStatus) :
    (claimPayment id paymentRef target).Stays protocol held := by
  have hk := ofOrder_held h
  refine hk.tryCatch (hk.bind (hk.update _) fun _ => hk.ret _) fun e => ?_
  cases e with
  | uniqueViolation => exact hk.ret _
  | _ => exact hk.raise _

theorem stays_handleGcashPayment (h : id ∈ held) (paymentRef : String) :
    (handleGcashPayment id paymentRef).Stays protocol held := by
  have hk := ofOrder_held h
  refine hk.bind (hk.read rfl) fun existing => ?_
  cases existing with
  | some _ => exact hk.ret _
  | none =>
    refine hk.bind (hk.read rfl) fun found => ?_
    rcases found with - | ⟨order, creatorId⟩
    · exact hk.raise _
    · refine hk.bind (hk.read rfl) fun wallet => ?_
      cases wallet
      all_goals
        rw [confirmPayment]
        split
        · exact hk.raise _
        refine hk.bind (stays_claimPayment h _ _) fun claimed => ?_
        split
        · exact stays_emit h
        · exact hk.ret _

theorem stays_resumeOrders (walletAddress : String) : ∀ rows : List StuckOrder,
    (∀ o ∈ rows, o.id ∈ held) → (resumeOrders walletAddress rows).Stays protocol held
  | [], _ => rfl
  | o :: rest, h => ⟨held, ⟨rfl, h o List.mem_cons_self⟩,
      stays_resumeOrders walletAddress rest fun o' ho' => h o' (List.mem_cons_of_mem o ho')⟩

/-- A pass holds the orders that it does something to. -/
theorem stays_recoverAll : ∀ rows : List StuckOrder,
    (∀ o ∈ rows, o.order.status ≠ .paymentPending → o.id ∈ held) →
      (recoverAll rows).Stays protocol held
  | [], _ => rfl
  | o :: rest, h => by
    have hk : OfReads fun _ p => p.Stays protocol held :=
      ⟨Stays.compositional protocol held, fun hr => stays_held (permits_reads hr)⟩
    refine hk.bind (hk.tryCatch ?_ fun _ => hk.ret _) fun _ =>
      hk.bind (stays_recoverAll rest fun o' ho' => h o' (List.mem_cons_of_mem o ho'))
        fun _ => hk.ret _
    by_cases hs : o.order.status = .paymentPending
    · rw [recoverOrder, hs]
      exact hk.ret _
    · have hid := h o List.mem_cons_self hs
      exact (ofOrder_held hid).recoverOrder fun _ => stays_recordRecoveredSettlement hid _

/-! ## The calls follow the protocol -/

theorem conforms_of_stays {α : Type} {p : Method α} (h : p.Stays protocol held) :
    p.Conforms protocol held :=
  h.follows (fun _ => trivial) fun _ => trivial

/-- A read whose answer tells of orders, and the rest of the call. -/
theorem conforms_learned {α : Type} {r : Request} {f : r.Ans → Method α} (hr : Permits held r)
    (hf : ∀ x, (f x).Conforms protocol (learned r (.ok x) ++ held)) :
    ((await r).bind f).Conforms protocol held :=
  Follows.bind (R := fun x held' => held' = learned r (.ok x) ++ held)
    (Follows.ask (fun _ _ => ⟨_, ⟨hr, List.Subset.refl _⟩, rfl⟩)
      fun _ _ => ⟨held, ⟨hr, List.subset_append_right _ _⟩, trivial⟩)
    fun x _ h => h ▸ hf x

theorem conforms_discard {α β : Type} {p : Method α} {b : β} (h : p.Conforms protocol held) :
    (p.bind fun _ => Prog.ret b).Conforms protocol held :=
  Follows.bind (R := fun _ _ => True) (h.mono (fun _ _ _ => trivial) fun _ _ h => h)
    fun _ _ _ => trivial

theorem conforms_onApplicationBootstrap : onApplicationBootstrap.Conforms protocol [] := by
  refine conforms_learned (r := .orderFindMany _) trivial fun rows => ?_
  refine conforms_of_stays (stays_recoverAll rows fun o ho hs => ?_)
  exact List.mem_append_left _
    (List.mem_map_of_mem (List.mem_filter.2 ⟨ho, decide_eq_true hs⟩))

theorem conforms_connect (creatorId walletAddress : String) (provider : WalletProvider) :
    (connect creatorId walletAddress provider).Conforms protocol [] := by
  have hk := Stays.compositional protocol []
  refine conforms_learned (r := .userFindUnique creatorId) trivial fun creator => ?_
  cases creator with
  | false => trivial
  | true =>
    refine conforms_learned (r := .walletFindAddress walletAddress) trivial fun existing => ?_
    cases existing with
    | true => trivial
    | false =>
      refine Follows.bind (R := fun _ held => held = []) ?_ ?_
      · have hcreate : (await (.walletCreate creatorId walletAddress provider)).Stays
            protocol [] := stays_held trivial
        refine Stays.follows (hk.tryCatch hcreate fun e => ?_) (fun _ => rfl) fun _ => trivial
        cases e with
        | uniqueViolation => exact hk.raise _
        | _ => exact hk.raise _
      rintro wallet _ rfl
      refine Follows.bind (R := fun _ _ => True) ?_ fun _ _ _ => trivial
      refine conforms_learned (r := .orderFindWaiting creatorId) trivial fun rows => ?_
      refine conforms_of_stays (stays_resumeOrders _ rows fun o ho => ?_)
      exact List.mem_append_left _ (List.mem_map_of_mem ho)

theorem conforms_checkout (productId buyerEmail : String) :
    (checkout productId buyerEmail).Conforms protocol [] := by
  refine conforms_learned (r := .productFindUnique productId) trivial fun found => ?_
  cases found with
  | none => trivial
  | some product => exact conforms_learned (r := .orderCreate _) rfl fun _ => trivial

/-- A webhook that is let through confirms the payment of the order in its body. -/
theorem handleGcashWebhook_cases (gate : Gate) (req : WebhookRequest) :
    (∃ answer, handleGcashWebhook gate req = .ret answer) ∨
      gate.Accepts (req.rawBody.getD []) req.signature ∧
        handleGcashWebhook gate req =
          (handleGcashPayment req.dto.orderId req.dto.paymentRef).bind fun _ =>
            .ret .confirmed := by
  unfold handleGcashWebhook
  split
  · next hsecret =>
    split
    · exact .inl ⟨_, rfl⟩
    · next henv => exact .inr ⟨.inl ⟨hsecret, henv⟩, rfl⟩
  · next hsecret =>
    split
    · exact .inl ⟨_, rfl⟩
    · next hverify =>
      refine .inr ⟨.inr ?_, rfl⟩
      rcases hs : gate.gcashWebhookSecret with - | secret
      · simp [hs] at hsecret
      rcases hsig : req.signature with - | signature
      · simp [Gate.verify, hs, hsig] at hverify
      have hne : secret ≠ "" := by simpa [hs] using hsecret
      refine ⟨secret, rfl, hne, ?_⟩
      simp only [Gate.verify, timingSafeEqual, hs, hsig, Bool.not_eq_true', Bool.not_eq_false,
        if_neg hne] at hverify
      split at hverify
      · cases hverify
      split at hverify
      · cases hverify
      · rw [String.toByteArray_inj.1 (ByteArray.ext (of_decide_eq_true hverify))]

/-- Every call follows the protocol from a phase in which it does not hold the order, if it
neither confirms its payment nor was made for it. -/
theorem conforms_method (cfg : StellarConfig) (gate : Gate) {c : Endpoint}
    (hevent : ∀ payload, c = .paymentReceived payload → payload.orderId ≠ id)
    (hbody : ∀ req, c = .handleGcashWebhook req →
      ∃ body, req.rawBody = some body ∧ gate.parse body = some req.dto)
    (hc : ¬ gate.Confirms id c) :
    ∃ held, id ∉ held ∧ (c.method cfg gate).Conforms protocol held := by
  cases c with
  | checkout productId buyerEmail =>
    exact ⟨[], List.not_mem_nil, conforms_discard (conforms_checkout _ _)⟩
  | connect creatorId walletAddress provider =>
    exact ⟨[], List.not_mem_nil, conforms_discard (conforms_connect _ _ _)⟩
  | bootstrap => exact ⟨[], List.not_mem_nil, conforms_discard conforms_onApplicationBootstrap⟩
  | paymentReceived payload =>
    refine ⟨[payload.orderId], ?_,
      conforms_of_stays (stays_handlePaymentReceived cfg List.mem_cons_self)⟩
    exact fun h => hevent payload rfl (List.mem_singleton.1 h).symm
  | simulatePayment id' =>
    by_cases hdemo : gate.isDemo = true
    · refine ⟨[id'], fun h => hc ⟨(List.mem_singleton.1 h).symm, hdemo⟩, ?_⟩
      simp only [Endpoint.method, Kreav.simulatePayment, hdemo, if_true]
      exact conforms_of_stays (stays_handleGcashPayment List.mem_cons_self _)
    · refine ⟨[], List.not_mem_nil, ?_⟩
      simp only [Endpoint.method, Kreav.simulatePayment, hdemo, Bool.false_eq_true, if_false]
      trivial
  | handleGcashWebhook req =>
    obtain ⟨body, hraw, hparse⟩ := hbody req rfl
    rcases handleGcashWebhook_cases gate req with ⟨answer, he⟩ | ⟨haccepts, he⟩
    · refine ⟨[], List.not_mem_nil, ?_⟩
      rw [Endpoint.method, he]
      trivial
    · refine ⟨[req.dto.orderId], fun h => hc ?_, ?_⟩
      · rw [hraw, Option.getD_some] at haccepts
        exact ⟨body, req.dto, hraw, hparse, (List.mem_singleton.1 h).symm, haccepts⟩
      · rw [Endpoint.method, he]
        exact conforms_discard (conforms_discard
          (conforms_of_stays (stays_handleGcashPayment List.mem_cons_self _)))

theorem suspended_method (cfg : StellarConfig) (gate : Gate) (c : Endpoint) :
    (c.method cfg gate).Suspended := by
  cases c with
  | simulatePayment id => exact Payments.suspended_method (.simulate gate.isDemo id)
  | handleGcashWebhook req =>
    rcases handleGcashWebhook_cases gate req with ⟨answer, he⟩ | ⟨-, he⟩
    · rw [Endpoint.method, he]
      trivial
    · rw [Endpoint.method, he]
      trivial
  | _ => trivial

end PaymentGate

/-- The products service does nothing to orders and settlements and sends nothing. -/
theorem catalogExec_keeps (cfg : StellarConfig) (r : CatalogRequest) (c : Choice) (w : World) :
    (catalogExec cfg r c w).2.db.orders = w.db.orders ∧
      (catalogExec cfg r c w).2.db.settlements = w.db.settlements ∧
      (catalogExec cfg r c w).2.emitted = w.emitted ∧
      (catalogExec cfg r c w).2.chain = w.chain := by
  have hinsert : ∀ {α : Type} (a : α) (x : Except DbError Database),
      (∀ db, x = .ok db → db.orders = w.db.orders ∧ db.settlements = w.db.settlements) →
        (w.insertC a x).2.db.orders = w.db.orders ∧
          (w.insertC a x).2.db.settlements = w.db.settlements ∧
          (w.insertC a x).2.emitted = w.emitted ∧ (w.insertC a x).2.chain = w.chain := by
    intro α a x hx
    cases x with
    | error e => exact ⟨rfl, rfl, rfl, rfl⟩
    | ok db => exact ⟨(hx db rfl).1, (hx db rfl).2, rfl, rfl⟩
  rcases catalogExec_world cfg r c w with hw | hw <;> rw [hw]
  · exact ⟨rfl, rfl, rfl, rfl⟩
  cases r with
  | productCreate data rows =>
    refine hinsert _ _ fun db hdb => ?_
    unfold Database.createProduct at hdb
    repeat' split at hdb
    all_goals cases hdb
    exact ⟨rfl, rfl⟩
  | productUpdate id data =>
    refine hinsert _ _ fun db hdb => ?_
    unfold Database.updateProduct at hdb
    repeat' split at hdb
    all_goals cases hdb
    exact ⟨rfl, rfl⟩
  | collaboratorReplace id rows =>
    refine hinsert _ _ fun db hdb => ?_
    obtain ⟨-, rfl⟩ := Products.replaceAll_eq_ok hdb
    exact ⟨rfl, rfl⟩
  | _ => exact ⟨rfl, rfl, rfl, rfl⟩

theorem OrderProtocol.unmoved_catalog (cfg : StellarConfig) (id : String) (r : CatalogRequest)
    (c : Choice) (w : World) : OrderProtocol.Unmoved id w (catalogExec cfg r c w).2 := by
  obtain ⟨horders, hsettlements, hemitted, hchain⟩ := catalogExec_keeps cfg r c w
  exact ⟨Or.inl (by rw [horders]), by rw [hsettlements], hemitted, by rw [hchain],
    by rw [hchain]⟩

/-! ## Unpaid orders -/

namespace Unpaid

open PaymentGate

variable {cfg : StellarConfig} {held : List String} {id : String} {w : World}

/-- A step that leaves the order where it was. -/
theorem of_eq {w' : World} (h : Unpaid id w)
    (horder : w'.db.orders.lookup id = w.db.orders.lookup id)
    (hsettlement : w'.db.settlements.lookup id = w.db.settlements.lookup id)
    (hemitted : w'.emitted = w.emitted) (hchain : Untouched id w'.chain) : Unpaid id w' where
  order o ho := h.order o (horder ▸ ho)
  settlement := hsettlement.trans h.settlement
  emitted := hemitted ▸ h.emitted
  chain := hchain

/-- A request of a call that does not hold the order. -/
theorem exec (h : Unpaid id w) (cfg : StellarConfig) {r : Request}
    (hr : Permits held r) (hid : id ∉ held) (c : Choice) : Unpaid id (exec cfg r c w).2 := by
  have hne : ∀ {id'}, id' ∈ held → id ≠ id' := fun hm he => hid (he ▸ hm)
  have htouches : ∀ {id'}, Touches id' r → id ≠ id' → Unpaid id (Kreav.exec cfg r c w).2 := by
    intro id' ht hne
    have hsame := exec_touches cfg hne ht c w
    exact h.of_eq hsame.order hsame.settlement (exec_emitted cfg r c w) (hsame.chain ▸ h.chain)
  by_cases hread : r.reads = true
  · rw [exec_reads cfg hread]
    exact h
  cases r with
  | orderCreate data =>
    have hwrites : ¬ OrderProtocol.Writes id (.orderCreate data) := fun hs => hs hr
    have hu := OrderProtocol.unmoved_exec cfg hwrites c w
    refine ⟨fun o ho => ?_, hu.settlement.trans h.settlement, hu.emitted ▸ h.emitted, ?_⟩
    · rcases hu.order with he | ⟨-, o', ho', hs, -⟩
      · exact h.order o (he ▸ ho)
      · obtain rfl := Option.some.inj (ho.symm.trans ho')
        exact hs
    · rcases exec_chain cfg (.orderCreate data) c w with hc | ⟨tx, he, -⟩
      · exact hc ▸ h.chain
      · cases he
  | orderUpdate id' data =>
    exact htouches (show Touches id' (.orderUpdate id' data) from rfl) (hne hr)
  | settlementCreate data =>
    exact htouches (show Touches data.orderId (.settlementCreate data) from rfl) (hne hr)
  | walletCreate creatorId walletAddress provider =>
    rcases exec_walletCreate cfg creatorId walletAddress provider c w with
      ⟨wallet, -, -, hx⟩ | ⟨wallet, -, -, hx⟩ | ⟨e, hx⟩
    all_goals
      rw [hx]
      exact h.of_eq rfl rfl rfl h.chain
  | sendTransaction tx =>
    rcases exec_sendTransaction_world cfg tx c w with hx | hx
    · rw [hx]
      exact h
    · rw [hx]
      exact h.of_eq rfl rfl rfl (h.chain.accepted_ne (hne hr).symm)
  | _ => exact absurd rfl hread

theorem catalog (h : Unpaid id w) (cfg : StellarConfig) (r : CatalogRequest) (c : Choice) :
    Unpaid id (catalogExec cfg r c w).2 := by
  obtain ⟨horders, hsettlements, hemitted, hchain⟩ := catalogExec_keeps cfg r c w
  exact h.of_eq (by rw [horders]) (by rw [hsettlements]) hemitted (hchain ▸ h.chain)

theorem env (h : Unpaid id w) {e : Env} (he : Foreign id e) :
    Unpaid id ((machine cfg).env e w) := by
  obtain ⟨horders, hsettlements, hemitted, -⟩ := env_keeps cfg e w
  refine h.of_eq (by rw [horders]) (by rw [hsettlements]) hemitted ?_
  cases e with
  | network step => exact h.chain.step he
  | updateProduct productId rows => exact h.chain

end Unpaid

/-! ## Every run -/

namespace PaymentGate

variable {cfg : StellarConfig} {held : List String} {id : String} {w : World}

/-- An answer does not tell of an unpaid order. -/
theorem not_mem_learned (h : Unpaid id w) (r : Request) (c : Choice) :
    id ∉ learned r (exec cfg r c w).1 := by
  intro hm
  cases hx : (Kreav.exec cfg r c w).1 with
  | error e =>
    rw [hx] at hm
    cases r <;> cases hm
  | ok x =>
    rw [hx] at hm
    obtain ⟨-, ha⟩ := exec_ok cfg hx
    cases r with
    | orderFindMany statuses =>
      obtain rfl := Except.ok.inj ha
      obtain ⟨o, ho, rfl⟩ := List.mem_map.1 hm
      obtain ⟨ho, hs⟩ := List.mem_filter.1 ho
      have hrow := lookup_of_mem_ordersIn ((reorder_perm _ _).mem_iff.1 ho)
      exact of_decide_eq_true hs (h.order _ hrow)
    | orderFindWaiting creatorId =>
      obtain rfl := Except.ok.inj ha
      obtain ⟨o, ho, rfl⟩ := List.mem_map.1 hm
      have ho := (List.mem_filter.1 ((reorder_perm _ _).mem_iff.1 ho)).1
      have hs : o.order.status = .waitingWallet := by
        obtain ⟨e, he, rfl⟩ := List.mem_map.1 ho
        simpa using (List.mem_filter.1 he).2
      have := h.order _ (lookup_of_mem_ordersIn ho)
      rw [hs] at this
      cases this
    | _ => cases hm

/-- The order is unpaid and no call holds it. -/
structure Inv (id : String) (w : World) (φ : ℕ → List String) : Prop where
  unpaid : Unpaid id w
  held : ∀ i, id ∉ φ i

theorem Inv.update {φ : ℕ → List String} (h : Inv id w φ) (i : ℕ) (hid : id ∉ held) :
    Inv id w (Function.update φ i held) :=
  ⟨h.unpaid, (Function.forall_update_iff φ fun _ held => id ∉ held).2 ⟨hid, fun j _ => h.held j⟩⟩

/-- The condition on a turn, which does not confirm the payment either. -/
def Quiet (gate : Gate) (id : String) (s : Config backend World Unit)
    (t : Turn Choice MarketStep Endpoint) : Prop :=
  gate.Received id s t ∧ ∀ c, t = .call c → ¬ gate.Confirms id c

theorem invariant (cfg : StellarConfig) (gate : Gate) (id : String) :
    protocol.Invariant (market cfg) (fun s a => Quiet gate id s (.act a)) (Inv id) where
  final_rest := trivial
  event {w φ i v φ'} h hv := by
    obtain ⟨rfl, hv⟩ := hv
    refine ⟨⟨h.unpaid.order, h.unpaid.settlement, fun v' hv' he => ?_, h.unpaid.chain⟩, ?_⟩
    · rcases List.mem_append.1 hv' with hv' | hv'
      · exact h.unpaid.emitted v' hv' he
      · obtain rfl := List.mem_singleton.1 hv'
        exact h.held i (he ▸ hv)
    · rw [Function.update_eq_self]
      exact h.held
  ended h _ := h.update _ List.not_mem_nil
  outside {s φ e} h he := by
    refine ⟨?_, h.held⟩
    cases e with
    | backend e => exact h.unpaid.env he.1
    | catalog call r c => exact h.unpaid.catalog cfg r c
  reply {s φ i r k c} h _ _ _ := by
    refine ⟨trivial, fun held hr hk => .update hk ?_⟩
    obtain ⟨hpermits, hsub⟩ := hr
    have hid : id ∉ held := fun hm => by
      rcases List.mem_append.1 (hsub hm) with hm | hm
      · exact not_mem_learned h.unpaid r c hm
      · exact h.held i hm
    have hw : Inv id (exec cfg r c s.world).2 φ :=
      ⟨h.unpaid.exec cfg hpermits (h.held i) c, h.held⟩
    exact hw.update i hid

/-- A call that arrives does not hold the order. -/
theorem arrives {gate : Gate} {s : Config backend World Unit} {φ : ℕ → List String}
    {c : Endpoint} (h : Inv id s.world φ) (hP : Quiet gate id s (.call c)) (i : ℕ) :
    ∃ held, (c.method cfg gate).Suspended ∧ (c.method cfg gate).Conforms protocol held ∧
      Inv id s.world (Function.update φ i held) := by
  obtain ⟨held, hid, hheld⟩ := conforms_method cfg gate
    (fun payload he => by
      subst he
      obtain ⟨v, hv, hp⟩ := List.mem_filterMap.1 hP.1
      intro hid
      cases v with
      | paymentReceived p =>
        obtain rfl := Option.some.inj hp
        exact h.unpaid.emitted _ hv hid
      | _ => cases hp)
    (fun req he => by
      subst he
      exact hP.1) (hP.2 c rfl)
  exact ⟨held, suspended_method cfg gate c, hheld, h.update i hid⟩

/-- An order that no call confirms stays unpaid. -/
theorem unpaid_turns {cfg : StellarConfig} {gate : Gate} {w : World}
    {ts : List (Turn Choice MarketStep Endpoint)} (hw : Unpaid id w)
    (hrun : Config.During (market cfg) (Endpoint.method cfg gate) (gate.Received id) ts ⟨[], w⟩)
    (hc : ∀ c, .call c ∈ ts → ¬ gate.Confirms id c) :
    Unpaid id (Config.turns (market cfg) (Endpoint.method cfg gate) ts ⟨[], w⟩).world := by
  have hquiet : Config.During (market cfg) (Endpoint.method cfg gate) (Quiet gate id) ts
      ⟨[], w⟩ := hrun.and fun t ht c he => hc c (he ▸ ht)
  obtain ⟨φ, -, hI⟩ := (invariant cfg gate id).turns
    (fun s φ i c h hP _ => arrives h hP i)
    (fun _ _ h _ => ⟨h.unpaid, fun _ => List.not_mem_nil⟩) ts
    ⟨fun hp => by simp at hp, fun _ => rfl⟩ ⟨hw, fun _ => List.not_mem_nil⟩ hquiet
  exact hI.unpaid

end PaymentGate

/-- In every run of the backend, with any calls, interleavings, faults and crashes, an order
that was unpaid leaves this state only when a call confirms its payment : a webhook that names
it and whose signature is that of its bytes, any webhook that names it if no secret is configured
outside of production, or a simulated payment in the demo mode. -/
theorem payment_confirmed (cfg : StellarConfig) (gate : Gate) (id : String) (w : World)
    (ts : List (Turn Choice MarketStep Endpoint)) (hw : Unpaid id w)
    (hrun : Config.During (market cfg) (Endpoint.method cfg gate) (gate.Received id) ts ⟨[], w⟩) :
    Unpaid id (Config.turns (market cfg) (Endpoint.method cfg gate) ts ⟨[], w⟩).world ∨
      ∃ c, .call c ∈ ts ∧ gate.Confirms id c := by
  by_cases hc : ∃ c, .call c ∈ ts ∧ gate.Confirms id c
  · exact .inr hc
  · exact .inl (PaymentGate.unpaid_turns hw hrun fun c hm hconf => hc ⟨c, hm, hconf⟩)

/-! ## A signed webhook -/

theorem unpaid_demoWorld (id : String) (collaborators : List Collaborator) :
    Unpaid id (demoWorld collaborators [(id, demoOrder .paymentPending)]) where
  order o ho := by
    obtain rfl := Option.some.inj ((AList.lookup_insert _).symm.trans ho)
    rfl
  settlement := rfl
  emitted _ hv := absurd hv List.not_mem_nil
  chain := untouched_demoWorld _ _ _

/-- The bytes of a webhook. -/
def demoWebhookBody : Buffer :=
  ("\x7b\"orderId\":\"660e8400-e29b-41d4-a716-446655440000\"," ++
    "\"paymentRef\":\"gcash-txn-abc123\"\x7d").toByteArray.toList

/-- What they say. -/
def demoDto : GcashWebhookDto :=
  ⟨"660e8400-e29b-41d4-a716-446655440000", "gcash-txn-abc123"⟩

/-- The gate in production, with the digest of the body above. -/
def demoGate : Gate where
  gcashWebhookSecret := some "a-webhook-secret"
  nodeEnv := "production"
  demoMode := none
  hmacSha256 _ _ := "73720384d62add6e9ea571050e2fd3aa1146344a02136761b1fe4b07a91cb7fb"
  parse body := if body = demoWebhookBody then some demoDto else none

/-- A webhook without a signature, and one with the right one. -/
def demoWebhooks : List (Turn Choice MarketStep Endpoint) :=
  .call (.handleGcashWebhook ⟨some demoWebhookBody, none, demoDto⟩) ::
    .call (.handleGcashWebhook ⟨some demoWebhookBody,
      some "73720384d62add6e9ea571050e2fd3aa1146344a02136761b1fe4b07a91cb7fb", demoDto⟩) ::
      List.replicate 4 (.act (.run 1 {}))

theorem payment_confirmed_signed :
    ∃ c, .call c ∈ demoWebhooks ∧ demoGate.Confirms demoDto.orderId c := by
  refine (payment_confirmed demoConfig demoGate demoDto.orderId _ demoWebhooks
    (unpaid_demoWorld _ []) ⟨⟨_, rfl, if_pos rfl⟩, ⟨_, rfl, if_pos rfl⟩, trivial, trivial, trivial,
      trivial, trivial⟩).resolve_left fun h => ?_
  have hstatus : statusOf (Config.turns (market demoConfig) (Endpoint.method demoConfig demoGate)
      demoWebhooks ⟨[], demoWorld [] [(demoDto.orderId, demoOrder .paymentPending)]⟩).world
        demoDto.orderId = some .paymentReceived := by decide
  obtain ⟨o, ho, hs⟩ := Option.map_eq_some_iff.1 hstatus
  rw [h.order o ho] at hs
  cases hs

end Kreav
