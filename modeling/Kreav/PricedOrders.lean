import Kreav.Market

/-!
# Prices arrive exactly

`Known` are the phases of a protocol : the orders that a call has read, with their amounts.
An order keeps its amount, so what is known stays true. A call creates orders at the price
that it read, emits `payment.received` with a known amount, and invokes `settle` with a
known amount in base units.

Together with the texts of `Kreav.AmountTexts` and the arithmetic of the contract : the price
of a body that fits its column arrives at the contract in base units, exactly, and its split
completes (`price_arrives`).
-/

open Async Prog

namespace Kreav

namespace Pricing

variable {cfg : StellarConfig} {productId : String} {prices : String → Prop} {V : Usd → Prop}
  {w w' : World}

/-! ## The protocol -/

/-- Orders with their amounts. -/
abbrev Known :=
  List (String × Usd)

/-- The orders that an answer tells of. -/
def learned : (r : Request) → Except Failure r.Ans → Known
  | .orderFindUnique id, .ok (found : Option (Order × String)) =>
    found.toList.map fun p => (id, p.1.amountUsd)
  | .orderFindMany _, .ok (rows : List StuckOrder) => rows.map fun o => (o.id, o.order.amountUsd)
  | .orderFindWaiting _, .ok (rows : List StuckOrder) =>
    rows.map fun o => (o.id, o.order.amountUsd)
  | _, _ => []

/-- A transaction over a known amount. -/
def Owed (known : Known) (tx : Tx) : Prop :=
  ∃ b, (tx.orderRef, b) ∈ known ∧ tx.totalAmount.val = b.toBase

/-- A new order is at a price, and `settle` is invoked with a known amount. -/
def Sound (productId : String) (V : Usd → Prop) (known : Known) : Request → Prop
  | .orderCreate data => data.productId = productId → V data.amountUsd
  | .simulateSettle tx => Owed known tx
  | .sendTransaction tx => Owed known tx
  | _ => True

/-- The product is answered with its price. -/
def Answers (productId : String) (V : Usd → Prop) : (r : Request) → Except Failure r.Ans → Prop
  | .productFindUnique id, .ok (found : Option Product) =>
    id = productId → ∀ p ∈ found, V p.priceUsd
  | _, _ => True

/-- The protocol of a method : what it writes has the prices it knows of, and what it learns it
learns from answers. -/
def protocol (productId : String) (V : Usd → Prop) : Protocol backend Known where
  answers := Answers productId V
  reply known r x known' := Sound productId V known r ∧ known' ⊆ learned r x ++ known
  event known v known' := known' = known ∧
    ∀ p, v = .paymentReceived p → (p.orderId, p.amountUsd) ∈ known
  final _ := True
  rest := []

/-! ## The calls follow it -/

variable {known : Known}

theorem stays_known {r : Request} (h : Sound productId V known r) :
    (await r).Stays (protocol productId V) known :=
  Stays.ask fun _ _ => ⟨h, List.subset_append_right _ _⟩

theorem stays_emit {v : AppEvent}
    (h : ∀ p, v = .paymentReceived p → (p.orderId, p.amountUsd) ∈ known) :
    (emit v).Stays (protocol productId V) known :=
  Follows.signal ⟨rfl, h⟩ rfl

theorem ofSettlement (id : String) :
    OfSettlement (fun _ p => p.Stays (protocol productId V) known) id where
  toCompositional := Stays.compositional (protocol productId V) known
  check {r} hr := by
    refine stays_known ?_
    cases r with
    | orderCreate data => cases hr
    | simulateSettle tx => cases hr
    | sendTransaction tx => cases hr
    | _ => trivial
  update _ := stays_known trivial
  completed _ _ := stays_emit (by simp)

theorem stays_handlePaymentReceived {payload : PaymentReceivedPayload}
    (h : (payload.orderId, payload.amountUsd) ∈ known) :
    (handlePaymentReceived cfg payload).Stays (protocol productId V) known := by
  refine (ofSettlement payload.orderId).handlePaymentReceived (fun tx href ht => ?_)
    fun _ _ => stays_known trivial
  have howed : Owed known tx := ⟨payload.amountUsd, href ▸ h, ht⟩
  exact ⟨stays_known howed, stays_known howed⟩

theorem stays_recoverAll : ∀ rows : List StuckOrder,
    (∀ o ∈ rows, (o.id, o.order.amountUsd) ∈ known) →
      (recoverAll rows).Stays (protocol productId V) known
  | [], _ => rfl
  | o :: rest, h => by
    have hk : OfSettlement (fun _ p => p.Stays (protocol productId V) known) o.id :=
      ofSettlement o.id
    refine hk.bind (hk.tryCatch ?_ fun _ => hk.ret _) fun _ =>
      hk.bind (stays_recoverAll rest fun o' ho' => h o' (List.mem_cons_of_mem o ho'))
        fun _ => hk.ret _
    refine hk.recoverOrder (fun wallet ref => stays_emit fun p hp => ?_)
      (hk.recordRecoveredSettlement fun _ _ => stays_known trivial)
    obtain rfl := AppEvent.paymentReceived.inj hp
    exact h o List.mem_cons_self

theorem stays_resumeOrders (walletAddress : String) : ∀ rows : List StuckOrder,
    (∀ o ∈ rows, (o.id, o.order.amountUsd) ∈ known) →
      (resumeOrders walletAddress rows).Stays (protocol productId V) known
  | [], _ => rfl
  | o :: rest, h => by
    refine ⟨known, ⟨rfl, fun p hp => ?_⟩,
      stays_resumeOrders walletAddress rest fun o' ho' => h o' (List.mem_cons_of_mem o ho')⟩
    obtain rfl := AppEvent.paymentReceived.inj hp
    exact h o List.mem_cons_self

theorem stays_claimPayment (orderId paymentRef : String) (target : OrderStatus) :
    (claimPayment orderId paymentRef target).Stays (protocol productId V) known := by
  have hk : OfSettlement (fun _ p => p.Stays (protocol productId V) known) orderId :=
    ofSettlement orderId
  refine hk.tryCatch (hk.bind (stays_known trivial) fun _ => hk.ret _) fun e => ?_
  cases e with
  | uniqueViolation => exact hk.ret _
  | _ => exact hk.raise _

theorem stays_confirmPayment {orderId : String} {order : Order}
    (h : (orderId, order.amountUsd) ∈ known) (paymentRef creatorId : String) :
    ∀ wallet : Option String, (confirmPayment orderId paymentRef order creatorId wallet).Stays
      (protocol productId V) known := by
  have hk : OfSettlement (fun _ p => p.Stays (protocol productId V) known) orderId :=
    ofSettlement orderId
  rintro (- | walletAddress)
  · rw [confirmPayment]
    split
    · exact hk.raise _
    refine hk.bind (stays_claimPayment _ _ _) fun claimed => ?_
    split
    · exact stays_emit (by simp)
    · exact hk.ret _
  · rw [confirmPayment]
    split
    · exact hk.raise _
    refine hk.bind (stays_claimPayment _ _ _) fun claimed => ?_
    split
    · refine stays_emit fun p hp => ?_
      obtain rfl := AppEvent.paymentReceived.inj hp
      exact h
    · exact hk.ret _

/-- A read whose answer makes orders known, and the rest of the call. -/
theorem conforms_learned {α : Type} {r : Request} {f : r.Ans → Method α}
    (hr : Sound productId V known r)
    (hf : ∀ x, (f x).Conforms (protocol productId V) (learned r (.ok x) ++ known)) :
    ((await r).bind f).Conforms (protocol productId V) known :=
  Follows.bind (R := fun x known' => known' = learned r (.ok x) ++ known)
    (Follows.ask (fun _ _ => ⟨_, ⟨hr, List.Subset.refl _⟩, rfl⟩)
      fun _ _ => ⟨known, ⟨hr, List.subset_append_right _ _⟩, trivial⟩)
    fun x _ h => h ▸ hf x

theorem conforms_of_stays {α : Type} {p : Method α} (h : p.Stays (protocol productId V) known) :
    p.Conforms (protocol productId V) known :=
  h.follows (fun _ => trivial) fun _ => trivial

theorem conforms_handleGcashPayment (orderId paymentRef : String) :
    (handleGcashPayment orderId paymentRef).Conforms (protocol productId V) [] := by
  refine conforms_learned (r := .orderFindFirst paymentRef) trivial fun existing => ?_
  cases existing with
  | some _ => trivial
  | none =>
    refine conforms_learned (r := .orderFindUnique orderId) trivial fun found => ?_
    cases found with
    | none => trivial
    | some found =>
      obtain ⟨order, creatorId⟩ := found
      refine conforms_learned (r := .walletFindFirst creatorId) trivial fun wallet => ?_
      exact conforms_of_stays (stays_confirmPayment (by simp [learned]) _ _ wallet)

theorem conforms_onApplicationBootstrap :
    (onApplicationBootstrap.bind fun _ => Prog.ret ()).Conforms (protocol productId V) [] := by
  refine Follows.bind (R := fun _ _ => True) ?_ fun _ _ _ => trivial
  refine conforms_learned (r := .orderFindMany _) trivial fun rows => ?_
  refine conforms_of_stays (stays_recoverAll rows fun o ho => ?_)
  exact List.mem_append_left _ (List.mem_map_of_mem ho)

theorem conforms_connect (creatorId walletAddress : String) (provider : WalletProvider) :
    (connect creatorId walletAddress provider).Conforms (protocol productId V) [] := by
  have hk : OfSettlement (fun _ p => p.Stays (protocol productId V) []) "" := ofSettlement ""
  refine conforms_learned (r := .userFindUnique creatorId) trivial fun creator => ?_
  cases creator with
  | false => trivial
  | true =>
    refine conforms_learned (r := .walletFindAddress walletAddress) trivial fun existing => ?_
    cases existing with
    | true => trivial
    | false =>
      refine Follows.bind (R := fun _ known => known = []) ?_ ?_
      · have hcreate : (await (.walletCreate creatorId walletAddress provider)).Stays
            (protocol productId V) [] := stays_known trivial
        refine (hk.tryCatch hcreate fun e => ?_).follows (fun _ => rfl) fun _ => trivial
        cases e with
        | uniqueViolation => exact hk.raise _
        | _ => exact hk.raise _
      rintro wallet _ rfl
      refine Follows.bind (R := fun _ _ => True) ?_ fun _ _ _ => trivial
      refine conforms_learned (r := .orderFindWaiting creatorId) trivial fun rows => ?_
      refine conforms_of_stays (stays_resumeOrders _ rows fun o ho => ?_)
      exact List.mem_append_left _ (List.mem_map_of_mem ho)

theorem conforms_checkout (productId' buyerEmail : String) :
    ((checkout productId' buyerEmail).bind fun _ => Prog.ret ()).Conforms
      (protocol productId V) [] := by
  refine Follows.bind (R := fun _ _ => True) ?_ fun _ _ _ => trivial
  refine Follows.bind (R := fun (found : Option Product) known =>
    known = [] ∧ (productId' = productId → ∀ p ∈ found, V p.priceUsd)) (Follows.ask
      (fun found h => ⟨[], ⟨trivial, List.nil_subset _⟩, rfl, h⟩)
      fun _ _ => ⟨[], ⟨trivial, List.nil_subset _⟩, trivial⟩) ?_
  rintro found _ ⟨rfl, hprice⟩
  cases found with
  | none => trivial
  | some product =>
    refine conforms_learned (r := .orderCreate _) (fun hid => ?_) fun orderId => trivial
    exact hprice hid product rfl

/-- What is known when a call arrives. -/
def initially : ServiceCall → Known
  | .paymentReceived payload => [(payload.orderId, payload.amountUsd)]
  | _ => []

/-- Every call follows the protocol. -/
theorem conforms_method (cfg : StellarConfig) (c : ServiceCall) :
    (c.method cfg).Conforms (protocol productId V) (initially c) := by
  cases c with
  | checkout productId' buyerEmail => exact conforms_checkout productId' buyerEmail
  | payment p =>
    cases p with
    | webhook orderId paymentRef => exact conforms_handleGcashPayment orderId paymentRef
    | simulate demoMode id =>
      cases demoMode with
      | false => trivial
      | true => exact conforms_handleGcashPayment id _
  | connect creatorId walletAddress provider =>
    exact Follows.bind (R := fun _ _ => True)
      (conforms_connect creatorId walletAddress provider) fun _ _ _ => trivial
  | paymentReceived payload =>
    exact conforms_of_stays (stays_handlePaymentReceived List.mem_cons_self)
  | bootstrap => exact conforms_onApplicationBootstrap

/-! ## What the world answers -/

theorem answers_exec (h : Priced productId V w) (r : Request) (c : Choice) :
    Answers productId V r (exec cfg r c w).1 := by
  cases hx : (exec cfg r c w).1 with
  | error e => cases r <;> trivial
  | ok x =>
    obtain ⟨-, ha⟩ := exec_ok cfg hx
    cases r with
    | productFindUnique id =>
      obtain rfl := Except.ok.inj ha
      rintro rfl p hp
      exact h.product p (Option.eq_some_of_filter_eq_some hp)
    | _ => trivial

/-- What an answer tells of an order is so. -/
theorem costs_learned (r : Request) (c : Choice) :
    ∀ f ∈ learned r (exec cfg r c w).1, Costs w f.1 f.2 := by
  intro f hf
  cases hx : (exec cfg r c w).1 with
  | error e =>
    rw [hx] at hf
    cases r <;> cases hf
  | ok x =>
    rw [hx] at hf
    obtain ⟨-, ha⟩ := exec_ok cfg hx
    have hrows : ∀ {statuses : List OrderStatus} {rows : List StuckOrder},
        (∀ o ∈ rows, o ∈ w.db.ordersIn statuses) →
          f ∈ rows.map (fun o => (o.id, o.order.amountUsd)) → Costs w f.1 f.2 := by
      intro statuses rows hrows hf
      obtain ⟨o, ho, rfl⟩ := List.mem_map.1 hf
      exact ⟨o.order, lookup_of_mem_ordersIn (hrows o ho), rfl⟩
    cases r with
    | orderFindUnique id =>
      obtain rfl := Except.ok.inj ha
      obtain ⟨p, hp, rfl⟩ := List.mem_map.1 hf
      obtain ⟨o, ho, rfl⟩ := Option.map_eq_some_iff.1 (Option.mem_toList.1 hp)
      exact ⟨o, ho, rfl⟩
    | orderFindMany statuses =>
      obtain rfl := Except.ok.inj ha
      exact hrows (fun o ho => (reorder_perm _ _).mem_iff.1 ho) hf
    | orderFindWaiting creatorId =>
      obtain rfl := Except.ok.inj ha
      exact hrows (fun o ho => (List.mem_filter.1 ((reorder_perm _ _).mem_iff.1 ho)).1) hf
    | _ => cases hf

/-! ## Every run -/

/-- The prices, and the amounts that the calls know. -/
structure Sees (productId : String) (V : Usd → Prop) (w : World) (φ : ℕ → Known) : Prop where
  priced : Priced productId V w
  known : ∀ i, ∀ f ∈ φ i, Costs w f.1 f.2

variable {φ : ℕ → Known} {i : ℕ}

theorem Sees.update (h : Sees productId V w φ) (hk : ∀ f ∈ known, Costs w f.1 f.2) :
    Sees productId V w (Function.update φ i known) := by
  refine ⟨h.priced, ?_⟩
  exact (Function.forall_update_iff φ fun _ known => ∀ f ∈ known, Costs w f.1 f.2).2
    ⟨hk, fun j _ => h.known j⟩

theorem Sees.grows (h : Sees productId V w φ) (hw : Priced productId V w' ∧ Grows w w') :
    Sees productId V w' φ :=
  ⟨hw.1, fun i f hf => costs_grows (h.known i f hf) hw.2⟩

/-- The answer to a request that the protocol has. -/
theorem Sees.reply (h : Sees productId V w φ) {r : Request} {c : Choice} {known' : Known}
    (hr : (protocol productId V).reply (φ i) r (exec cfg r c w).1 known') :
    Sees productId V (exec cfg r c w).2 (Function.update φ i known') := by
  obtain ⟨hsound, hsub⟩ := hr
  have hat : AtPrice productId V r := by
    cases r with
    | orderCreate data => exact hsound
    | _ => trivial
  have hw := h.priced.exec cfg hat c
  refine (h.grows hw).update fun f hf => costs_grows ?_ hw.2
  rcases List.mem_append.1 (hsub hf) with hf | hf
  · exact costs_learned r c f hf
  · exact h.known i f hf

theorem Sees.event (h : Sees productId V w φ) (cfg : StellarConfig) {v : AppEvent}
    {known' : Known} (hv : (protocol productId V).event (φ i) v known') :
    Sees productId V ((machine cfg).log v w) (Function.update φ i known') := by
  obtain ⟨rfl, hpay⟩ := hv
  rw [Function.update_eq_self]
  refine ⟨⟨h.priced.product, h.priced.order, fun p hp => ?_⟩, h.known⟩
  simp only [machine, payments, List.filterMap_append, List.mem_append] at hp
  rcases hp with hp | hp
  · exact h.priced.emitted p hp
  · cases v with
    | paymentReceived payload =>
      obtain rfl : p = payload := by simpa using hp
      exact h.known i _ (hpay p rfl)
    | walletConnectRequired payload => simp at hp
    | settlementCompleted payload => simp at hp

/-- The amounts of accepted texts are among `V`. -/
def Admits (prices : String → Prop) (V : Usd → Prop) : Prop :=
  ∀ text, prices text → isPrice text = true → ∀ a : Usd, a.cents = hundredths text → V a

theorem Sees.outside (h : Sees productId V w φ) (hV : Admits prices V) (cfg : StellarConfig)
    {s : Config backend World Unit} {e : MarketStep}
    (he : Lawful productId prices s (.act (.env e))) :
    Sees productId V ((market cfg).env e w) φ := by
  cases e with
  | backend e =>
    cases e with
    | network step => exact h.grows ⟨h.priced.of_db rfl rfl rfl, .of_orders rfl⟩
    | updateProduct id rows => exact h.grows ⟨h.priced.of_db rfl rfl rfl, .of_orders rfl⟩
  | catalog pc r c =>
    refine h.grows (h.priced.catalog cfg fun hid cents hc a ha => ?_)
    obtain ⟨text, ht, haccepted, rfl⟩ := (uses_method pc).makes he.1 cents hc
    exact hV text (he.2 hid text ht) haccepted a ha

theorem invariant (cfg : StellarConfig) (hV : Admits prices V) :
    (protocol productId V).Invariant (market cfg)
      (fun (s : Config backend World Unit) t => Lawful productId prices s (.act t))
        (Sees productId V) where
  reply hI _ _ _ :=
    ⟨answers_exec hI.priced _ _, fun _ hr hk => Protocol.Advances.update hk (hI.reply hr)⟩
  event hI hv := hI.event cfg hv
  ended hI _ := hI.update (by simp [protocol])
  outside hI he := hI.outside hV cfg he
  final_rest := trivial

end Pricing

/-- The texts and the scaling carry the amount `a` of a price text exactly, and the contract's
arithmetic completes on it for all recipients that it accepts. -/
structure Carries (priceUsd : String) (a : Usd) : Prop where
  accepted : isPrice priceUsd = true
  cents : a.cents = hundredths priceUsd
  column : moneyColumn priceUsd = some a
  text : moneyColumn a.toFixed = some a
  scaled : totalAmountBase a.toFixed = some a.toBase
  base : a.toBase = hundredths priceUsd * 10 ^ 5
  split : ∀ (total : I128) (recipients : List (Recipient String)), total.val = a.toBase →
    (∃ sum, validateRecipients recipients = .ok sum) → Nonempty (Split total recipients)

/-- What a run does with the prices of the product. The product and its orders have the
amount of one of the texts, each event has the amount of its order, and a transaction that a
call waits on that amount in base units. -/
structure Arrives (productId : String) (prices : String → Prop) (s : Config backend World Unit) :
    Prop where
  product : ∀ p, s.world.db.products.lookup productId = some p →
    ∃ priceUsd, prices priceUsd ∧ Carries priceUsd p.priceUsd
  order : ∀ id o, s.world.db.orders.lookup id = some o → o.productId = productId →
    ∃ priceUsd, prices priceUsd ∧ Carries priceUsd o.amountUsd
  event : ∀ p ∈ payments s.world.emitted, ∃ o, s.world.db.orders.lookup p.orderId = some o ∧
    p.amountUsd = o.amountUsd
  transaction : ∀ i tx, s.Waits i (.simulateSettle tx) ∨ s.Waits i (.sendTransaction tx) →
    ∃ o, s.world.db.orders.lookup tx.orderRef = some o ∧ tx.totalAmount.val = o.amountUsd.toBase

theorem carries_of_cents {priceUsd : String} (h : isPrice priceUsd = true) {a : Usd}
    (ha : a.cents = hundredths priceUsd) : Carries priceUsd a := by
  have hbase : a.toBase = hundredths priceUsd * 10 ^ 5 := by
    rw [a.toBase_eq, ha]
    norm_num
  refine ⟨h, ha, ?_, moneyColumn_toFixed a, totalAmountBase_toFixed a, hbase,
    fun total recipients ht hv => ?_⟩
  · rw [moneyColumn_of_isDecimal (Bool.and_eq_true_iff.1 h).2, ← ha, a.ofCents?_cents]
  · refine nonempty_split ?_ (ht.le.trans (toBase_le_maxTotal a)) (validateRecipients_eq_ok.1 hv)
    rw [ht, hbase]
    positivity

namespace Pricing

variable {productId : String} {prices : String → Prop}

/-- The amounts of the texts. -/
def OneOf (prices : String → Prop) (a : Usd) : Prop :=
  ∃ priceUsd, prices priceUsd ∧ Carries priceUsd a

theorem Sees.arrives {s : Config backend World Unit} {φ : ℕ → Known}
    (hs : s.Tracks (protocol productId (OneOf prices)) φ)
    (h : Sees productId (OneOf prices) s.world φ) : Arrives productId prices s where
  product := h.priced.product
  order := h.priced.order
  event p hp := by
    obtain ⟨o, ho, ha⟩ := h.priced.emitted p hp
    exact ⟨o, ho, ha.symm⟩
  transaction i tx hw := by
    have howed : Owed (φ i) tx := by
      rcases hw with hw | hw
      · obtain ⟨-, hr, -⟩ := hs.reply hw (x := .ok true) trivial
        exact hr
      · obtain ⟨-, hr, -⟩ := hs.reply hw (x := .ok SendStatus.pending) trivial
        exact hr
    obtain ⟨b, hb, ht⟩ := howed
    obtain ⟨o, ho, rfl⟩ := h.known i _ hb
    exact ⟨o, ho, ht⟩

/-- After every run the calls that arrived follow the protocol and know true amounts. -/
theorem sees_turns {cfg : StellarConfig} {V : Usd → Prop} {w : World} (hV : Admits prices V)
    (ts : List (Turn Choice MarketStep ServiceCall)) (hw : Priced productId V w)
    (hrun : Config.During (market cfg) (ServiceCall.method cfg) (Lawful productId prices) ts
      ⟨[], w⟩) :
    ∃ φ, (Config.turns (market cfg) (ServiceCall.method cfg) ts ⟨[], w⟩).Tracks
        (protocol productId V) φ ∧
      Sees productId V (Config.turns (market cfg) (ServiceCall.method cfg) ts ⟨[], w⟩).world φ := by
  have hstart : (⟨[], w⟩ : Config backend World Unit).Tracks (protocol productId V)
      fun _ => [] :=
    ⟨fun hp => by simp at hp, fun _ => rfl⟩
  refine (invariant cfg hV).turns (fun s φ i k hI hk _ => ?_) (fun s φ hI _ => ?_) ts hstart
    ⟨hw, by simp⟩ hrun
  · refine ⟨initially k, OrderProtocol.suspended_method cfg k, conforms_method cfg k,
      hI.update ?_⟩
    cases k with
    | paymentReceived payload =>
      -- the event was emitted, with the amount of its order
      intro f hf
      obtain rfl := List.mem_singleton.1 hf
      exact hI.priced.emitted payload hk
    | _ => simp [initially]
  · exact ⟨hI.priced, by simp [protocol]⟩

end Pricing

/-- Every price text that a body may have and whose value fits the column is carried exactly.
And in every run of the services, from a state without the product, an order of the product
has the amount of one of the texts that priced it, its events have the same amount, and
`settle` is invoked with that amount in base units. -/
theorem price_arrives (cfg : StellarConfig) (productId : String) (prices : String → Prop)
    (w : World) (ts : List (Turn Choice MarketStep ServiceCall)) (hw : Unlisted productId w)
    (hrun : Config.During (market cfg) (ServiceCall.method cfg) (Lawful productId prices) ts
      ⟨[], w⟩) :
    (∀ priceUsd, isPrice priceUsd = true → hundredths priceUsd < 10 ^ 18 →
      ∃ a, Carries priceUsd a) ∧
    Arrives productId prices
      (Config.turns (market cfg) (ServiceCall.method cfg) ts ⟨[], w⟩) := by
  constructor
  · intro priceUsd hprice hfit
    exact ⟨⟨hundredths priceUsd, by simpa using hfit⟩, carries_of_cents hprice rfl⟩
  · have hV : Pricing.Admits prices (Pricing.OneOf prices) := fun priceUsd hp haccepted a ha =>
      ⟨priceUsd, hp, carries_of_cents haccepted ha⟩
    obtain ⟨φ, hs, hI⟩ := Pricing.sees_turns hV ts (Pricing.priced_of_unlisted hw) hrun
    exact hI.arrives hs

/-- The body of a product for $19.99. -/
def demoOffer : CreateProductDto :=
  ⟨"Presets", none, "https://drive", "19.99", none⟩

/-- A deployment with a creator and no product. -/
def demoMarket : World :=
  { demoWorld [] [] with db := { (demoWorld [] []).db with products := ∅ } }

theorem unlisted_demoMarket : Unlisted "product" demoMarket :=
  ⟨rfl, fun _ _ ho => (Option.some_ne_none _ ho.symm).elim,
    fun _ hp => absurd hp List.not_mem_nil⟩

/-- The product is created, bought and paid, and its settlement starts. -/
def demoSale : List (Turn Choice MarketStep ServiceCall) :=
  .act (.env (.catalog (.create demoOffer "alice")
      (.productCreate ⟨"Presets", none, "https://drive", 1999, "alice"⟩ [⟨"A", "Creator", 10000⟩])
      { uuid := "product" })) ::
    .call (.checkout "product" "buyer") :: List.replicate 2 (.act (.run 0 { uuid := "order" })) ++
      .call (.payment (.webhook "order" "ref")) :: List.replicate 4 (.act (.run 1 {})) ++
        .call (.paymentReceived ⟨"order", usd 1999, "alice", some "A", "ref"⟩) ::
          List.replicate 8 (.act (.run 2 {}))

/-- The market after the sale. -/
def demoSold : Config backend World Unit :=
  Config.turns (market demoConfig) (ServiceCall.method demoConfig) demoSale ⟨[], demoMarket⟩

theorem isValid_demoOffer : demoOffer.isValid = true := by
  decide

/-- The settlement is invoked with 19.99 dollars in base units. -/
theorem price_arrives_sold : (∃ a, Carries "19.99" a) ∧
    Arrives "product" (· = "19.99") demoSold ∧
      ∃ tx, demoSold.Waits 2 (.simulateSettle tx) ∧ tx.totalAmount.val = 199900000 := by
  have hmakes : (ProductCall.create demoOffer "alice").method.Makes
      (CatalogRequest.productCreate ⟨"Presets", none, "https://drive", 1999, "alice"⟩
        [⟨"A", "Creator", 10000⟩]) := by
    simp only [ProductCall.method, isValid_demoOffer]
    exact Or.inr ⟨.ok (some "A"), Or.inr ⟨.ok (⟨0, true⟩ : WalletBalance), Or.inl rfl⟩⟩
  have hlawful : Config.During (market demoConfig) (ServiceCall.method demoConfig)
      (Lawful "product" (· = "19.99")) demoSale ⟨[], demoMarket⟩ :=
    ⟨⟨hmakes, fun _ _ ht => (Option.some.inj ht).symm⟩, trivial, trivial, trivial, trivial,
      trivial, trivial, trivial, trivial, List.mem_cons_self, trivial, trivial, trivial, trivial,
      trivial, trivial, trivial, trivial, trivial⟩
  obtain ⟨hcarries, harrives⟩ :=
    price_arrives demoConfig "product" (· = "19.99") demoMarket demoSale unlisted_demoMarket hlawful
  exact ⟨hcarries "19.99" (by decide) (by decide), harrives, _, ⟨_, rfl, rfl⟩, rfl⟩

end Kreav
