import Kreav.Orders
import Kreav.SettlementSteps

/-!
# Overlapping payment webhooks

Any number of `handleGcashPayment` calls, simulated payments included, and of listeners of
the events, interleaved at their database statements. `Permitted` is the condition on the
steps : a write of `paymentReceived` that the unique index lets through finds the order in
`paymentPending`. The transition is permitted from `settlementPending` too, where the
listener takes the order (`second_payment_emits_again`). Under the condition
`payment.received` is emitted at most once for an order and at most once for a payment
reference (`payment_events_nodup`).

`Events` is the invariant : each event's order is paid, with the event's reference, and its
creator has a wallet.
-/

open Async Prog

namespace Kreav

/-- The `payment.received` events, oldest first. -/
def payments (events : List AppEvent) : List PaymentReceivedPayload :=
  events.filterMap fun
    | .paymentReceived payload => some payload
    | _ => none

/-- A call of the webhook, or a simulated payment. -/
inductive PaymentCall
  | webhook (orderId paymentRef : String)
  | simulate (demoMode : Bool) (id : String)

/-- The method of a call. The listener of the event it emits is a thread of its own. -/
def PaymentCall.method : PaymentCall → Method Unit
  | .webhook orderId paymentRef => handleGcashPayment orderId paymentRef
  | .simulate demoMode id => simulatePayment demoMode id

/-- The payments and the listeners of `payment.received`, whatever they are told. -/
def paymentThreads (cfg : StellarConfig) (calls : List PaymentCall)
    (received : List PaymentReceivedPayload) : List (Method Unit) :=
  calls.map (·.method) ++ received.map (handlePaymentReceived cfg)

namespace Payments

/-- The creator has a wallet. -/
def HasWallet (creatorId : String) (w : World) : Prop :=
  ∃ wallet ∈ w.db.wallets, wallet.creatorId = creatorId

/-- The events so far : no two of an order, no two of a reference, and what their orders
hold. -/
structure Events (w : World) : Prop where
  row : ∀ p ∈ payments w.emitted, ∃ o, w.db.orders.lookup p.orderId = some o ∧
    o.status ≠ .paymentPending ∧ o.paymentRef = some p.paymentRef ∧
      HasWallet (w.db.creatorOf o.productId) w
  orders : ((payments w.emitted).map (·.orderId)).Nodup
  refs : ((payments w.emitted).map (·.paymentRef)).Nodup

/-- What no call changes : which product an order is of, and the wallets. -/
structure Rel (w w' : World) : Prop where
  product : ∀ id, (w'.db.orders.lookup id).map (·.productId) =
    (w.db.orders.lookup id).map (·.productId)
  products : w'.db.products = w.db.products
  wallets : w'.db.wallets = w.db.wallets

theorem Rel.refl (w : World) : Rel w w :=
  ⟨fun _ => rfl, rfl, rfl⟩

theorem Rel.trans {w w' w'' : World} (h : Rel w w') (h' : Rel w' w'') : Rel w w'' :=
  ⟨fun id => (h'.product id).trans (h.product id), h'.products.trans h.products,
    h'.wallets.trans h.wallets⟩

theorem rel_setOrder {id : String} {w : World} {o : Order} (hl : w.db.orders.lookup id = some o)
    (data : OrderUpdate) : Rel w (w.setOrder id (data.applyTo o)) := by
  refine ⟨fun id' => ?_, rfl, rfl⟩
  by_cases hid : id' = id
  · subst hid
    simp [hl, OrderUpdate.applyTo]
  · rw [w.setOrder_lookup_ne _ hid]

/-- The condition on the steps of a run. -/
def Permitted (w : World) : Request → Prop
  | .orderUpdate id data =>
    data.status = .paymentReceived → (∀ ref ∈ data.paymentRef, ¬ w.db.RefTaken id ref) →
      ∀ o ∈ w.db.orders.lookup id, o.status = .paymentPending
  | _ => True

theorem env_rel (cfg : StellarConfig) (e : Env) {w : World} (h : Events w) :
    Events ((machine cfg).env e w) ∧ Rel w ((machine cfg).env e w) := by
  cases e with
  | network step => exact ⟨⟨h.row, h.orders, h.refs⟩, fun _ => rfl, rfl, rfl⟩
  | updateProduct productId rows => exact ⟨⟨h.row, h.orders, h.refs⟩, fun _ => rfl, rfl, rfl⟩

/-- Overlapping calls, with any faults and any steps of the outside. -/
def discipline (cfg : StellarConfig) : Discipline (machine cfg) where
  inv := Events
  rely _ := Rel
  guar _ := Rel
  allowed w r _ := Permitted w r
  outside _ _ := True
  duty _ _ := True
  rely_refl _ := Rel.refl
  rely_trans := Rel.trans
  guar_rely _ h := h
  outside_inv h _ := (env_rel cfg _ h).1
  outside_rely h _ := (env_rel cfg _ h).2

variable {cfg : StellarConfig} {i : ℕ} {id ref creatorId : String}

/-! ## What a call knows -/

/-- The order exists and its product is the creator's. -/
structure Known (id creatorId : String) (w : World) : Prop where
  events : Events w
  creator : ∃ o, w.db.orders.lookup id = some o ∧ w.db.creatorOf o.productId = creatorId

theorem Known.rel {w w' : World} (h : Known id creatorId w) (hr : Rel w w') (he : Events w') :
    Known id creatorId w' := by
  obtain ⟨o, ho, hc⟩ := h.creator
  obtain ⟨o', ho', hp⟩ := Option.map_eq_some_iff.1 ((hr.product id).trans (by rw [ho]; rfl))
  refine ⟨he, o', ho', ?_⟩
  rw [hp, Database.creatorOf, hr.products]
  exact hc

theorem hasWallet_rel {w w' : World} (hr : Rel w w') :
    HasWallet creatorId w' ↔ HasWallet creatorId w := by
  rw [HasWallet, hr.wallets, HasWallet]

theorem assertion_events : (discipline cfg).Assertion i Events where
  inv h := h
  rely _ _ he := he

theorem assertion_known : (discipline cfg).Assertion i (Known id creatorId) where
  inv h := h.events
  rely h hr he := h.rel hr he

theorem assertion_wallet (has : Bool) : (discipline cfg).Assertion i fun w =>
    Known id creatorId w ∧ (has = true ↔ HasWallet creatorId w) where
  inv h := h.1.events
  rely h hr he := ⟨h.1.rel hr he, h.2.trans (hasWallet_rel hr).symm⟩

/-! ## The writes -/

/-- A row without an event may change. -/
theorem Events.setOrder {w : World} (h : Events w) (o : Order)
    (hne : ∀ p ∈ payments w.emitted, p.orderId ≠ id) : Events (w.setOrder id o) := by
  refine ⟨fun p hp => ?_, h.orders, h.refs⟩
  obtain ⟨o', ho', hs⟩ := h.row p hp
  exact ⟨o', (w.setOrder_lookup_ne o (hne p hp)).trans ho', hs⟩

/-- The order is paid with this reference and there is no event of either. -/
structure Claimed (id ref creatorId : String) (w : World) : Prop where
  events : Events w
  row : ∃ o, w.db.orders.lookup id = some o ∧ o.status ≠ .paymentPending ∧
    o.paymentRef = some ref ∧ HasWallet (w.db.creatorOf o.productId) w
  order : ∀ p ∈ payments w.emitted, p.orderId ≠ id
  ref : ∀ p ∈ payments w.emitted, p.paymentRef ≠ ref

theorem claimed_setOrder {w : World} {o : Order} {data : OrderUpdate}
    (hk : Known id creatorId w) (hw : HasWallet creatorId w)
    (hl : w.db.orders.lookup id = some o) (hs : data.status = .paymentReceived)
    (href : data.paymentRef = some ref) (hfree : ¬ w.db.RefTaken id ref)
    (hper : o.status = .paymentPending) :
    Claimed id ref creatorId (w.setOrder id (data.applyTo o)) := by
  have horder : ∀ p ∈ payments w.emitted, p.orderId ≠ id := by
    rintro p hp rfl
    obtain ⟨o', ho', hs', -⟩ := hk.events.row p hp
    obtain rfl : o = o' := Option.some.inj (hl.symm.trans ho')
    exact hs' hper
  have hpaid : (data.applyTo o).status ≠ .paymentPending := by simp [OrderUpdate.applyTo, hs]
  refine ⟨hk.events.setOrder _ horder, ⟨_, w.setOrder_lookup id _, hpaid, ?_, ?_⟩, horder, ?_⟩
  · simp [OrderUpdate.applyTo, href]
  · obtain ⟨o', ho', hc⟩ := hk.creator
    obtain rfl : o = o' := Option.some.inj (hl.symm.trans ho')
    subst hc
    exact hw
  · rintro p hp rfl
    obtain ⟨o', ho', -, hr', -⟩ := hk.events.row p hp
    exact hfree ⟨⟨p.orderId, o'⟩, AList.mem_lookup_iff.1 ho', horder p hp, hr'⟩

/-- The claim of a reference. The write may take effect and throw. -/
theorem triple_claimPayment {target : OrderStatus} {P Q : World → Prop}
    (hP : (discipline cfg).Assertion i P) (hQ : ∀ w, Q w → Events w)
    (hset : ∀ w o, P w → w.db.orders.lookup id = some o → ¬ w.db.RefTaken id ref →
      (target = .paymentReceived → o.status = .paymentPending) →
      Q (w.setOrder id
        (OrderUpdate.applyTo { status := target, paymentRef := some ref } o))) :
    Triple (discipline cfg) i P (claimPayment id ref target)
      (fun claimed w => if claimed then Q w else Events w) fun _ => Events := by
  refine Triple.tryCatch (Y := fun _ => Events) ?_ fun e => ?_
  · refine Triple.bind (R := fun _ => Q) ?_ fun _ => Triple.ret fun _ h => by simpa using h
    refine triple_orderUpdate hP (fun _ _ => trivial) ?_ ?_
    · intro w o c h ha hl hfree
      have hq := hset w o h hl (hfree ref rfl) fun ht => ha ht hfree o hl
      exact ⟨rel_setOrder hl _, fun _ => hq, fun _ => hQ _ hq⟩
    · intro w c e h _ _
      exact ⟨Rel.refl w, hP.inv h⟩
  · cases e with
    | uniqueViolation => exact Triple.ret fun _ h => by simpa using h
    | _ => exact Triple.raise fun _ h => h

theorem triple_confirmPayment (order : Order) : ∀ wallet : Option String,
    Triple (discipline cfg) i
      (fun w => Known id creatorId w ∧ (wallet.isSome = true ↔ HasWallet creatorId w))
      (confirmPayment id ref order creatorId wallet) (fun _ => Events) fun _ => Events
  | none => by
    rw [confirmPayment]
    split
    · exact Triple.raise fun _ h => h.1.events
    refine Triple.bind (triple_claimPayment (Q := Events) (assertion_wallet false)
      (fun _ h => h) ?_) fun claimed => ?_
    · -- the creator of an order with an event has a wallet
      rintro w o ⟨hk, hw⟩ hl - -
      refine hk.events.setOrder _ ?_
      rintro p hp rfl
      obtain ⟨o', ho', -, -, hw'⟩ := hk.events.row p hp
      obtain ⟨o'', ho'', hc⟩ := hk.creator
      obtain rfl : o' = o'' := Option.some.inj (ho'.symm.trans ho'')
      rw [hc] at hw'
      exact absurd (hw.2 hw') (by simp)
    · cases claimed with
      | false => exact Triple.ret fun _ h => by simpa using h
      | true =>
        refine Triple.signal fun w h => ⟨⟨fun _ => rfl, rfl, rfl⟩, ?_⟩
        have he : Events w := by simpa using h
        have hp : payments ((machine cfg).log (.walletConnectRequired
          ⟨id, creatorId, order.amountUsd, ref⟩) w).emitted = payments w.emitted := by
          simp [machine, payments]
        exact ⟨by rw [hp]; exact he.row, by rw [hp]; exact he.orders, by rw [hp]; exact he.refs⟩
  | some walletAddress => by
    rw [confirmPayment]
    split
    · exact Triple.raise fun _ h => h.1.events
    refine Triple.bind (triple_claimPayment (Q := Claimed id ref creatorId)
      (assertion_wallet true) (fun _ h => h.events) ?_) fun claimed => ?_
    · rintro w o ⟨hk, hw⟩ hl hfree hper
      exact claimed_setOrder hk (hw.1 rfl) hl rfl rfl hfree (hper rfl)
    · cases claimed with
      | false => exact Triple.ret fun _ h => by simpa using h
      | true =>
        refine Triple.signal fun w h => ⟨⟨fun _ => rfl, rfl, rfl⟩, ?_⟩
        have hc : Claimed id ref creatorId w := by simpa using h
        have hp : payments ((machine cfg).log (.paymentReceived
          ⟨id, order.amountUsd, creatorId, some walletAddress, ref⟩) w).emitted =
            payments w.emitted ++ [⟨id, order.amountUsd, creatorId, some walletAddress, ref⟩] := by
          simp [machine, payments]
        refine ⟨?_, ?_, ?_⟩
        · rw [hp]
          intro p hmem
          rcases List.mem_append.1 hmem with hmem | hmem
          · exact hc.events.row p hmem
          · obtain rfl := List.mem_singleton.1 hmem
            exact hc.row
        · rw [hp, List.map_append]
          exact List.nodup_append.2 ⟨hc.events.orders, List.nodup_singleton _, by
            simpa using hc.order⟩
        · rw [hp, List.map_append]
          exact List.nodup_append.2 ⟨hc.events.refs, List.nodup_singleton _, by
            simpa using hc.ref⟩

/-- The query for a wallet finds one exactly when there is one. -/
theorem isSome_walletFindFirst (n : ℕ) (w : World) :
    ((reorder n (w.db.wallets.filter (·.creatorId = creatorId))).head?.map
      (·.walletAddress)).isSome = true ↔ HasWallet creatorId w := by
  have hp := reorder_perm n (w.db.wallets.filter (·.creatorId = creatorId))
  rw [Option.isSome_map, List.isSome_head?]
  constructor
  · intro h
    obtain ⟨wallet, hmem⟩ := List.exists_mem_of_ne_nil _ h
    obtain ⟨hmem, hc⟩ := List.mem_filter.1 (hp.mem_iff.1 hmem)
    exact ⟨wallet, hmem, of_decide_eq_true hc⟩
  · rintro ⟨wallet, hmem, hc⟩
    exact List.ne_nil_of_mem (hp.mem_iff.2 (List.mem_filter.2 ⟨hmem, decide_eq_true hc⟩))

theorem triple_handleGcashPayment : Triple (discipline cfg) i Events
    (handleGcashPayment id ref) (fun _ => Events) fun _ => Events := by
  have hread : ∀ {r : Request} {Q : r.Ans → World → Prop}, r.reads = true →
      (∀ w c a, Events w → (effect cfg r c w).1 = .ok a → Q a w) →
      Triple (discipline cfg) i Events (await r) Q fun _ => Events := fun hr h =>
    triple_read hr assertion_events (fun _ _ => trivial) Rel.refl
      (fun w c a hw _ _ ha => h w c a hw ha) fun _ _ _ hw _ _ => hw
  refine Triple.bind (R := fun _ => Events) (hread rfl fun _ _ _ h _ => h) fun existing => ?_
  cases existing with
  | some _ => exact Triple.ret fun _ h => h
  | none =>
    refine Triple.bind (R := fun (found : Option (Order × String)) w => Events w ∧
      ∀ p ∈ found, Known id p.2 w) (hread rfl ?_) fun found => ?_
    · intro w c a h ha
      obtain rfl := Except.ok.inj ha
      refine ⟨h, fun p hp => ?_⟩
      obtain ⟨o, ho, rfl⟩ := Option.map_eq_some_iff.1 hp
      exact ⟨h, o, ho, rfl⟩
    · cases found with
      | none => exact Triple.raise fun _ h => h.1
      | some found =>
        obtain ⟨order, creatorId⟩ := found
        refine (Triple.bind (P := Known id creatorId) (R := fun (wallet : Option String) w =>
          Known id creatorId w ∧ (wallet.isSome = true ↔ HasWallet creatorId w)) ?_ fun wallet =>
            triple_confirmPayment order wallet).mono (fun _ h => h.2 _ rfl) (fun _ _ h => h)
              fun _ _ h => h
        refine triple_read rfl assertion_known (fun _ _ => trivial) Rel.refl ?_
          fun _ _ _ h _ _ => h.events
        intro w c a h _ _ ha
        obtain rfl := Except.ok.inj ha
        exact ⟨h, isSome_walletFindFirst c.order w⟩

/-! ## The listener -/

/-- An update that leaves the payment of the order. -/
theorem Events.keepsPayment {w : World} (h : Events w) {o : Order}
    (hl : w.db.orders.lookup id = some o) {data : OrderUpdate} (hd : data.keepsPayment = true) :
    Events (w.setOrder id (data.applyTo o)) := by
  obtain ⟨href, hstatus⟩ : data.paymentRef = none ∧ data.status ≠ .paymentPending := by
    simpa [OrderUpdate.keepsPayment] using hd
  refine ⟨fun p hp => ?_, h.orders, h.refs⟩
  obtain ⟨o', ho', hs, hr, hw⟩ := h.row p hp
  by_cases hid : p.orderId = id
  · subst hid
    obtain rfl : o = o' := Option.some.inj (hl.symm.trans ho')
    exact ⟨_, w.setOrder_lookup p.orderId _, hstatus, by simpa [OrderUpdate.applyTo, href] using hr,
      hw⟩
  · exact ⟨o', (w.setOrder_lookup_ne _ hid).trans ho', hs, hr, hw⟩

theorem ofSettlement (id : String) :
    OfSettlement (fun _ p => p.Keeps (discipline cfg) i Events) id where
  toCompositional := Prog.Keeps.compositional (discipline cfg) i Events
  check hr := triple_read (reads_of_checks hr) assertion_events (fun _ _ => trivial) Rel.refl
    (fun _ _ _ h _ _ _ => h) fun _ _ _ h _ _ => h
  update {data} hd := by
    refine triple_orderUpdate assertion_events (fun _ _ => trivial) ?_ ?_
    · intro w o c h _ hl _
      have hkept := h.keepsPayment hl hd
      exact ⟨rel_setOrder hl data, fun _ => hkept, fun _ => hkept⟩
    · intro w c e h _ _
      exact ⟨Rel.refl w, h⟩
  completed payload _ := Triple.signal fun w h => by
    have hp : payments ((machine cfg).log (.settlementCompleted payload) w).emitted =
        payments w.emitted := by
      simp [machine, payments]
    exact ⟨⟨fun _ => rfl, rfl, rfl⟩, by rw [hp]; exact h.row, by rw [hp]; exact h.orders,
      by rw [hp]; exact h.refs⟩

/-- A transaction changes the network alone. -/
theorem keeps_sendTransaction (tx : Tx) :
    (await (.sendTransaction tx)).Keeps (discipline cfg) i Events := by
  have hkeep : ∀ w c, Events w → Rel w ((machine cfg).exec (.sendTransaction tx) c w).2 ∧
      Events ((machine cfg).exec (.sendTransaction tx) c w).2 := by
    intro w c h
    show Rel w (exec cfg (.sendTransaction tx) c w).2 ∧
      Events (exec cfg (.sendTransaction tx) c w).2
    rcases exec_sendTransaction_world cfg tx c w with hx | hx
    · rw [hx]
      exact ⟨Rel.refl w, h⟩
    · rw [hx]
      exact ⟨⟨fun _ => rfl, rfl, rfl⟩, h.row, h.orders, h.refs⟩
  exact Triple.ask assertion_events (fun _ _ => trivial) (fun w c h _ => (hkeep w c h).1)
    (fun w c _ h _ _ => (hkeep w c h).2) fun w c _ h _ _ => (hkeep w c h).2

theorem keeps_settlementCreate (data : SettlementCreate) :
    (await (.settlementCreate data)).Keeps (discipline cfg) i Events := by
  refine triple_settlementCreate assertion_events (fun _ _ => trivial) ?_ ?_
  · intro w c h _ _
    have hkept : Events (w.addSettlement data) := ⟨h.row, h.orders, h.refs⟩
    exact ⟨⟨fun _ => rfl, rfl, rfl⟩, fun _ => hkept, fun _ => hkept⟩
  · intro w c e h _ _
    exact ⟨Rel.refl w, h⟩

theorem triple_handlePaymentReceived (payload : PaymentReceivedPayload) :
    (handlePaymentReceived cfg payload).Keeps (discipline cfg) i Events :=
  (ofSettlement payload.orderId).handlePaymentReceived
    (fun tx _ _ => ⟨triple_read rfl assertion_events (fun _ _ => trivial) Rel.refl
      (fun _ _ _ h _ _ _ => h) fun _ _ _ h _ _ => h, keeps_sendTransaction tx⟩)
    fun data _ => keeps_settlementCreate data

theorem triple_method (call : PaymentCall) : Triple (discipline cfg) i Events call.method
    (fun _ => Events) fun _ => Events := by
  cases call with
  | webhook orderId paymentRef => exact triple_handleGcashPayment
  | simulate demoMode id =>
    cases demoMode with
    | false => exact Triple.raise fun _ h => h
    | true => exact triple_handleGcashPayment

theorem suspended_method (call : PaymentCall) : call.method.Suspended := by
  cases call with
  | webhook orderId paymentRef => trivial
  | simulate demoMode id => cases demoMode <;> trivial

theorem stable : Stable (discipline cfg) i (fun _ : Unit => Events) fun _ => Events where
  ret_inv h := h
  raise_inv h := h
  ret_rely _ _ he := he
  raise_rely _ _ he := he

instance (w : World) : (r : Request) → Decidable (Permitted w r)
  | .orderUpdate _ _ => inferInstanceAs (Decidable (_ → _ → _))
  | .productFindUnique _ | .userFindUnique _ | .orderFindFirst _ | .orderFindUnique _
  | .orderCreate _ | .orderFindMany _ | .orderFindWaiting _ | .walletFindFirst _
  | .walletFindAddress _ | .walletCreate _ _ _ | .collaboratorFindMany _
  | .settlementFindUnique _ | .settlementCreate _ | .getUsdcBalance _ | .getAccount
  | .simulateSettle _ | .simulateIsSettled _ | .sendTransaction _
  | .getTransaction _ _ => isTrue trivial

end Payments

/-- Overlapping calls and listeners whose steps meet `Permitted` : in every state, no two
`payment.received` events are of one order or of one payment reference. -/
theorem payment_events_nodup (cfg : StellarConfig) (calls : List PaymentCall)
    (received : List PaymentReceivedPayload) (w : World) (as : List (Action Choice Env))
    (hw : w.emitted = [])
    (hrun : Config.Along (machine cfg)
      (Config.Meets (fun w r _ => Payments.Permitted w r) fun _ _ => True) as
        ⟨paymentThreads cfg calls received, w⟩) :
    ((payments (Config.run (machine cfg) as
        ⟨paymentThreads cfg calls received, w⟩).world.emitted).map (·.orderId)).Nodup ∧
      ((payments (Config.run (machine cfg) as
        ⟨paymentThreads cfg calls received, w⟩).world.emitted).map (·.paymentRef)).Nodup := by
  have hevents : Payments.Events w := by
    refine ⟨?_, ?_, ?_⟩ <;> simp [hw, payments]
  have hsafe : Config.Safe (Payments.discipline cfg) (fun _ _ => Payments.Events)
      (fun _ _ => Payments.Events) ⟨paymentThreads cfg calls received, w⟩ := by
    refine ⟨hevents, fun i p hp => ?_⟩
    rcases List.mem_append.1 (List.mem_of_getElem? hp) with hmem | hmem
    · obtain ⟨call, -, rfl⟩ := List.mem_map.1 hmem
      exact ⟨Payments.suspended_method call, Payments.triple_method call w hevents⟩
    · obtain ⟨payload, -, rfl⟩ := List.mem_map.1 hmem
      exact ⟨trivial, Payments.triple_handlePaymentReceived payload w hevents⟩
  have hend := (hsafe.run (fun _ => Payments.stable) as hrun).1
  exact ⟨hend.orders, hend.refs⟩

/-- Two webhooks of one payment, one after the other, a simulated payment of another order,
and the first steps of the listener of the first event. -/
theorem payment_events_nodup_twice :
    ((payments (Config.run (machine demoConfig) (List.replicate 4 (.run 0 {}) ++
        List.replicate 3 (.run 3 {}) ++ List.replicate 4 (.run 1 {}) ++
          List.replicate 4 (.run 2 {}))
        ⟨paymentThreads demoConfig
          [.webhook "order" "ref", .webhook "order" "ref", .simulate true "other"]
            [demoPayload "order"],
          demoWorld [] [("order", demoOrder .paymentPending),
            ("other", demoOrder .paymentPending)]⟩).world.emitted).map (·.orderId)).Nodup :=
  (payment_events_nodup demoConfig
    [.webhook "order" "ref", .webhook "order" "ref", .simulate true "other"]
    [demoPayload "order"] _ _ rfl (by decide)).1

/-- Two webhooks of one payment whose statements alternate : both emit the event. -/
theorem duplicate_webhooks_emit_twice :
    (payments (Config.run (machine demoConfig)
        [.run 0 {}, .run 1 {}, .run 0 {}, .run 1 {}, .run 0 {}, .run 1 {}, .run 0 {}, .run 1 {}]
        ⟨paymentThreads demoConfig [.webhook "order" "ref", .webhook "order" "ref"] [],
          demoWorld [] [("order", demoOrder .paymentPending)]⟩).world.emitted).map
      (fun p => (p.orderId, p.paymentRef)) = [("order", "ref"), ("order", "ref")] := by
  decide

/-- Two payments of one order, one after the other, with the first statements of the first
event's listener in between : the order is in `settlementPending`, and the second payment
emits the event again. -/
theorem second_payment_emits_again :
    (payments (Config.run (machine demoConfig) (List.replicate 4 (.run 0 {}) ++
        List.replicate 2 (.run 2 {}) ++ List.replicate 4 (.run 1 {}))
        ⟨paymentThreads demoConfig [.webhook "order" "ref", .webhook "order" "other"]
            [demoPayload "order"],
          demoWorld [] [("order", demoOrder .paymentPending)]⟩).world.emitted).map
      (fun p => (p.orderId, p.paymentRef)) = [("order", "ref"), ("order", "other")] := by
  decide

end Kreav
