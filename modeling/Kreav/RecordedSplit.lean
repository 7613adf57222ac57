import Kreav.OrderChain
import Kreav.SettlementRows
import Kreav.SettlementSteps

/-!
# The recorded split and the paid split

Any number of payments and recovery passes, interleaved with product updates. The
contract pays what the collaborators were due when the transaction was built (`Tx.paid`),
and each recording path computes the rows from a list of collaborators of its own.

`Due` is the condition on the steps : all queries for the collaborators of the order's
product make the same amounts due to the same addresses. Under it the rows created for the
order are what the contract paid (`recorded_rows_paid`). `Agreed` is the invariant, on the
transactions that wait or were applied.
-/

open Async Prog Apportion

namespace Kreav

/-! ## Amounts due, paid and recorded -/

/-- What the contract pays each recipient when it carries the transaction out. -/
def Tx.paid (tx : Tx) : List (String × ℤ) :=
  match feeAndPool tx.totalAmount with
  | .error _ => []
  | .ok (_, creatorPool) =>
    match calculateCreatorAmounts tx.recipients creatorPool with
    | none => []
    | some amounts => (tx.recipients.zip amounts).map fun p => (p.1.address, p.2.val)

/-- The creators' amounts in the rows to create, with seven decimals. -/
def SettlementCreate.creatorAmounts (data : SettlementCreate) : List (String × ℤ) :=
  (data.recipients.filter (·.recipientType = .creator)).map fun r => (r.walletAddress, r.amount)

/-- What the collaborators are due of an amount, in base units. -/
def payout (amountUsd : Usd) (collaborators : List Collaborator) : List (String × ℤ) :=
  (collaborators.map (·.walletAddress)).zip
    (apportion (95000 * amountUsd.cents) 10000 (collaborators.map (·.revenuePercentage)))

theorem creatorAmounts_settlementRows (orderId : String) (a amountUsd : Usd) (txHash : TxHash)
    (cs : List Collaborator) :
    (SettlementCreate.mk orderId a txHash
      (settlementRows amountUsd.toBase (recipientInputs cs) cs)).creatorAmounts =
        (payout amountUsd cs).map fun p => (p.1, ofBase p.2) := by
  have hfilter := List.filter_eq_self.2 fun r h =>
    decide_eq_true (creatorRows_type (recipientInputs cs)
      (creatorAmountsBase amountUsd.toBase (recipientInputs cs)) cs r h)
  rw [SettlementCreate.creatorAmounts, settlementRows, List.filter_cons_of_neg (by simp), hfilter,
    creatorRows_pairs, creatorAmountsBase_toBase, recipientInputs_address, payout,
    List.zip_map_right]
  rfl

theorem Tx.paid_eq {tx : Tx} (split : Split tx.totalAmount tx.recipients) :
    tx.paid = (tx.recipients.map (·.address)).zip
      (apportion (creatorPoolBase tx.totalAmount.val) 10000
        (tx.recipients.map (·.shareBps.val))) := by
  obtain ⟨hf, hp⟩ := feeAndPool_eq_ok split.fee_eq
  have hpool : split.creatorPool.val = creatorPoolBase tx.totalAmount.val := by
    rw [hp, hf]
    rfl
  have hval := calculateCreatorAmounts_val split.amounts_eq
  rw [hpool] at hval
  simp only [Tx.paid, split.fee_eq, split.amounts_eq]
  rw [← hval, List.zip_map]
  rfl

/-- A transaction built for collaborators pays what they are due. -/
theorem paid_buildSettle {cfg : StellarConfig} {sequence now : ℕ} {orderRef : String}
    {amountUsd : Usd} {cs : List Collaborator} {tx : Tx}
    (h : buildSettle cfg sequence now orderRef amountUsd.toBase (recipientInputs cs) = some tx)
    (split : Split tx.totalAmount tx.recipients) : tx.paid = payout amountUsd cs := by
  obtain ⟨-, -, ht, ha, hs⟩ := buildSettle_eq_some h
  rw [Tx.paid_eq split, ht, ha, hs, creatorPoolBase_toBase, recipientInputs_address,
    recipientInputs_shareBps, payout]

/-! ## The discipline -/

namespace Records

/-- What the transactions of the order pay if they are applied, or paid. -/
structure Pays (id : String) (due : List (String × ℤ)) (c : Chain) : Prop where
  pending : ∀ tx, .settle tx ∈ c.mempool → tx.orderRef = id →
    ∀ _ : Split tx.totalAmount tx.recipients, tx.paid.Perm due
  executed : ∀ tx, (tx, true) ∈ c.results → tx.orderRef = id → tx.paid.Perm due

/-- The order as it stays, and its transactions. -/
structure Agreed (id : String) (o : Order) (due : List (String × ℤ)) (w : World) : Prop where
  order : ∀ o', w.db.orders.lookup id = some o' →
    o'.productId = o.productId ∧ o'.amountUsd = o.amountUsd
  pays : Pays id due w.chain

/-- The condition on the steps of a run. -/
def Due (o : Order) (due : List (String × ℤ)) (w : World) : Request → Choice → Prop
  | .collaboratorFindMany productId, c => productId = o.productId → c.fault = .none →
    (payout o.amountUsd (reorder c.order (w.db.activeCollaborators productId))).Perm due
  | _, _ => True

instance (o : Order) (due : List (String × ℤ)) (w : World) : (r : Request) → (c : Choice) →
    Decidable (Due o due w r c)
  | .collaboratorFindMany _, _ => inferInstanceAs (Decidable (_ → _ → _))
  | .productFindUnique _, _ | .userFindUnique _, _ | .orderCreate _, _
  | .orderFindWaiting _, _ | .walletFindAddress _, _ | .walletCreate _ _ _, _
  | .orderFindFirst _, _ | .orderFindUnique _, _ | .orderUpdate _ _, _ | .orderFindMany _, _
  | .walletFindFirst _, _ | .settlementFindUnique _, _ | .settlementCreate _, _
  | .getUsdcBalance _, _ | .getAccount, _ | .simulateSettle _, _ | .simulateIsSettled _, _
  | .sendTransaction _, _ | .getTransaction _ _, _ => isTrue trivial

/-- The rows to create for the order are what is due. -/
def Faithful (id : String) (due : List (String × ℤ)) : Request → Prop
  | .settlementCreate data => data.orderId = id → data.creatorAmounts.Perm due
  | _ => True

variable {cfg : StellarConfig} {id : String} {o : Order} {due : List (String × ℤ)}

theorem Pays.closes {fails : Bool} {c c' : Chain} (h : Pays id due c)
    (hc : c.Closes cfg fails c') : Pays id due c' := by
  cases hc with
  | idle _ => exact h
  | other hm => exact ⟨fun tx ht => h.pending tx (by simp [hm, ht]), h.executed⟩
  | again hm _ => exact ⟨fun tx ht => h.pending tx (by simp [hm, ht]), h.executed⟩
  | failed hm _ _ =>
    exact ⟨fun tx ht => h.pending tx (by simp [hm, ht]), fun tx ht => h.executed tx (by
      simpa using ht)⟩
  | @settled tx rest contract hm _ _ hs =>
    refine ⟨fun tx' ht => h.pending tx' (by simp [hm, ht]), fun tx' ht href => ?_⟩
    rcases List.mem_cons.1 ht with he | ht
    · obtain rfl : tx' = tx := congrArg Prod.fst he
      obtain ⟨-, -, split, -⟩ := settle_eq_ok hs
      exact h.pending tx' (by simp [hm]) href split
    · exact h.executed tx' ht href

/-- The network keeps what the transactions of the order pay. -/
theorem Pays.step {step : NetworkStep} {c : Chain} (h : Pays id due c)
    (hf : Foreign id (.network step)) : Pays id due (c.step cfg step) := by
  cases step with
  | close fails => exact h.closes (c.close_closes cfg fails)
  | drop n => exact ⟨fun tx ht => h.pending tx (List.mem_of_mem_take ht), h.executed⟩
  | accounts ledger trustline => exact ⟨h.pending, h.executed⟩
  | submit t =>
    show Pays id due (c.submit t).2
    unfold Chain.submit
    split
    · exact h
    split
    · refine ⟨fun tx ht href => ?_, h.executed⟩
      rcases List.mem_append.1 ht with ht | ht
      · exact h.pending tx ht href
      · obtain rfl : .settle tx = t := List.mem_singleton.1 ht
        exact absurd href hf
    · exact h

theorem Pays.accepted {tx : Tx} {c : Chain} (h : Pays id due c)
    (htx : tx.orderRef = id → ∀ _ : Split tx.totalAmount tx.recipients, tx.paid.Perm due) :
    Pays id due (c.accepted tx) := by
  refine ⟨fun tx' ht href => ?_, h.executed⟩
  simp only [Chain.accepted] at ht
  split at ht
  · exact h.pending tx' ht href
  · rcases List.mem_append.1 ht with ht | ht
    · exact h.pending tx' ht href
    · obtain rfl : tx' = tx := by simpa using ht
      exact htx href

theorem Agreed.env {w : World} {e : Env} (h : Agreed id o due w) (he : Foreign id e) :
    Agreed id o due ((machine cfg).env e w) := by
  cases e with
  | network step => exact ⟨h.order, h.pays.step he⟩
  | updateProduct productId rows => exact ⟨h.order, h.pays⟩

theorem Agreed.setOrder {w : World} (h : Agreed id o due w) {id' : String} {o' : Order}
    (ho : w.db.orders.lookup id' = some o') (data : OrderUpdate) :
    Agreed id o due (w.setOrder id' (data.applyTo o')) := by
  refine ⟨fun o'' hl => ?_, h.pays⟩
  by_cases hid : id = id'
  · subst hid
    rw [w.setOrder_lookup] at hl
    obtain rfl := Option.some.inj hl
    exact h.order o' ho
  · rw [w.setOrder_lookup_ne _ hid] at hl
    exact h.order o'' hl

variable (cfg id o due)

/-- Payments and recovery passes whose queries agree on what is due. -/
def discipline : Discipline (machine cfg) where
  inv := Agreed id o due
  rely _ _ _ := True
  guar _ _ _ := True
  allowed := Due o due
  outside _ e := Foreign id e
  duty _ r := Faithful id due r
  rely_refl _ _ := trivial
  rely_trans _ _ := trivial
  guar_rely _ _ := trivial
  outside_inv h he := h.env he
  outside_rely _ _ := trivial

/-- The program keeps `Agreed` and creates faithful rows only. -/
abbrev Keeps (i : ℕ) (α : Type) (p : Method α) : Prop :=
  p.Keeps (discipline cfg id o due) i (Agreed id o due)

variable {cfg id o due} {i : ℕ}

theorem assertion : (discipline cfg id o due).Assertion i (Agreed id o due) where
  inv h := h
  rely _ _ h := h

variable (cfg id o due i) in
theorem ofOrder (id' : String) : OfOrder (Keeps cfg id o due i) id' where
  toCompositional := Prog.Keeps.compositional (discipline cfg id o due) i (Agreed id o due)
  read {r} hr := triple_read hr assertion (fun _ _ => by cases r <;> trivial)
    (fun _ => trivial) (fun _ _ _ h _ _ _ => h) fun _ _ _ h _ _ => h
  update data := by
    refine triple_orderUpdate assertion (fun _ _ => trivial) ?_ ?_
    · intro w o' c h _ ho _
      exact ⟨trivial, fun _ => h.setOrder ho data, fun _ => h.setOrder ho data⟩
    · intro w c e h _ _
      exact ⟨trivial, h⟩
  signal _ _ := Triple.signal fun _ h => ⟨trivial, h.order, h.pays⟩

theorem stable : Stable (discipline cfg id o due) i (fun _ : Unit => Agreed id o due)
    fun _ => Agreed id o due where
  ret_inv h := h
  raise_inv h := h
  ret_rely _ _ h := h
  raise_rely _ _ h := h

theorem keeps_sendTransaction {tx : Tx}
    (htx : tx.orderRef = id → ∀ _ : Split tx.totalAmount tx.recipients, tx.paid.Perm due) :
    Keeps cfg id o due i _ (await (.sendTransaction tx)) := by
  have hkeep : ∀ w c, Agreed id o due w →
      Agreed id o due ((machine cfg).exec (.sendTransaction tx) c w).2 := by
    intro w c h
    show Agreed id o due (exec cfg (.sendTransaction tx) c w).2
    rcases exec_sendTransaction_world cfg tx c w with hx | hx
    · rw [hx]
      exact h
    · rw [hx]
      exact ⟨h.order, h.pays.accepted htx⟩
  exact Triple.ask assertion (fun _ _ => trivial) (fun _ _ _ _ => trivial)
    (fun w c _ h _ _ => hkeep w c h) fun w c _ h _ _ => hkeep w c h

theorem keeps_settlementCreate {data : SettlementCreate} (hdata : Faithful id due
    (.settlementCreate data)) : Keeps cfg id o due i _ (await (.settlementCreate data)) := by
  refine triple_settlementCreate assertion (fun _ _ => hdata) ?_ ?_
  · intro w c h _ _
    exact ⟨trivial, fun _ => ⟨h.order, h.pays⟩, fun _ => ⟨h.order, h.pays⟩⟩
  · intro w c e h _ _
    exact ⟨trivial, h⟩

/-! ## The methods -/

/-- Rows for the order are computed from its own amount and from what is due. -/
theorem faithful_settlementRows {orderId : String} {a : Usd} {txHash : TxHash}
    {cs : List Collaborator} (hdue : ∀ p ∈ due, ofBase p.2 = p.2)
    (hcs : orderId = id → a = o.amountUsd ∧ (payout o.amountUsd cs).Perm due) :
    Faithful id due (.settlementCreate ⟨orderId, a, txHash,
      settlementRows a.toBase (recipientInputs cs) cs⟩) := by
  intro hid
  obtain ⟨rfl, hp⟩ := hcs hid
  rw [creatorAmounts_settlementRows]
  have hmap : due.map (fun p => (p.1, ofBase p.2)) = due := by
    conv_rhs => rw [← List.map_id due]
    exact List.map_congr_left fun p hp => Prod.ext rfl (hdue p hp)
  exact hmap ▸ hp.map _

/-- An order that is read has the product and the amount of the order. -/
theorem triple_orderFindUnique (orderId : String) :
    Triple (discipline cfg id o due) i (Agreed id o due) (await (.orderFindUnique orderId))
      (fun found w => Agreed id o due w ∧ ∀ o' creatorId, found = some (o', creatorId) →
        orderId = id → o'.productId = o.productId ∧ o'.amountUsd = o.amountUsd)
      fun _ => Agreed id o due := by
  refine triple_read rfl assertion (fun _ _ => trivial) (fun _ => trivial) ?_
    fun _ _ _ h _ _ => h
  intro w c a h _ _ ha
  obtain rfl := Except.ok.inj ha
  refine ⟨h, ?_⟩
  rintro o' creatorId hfound rfl
  obtain ⟨o'', ho, he⟩ := Option.map_eq_some_iff.1 hfound
  obtain rfl : o'' = o' := congrArg Prod.fst he
  exact h.order o'' ho

/-- The collaborators of the order's product make the same amounts due each time. -/
theorem triple_collaboratorFindMany (productId : String) :
    Triple (discipline cfg id o due) i (Agreed id o due) (await (.collaboratorFindMany productId))
      (fun cs w => Agreed id o due w ∧
        (productId = o.productId → (payout o.amountUsd cs).Perm due))
      fun _ => Agreed id o due := by
  refine triple_read rfl assertion (fun _ _ => trivial) (fun _ => trivial) ?_
    fun _ _ _ h _ _ => h
  intro w c a h hc hf ha
  obtain rfl := Except.ok.inj ha
  exact ⟨h, fun hp => hc hp hf⟩

variable (hdue : ∀ p ∈ due, ofBase p.2 = p.2)

include hdue

theorem keeps_recordRecoveredSettlement (orderId : String) (txHash : TxHash) :
    Keeps cfg id o due i _ (recordRecoveredSettlement orderId txHash) := by
  refine Triple.bind (triple_orderFindUnique orderId) fun found => ?_
  cases found with
  | none => exact Triple.ret fun _ h => h.1
  | some found =>
    obtain ⟨o', creatorId⟩ := found
    intro w hw
    obtain ⟨ha, ho⟩ := hw
    refine (Triple.bind (triple_collaboratorFindMany o'.productId) fun cs => ?_) w ha
    intro w' hw'
    obtain ⟨ha', hcs⟩ := hw'
    have hK := ofOrder cfg id o due i orderId
    split
    · exact hK.update _ w' ha'
    · refine hK.settlement.recordSettlementSuccess (keeps_settlementCreate
        (faithful_settlementRows (o := o) hdue fun hid => ?_)) w' ha'
      obtain ⟨hp, hamt⟩ := ho o' creatorId rfl hid
      exact ⟨hamt, hcs hp⟩

theorem keeps_settlePending {payload : PaymentReceivedPayload} {order : Order}
    (hpay : payload.orderId = id → payload.amountUsd = o.amountUsd)
    (horder : payload.orderId = id → order.productId = o.productId) :
    Keeps cfg id o due i _ (settlePending cfg payload order) := by
  have hK := ofOrder cfg id o due i payload.orderId
  refine Triple.bind (triple_collaboratorFindMany order.productId) fun cs => ?_
  intro w hw
  obtain ⟨ha, hcs⟩ := hw
  split
  · exact hK.update _ w ha
  split
  · exact hK.update _ w ha
  split
  · exact hK.update _ w ha
  have hpd : payload.orderId = id →
      payload.amountUsd = o.amountUsd ∧ (payout o.amountUsd cs).Perm due :=
    fun hid => ⟨hpay hid, hcs (horder hid)⟩
  refine hK.settlement.settleCollaborators order
    (fun {sequence now tx} hb => ⟨hK.read rfl, keeps_sendTransaction ?_⟩)
    (fun _ => keeps_settlementCreate (faithful_settlementRows hdue hpd))
    (fun _ => keeps_recordRecoveredSettlement hdue _ _) w ha
  intro href split
  obtain ⟨hamt, hperm⟩ := hpd ((buildSettle_eq_some hb).2.1.symm.trans href)
  rw [paid_buildSettle hb split, hamt]
  exact hperm

theorem keeps_handlePaymentReceived {payload : PaymentReceivedPayload}
    (hpay : payload.orderId = id → payload.amountUsd = o.amountUsd) :
    Keeps cfg id o due i _ (handlePaymentReceived cfg payload) := by
  have hK := ofOrder cfg id o due i payload.orderId
  refine hK.tryCatch ?_ fun err => hK.settlement.handleSettlementError err
  refine Triple.bind (triple_orderFindUnique payload.orderId) fun found => ?_
  cases found with
  | none => exact Triple.ret fun _ h => h.1
  | some found =>
    obtain ⟨order, creatorId⟩ := found
    intro w hw
    obtain ⟨ha, ho⟩ := hw
    dsimp only
    split
    · exact ha
    · exact hK.bind (hK.update _) (fun _ => keeps_settlePending hdue hpay fun hid =>
        (ho order creatorId rfl hid).1) w ha

theorem keeps_recoverAll : ∀ l : List StuckOrder, Keeps cfg id o due i _ (recoverAll l)
  | [] => Triple.ret fun _ h => h
  | s :: rest => by
    have hK := ofOrder cfg id o due i s.id
    refine hK.bind (hK.tryCatch (hK.recoverOrder fun _ =>
      keeps_recordRecoveredSettlement hdue _ _) fun _ => hK.ret _) fun recovered => ?_
    exact hK.bind (keeps_recoverAll rest) fun _ => hK.ret _

theorem keeps_onApplicationBootstrap : Keeps cfg id o due i _ onApplicationBootstrap :=
  (ofOrder cfg id o due i id).bind ((ofOrder cfg id o due i id).read rfl) fun _ =>
    keeps_recoverAll hdue _

end Records

/-- What runs in the backend : the handler of an event, or a recovery pass. -/
inductive BackendCall
  | payment (payload : PaymentReceivedPayload)
  | bootstrap

/-- The method of a call. -/
def BackendCall.method (cfg : StellarConfig) : BackendCall → Method Unit
  | .payment payload => handlePaymentReceived cfg payload
  | .bootstrap => do
    let _ ← onApplicationBootstrap
    return ()

/-- Payments and recovery passes that start before the order has a transaction. When all
queries for the collaborators of its product agree on what is due, the creators' amounts in
each settlement to create are what its transaction paid. -/
theorem recorded_rows_paid (cfg : StellarConfig) (id : String) (o : Order)
    (due : List (String × ℤ)) (calls : List BackendCall) (w : World)
    (as as' : List (Action Choice Env)) (ho : w.db.orders.lookup id = some o)
    (hcalls : ∀ payload, .payment payload ∈ calls → payload.orderId = id →
      payload.amountUsd = o.amountUsd)
    (hfresh : ∀ tx, .settle tx ∈ w.chain.mempool ∨ (tx, true) ∈ w.chain.results →
      tx.orderRef ≠ id)
    (hdue : ∀ p ∈ due, ofBase p.2 = p.2)
    (hrun : Config.Along (machine cfg)
      (Config.Meets (Records.Due o due) fun _ => Foreign id) (as ++ as')
        ⟨calls.map (·.method cfg), w⟩)
    (i : ℕ) (data : SettlementCreate) (hid : data.orderId = id)
    (hwait : (Config.run (machine cfg) as ⟨calls.map (·.method cfg), w⟩).Waits i
      (.settlementCreate data))
    (tx : Tx) (href : tx.orderRef = id)
    (hx : (Config.run (machine cfg) (as ++ as')
      ⟨calls.map (·.method cfg), w⟩).world.chain.Executed tx) :
    data.creatorAmounts.Perm tx.paid := by
  have hagreed : Records.Agreed id o due w := by
    refine ⟨fun o' hl => ?_, fun tx ht href => absurd href (hfresh tx (Or.inl ht)),
      fun tx ht href => absurd href (hfresh tx (Or.inr ht))⟩
    obtain rfl : o = o' := Option.some.inj (ho.symm.trans hl)
    exact ⟨rfl, rfl⟩
  have hsafe : Config.Safe (Records.discipline cfg id o due)
      (fun _ _ => Records.Agreed id o due) (fun _ _ => Records.Agreed id o due)
        ⟨calls.map (·.method cfg), w⟩ := by
    refine ⟨hagreed, fun i p hp => ?_⟩
    obtain ⟨call, hmem, rfl⟩ := List.mem_map.1 (List.mem_of_getElem? hp)
    cases call with
    | payment payload =>
      exact ⟨trivial, Records.keeps_handlePaymentReceived hdue (hcalls payload hmem) w hagreed⟩
    | bootstrap =>
      exact ⟨trivial, (Records.ofOrder cfg id o due i id).bind
        (Records.keeps_onApplicationBootstrap hdue)
          (fun _ => (Records.ofOrder cfg id o due i id).ret _) w hagreed⟩
  obtain ⟨hrun1, hrun2⟩ := Config.along_append.1 hrun
  have hmid := hsafe.run (fun _ => Records.stable) as hrun1
  have hend := hmid.run (fun _ => Records.stable) as' hrun2
  rw [Config.run_append] at hx
  exact (hmid.duty hwait hid).trans
    (hend.1.pays.executed tx (Chain.mem_results hx) href).symm

/-- A payment of an order of two equal collaborators that stops when the ledger has its
transaction, then the steps `between`, then a recovery pass that stops before its first
write. It reads the collaborators in the order `rows`. -/
def demoRecovery (between : List (Action Choice Env)) (rows : ℕ) : List (Action Choice Env) :=
  List.replicate 11 (.run 0 {}) ++ .env (.network (.close false)) :: between ++
    List.replicate 4 (.run 1 {}) ++ [.run 1 { order := rows }]

/-- The transaction of that payment. -/
def demoTx : Tx :=
  ⟨1, 180, "order", i128 100000000, [⟨"A", i128 5000⟩, ⟨"B", i128 5000⟩]⟩

/-- What the recovery pass is about to create, for the collaborators it read. -/
def demoRecovered (collaborators : List Collaborator) : SettlementCreate :=
  let amountUsd := (demoPayload "order").amountUsd
  ⟨"order", amountUsd, .placeholder "unknown-order",
    settlementRows amountUsd.toBase (recipientInputs collaborators) collaborators⟩

/-- The recovery pass reads the same collaborators in the other order. -/
theorem recorded_rows_paid_reordered :
    (demoRecovered [demoCollaborator "B" 5000, demoCollaborator "A" 5000]).creatorAmounts.Perm
      demoTx.paid :=
  recorded_rows_paid demoConfig "order" (demoOrder .paymentReceived)
    [("A", 47500000), ("B", 47500000)] [.payment (demoPayload "order"), .bootstrap]
    (demoWorld [demoCollaborator "A" 5000, demoCollaborator "B" 5000]
      [("order", demoOrder .paymentReceived)]) (demoRecovery [] 1) [] (by decide)
    (by rintro payload hp -
        obtain rfl : payload = demoPayload "order" := by simpa using hp
        rfl)
    (by simp [demoWorld]) (by decide) (by decide) 1 _ rfl (Config.waits_iff.2 (by decide))
    demoTx rfl (by decide)

/-- The owner replaces the collaborators between the transaction and the recovery pass : the
rows name a collaborator whom the contract did not pay. -/
theorem updated_product_changes_rows :
    ∃ s, s = Config.run (machine demoConfig)
        (demoRecovery [.env (.updateProduct "product" [demoCollaborator "C" 10000])] 0)
        ⟨[.payment (demoPayload "order"), .bootstrap].map (BackendCall.method demoConfig),
          demoWorld [demoCollaborator "A" 5000, demoCollaborator "B" 5000]
            [("order", demoOrder .paymentReceived)]⟩ ∧
      s.world.chain.Executed demoTx ∧ demoTx.paid = [("A", 47500000), ("B", 47500000)] ∧
      s.Waits 1 (.settlementCreate (demoRecovered [demoCollaborator "C" 10000])) ∧
      (demoRecovered [demoCollaborator "C" 10000]).creatorAmounts = [("C", 95000000)] :=
  ⟨_, rfl, by decide, by decide, Config.waits_iff.2 (by decide), by decide⟩

end Kreav
