import Kreav.BackendSteps
import Kreav.StartupRecovery

/-!
# Which requests the settlement methods make

The checks before a settlement only read (`Reads`). The methods that record or recover the
settlement of an order write no other order's rows and send nothing to the network
(`Touches`).

A property of programs that sequencing keeps and that holds of a method's requests holds of
the method (`OfChecks`, `OfSettlement`).
-/

open Async Prog

namespace Kreav

/-- The status of an order. -/
def statusOf (w : World) (id : String) : Option OrderStatus :=
  (w.db.orders.lookup id).map (·.status)

@[simp] theorem statusOf_setOrder (w : World) (id : String) (o : Order) :
    statusOf (w.setOrder id o) id = some o.status := by
  simp [statusOf]

/-- An update writes its status or changes nothing. -/
theorem statusOf_orderUpdate (cfg : StellarConfig) (id : String) (data : OrderUpdate) (c : Choice)
    (w : World) : (exec cfg (.orderUpdate id data) c w).2 = w ∨
      (statusOf w id).isSome = true ∧
        statusOf (exec cfg (.orderUpdate id data) c w).2 id = some data.status := by
  rcases exec_orderUpdate cfg id data c w with ⟨o, -, ho, -, hx⟩ | ⟨o, -, ho, -, hx⟩ | ⟨e, hx, -⟩
  · exact Or.inr (by simp [hx, statusOf, ho, OrderUpdate.applyTo])
  · exact Or.inr (by simp [hx, statusOf, ho, OrderUpdate.applyTo])
  · exact Or.inl (by rw [hx])

/-- An update that is answered wrote its status. -/
theorem statusOf_orderUpdate_ok (cfg : StellarConfig) {id : String} {data : OrderUpdate}
    {c : Choice} {w : World} (h : (exec cfg (.orderUpdate id data) c w).1 = .ok ()) :
    statusOf (exec cfg (.orderUpdate id data) c w).2 id = some data.status := by
  rcases exec_orderUpdate cfg id data c w with ⟨o, -, -, -, hx⟩ | ⟨o, -, -, -, hx⟩ | ⟨e, hx, -⟩
  · simp [hx, OrderUpdate.applyTo]
  · rw [hx] at h
    cases h
  · rw [hx] at h
    cases h

/-- An update without a payment reference is applied unless it is lost. -/
theorem statusOf_orderUpdate_applied (cfg : StellarConfig) {id : String} {data : OrderUpdate}
    (hp : data.paymentRef = none) {c : Choice} (hc : c.fault ≠ .lost) {w : World}
    (hs : (statusOf w id).isSome = true) :
    statusOf (exec cfg (.orderUpdate id data) c w).2 id = some data.status ∧
      (c.fault = .none → (exec cfg (.orderUpdate id data) c w).1 = .ok ()) := by
  obtain ⟨o, ho⟩ : ∃ o, w.db.orders.lookup id = some o := by
    rw [statusOf, Option.isSome_map, Option.isSome_iff_exists] at hs
    exact hs
  have he : effect cfg (.orderUpdate id data) c w = (.ok (), w.setOrder id (data.applyTo o)) := by
    simp only [effect, Database.updateOrder, ho, hp]
    rfl
  have hstatus : statusOf (effect cfg (.orderUpdate id data) c w).2 id = some data.status := by
    simp [he, OrderUpdate.applyTo]
  cases hf : c.fault with
  | none =>
    rw [exec_of_fault_none cfg w hf]
    exact ⟨hstatus, fun _ => by rw [he]⟩
  | lost => exact absurd hf hc
  | unacked =>
    rw [exec, hf]
    refine ⟨hstatus, fun h => ?_⟩
    cases h

theorem exists_order_of_statusOf {w : World} {id : String} {s : OrderStatus}
    (h : statusOf w id = some s) : ∃ o, w.db.orders.lookup id = some o := by
  obtain ⟨o, ho, -⟩ := Option.map_eq_some_iff.1 h
  exact ⟨o, ho⟩

/-- The order can be settled. -/
def Settleable (w : World) (id : String) : Prop :=
  ((statusOf w id).any fun s => canTransition s .settlementPending) = true

instance (w : World) (id : String) : Decidable (Settleable w id) :=
  inferInstanceAs (Decidable (_ = true))

theorem Settleable.exists_order {w : World} {id : String} (h : Settleable w id) :
    ∃ o, w.db.orders.lookup id = some o := by
  obtain ⟨s, hs, -⟩ := (Option.any_eq_true _ _).1 h
  exact exists_order_of_statusOf hs

/-- Amounts of a `Decimal(18,2)` are in the range of the contract. -/
theorem toBase_le_maxTotal (a : Usd) : a.toBase ≤ maxTotal := by
  have hlt := a.lt
  rw [a.toBase_eq, maxTotal]
  omega

/-- The requests that read. -/
abbrev Reads (r : Request) : Prop :=
  r.reads = true

/-- The requests that write at most the rows of one order and send nothing to the network. -/
def Touches (id : String) : Request → Prop
  | .orderCreate _ => False
  | .orderUpdate id' _ => id' = id
  | .walletCreate _ _ _ => False
  | .settlementCreate data => data.orderId = id
  | .sendTransaction _ => False
  | _ => True

theorem Reads.touches {r : Request} (h : Reads r) (id : String) : Touches id r := by
  cases r with
  | orderCreate data => cases h
  | orderUpdate id' data => cases h
  | walletCreate creatorId walletAddress provider => cases h
  | settlementCreate data => cases h
  | sendTransaction tx => cases h
  | _ => trivial

/-- What is recorded of an order, what the recording reads, and the network are the same. -/
structure SameOrder (id : String) (w w' : World) : Prop where
  order : w'.db.orders.lookup id = w.db.orders.lookup id
  settlement : w'.db.settlements.lookup id = w.db.settlements.lookup id
  collaborators : w'.db.collaborators = w.db.collaborators
  chain : w'.chain = w.chain

theorem SameOrder.refl (id : String) (w : World) : SameOrder id w w :=
  ⟨rfl, rfl, rfl, rfl⟩

theorem sameOrder_setOrder {id id' : String} (h : id ≠ id') (w : World) (o : Order) :
    SameOrder id w (w.setOrder id' o) :=
  ⟨w.setOrder_lookup_ne o h, rfl, rfl, rfl⟩

theorem sameOrder_addSettlement {id : String} (w : World) (data : SettlementCreate)
    (h : id ≠ data.orderId) : SameOrder id w (w.addSettlement data) :=
  ⟨rfl, AList.lookup_insert_ne h, rfl, rfl⟩

/-- A request that touches another order leaves this one as it is. -/
theorem exec_touches (cfg : StellarConfig) {id id' : String} (hne : id ≠ id') {r : Request}
    (hr : Touches id' r) (c : Choice) (w : World) : SameOrder id w (exec cfg r c w).2 := by
  by_cases hread : r.reads = true
  · rw [exec_reads cfg hread]
    exact .refl id w
  cases r with
  | orderUpdate id'' data =>
    obtain rfl : id'' = id' := hr
    rcases exec_orderUpdate cfg id'' data c w with ⟨o, -, -, -, hx⟩ | ⟨o, -, -, -, hx⟩ |
      ⟨e, hx, -⟩
    · rw [hx]
      exact sameOrder_setOrder hne w _
    · rw [hx]
      exact sameOrder_setOrder hne w _
    · rw [hx]
      exact .refl id w
  | settlementCreate data =>
    obtain rfl : data.orderId = id' := hr
    rcases exec_settlementCreate cfg data c w with ⟨-, -, hx⟩ | ⟨-, -, hx⟩ | ⟨e, hx, -⟩
    · rw [hx]
      exact sameOrder_addSettlement w data hne
    · rw [hx]
      exact sameOrder_addSettlement w data hne
    · rw [hx]
      exact .refl id w
  | orderCreate data => exact hr.elim
  | walletCreate creatorId walletAddress provider => exact hr.elim
  | sendTransaction tx => exact hr.elim
  | _ => exact absurd rfl hread

/-! ## The transaction of an attempt -/

/-- The recipients of a transaction are the inputs it was built from. -/
theorem toScVal_mapM {cfg : StellarConfig} : ∀ {rs : List RecipientInput}
    {recipients : List (Recipient String)}, rs.mapM (·.toScVal cfg) = some recipients →
      recipients.map (·.address) = rs.map (·.address) ∧
        recipients.map (·.shareBps.val) = rs.map (·.shareBps)
  | [], recipients, h => by
    obtain rfl : recipients = [] := by simpa using h.symm
    exact ⟨rfl, rfl⟩
  | r :: rs, recipients, h => by
    rw [List.mapM_cons] at h
    obtain ⟨x, hx, h⟩ := Option.bind_eq_some_iff.1 h
    obtain ⟨xs, hxs, h⟩ := Option.bind_eq_some_iff.1 h
    obtain rfl : x :: xs = recipients := Option.some.inj h
    obtain ⟨ih1, ih2⟩ := toScVal_mapM hxs
    unfold RecipientInput.toScVal at hx
    split at hx
    · obtain ⟨s, hs, rfl⟩ := Option.map_eq_some_iff.1 hx
      simp [ih1, ih2, CheckedInt.Bounded.ofInt?_eq_some.1 hs]
    · cases hx

/-- Inputs that the SDK takes make a transaction. -/
theorem toScVal_mapM_complete {cfg : StellarConfig} : ∀ {rs : List RecipientInput},
    (∀ r ∈ rs, cfg.isAddress r.address = true ∧ 0 < r.shareBps ∧ r.shareBps ≤ 10000) →
      ∃ recipients, rs.mapM (·.toScVal cfg) = some recipients
  | [], _ => ⟨[], rfl⟩
  | r :: rs, h => by
    obtain ⟨ha, h0, h1⟩ := h r (by simp)
    obtain ⟨s, hs, -⟩ : ∃ s : I128, CheckedInt.Bounded.ofInt? r.shareBps = some s ∧
        s.val = r.shareBps := CheckedInt.Bounded.ofInt?_of_mem (by omega)
    obtain ⟨recipients, hr⟩ := toScVal_mapM_complete fun x hx => h x (List.mem_cons_of_mem r hx)
    have hone : r.toScVal cfg = some ⟨r.address, s⟩ := by
      simp [RecipientInput.toScVal, ha, hs]
    exact ⟨⟨r.address, s⟩ :: recipients, by simp [hone, hr]⟩

theorem buildSettle_eq_some {cfg : StellarConfig} {sequence now : ℕ} {orderRef : String}
    {total : ℤ} {rs : List RecipientInput} {tx : Tx}
    (h : buildSettle cfg sequence now orderRef total rs = some tx) :
    tx.seq = sequence + 1 ∧ tx.orderRef = orderRef ∧ tx.totalAmount.val = total ∧
      tx.recipients.map (·.address) = rs.map (·.address) ∧
        tx.recipients.map (·.shareBps.val) = rs.map (·.shareBps) := by
  obtain ⟨recipients, hr, h⟩ := Option.bind_eq_some_iff.1 h
  obtain ⟨total, ht, h⟩ := Option.bind_eq_some_iff.1 h
  obtain rfl := Option.some.inj h
  exact ⟨rfl, rfl, CheckedInt.Bounded.ofInt?_eq_some.1 ht, toScVal_mapM hr⟩

/-! ## Submitting a transaction -/

/-- The polls of an accepted transaction, each of them answered. `P n` holds while `n` polls
are left. -/
theorem triple_polls {cfg : StellarConfig} {D : Discipline (machine cfg)} {i : ℕ} (tx : Tx)
    {P : ℕ → World → Prop} {S F : World → Prop} (hA : ∀ n, D.Assertion i (P n))
    (hduty : ∀ n attempt w, P n w → D.duty w (.getTransaction (.onChain tx) attempt))
    (hguar : ∀ w, D.guar i w w)
    (hfault : ∀ {attempt w c}, D.allowed w (.getTransaction (.onChain tx) attempt) c →
      c.fault = .none)
    (hsuccess : ∀ {n w}, P (n + 1) w → w.chain.result tx = some true → S w)
    (hfailed : ∀ {n w}, P (n + 1) w → w.chain.result tx = some false → F w)
    (hagain : ∀ {n attempt w c}, attempt + (n + 1) = pollMaxAttempts → P (n + 1) w →
      D.allowed w (.getTransaction (.onChain tx) attempt) c →
        (c.lag = true ∨ w.chain.result tx = none) → P n w) :
    ∀ left attempt : ℕ, attempt + left = pollMaxAttempts →
      Triple D i (P left) (pollFrom (.onChain tx) attempt left)
        (fun r w => if r.status = .success then S w else F w)
        fun e w => e = .settlementTimeout (.onChain tx) ∧ P 0 w
  | 0, _, _ => Triple.raise fun _ h => ⟨rfl, h⟩
  | left + 1, attempt, hn => by
    refine Triple.bind (R := fun (s : TxStatus) w => (s = .success → S w) ∧
      (s = .failed → F w) ∧ (s = .notFound → P left w)) ?_ fun status => ?_
    · refine triple_read rfl (hA (left + 1)) (hduty (left + 1) attempt) hguar ?_ ?_
      · intro w c a h hal _ ha
        obtain ⟨hs, hf, hnf⟩ := Chain.status_ok ha
        exact ⟨fun he => hsuccess h (hs he), fun he => hfailed h (hf he),
          fun he => hagain hn h hal (hnf he)⟩
      · intro w c e _ hal he
        rw [exec_of_fault_none cfg w (hfault hal)] at he
        exact absurd he Chain.status_ne_error
    · cases status with
      | success => exact Triple.ret fun _ h => by simpa using h
      | failed => exact Triple.ret fun _ h => by simpa using h
      | notFound =>
        exact (triple_polls tx hA hduty hguar hfault hsuccess hfailed hagain left (attempt + 1)
          (by omega)).mono (fun _ h => h.2.2 rfl) (fun _ _ h => h) fun _ _ h => h

/-- A simulation that succeeds, a transaction that is accepted, and its polls. -/
theorem triple_submit {cfg : StellarConfig} {D : Discipline (machine cfg)} {i : ℕ} {tx : Tx}
    {P S A : World → Prop} {Q : InvokeResult → World → Prop} {X : Failure → World → Prop}
    (hsimulate : Triple D i P (await (.simulateSettle tx))
      (fun (simulated : Bool) w => if simulated then S w else X .settlementSimulation w) X)
    (hsend : Triple D i S (await (.sendTransaction tx))
      (fun (s : SendStatus) w => if s.accepted then A w else X .settlementSubmission w) X)
    (hpoll : Triple D i A (pollTransaction (.onChain tx)) Q X) :
    Triple D i P (submitSettle tx) Q X := by
  refine Triple.bind hsimulate fun simulated => ?_
  cases simulated with
  | false => exact Triple.raise fun _ h => h
  | true =>
    refine Triple.bind hsend fun status => ?_
    cases status with
    | pending => exact hpoll
    | duplicate => exact hpoll
    | tryAgainLater => exact Triple.raise fun _ h => h
    | error => exact Triple.raise fun _ h => h

/-! ## What holds of the requests holds of the methods -/

/-- The requests that read, but for the simulation of a transaction. -/
def Request.checks : Request → Bool
  | .simulateSettle _ => false
  | r => r.reads

theorem reads_of_checks {r : Request} (h : r.checks = true) : Reads r := by
  cases r with
  | simulateSettle tx => cases h
  | _ => exact h

/-- The property holds of every read but the simulations. -/
structure OfChecks (K : ∀ α : Type, Method α → Prop) : Prop extends Compositional K where
  check : ∀ {r : Request}, r.checks = true → K _ (await r)

/-- The update leaves the payment's reference and does not make the order wait for one. -/
def OrderUpdate.keepsPayment (data : OrderUpdate) : Bool :=
  data.paymentRef.isNone && data.status != .paymentPending

/-- The property holds of the checks, of the updates of one order that leave its payment and
of the event that it was settled. -/
structure OfSettlement (K : ∀ α : Type, Method α → Prop) (id : String) : Prop
    extends OfChecks K where
  update : ∀ {data : OrderUpdate}, data.keepsPayment = true → K _ (await (.orderUpdate id data))
  completed : ∀ payload : SettlementCompletedPayload, payload.orderId = id →
    K _ (emit (.settlementCompleted payload))

/-- The property holds of every read. -/
structure OfReads (K : ∀ α : Type, Method α → Prop) : Prop extends Compositional K where
  read : ∀ {r : Request}, Reads r → K _ (await r)

/-- The property holds of the reads and of the updates and the events of one order. -/
structure OfOrder (K : ∀ α : Type, Method α → Prop) (id : String) : Prop extends OfReads K where
  update : ∀ data, K _ (await (.orderUpdate id data))
  signal : ∀ v : AppEvent, v.orderId = id → K _ (emit v)

/-- The property holds of the simulation and the sending of a transaction. -/
def Invokes (K : ∀ α : Type, Method α → Prop) (tx : Tx) : Prop :=
  K _ (await (.simulateSettle tx)) ∧ K _ (await (.sendTransaction tx))

variable {K : ∀ α : Type, Method α → Prop} {id : String}

theorem OfReads.checks (h : OfReads K) : OfChecks K where
  toCompositional := h.toCompositional
  check hr := h.read (reads_of_checks hr)

theorem OfOrder.settlement (h : OfOrder K id) : OfSettlement K id where
  toOfChecks := h.checks
  update _ := h.update _
  completed _ he := h.signal _ he

namespace OfChecks

theorem sorobanIsSettled (h : OfChecks K) (orderRef : String) :
    K _ (sorobanIsSettled orderRef) := by
  refine h.bind (h.check rfl) fun _ => h.bind (h.check rfl) fun sim => ?_
  cases sim with
  | error => exact h.raise _
  | restore => exact h.ret _
  | value settled => exact h.ret _

theorem checkSettled (h : OfChecks K) (orderId : String) : K _ (checkSettled orderId) :=
  h.tryCatch (h.sorobanIsSettled orderId) fun _ => h.ret _

theorem findRecipientsMissingTrustline (h : OfChecks K) : ∀ rs : List RecipientInput,
    K _ (findRecipientsMissingTrustline rs)
  | [] => h.ret _
  | r :: rest => by
    refine h.bind (h.tryCatch (h.bind (h.check rfl) fun _ => h.ret _) fun _ => h.ret _) fun _ => ?_
    exact h.bind (h.findRecipientsMissingTrustline rest) fun _ => h.ret _

theorem pollFrom (h : OfChecks K) (txHash : TxHash) : ∀ left attempt : ℕ,
    K _ (pollFrom txHash attempt left)
  | 0, _ => h.raise _
  | left + 1, attempt => by
    refine h.bind (h.check rfl) fun status => ?_
    cases status with
    | notFound => exact h.pollFrom txHash left (attempt + 1)
    | success => exact h.ret _
    | failed => exact h.ret _

theorem submitSettle (h : OfChecks K) {tx : Tx} (htx : Invokes K tx) :
    K _ (submitSettle tx) := by
  refine h.bind htx.1 fun simulated => ?_
  cases simulated with
  | false => exact h.raise _
  | true =>
    refine h.bind htx.2 fun status => ?_
    cases status with
    | pending => exact h.pollFrom _ _ _
    | duplicate => exact h.pollFrom _ _ _
    | tryAgainLater => exact h.raise _
    | error => exact h.raise _

theorem invokeSettle {cfg : StellarConfig} {totalAmountBase : ℤ}
    {recipients : List RecipientInput} (h : OfChecks K)
    (htx : ∀ {sequence now tx},
      buildSettle cfg sequence now id totalAmountBase recipients = some tx → Invokes K tx) :
    K _ (invokeSettle cfg id totalAmountBase recipients) := by
  refine h.tryCatch (h.bind (h.check rfl) fun account => ?_) fun err => ?_
  · obtain ⟨sequence, now⟩ := account
    cases hb : buildSettle cfg sequence now id totalAmountBase recipients with
    | none =>
      simp only [hb]
      exact h.raise _
    | some tx =>
      simp only [hb]
      exact h.submitSettle (htx hb)
  · dsimp only
    split
    · exact h.raise _
    · exact h.raise _

theorem getTransactionStatus (h : OfChecks K) (txHash : TxHash) :
    K _ (getTransactionStatus txHash) :=
  h.check (r := .getTransaction txHash 0) rfl

end OfChecks

namespace OfSettlement

theorem checkFloat (h : OfSettlement K id) (cfg : StellarConfig) (amountUsd : Usd) :
    K _ (checkFloat cfg id amountUsd) := by
  refine h.tryCatch (h.bind (h.check rfl) fun float => ?_) fun _ => h.ret _
  split
  · exact h.bind (h.update rfl) fun _ => h.ret _
  · exact h.ret _

theorem recordSettlementSuccess (h : OfSettlement K id) {amountUsd : Usd} {totalAmountBase : ℤ}
    {txHash : TxHash} {recipients : List RecipientInput} {collaborators : List Collaborator}
    (hcreate : K _ (await (.settlementCreate ⟨id, amountUsd, txHash,
      settlementRows totalAmountBase recipients collaborators⟩))) :
    K _ (recordSettlementSuccess id amountUsd totalAmountBase txHash recipients collaborators) :=
  h.bind hcreate fun _ => h.bind (h.update rfl) fun _ => h.completed _ rfl

theorem recoverAlreadySettled (h : OfSettlement K id) {amountUsd : Usd} {totalAmountBase : ℤ}
    {knownTxHash : Option TxHash} {recipients : List RecipientInput}
    {collaborators : List Collaborator}
    (hcreate : ∀ txHash, K _ (await (.settlementCreate ⟨id, amountUsd, txHash,
      settlementRows totalAmountBase recipients collaborators⟩)))
    (hrecord : ∀ txHash, K _ (recordRecoveredSettlement id txHash)) :
    K _ (recoverAlreadySettled id amountUsd totalAmountBase knownTxHash recipients
      collaborators) := by
  refine h.bind (h.check rfl) fun existing => ?_
  cases existing with
  | some s => exact h.update rfl
  | none =>
    dsimp only
    split
    · exact h.recordSettlementSuccess (hcreate _)
    · exact h.bind (h.update rfl) fun _ => hrecord _

/-! ### An attempt to settle -/

variable {cfg : StellarConfig} {recipients : List RecipientInput} {amountUsd : Usd}
  {collaborators : List Collaborator}

theorem settleAndRecord (h : OfSettlement K id)
    (htx : ∀ {sequence now tx},
      buildSettle cfg sequence now id amountUsd.toBase recipients = some tx → Invokes K tx)
    (hcreate : ∀ txHash, K _ (await (.settlementCreate ⟨id, amountUsd, txHash,
      settlementRows amountUsd.toBase recipients collaborators⟩))) :
    K _ (settleAndRecord cfg id amountUsd recipients collaborators) := by
  refine h.bind (h.invokeSettle htx) fun result => ?_
  obtain ⟨txHash, status⟩ := result
  cases status with
  | success => exact h.recordSettlementSuccess (hcreate txHash)
  | failed => exact h.update rfl

theorem settleWithRetry (h : OfSettlement K id)
    (htx : ∀ {sequence now tx},
      buildSettle cfg sequence now id amountUsd.toBase recipients = some tx → Invokes K tx)
    (hcreate : ∀ txHash, K _ (await (.settlementCreate ⟨id, amountUsd, txHash,
      settlementRows amountUsd.toBase recipients collaborators⟩))) : ∀ left : ℕ,
    K _ (settleWithRetry cfg id amountUsd recipients collaborators left)
  | 0 => h.ret _
  | left + 1 => by
    refine h.tryCatch (h.settleAndRecord htx hcreate) fun err => ?_
    cases err with
    | settlementNetwork =>
      dsimp only
      split
      · exact h.update rfl
      · exact h.settleWithRetry htx hcreate left
    | _ => exact h.raise _

theorem settleCollaborators {payload : PaymentReceivedPayload} (h : OfSettlement K payload.orderId)
    (order : Order)
    (htx : ∀ {sequence now tx}, buildSettle cfg sequence now payload.orderId
      payload.amountUsd.toBase (recipientInputs collaborators) = some tx → Invokes K tx)
    (hcreate : ∀ txHash, K _ (await (.settlementCreate ⟨payload.orderId, payload.amountUsd, txHash,
      settlementRows payload.amountUsd.toBase (recipientInputs collaborators) collaborators⟩)))
    (hrecord : ∀ txHash, K _ (recordRecoveredSettlement payload.orderId txHash)) :
    K _ (settleCollaborators cfg payload order collaborators) := by
  refine h.bind (h.findRecipientsMissingTrustline _) fun missing => ?_
  split
  · exact h.update rfl
  refine h.bind (h.checkSettled _) fun alreadySettled => ?_
  split
  · exact h.recoverAlreadySettled hcreate hrecord
  refine h.bind (h.checkFloat cfg _) fun funded => ?_
  split
  · exact h.settleWithRetry htx hcreate _
  · exact h.ret _

theorem handleSettlementError (h : OfSettlement K id) (err : Failure) :
    K _ (handleSettlementError id err) := by
  cases err with
  | invalidStateTransition source target => exact h.ret _
  | settlementTimeout txHash => exact h.ret _
  | settlementNetwork => exact h.ret _
  | _ => exact h.update rfl

/-! ### Startup recovery -/

variable {o : StuckOrder}

/-- The property holds of the events that make an order be settled again, with its own
amount. -/
def Reemits (K : ∀ α : Type, Method α → Prop) (o : StuckOrder) : Prop :=
  ∀ wallet paymentRef, K _ (emit (.paymentReceived
    ⟨o.id, o.order.amountUsd, o.creatorId, wallet, paymentRef⟩))

theorem recoverByMarker (h : OfSettlement K o.id)
    (hrecord : ∀ txHash, K _ (recordRecoveredSettlement o.id txHash)) :
    K _ (recoverByMarker o) := by
  refine h.tryCatch (h.bind (h.sorobanIsSettled o.id) fun alreadySettled => ?_) fun _ => h.ret _
  split
  · exact h.bind (hrecord _) fun _ => h.ret _
  · exact h.ret _

theorem recheckTransaction (h : OfSettlement K o.id)
    (hrecord : ∀ txHash, K _ (recordRecoveredSettlement o.id txHash)) (txHash : TxHash) :
    K _ (recheckTransaction o txHash) := by
  refine h.tryCatch (h.bind (h.getTransactionStatus _) fun status => ?_) fun _ => h.ret _
  cases status with
  | success => exact h.bind (hrecord _) fun _ => h.ret _
  | failed => exact h.bind (h.update rfl) fun _ => h.ret _
  | notFound => exact h.ret _

theorem recoverByTransaction (h : OfSettlement K o.id) (hpay : Reemits K o)
    (hrecord : ∀ txHash, K _ (recordRecoveredSettlement o.id txHash)) (txHash : TxHash) :
    K _ (recoverByTransaction o txHash) := by
  refine h.tryCatch (h.bind (h.getTransactionStatus _) fun status => ?_) fun _ => h.ret _
  cases status with
  | success =>
    refine h.bind (h.check rfl) fun existing => ?_
    cases existing with
    | some s => exact h.bind (h.update rfl) fun _ => h.ret _
    | none => exact h.bind (hrecord _) fun _ => h.ret _
  | failed => exact h.bind (h.update rfl) fun _ => h.ret _
  | notFound =>
    refine h.bind (h.recheckTransaction hrecord txHash) fun recovered => ?_
    cases recovered with
    | some b => exact h.ret _
    | none => exact h.bind (h.update rfl) fun _ => h.bind (hpay _ _) fun _ => h.ret _

theorem recoverOrder (h : OfSettlement K o.id) (hpay : Reemits K o)
    (hrecord : ∀ txHash, K _ (recordRecoveredSettlement o.id txHash)) :
    K _ (recoverOrder o) := by
  unfold Kreav.recoverOrder
  split
  · exact h.bind (h.check rfl) fun _ => h.bind (hpay _ _) fun _ => h.ret _
  · unfold recoverSettlementPending
    split
    · exact h.recoverByTransaction hpay hrecord _
    · refine h.bind (h.recoverByMarker hrecord) fun recovered => ?_
      split
      · exact h.ret _
      · exact h.bind (h.update rfl) fun _ => h.ret _
  · exact h.ret _

/-- A settlement recorded from the database. -/
theorem recordRecoveredSettlement (h : OfSettlement K id)
    (hcreate : ∀ data : SettlementCreate, data.orderId = id → K _ (await (.settlementCreate data)))
    (txHash : TxHash) : K _ (recordRecoveredSettlement id txHash) := by
  refine h.bind (h.check rfl) fun found => ?_
  cases found with
  | none => exact h.ret _
  | some p =>
    obtain ⟨order, creatorId⟩ := p
    refine h.bind (h.check rfl) fun collaborators => ?_
    split
    · exact h.update rfl
    · exact h.recordSettlementSuccess (hcreate _ rfl)

/-- The whole handler. -/
theorem handlePaymentReceived {payload : PaymentReceivedPayload}
    (h : OfSettlement K payload.orderId)
    (htx : ∀ tx : Tx, tx.orderRef = payload.orderId →
      tx.totalAmount.val = payload.amountUsd.toBase → Invokes K tx)
    (hcreate : ∀ data : SettlementCreate, data.orderId = payload.orderId →
      K _ (await (.settlementCreate data))) : K _ (handlePaymentReceived cfg payload) := by
  refine h.tryCatch (h.bind (h.check rfl) fun found => ?_) fun e => h.handleSettlementError e
  cases found with
  | none => exact h.ret _
  | some p =>
    obtain ⟨order, creatorId⟩ := p
    dsimp only
    split
    · exact h.raise _
    refine h.bind (h.update rfl) fun _ => h.bind (h.check rfl) fun collaborators => ?_
    split
    · exact h.update rfl
    split
    · exact h.update rfl
    split
    · exact h.update rfl
    · refine h.settleCollaborators order (fun hb => ?_) (fun _ => hcreate _ rfl)
        (h.recordRecoveredSettlement hcreate)
      obtain ⟨-, href, ht, -, -⟩ := buildSettle_eq_some hb
      exact htx _ href ht

end OfSettlement

/-- The recovery of one order, for a property that holds of all its events. -/
theorem OfOrder.recoverOrder {o : StuckOrder} (h : OfOrder K o.id)
    (hrecord : ∀ txHash, K _ (recordRecoveredSettlement o.id txHash)) : K _ (recoverOrder o) :=
  h.settlement.recoverOrder (fun _ _ => h.signal _ rfl) hrecord

/-! ## The requests of the methods -/

theorem ofReads_uses : OfReads fun _ p => p.Uses Reads where
  toCompositional := Uses.compositional (S := backend) Reads
  read h := Uses.ask h

theorem ofOrder_uses (id : String) : OfOrder (fun _ p => p.Uses (Touches id)) id where
  toCompositional := Uses.compositional (S := backend) (Touches id)
  read h := Uses.ask (h.touches id)
  update _ := Uses.ask rfl
  signal _ _ := Uses.signal _

theorem uses_recordRecoveredSettlement (orderId : String) (txHash : TxHash) :
    (recordRecoveredSettlement orderId txHash).Uses (Touches orderId) :=
  (ofOrder_uses orderId).settlement.recordRecoveredSettlement (fun _ hdata => Uses.ask hdata) txHash

theorem uses_recoverAlreadySettled (orderId : String) (amountUsd : Usd) (totalAmountBase : ℤ)
    (knownTxHash : Option TxHash) (recipients : List RecipientInput)
    (collaborators : List Collaborator) :
    (recoverAlreadySettled orderId amountUsd totalAmountBase knownTxHash recipients
      collaborators).Uses (Touches orderId) :=
  (ofOrder_uses orderId).settlement.recoverAlreadySettled (fun _ => Uses.ask rfl)
    fun _ => uses_recordRecoveredSettlement _ _

/-- The recovery of one order touches that order only. -/
theorem uses_recoverOrder (o : StuckOrder) : (recoverOrder o).Uses (Touches o.id) :=
  (ofOrder_uses o.id).recoverOrder fun _ => uses_recordRecoveredSettlement _ _

end Kreav
