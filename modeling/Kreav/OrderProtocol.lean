import Kreav.PaymentEvents
import Kreav.SettlementRules
import Kreav.Wallets

/-!
# The protocol of one order

What the calls of the backend do to one order, as an automaton. A call is `idle` until it
passes a check of the order's status. Then the settlement of the order is `pending` with
it, and it ends with the write of a final status. On the way it may learn that the contract
has settled the order (`confirmed`), find a row of `settlements` or create one, and write
`settled` before or after that. `settlement.completed` is emitted in the phase `paid` only.

Every call follows the protocol, whatever its requests are answered (`conforms_method`).
The protocol has a parameter `own`, what is known of the transaction hashes that the
database holds of the order.
-/

open Async Prog

namespace Kreav

/-- The calls of the services that concern orders. -/
inductive ServiceCall
  | checkout (productId buyerEmail : String)
  | payment (payment : PaymentCall)
  | connect (creatorId walletAddress : String) (provider : WalletProvider)
  | paymentReceived (payload : PaymentReceivedPayload)
  | bootstrap

/-- The method of a call. -/
def ServiceCall.method (cfg : StellarConfig) : ServiceCall → Method Unit
  | .checkout productId buyerEmail =>
    (Kreav.checkout productId buyerEmail).bind fun _ => .ret ()
  | .payment p => p.method
  | .connect creatorId walletAddress provider =>
    (Kreav.connect creatorId walletAddress provider).bind fun _ => .ret ()
  | .paymentReceived payload => handlePaymentReceived cfg payload
  | .bootstrap => onApplicationBootstrap.bind fun _ => .ret ()

namespace OrderProtocol

/-- Where a call stands towards the order. -/
inductive Phase
  /-- It writes the order only after a check. -/
  | idle
  /-- It is past a check. -/
  | pending
  /-- The contract has settled the order. -/
  | confirmed
  /-- The row of `settlements` was found. -/
  | recorded
  /-- The row was created. -/
  | created
  /-- The status is `settled` and no row was found. -/
  | bare
  /-- The order was read since, it is of this product. -/
  | looked (productId : String)
  /-- The row was created since. -/
  | recreated
  /-- The row was created and the status is `settled`. -/
  | paid
  /-- The status `settlementFailed` is to be written. -/
  | failing

/-- The request may change the order or its row of `settlements`. Orders are created in
`paymentPending`. -/
def Writes (id : String) : Request → Prop
  | .orderCreate data => data.status ≠ .paymentPending
  | .orderUpdate id' _ => id' = id
  | .settlementCreate data => data.orderId = id
  | _ => False

/-- The errors of a statement. -/
def Stored (e : Failure) : Prop :=
  e = .database ∨ e = .uniqueViolation

/-- The phases in which an error may leave a call. -/
def Stray (φ : Phase) : Prop :=
  φ = .idle ∨ φ = .pending ∨ φ = .failing

/-- The phases before and after the row is created, and after an error. -/
inductive Recording : Phase → Phase → Phase → Prop
  | first {ε} (h : Stray ε) : Recording .confirmed .created ε
  | again {productId} : Recording (.looked productId) .recreated .failing

variable (own : TxHash → Prop) (id : String)

/-- How an answer changes what a method may do for the order. -/
inductive Reply : Phase → (r : Request) → Except Failure r.Ans → Phase → Prop
  | stay {φ r x} (h : ¬ Writes id r) : Reply φ r x φ
  | drop {φ r x ε} (h : ¬ Writes id r) (hφ : φ = .pending ∨ φ = .confirmed) (hε : Stray ε) :
    Reply φ r x ε
  -- the payment webhook, after its check
  | claim {status ref x} (hs : status = .waitingWallet ∨ status = .paymentReceived) :
    Reply .idle (.orderUpdate id { status, paymentRef := some ref }) x .idle
  -- the check of the settlement, and an error before it
  | unread {e} : Reply .idle (.orderFindUnique id) (.error e) .failing
  | enter : Reply .idle (.orderUpdate id { status := .settlementPending }) (.ok ()) .pending
  | refused {e} :
    Reply .idle (.orderUpdate id { status := .settlementPending }) (.error e) .failing
  -- the query of the recovery
  | found {statuses} {rows : List StuckOrder}
    (h : ∃ o ∈ rows, o.id = id ∧ o.order.status = .settlementPending) :
    Reply .idle (.orderFindMany statuses) (.ok rows) .pending
  -- what tells of a settlement
  | marker {sim : IsSettledSimulation} (h : sim = .restore ∨ sim = .value true) :
    Reply .pending (.simulateIsSettled id) (.ok sim) .confirmed
  | applied {txHash n} (h : own txHash) :
    Reply .pending (.getTransaction txHash n) (.ok TxStatus.success) .confirmed
  | row {s : Settlement} : Reply .confirmed (.settlementFindUnique id) (.ok (some s)) .recorded
  -- final statuses
  | failed {φ txHash} (hφ : φ = .pending ∨ φ = .confirmed ∨ φ = .failing)
    (hh : ∀ h, txHash = some (some h) → own h) :
    Reply φ (.orderUpdate id { status := .settlementFailed, txHash }) (.ok ()) .idle
  | unfailed {φ txHash e ε} (hφ : φ = .pending ∨ φ = .confirmed ∨ φ = .failing) (hε : Stray ε)
    (hh : ∀ h, txHash = some (some h) → own h) :
    Reply φ (.orderUpdate id { status := .settlementFailed, txHash }) (.error e) ε
  | rollback {x} :
    Reply .pending (.orderUpdate id { status := .paymentReceived, txHash := some none }) x .idle
  | settled {txHash} (hh : ∀ h, txHash = some (some h) → own h) :
    Reply .recorded (.orderUpdate id { status := .settled, txHash }) (.ok ()) .idle
  | unsettled {txHash e ε} (hε : Stray ε) (hh : ∀ h, txHash = some (some h) → own h) :
    Reply .recorded (.orderUpdate id { status := .settled, txHash }) (.error e) ε
  -- the recording of a settlement
  | create {φ φ' ε data} (h : Recording φ φ' ε) (hid : data.orderId = id)
    (hh : own data.txHash) : Reply φ (.settlementCreate data) (.ok ()) φ'
  | uncreated {φ φ' ε data e} (h : Recording φ φ' ε) (hid : data.orderId = id)
    (hh : own data.txHash) : Reply φ (.settlementCreate data) (.error e) ε
  | pay {φ φ' ε txHash} (h : Recording φ φ' ε) (hh : own txHash) :
    Reply φ' (.orderUpdate id { status := .settled, txHash := some (some txHash) }) (.ok ()) .paid
  | unpaid {φ φ' ε txHash e} (h : Recording φ φ' ε) (hh : own txHash) :
    Reply φ' (.orderUpdate id { status := .settled, txHash := some (some txHash) }) (.error e) ε
  -- a settlement without row and hash
  | early : Reply .confirmed (.orderUpdate id { status := .settled }) (.ok ()) .bare
  | unsure {e} : Reply .confirmed (.orderUpdate id { status := .settled }) (.error e) .failing
  | look {order : Order} {creatorId : String} :
    Reply .bare (.orderFindUnique id) (.ok (some (order, creatorId))) (.looked order.productId)
  | gone : Reply .bare (.orderFindUnique id) (.ok none) .idle
  | blind {e} : Reply .bare (.orderFindUnique id) (.error e) .failing
  | empty {productId} :
    Reply (.looked productId) (.collaboratorFindMany productId) (.ok ([] : List Collaborator))
      .failing
  | unlisted {productId e} :
    Reply (.looked productId) (.collaboratorFindMany productId) (.error e) .failing

/-- What a method may emit, and what it may do then. -/
inductive Emits : Phase → AppEvent → Phase → Prop
  | other {φ v} (h : ∀ payload, v = .settlementCompleted payload → payload.orderId ≠ id) :
    Emits φ v φ
  | completed {payload} (h : payload.orderId = id) :
    Emits .paid (.settlementCompleted payload) .idle

/-- What is known of an answer : the hashes of the order, that a query returns an order
once, and which errors a statement throws. -/
def Answers : (r : Request) → Except Failure r.Ans → Prop
  | .orderFindUnique id', .ok (found : Option (Order × String)) =>
    ∀ p ∈ found, id' = id → ∀ h ∈ p.1.txHash, own h
  | .settlementFindUnique id', .ok (found : Option Settlement) =>
    ∀ s ∈ found, id' = id → own s.txHash
  | .orderFindMany _, .ok (rows : List StuckOrder) =>
    (rows.map (·.id)).Nodup ∧ ∀ o ∈ rows, o.id = id → ∀ h ∈ o.order.txHash, own h
  | .orderFindUnique _, .error e => Stored e
  | .collaboratorFindMany _, .error e => Stored e
  | .settlementFindUnique _, .error e => Stored e
  | .orderUpdate _ _, .error e => Stored e
  | .settlementCreate _, .error e => Stored e
  | _, _ => True

/-- The protocol of the order. -/
def protocol : Protocol backend Phase where
  answers := Answers own id
  reply := Reply own id
  event := Emits id
  final φ := φ = .idle ∨ φ = .pending
  rest := .idle

/-- The hashes that may be known to be the order's : made up ones and those of its
transactions. -/
structure Owns : Prop where
  placeholder : ∀ text, own (.placeholder text)
  onChain : ∀ tx : Tx, tx.orderRef = id → own (.onChain tx)

variable {own id}

theorem not_writes_of_reads {r : Request} (h : Reads r) : ¬ Writes id r := by
  cases r with
  | orderCreate data => cases h
  | orderUpdate id' data => cases h
  | settlementCreate data => cases h
  | _ => exact not_false

/-! ## Other orders -/

theorem stays_ask {φ : Phase} {r : Request} (h : ¬ Writes id r) :
    (await r).Stays (protocol own id) φ :=
  Stays.ask fun _ _ => .stay h

theorem ofReads_stays (φ : Phase) : OfReads fun _ p => p.Stays (protocol own id) φ where
  toCompositional := Stays.compositional (protocol own id) φ
  read h := stays_ask (not_writes_of_reads h)

theorem ofOrder_stays {id' : String} (h : id' ≠ id) (φ : Phase) :
    OfOrder (fun _ p => p.Stays (protocol own id) φ) id' where
  toOfReads := ofReads_stays φ
  update _ := stays_ask h
  signal v hv := by
    refine ⟨φ, .other ?_, rfl⟩
    rintro payload rfl rfl
    exact h hv.symm

theorem stays_recordRecoveredSettlement {id' : String} (h : id' ≠ id) {φ : Phase}
    (txHash : TxHash) :
    (recordRecoveredSettlement id' txHash).Stays (protocol own id) φ :=
  (ofOrder_stays h φ).settlement.recordRecoveredSettlement
    (fun _ hdata => stays_ask fun hw => h (hdata.symm.trans hw)) txHash

/-! ## Recording a settlement -/

/-- What is left after an error of a settlement. -/
def Thrown (e : Failure) : Phase → Prop
  | .pending => True
  | .failing => Stored e
  | .idle => ∃ source target, e = .invalidStateTransition source target
  | _ => False

/-- An error that has been stored in `ε`. -/
def Threw (ε : Phase) (e : Failure) (φ : Phase) : Prop :=
  φ = ε ∧ Stored e

theorem Threw.thrown {ε : Phase} {e : Failure} {φ : Phase} (h : Threw ε e φ)
    (hε : ε = .pending ∨ ε = .failing) : Thrown e φ := by
  obtain ⟨rfl, he⟩ := h
  rcases hε with rfl | rfl
  · exact trivial
  · exact he

/-- A read before the settlement is decided. An error may leave it. -/
theorem follows_read {φ ε : Phase} {r : Request} (hr : Reads r)
    (hφ : φ = .pending ∨ φ = .confirmed) (hε : Stray ε) :
    (await r).Follows (protocol own id) (fun a φ' => φ' = φ ∧ Answers own id r (.ok a))
      (fun e φ' => φ' = ε ∧ Answers own id r (.error e)) φ :=
  Follows.ask (fun _ ha => ⟨φ, .stay (not_writes_of_reads hr), rfl, ha⟩)
    fun _ he => ⟨ε, .drop (not_writes_of_reads hr) hφ hε, rfl, he⟩

theorem follows_setFailed {φ ε : Phase} (hφ : φ = .pending ∨ φ = .confirmed ∨ φ = .failing)
    (hε : Stray ε) : (setStatus id .settlementFailed).Follows (protocol own id)
      (fun _ φ' => φ' = .idle) (Threw ε) φ :=
  Follows.ask (fun _ _ => ⟨_, .failed hφ (by simp), rfl⟩)
    fun _ he => ⟨ε, .unfailed hφ hε (by simp), rfl, he⟩

/-- The row, the status, the event. -/
theorem follows_recordSettlementSuccess {φ φ' ε : Phase} (h : Recording φ φ' ε)
    {amountUsd : Usd} {totalAmountBase : ℤ} {txHash : TxHash} (hown : own txHash)
    {recipients : List RecipientInput} {collaborators : List Collaborator} :
    (recordSettlementSuccess id amountUsd totalAmountBase txHash recipients
      collaborators).Follows (protocol own id) (fun _ φ => φ = .idle) (Threw ε) φ := by
  refine Follows.bind (R := fun _ ψ => ψ = φ') (Follows.ask
    (fun _ _ => ⟨φ', .create h rfl hown, rfl⟩) fun e he => ⟨ε, .uncreated h rfl hown, rfl, he⟩) ?_
  rintro _ _ rfl
  refine Follows.bind (R := fun _ ψ => ψ = .paid) (Follows.ask
    (fun _ _ => ⟨.paid, .pay h hown, rfl⟩) fun e he => ⟨ε, .unpaid h hown, rfl, he⟩) ?_
  rintro _ _ rfl
  exact Follows.signal (Emits.completed rfl) rfl

/-- A confirmed settlement is recorded from what the database has of the order. -/
theorem follows_recordRecoveredSettlement {ε : Phase} (hε : Stray ε) {txHash : TxHash}
    (hown : own txHash) : (recordRecoveredSettlement id txHash).Follows (protocol own id)
      (fun _ φ => φ = .idle) (Threw ε) .confirmed := by
  refine Follows.bind (R := fun (found : Option (Order × String)) φ =>
    (found = none → φ = .idle) ∧ (found.isSome = true → φ = .confirmed)) (Follows.ask ?_ ?_) ?_
  · intro found _
    cases found with
    | none => exact ⟨.idle, .drop not_false (Or.inr rfl) (Or.inl rfl), by simp, by simp⟩
    | some p => exact ⟨.confirmed, .stay not_false, by simp, by simp⟩
  · exact fun e he => ⟨ε, .drop not_false (Or.inr rfl) hε, rfl, he⟩
  rintro found φ ⟨hnone, hsome⟩
  cases found with
  | none => exact hnone rfl
  | some p =>
    obtain ⟨order, creatorId⟩ := p
    obtain rfl := hsome rfl
    refine Follows.bind (follows_read rfl (Or.inr rfl) hε) ?_
    rintro collaborators _ ⟨rfl, -⟩
    split
    · exact follows_setFailed (Or.inr (Or.inl rfl)) hε
    · exact follows_recordSettlementSuccess (.first hε) hown

/-- The same after the status was written. -/
theorem follows_recordRecoveredSettlement_bare {txHash : TxHash} (hown : own txHash) :
    (recordRecoveredSettlement id txHash).Follows (protocol own id)
      (fun _ φ => φ = .idle) (Threw .failing) .bare := by
  refine Follows.bind (R := fun (found : Option (Order × String)) φ =>
    match found with
    | none => φ = .idle
    | some p => φ = .looked p.1.productId) (Follows.ask ?_ ?_) ?_
  · intro found _
    cases found with
    | none => exact ⟨.idle, .gone, rfl⟩
    | some p => exact ⟨.looked p.1.productId, .look, rfl⟩
  · exact fun e he => ⟨.failing, .blind, rfl, he⟩
  rintro found φ hφ
  cases found with
  | none => exact hφ
  | some p =>
    obtain ⟨order, creatorId⟩ := p
    obtain rfl : φ = .looked order.productId := hφ
    refine Follows.bind (R := fun (collaborators : List Collaborator) φ =>
      φ = if collaborators.length = 0 then .failing else .looked order.productId)
        (Follows.ask ?_ fun e he => ⟨.failing, .unlisted, rfl, he⟩) ?_
    · intro collaborators _
      cases collaborators with
      | nil => exact ⟨.failing, .empty, rfl⟩
      | cons c rest => exact ⟨.looked order.productId, .stay not_false, rfl⟩
    rintro (collaborators : List Collaborator) φ rfl
    by_cases hlen : collaborators.length = 0
    · rw [if_pos hlen, if_pos hlen]
      exact follows_setFailed (Or.inr (Or.inr rfl)) (Or.inr (Or.inr rfl))
    · rw [if_neg hlen, if_neg hlen]
      exact follows_recordSettlementSuccess .again hown

theorem follows_recoverAlreadySettled (ho : Owns own id) {amountUsd : Usd} {totalAmountBase : ℤ}
    {knownTxHash : Option TxHash} (hknown : ∀ h ∈ knownTxHash, own h)
    {recipients : List RecipientInput} {collaborators : List Collaborator} :
    (recoverAlreadySettled id amountUsd totalAmountBase knownTxHash recipients
      collaborators).Follows (protocol own id) (fun _ φ => φ = .idle) (Threw .failing)
        .confirmed := by
  have hfailing : Stray .failing := Or.inr (Or.inr rfl)
  refine Follows.bind (R := fun (found : Option Settlement) φ =>
    (∀ s ∈ found, own s.txHash) ∧
      φ = if found.isSome = true then .recorded else .confirmed) (Follows.ask ?_ ?_) ?_
  · intro (found : Option Settlement) hf
    have hs : ∀ s ∈ found, own s.txHash := fun s h => hf s h rfl
    cases found with
    | none => exact ⟨.confirmed, .stay not_false, hs, rfl⟩
    | some s => exact ⟨.recorded, .row, hs, rfl⟩
  · exact fun e he => ⟨.failing, .drop not_false (Or.inr rfl) hfailing, rfl, he⟩
  rintro found φ ⟨hs, rfl⟩
  cases found with
  | some s =>
    have hh : ∀ h, some (some s.txHash) = some (some h) → own h := by
      rintro h he
      obtain rfl : s.txHash = h := by simpa using he
      exact hs s rfl
    exact Follows.ask (fun _ _ => ⟨.idle, .settled hh, rfl⟩)
      fun e he => ⟨.failing, .unsettled hfailing hh, rfl, he⟩
  | none =>
    have htruthy : ∀ h ∈ truthy knownTxHash, own h := by
      intro h hh
      unfold truthy at hh
      split at hh
      · cases hh
      · exact hknown h hh
    dsimp only
    split
    · next txHash he => exact follows_recordSettlementSuccess (.first hfailing) (htruthy _ he)
    · refine Follows.bind (R := fun _ φ => φ = .bare) (Follows.ask
        (fun _ _ => ⟨.bare, .early, rfl⟩) fun e he => ⟨.failing, .unsure, rfl, he⟩) ?_
      rintro _ _ rfl
      exact follows_recordRecoveredSettlement_bare (ho.placeholder _)

/-! ## An attempt to settle -/

/-- A transaction of the order that succeeded confirms the settlement. -/
def Settles (own : TxHash → Prop) (result : InvokeResult) (φ : Phase) : Prop :=
  own result.txHash ∧ φ = if result.status = .success then .confirmed else .pending

theorem follows_pollFrom {txHash : TxHash} (hown : own txHash) : ∀ left attempt : ℕ,
    (pollFrom txHash attempt left).Follows (protocol own id) (Settles own)
      (fun _ φ => φ = .pending) .pending
  | 0, _ => rfl
  | left + 1, attempt => by
    refine Follows.bind (R := fun (status : TxStatus) φ =>
      φ = if status = .success then .confirmed else .pending) (Follows.ask ?_ ?_) ?_
    · intro status _
      cases status with
      | success => exact ⟨.confirmed, .applied hown, rfl⟩
      | _ => exact ⟨.pending, .stay not_false, rfl⟩
    · exact fun _ _ => ⟨.pending, .stay not_false, rfl⟩
    rintro status φ rfl
    cases status with
    | notFound => exact follows_pollFrom hown left (attempt + 1)
    | success => exact ⟨hown, rfl⟩
    | failed => exact ⟨hown, rfl⟩

theorem follows_pending {r : Request} (hr : ¬ Writes id r) : (await r).Follows (protocol own id)
    (fun _ φ => φ = .pending) (fun _ φ => φ = .pending) .pending :=
  Follows.ask (fun _ _ => ⟨.pending, .stay hr, rfl⟩) fun _ _ => ⟨.pending, .stay hr, rfl⟩

theorem follows_submitSettle {tx : Tx} (hown : own (.onChain tx)) :
    (submitSettle tx).Follows (protocol own id) (Settles own)
      (fun _ φ => φ = .pending) .pending := by
  refine follows_submitSettle_of (P := fun φ => φ = .pending) (R := fun _ φ => φ = .pending)
    (follows_pending (r := .simulateSettle tx) not_false) (fun _ h => h) ?_ (fun _ _ _ h => h) ?_
  · rintro _ rfl
    exact follows_pending not_false
  · rintro _ _ - rfl
    exact follows_pollFrom hown _ _

theorem follows_invokeSettle (ho : Owns own id) (cfg : StellarConfig) (totalAmountBase : ℤ)
    (recipients : List RecipientInput) :
    (invokeSettle cfg id totalAmountBase recipients).Follows (protocol own id)
      (Settles own) (fun _ φ => φ = .pending) .pending := by
  refine follows_invokeSettle_of (P := fun φ => φ = .pending) (Y := fun _ φ => φ = .pending)
    (follows_pending (r := .getAccount) not_false) (fun _ h => h) ?_ (fun _ _ _ h => h)
    fun _ _ _ h => h
  rintro tx _ hid rfl
  exact follows_submitSettle (ho.onChain tx hid)

theorem follows_settleAndRecord (ho : Owns own id) (cfg : StellarConfig) (amountUsd : Usd)
    (recipients : List RecipientInput) (collaborators : List Collaborator) :
    (settleAndRecord cfg id amountUsd recipients collaborators).Follows (protocol own id)
      (fun _ φ => φ = .idle) Thrown .pending := by
  have hfailing : Stray .failing := Or.inr (Or.inr rfl)
  refine Follows.bind ((follows_invokeSettle ho cfg _ _).mono (fun _ _ h => h)
    fun _ _ h => h ▸ trivial) ?_
  rintro ⟨txHash, status⟩ φ ⟨hown, rfl⟩
  cases status with
  | success =>
    exact (follows_recordSettlementSuccess (.first hfailing) hown).mono (fun _ _ h => h)
      fun _ _ h => h.thrown (Or.inr rfl)
  | failed =>
    have hh : ∀ h, some (some txHash) = some (some h) → own h := by
      rintro h he
      obtain rfl : txHash = h := by simpa using he
      exact hown
    exact Follows.ask (fun _ _ => ⟨.idle, .failed (Or.inl rfl) hh, rfl⟩)
      fun e he => ⟨.failing, .unfailed (Or.inl rfl) hfailing hh, he⟩

/-- An error of the network leaves the settlement undecided. -/
theorem Thrown.pending {φ : Phase} (h : Thrown .settlementNetwork φ) : φ = .pending := by
  cases φ with
  | pending => rfl
  | failing => rcases h with h | h <;> cases h
  | idle =>
    obtain ⟨_, _, h⟩ := h
    cases h
  | _ => exact h.elim

theorem follows_settleWithRetry (ho : Owns own id) (cfg : StellarConfig) (amountUsd : Usd)
    (recipients : List RecipientInput) (collaborators : List Collaborator) : ∀ left : ℕ,
    (settleWithRetry cfg id amountUsd recipients collaborators left).Follows (protocol own id)
      (fun _ => (protocol own id).final) Thrown .pending
  | 0 => Or.inr rfl
  | left + 1 => by
    refine Follows.tryCatch ((follows_settleAndRecord ho cfg _ _ _).mono
      (fun _ _ h => Or.inl h) fun _ _ h => h) ?_
    rintro err φ h
    cases err with
    | settlementNetwork =>
      obtain rfl := h.pending
      dsimp only
      split
      · exact (follows_setFailed (Or.inl rfl) (Or.inr (Or.inr rfl))).mono
          (fun _ _ h => Or.inl h) fun _ _ h => h.thrown (Or.inr rfl)
      · exact follows_settleWithRetry ho cfg amountUsd recipients collaborators left
    | _ => exact h

/-! ## Handling a payment -/

theorem follows_checkFloat (cfg : StellarConfig) (amountUsd : Usd) :
    (checkFloat cfg id amountUsd).Follows (protocol own id)
      (fun funded φ => φ = if funded = true then .pending else .idle) (fun _ _ => False)
        .pending := by
  refine follows_checkFloat_of (P := fun φ => φ = .pending)
    (follows_pending (r := .getUsdcBalance _) not_false) (fun _ h => h) ?_
  rintro _ rfl
  exact (follows_setFailed (Or.inl rfl) (Or.inr (Or.inl rfl))).mono (fun _ _ h => h)
    fun _ _ h => h.1

theorem follows_sorobanIsSettled : (sorobanIsSettled id).Follows (protocol own id)
    (fun settled φ => φ = if settled = true then .confirmed else .pending)
      (fun _ φ => φ = .pending) .pending := by
  refine follows_sorobanIsSettled_of (P := fun φ => φ = .pending)
    (follows_pending (r := .getAccount) not_false) ?_ fun _ h => h
  rintro _ rfl
  refine Follows.ask ?_ fun _ _ => ⟨.pending, .stay not_false, rfl⟩
  intro (sim : IsSettledSimulation) _
  by_cases hsim : sim = .restore ∨ sim = .value true
  · exact ⟨.confirmed, .marker hsim, (if_pos (decide_eq_true hsim)).symm⟩
  · exact ⟨.pending, .stay not_false, (if_neg (by simpa using hsim)).symm⟩

theorem follows_checkSettled : (checkSettled id).Follows (protocol own id)
    (fun settled φ => φ = if settled = true then .confirmed else .pending)
      (fun _ _ => False) .pending :=
  follows_checkSettled_of follows_sorobanIsSettled

theorem follows_failed : (setStatus id .settlementFailed).Follows (protocol own id)
    (fun _ => (protocol own id).final) Thrown .pending :=
  (follows_setFailed (Or.inl rfl) (Or.inr (Or.inr rfl))).mono (fun _ _ h => Or.inl h)
    fun _ _ h => h.thrown (Or.inr rfl)

theorem follows_settleCollaborators (cfg : StellarConfig) {payload : PaymentReceivedPayload}
    (ho : Owns own payload.orderId) {order : Order} (horder : ∀ h ∈ order.txHash, own h)
    (collaborators : List Collaborator) :
    (settleCollaborators cfg payload order collaborators).Follows (protocol own payload.orderId)
      (fun _ => (protocol own payload.orderId).final) Thrown .pending := by
  refine follows_settleCollaborators_of (P := fun φ => φ = .pending)
    (R := fun settled φ => φ = if settled = true then .confirmed else .pending)
    (F := fun funded φ => φ = if funded = true then .pending else .idle)
    (follows_findRecipientsMissingTrustline_of (fun _ => stays_ask not_false) _) ?_ ?_ ?_ ?_ ?_ ?_
  · rintro _ rfl
    exact follows_failed
  · rintro _ rfl
    exact follows_checkSettled.mono (fun _ _ h => h) fun _ _ h => h.elim
  · rintro _ rfl
    exact (follows_recoverAlreadySettled ho horder).mono (fun _ _ h => Or.inl h)
      fun _ _ h => h.thrown (Or.inr rfl)
  · rintro _ rfl
    exact (follows_checkFloat cfg _).mono (fun _ _ h => h) fun _ _ h => h.elim
  · rintro _ rfl
    exact follows_settleWithRetry ho cfg _ _ _ _
  · rintro _ rfl
    exact Or.inl rfl

theorem follows_settlePending (cfg : StellarConfig) {payload : PaymentReceivedPayload}
    (ho : Owns own payload.orderId) {order : Order} (horder : ∀ h ∈ order.txHash, own h) :
    (settlePending cfg payload order).Follows (protocol own payload.orderId)
      (fun _ => (protocol own payload.orderId).final) Thrown .pending := by
  refine follows_settlePending_of (P := fun φ => φ = .pending)
    ((follows_pending (r := .collaboratorFindMany order.productId) not_false).mono
      (fun _ _ h => h) fun _ _ h => h ▸ trivial) ?_ ?_
  · rintro _ rfl
    exact follows_failed
  · rintro collaborators _ rfl
    exact follows_settleCollaborators cfg ho horder collaborators

theorem follows_settleOrder (cfg : StellarConfig) {payload : PaymentReceivedPayload}
    (ho : Owns own payload.orderId) : (settleOrder cfg payload).Follows
      (protocol own payload.orderId) (fun _ => (protocol own payload.orderId).final) Thrown
        .idle := by
  refine follows_settleOrder_of
    (R := fun found φ => φ = .idle ∧ ∀ p ∈ found, ∀ h ∈ p.1.txHash, own h)
    (S := fun order φ => φ = .pending ∧ ∀ h ∈ order.txHash, own h) (Follows.ask ?_ ?_) ?_ ?_ ?_ ?_
  · exact fun found hf => ⟨.idle, .stay not_false, rfl, fun p hp => hf p hp rfl⟩
  · exact fun e he => ⟨.failing, .unread, he⟩
  · rintro _ ⟨rfl, -⟩
    exact Or.inl rfl
  · rintro order creatorId _ ⟨rfl, -⟩
    exact ⟨_, _, rfl⟩
  · rintro order creatorId _ ⟨rfl, hf⟩
    exact Follows.ask (fun _ _ => ⟨.pending, .enter, rfl, hf _ rfl⟩) fun e he =>
      ⟨.failing, .refused, he⟩
  · rintro order _ ⟨rfl, horder⟩
    exact follows_settlePending cfg ho horder

theorem conforms_handleSettlementError {e : Failure} {φ : Phase} (h : Thrown e φ) :
    (handleSettlementError id e).Conforms (protocol own id) φ := by
  have hfinal : ∀ {e}, e = Failure.settlementNetwork ∨ (∃ txHash, e = .settlementTimeout txHash) ∨
      (∃ source target, e = .invalidStateTransition source target) → Thrown e φ →
        (protocol own id).final φ := by
    rintro e he h
    cases φ with
    | pending => exact Or.inr rfl
    | idle => exact Or.inl rfl
    | failing =>
      rcases he with rfl | ⟨_, rfl⟩ | ⟨_, _, rfl⟩ <;> rcases h with h | h <;> cases h
    | _ => exact h.elim
  have hfailed : ∀ {e}, (¬ ∃ source target, e = Failure.invalidStateTransition source target) →
      Thrown e φ → (setStatus id .settlementFailed).Conforms (protocol own id) φ := by
    rintro e he h
    have hφ : φ = .pending ∨ φ = .confirmed ∨ φ = .failing := by
      cases φ with
      | pending => exact Or.inl rfl
      | failing => exact Or.inr (Or.inr rfl)
      | idle => exact absurd h he
      | _ => exact h.elim
    exact (follows_setFailed hφ (Or.inl rfl)).mono (fun _ _ h => Or.inl h)
      fun _ _ h => Or.inl h.1
  cases e with
  | invalidStateTransition source target => exact hfinal (Or.inr (Or.inr ⟨_, _, rfl⟩)) h
  | settlementTimeout txHash => exact hfinal (Or.inr (Or.inl ⟨_, rfl⟩)) h
  | settlementNetwork => exact hfinal (Or.inl rfl) h
  | _ => exact hfailed (by simp) h

theorem conforms_handlePaymentReceived (ho : Owns own id) (cfg : StellarConfig)
    (payload : PaymentReceivedPayload) :
    (handlePaymentReceived cfg payload).Conforms (protocol own id) .idle := by
  by_cases hid : payload.orderId = id
  · subst hid
    exact Follows.tryCatch (follows_settleOrder cfg ho) fun _ _ h =>
      conforms_handleSettlementError h
  · have hk : OfOrder (fun _ p => p.Stays (protocol own id) .idle) payload.orderId :=
      ofOrder_stays hid .idle
    exact (hk.settlement.handlePaymentReceived
      (fun _ _ _ => ⟨stays_ask not_false, stays_ask not_false⟩) fun _ hdata =>
      stays_ask fun hw => hid (hdata.symm.trans hw)).follows (fun _ => Or.inl rfl)
        fun _ => Or.inl rfl

/-! ## Startup recovery -/

theorem follows_recoverByMarker (ho : Owns own id) {o : StuckOrder} (hid : o.id = id) :
    (recoverByMarker o).Follows (protocol own id) (fun recovered φ =>
      if recovered = true then φ = .idle else φ = .pending ∨ φ = .failing) (fun _ _ => False)
        .pending := by
  subst hid
  refine Follows.tryCatch (Y := fun _ φ => φ = .pending ∨ φ = .failing) ?_ ?_
  · refine Follows.bind (follows_sorobanIsSettled.mono (fun _ _ h => h)
      fun _ _ h => Or.inl h) ?_
    rintro settled _ rfl
    cases settled with
    | true =>
      refine Follows.bind ((follows_recordRecoveredSettlement (Or.inr (Or.inr rfl))
        (ho.placeholder _)).mono (fun _ _ h => h) fun _ _ h => Or.inr h.1) ?_
      rintro _ _ rfl
      exact rfl
    | false => exact Or.inl rfl
  · rintro e φ h
    exact h

theorem follows_recheckTransaction {o : StuckOrder} (hid : o.id = id) {txHash : TxHash}
    (hown : own txHash) : (recheckTransaction o txHash).Follows (protocol own id)
      (fun recovered φ => φ = if recovered.isSome = true then .idle else .pending)
        (fun _ _ => False) .pending := by
  subst hid
  have hpending : Stray .pending := Or.inr (Or.inl rfl)
  refine Follows.tryCatch (Y := fun _ φ => φ = .pending) ?_ ?_
  · refine Follows.bind (R := fun (status : TxStatus) φ =>
      φ = if status = .success then .confirmed else .pending)
        (Follows.ask ?_ fun _ _ => ⟨.pending, .stay not_false, rfl⟩) ?_
    · intro status _
      cases status with
      | success => exact ⟨.confirmed, .applied hown, rfl⟩
      | _ => exact ⟨.pending, .stay not_false, rfl⟩
    rintro status φ rfl
    cases status with
    | success =>
      refine Follows.bind ((follows_recordRecoveredSettlement hpending hown).mono
        (fun _ _ h => h) fun _ _ h => h.1) ?_
      rintro _ _ rfl
      exact rfl
    | failed =>
      refine Follows.bind ((follows_setFailed (Or.inl rfl) hpending).mono (fun _ _ h => h)
        fun _ _ h => h.1) ?_
      rintro _ _ rfl
      exact rfl
    | notFound => exact rfl
  · rintro e _ rfl
    exact rfl

theorem follows_retrySettlement {o : StuckOrder} (hid : o.id = id) :
    (retrySettlement o).Follows (protocol own id) (fun _ φ => φ = .idle) (fun _ φ => φ = .idle)
      .pending := by
  subst hid
  refine Follows.bind (R := fun _ φ => φ = .idle) (Follows.ask
    (fun _ _ => ⟨.idle, .rollback, rfl⟩) fun _ _ => ⟨.idle, .rollback, rfl⟩) ?_
  rintro _ _ rfl
  refine Follows.bind (R := fun _ φ => φ = .idle)
    (Follows.signal (Emits.other (by simp)) rfl) ?_
  rintro _ _ rfl
  exact rfl

theorem follows_recoverByTransaction {o : StuckOrder} (hid : o.id = id) {txHash : TxHash}
    (hown : own txHash) : (recoverByTransaction o txHash).Follows (protocol own id)
      (fun _ φ => φ = .idle) (fun _ _ => False) .pending := by
  subst hid
  have hidle : Stray .idle := Or.inl rfl
  refine Follows.tryCatch (Y := fun _ φ => φ = .idle) ?_ ?_
  · refine Follows.bind (R := fun (status : TxStatus) φ =>
      φ = if status = .success then .confirmed else .pending) (Follows.ask ?_
        fun _ _ => ⟨.idle, .drop not_false (Or.inl rfl) hidle, rfl⟩) ?_
    · intro status _
      cases status with
      | success => exact ⟨.confirmed, .applied hown, rfl⟩
      | _ => exact ⟨.pending, .stay not_false, rfl⟩
    rintro status φ rfl
    cases status with
    | success =>
      refine Follows.bind (R := fun (found : Option Settlement) φ =>
        φ = if found.isSome = true then .recorded else .confirmed) (Follows.ask ?_
          fun _ _ => ⟨.idle, .drop not_false (Or.inr rfl) hidle, rfl⟩) ?_
      · intro (found : Option Settlement) _
        cases found with
        | none => exact ⟨.confirmed, .stay not_false, rfl⟩
        | some s => exact ⟨.recorded, .row, rfl⟩
      rintro found φ rfl
      cases found with
      | some s =>
        refine Follows.bind (R := fun _ φ => φ = .idle) (Follows.ask
          (fun _ _ => ⟨.idle, .settled (by simp), rfl⟩)
            fun _ _ => ⟨.idle, .unsettled hidle (by simp), rfl⟩) ?_
        rintro _ _ rfl
        exact rfl
      | none =>
        refine Follows.bind ((follows_recordRecoveredSettlement hidle hown).mono
          (fun _ _ h => h) fun _ _ h => h.1) ?_
        rintro _ _ rfl
        exact rfl
    | failed =>
      refine Follows.bind ((follows_setFailed (Or.inl rfl) hidle).mono (fun _ _ h => h)
        fun _ _ h => h.1) ?_
      rintro _ _ rfl
      exact rfl
    | notFound =>
      refine Follows.bind ((follows_recheckTransaction rfl hown).mono (fun _ _ h => h)
        fun _ _ h => h.elim) ?_
      rintro recovered _ rfl
      cases recovered with
      | some b => exact rfl
      | none => exact follows_retrySettlement rfl
  · rintro e _ rfl
    exact rfl

/-- The recovery of the order when the query found it in `settlementPending`. -/
theorem follows_recoverOrder (ho : Owns own id) {o : StuckOrder} (hid : o.id = id)
    (hs : o.order.status = .settlementPending) (hown : ∀ h ∈ o.order.txHash, own h) :
    (recoverOrder o).Follows (protocol own id) (fun _ φ => φ = .idle) (fun _ φ => φ = .idle)
      .pending := by
  rw [recoverOrder, hs]
  dsimp only
  unfold recoverSettlementPending
  split
  · next txHash he =>
    have htx : o.order.txHash = some txHash := by
      unfold truthy at he
      split at he
      · cases he
      · exact he
    exact (follows_recoverByTransaction hid (hown _ htx)).mono (fun _ _ h => h)
      fun _ _ h => h.elim
  · refine Follows.bind ((follows_recoverByMarker ho hid).mono (fun _ _ h => h)
      fun _ _ h => h.elim) ?_
    rintro recovered φ hφ
    cases recovered with
    | true => exact hφ
    | false =>
      have hφ : φ = .pending ∨ φ = .confirmed ∨ φ = .failing := hφ.imp_right Or.inr
      subst hid
      refine Follows.bind ((follows_setFailed hφ (Or.inl rfl)).mono (fun _ _ h => h)
        fun _ _ h => h.1) ?_
      rintro _ _ rfl
      exact rfl

/-- The recovery of an order that was found in another status. -/
theorem stays_recoverOrder {o : StuckOrder} (hs : o.order.status ≠ .settlementPending)
    (φ : Phase) : (recoverOrder o).Stays (protocol own id) φ := by
  have hk : OfReads fun _ p => p.Stays (protocol own id) φ := ofReads_stays φ
  unfold recoverOrder
  split
  · refine hk.bind (hk.read rfl) fun _ => hk.bind ?_ fun _ => hk.ret _
    exact ⟨φ, .other (by simp), rfl⟩
  · next h => exact absurd h hs
  · exact hk.ret _

/-- The recovery of another order. -/
theorem stays_recoverOrder_other {o : StuckOrder} (hid : o.id ≠ id) (φ : Phase) :
    (recoverOrder o).Stays (protocol own id) φ :=
  (ofOrder_stays hid φ).recoverOrder fun _ => stays_recordRecoveredSettlement hid _

/-- The rest of a pass without the order, or without an order to decide. -/
theorem stays_recoverAll (φ : Phase) : ∀ rows : List StuckOrder,
    (∀ o ∈ rows, o.id = id → o.order.status ≠ .settlementPending) →
      (recoverAll rows).Stays (protocol own id) φ
  | [], _ => rfl
  | o :: rest, h => by
    have hk : OfReads fun _ p => p.Stays (protocol own id) φ := ofReads_stays φ
    refine hk.bind (hk.tryCatch ?_ fun _ => hk.ret _) fun _ =>
      hk.bind (stays_recoverAll φ rest fun o' ho' => h o' (List.mem_cons_of_mem o ho'))
        fun _ => hk.ret _
    by_cases hid : o.id = id
    · exact stays_recoverOrder (h o List.mem_cons_self hid) φ
    · exact stays_recoverOrder_other hid φ

/-- The rest of a pass with the order in `settlementPending`, once. -/
theorem follows_recoverAll (ho : Owns own id) : ∀ rows : List StuckOrder,
    (rows.map (·.id)).Nodup → (∀ o ∈ rows, o.id = id → ∀ h ∈ o.order.txHash, own h) →
      (∃ o ∈ rows, o.id = id ∧ o.order.status = .settlementPending) →
        (recoverAll rows).Follows (protocol own id) (fun _ φ => φ = .idle)
          (fun _ φ => φ = .idle) .pending
  | [], _, _, h => by
    obtain ⟨_, hmem, -⟩ := h
    exact absurd hmem List.not_mem_nil
  | o :: rest, hnd, hown, h => by
    obtain ⟨hn, hnd⟩ : o.id ∉ rest.map (·.id) ∧ (rest.map (·.id)).Nodup := List.nodup_cons.1 hnd
    have hcount : ∀ recovered : Bool, ∀ counts : ℕ × ℕ, ∀ φ, φ = Phase.idle →
        (Prog.ret (S := backend) (if recovered then (counts.1 + 1, counts.2)
          else (counts.1, counts.2 + 1))).Follows (protocol own id) (fun _ φ => φ = .idle)
            (fun _ φ => φ = .idle) φ := fun _ _ _ h => h
    by_cases hid : o.id = id
    · -- the order is first, and not among the others
      have hs : o.order.status = .settlementPending := by
        obtain ⟨o', hmem, hid', hs⟩ := h
        rcases List.mem_cons.1 hmem with rfl | hmem
        · exact hs
        · exact absurd (List.mem_map.2 ⟨o', hmem, hid'.trans hid.symm⟩) hn
      refine Follows.bind (R := fun _ φ => φ = .idle) ?_ ?_
      · refine Follows.tryCatch (follows_recoverOrder ho hid hs (hown o List.mem_cons_self hid)) ?_
        rintro _ _ rfl
        exact rfl
      rintro recovered _ rfl
      refine Follows.bind ((stays_recoverAll .idle rest fun o' hmem hid' => ?_).follows
        (Q := fun _ φ => φ = .idle) (fun _ => rfl) fun _ => rfl) fun counts φ h =>
          hcount recovered counts φ h
      exact absurd (List.mem_map.2 ⟨o', hmem, hid'.trans hid.symm⟩) hn
    · refine Follows.bind (R := fun _ φ => φ = .pending) ?_ ?_
      · refine Follows.tryCatch ((stays_recoverOrder_other hid .pending).follows
          (X := fun _ φ => φ = .pending) (fun _ => rfl) fun _ => rfl) ?_
        rintro _ _ rfl
        exact rfl
      rintro recovered _ rfl
      refine Follows.bind (follows_recoverAll ho rest hnd
        (fun o' hmem => hown o' (List.mem_cons_of_mem o hmem)) ?_) fun counts φ h =>
          hcount recovered counts φ h
      obtain ⟨o', hmem, hid', hs⟩ := h
      rcases List.mem_cons.1 hmem with rfl | hmem
      · exact absurd hid' hid
      · exact ⟨o', hmem, hid', hs⟩

theorem conforms_onApplicationBootstrap (ho : Owns own id) :
    (onApplicationBootstrap.bind fun _ => .ret ()).Conforms (protocol own id) .idle := by
  refine Follows.bind (R := fun _ φ => φ = .idle) ?_ fun _ _ h => Or.inl h
  refine Follows.bind (R := fun (rows : List StuckOrder) φ =>
    ((rows.map (·.id)).Nodup ∧ ∀ o ∈ rows, o.id = id → ∀ h ∈ o.order.txHash, own h) ∧
      ((∃ o ∈ rows, o.id = id ∧ o.order.status = .settlementPending) ∧ φ = .pending ∨
        (∀ o ∈ rows, o.id = id → o.order.status ≠ .settlementPending) ∧ φ = .idle))
    (Follows.ask ?_ fun _ _ => ⟨.idle, .stay not_false, Or.inl rfl⟩) ?_
  · intro (rows : List StuckOrder) hrows
    by_cases h : ∃ o ∈ rows, o.id = id ∧ o.order.status = .settlementPending
    · exact ⟨.pending, .found h, hrows, Or.inl ⟨h, rfl⟩⟩
    · refine ⟨.idle, .stay not_false, hrows, Or.inr ⟨fun o hmem hid hs => h ⟨o, hmem, hid, hs⟩,
        rfl⟩⟩
  · rintro rows φ ⟨⟨hnd, hown⟩, ⟨h, rfl⟩ | ⟨h, rfl⟩⟩
    · exact (follows_recoverAll ho rows hnd hown h).mono (fun _ _ h => h) fun _ _ h => Or.inl h
    · exact (stays_recoverAll .idle rows h).follows (fun _ => rfl) fun _ => Or.inl rfl

/-! ## The other calls -/

theorem stays_claimPayment (orderId paymentRef : String) {target : OrderStatus}
    (ht : target = .waitingWallet ∨ target = .paymentReceived) :
    (claimPayment orderId paymentRef target).Stays (protocol own id) .idle := by
  have hk : OfReads fun _ p => p.Stays (protocol own id) .idle := ofReads_stays .idle
  refine hk.tryCatch (hk.bind ?_ fun _ => hk.ret _) fun e => ?_
  · by_cases hid : orderId = id
    · subst hid
      exact Stays.ask fun _ _ => .claim ht
    · exact stays_ask hid
  · cases e with
    | uniqueViolation => exact hk.ret _
    | _ => exact hk.raise _

theorem stays_handleGcashPayment (orderId paymentRef : String) :
    (handleGcashPayment orderId paymentRef).Stays (protocol own id) .idle := by
  have hk : OfReads fun _ p => p.Stays (protocol own id) .idle := ofReads_stays .idle
  refine hk.bind (hk.read rfl) fun existing => ?_
  cases existing with
  | some _ => exact hk.ret _
  | none =>
    refine hk.bind (hk.read rfl) fun found => ?_
    cases found with
    | none => exact hk.raise _
    | some found =>
      refine hk.bind (hk.read rfl) fun wallet => ?_
      cases wallet with
      | none =>
        rw [confirmPayment]
        split
        · exact hk.raise _
        refine hk.bind (stays_claimPayment _ _ (Or.inl rfl)) fun claimed => ?_
        split
        · exact ⟨.idle, .other (by simp), rfl⟩
        · exact hk.ret _
      | some walletAddress =>
        rw [confirmPayment]
        split
        · exact hk.raise _
        refine hk.bind (stays_claimPayment _ _ (Or.inr rfl)) fun claimed => ?_
        split
        · exact ⟨.idle, .other (by simp), rfl⟩
        · exact hk.ret _

theorem stays_resumeOrders (walletAddress : String) : ∀ rows : List StuckOrder,
    (resumeOrders walletAddress rows).Stays (protocol own id) .idle
  | [] => rfl
  | _ :: rest => ⟨.idle, .other (by simp), stays_resumeOrders walletAddress rest⟩

theorem stays_connect (creatorId walletAddress : String) (provider : WalletProvider) :
    (connect creatorId walletAddress provider).Stays (protocol own id) .idle := by
  have hk : OfReads fun _ p => p.Stays (protocol own id) .idle := ofReads_stays .idle
  refine hk.bind (hk.read rfl) fun creator => ?_
  cases creator with
  | false => exact hk.raise _
  | true =>
    refine hk.bind (hk.read rfl) fun existing => ?_
    cases existing with
    | true => exact hk.raise _
    | false =>
      refine hk.bind (hk.tryCatch (stays_ask not_false) fun e => ?_) fun wallet =>
        hk.bind (hk.bind (hk.read rfl) fun rows => stays_resumeOrders _ rows) fun _ => hk.ret _
      cases e with
      | uniqueViolation => exact hk.raise _
      | _ => exact hk.raise _

theorem stays_checkout (productId buyerEmail : String) :
    (checkout productId buyerEmail).Stays (protocol own id) .idle := by
  have hk : OfReads fun _ p => p.Stays (protocol own id) .idle := ofReads_stays .idle
  refine hk.bind (hk.read rfl) fun found => ?_
  cases found with
  | none => exact hk.raise _
  | some product => exact hk.bind (stays_ask fun h => h rfl) fun _ => hk.ret _

theorem suspended_method (cfg : StellarConfig) (c : ServiceCall) : (c.method cfg).Suspended := by
  cases c with
  | payment p => exact Payments.suspended_method p
  | _ => trivial

/-- Every call waits first, and follows the protocol. -/
theorem suspended_conforms (ho : Owns own id) (cfg : StellarConfig) (c : ServiceCall) :
    (c.method cfg).Suspended ∧ (c.method cfg).Conforms (protocol own id) .idle := by
  have hstays : ∀ {β : Type} {p : Method β}, p.Stays (protocol own id) .idle →
      (p.bind fun _ => .ret ()).Conforms (protocol own id) .idle := fun h =>
    Follows.bind (h.follows (Q := fun _ φ => φ = .idle) (fun _ => rfl) fun _ => Or.inl rfl)
      fun _ _ h => Or.inl h
  have hpayment : ∀ orderId paymentRef,
      (handleGcashPayment orderId paymentRef).Conforms (protocol own id) .idle := fun _ _ =>
    (stays_handleGcashPayment _ _).follows (fun _ => Or.inl rfl) fun _ => Or.inl rfl
  refine ⟨suspended_method cfg c, ?_⟩
  cases c with
  | checkout productId buyerEmail => exact hstays (stays_checkout _ _)
  | connect creatorId walletAddress provider => exact hstays (stays_connect _ _ _)
  | paymentReceived payload => exact conforms_handlePaymentReceived ho cfg payload
  | bootstrap => exact conforms_onApplicationBootstrap ho
  | payment p =>
    cases p with
    | webhook orderId paymentRef => exact hpayment _ _
    | simulate demoMode id' =>
      cases demoMode with
      | false => exact Or.inl rfl
      | true => exact hpayment _ _

/-! ## What the world answers -/

/-- The hashes that the database has of the order. -/
structure Owned (own : TxHash → Prop) (id : String) (w : World) : Prop where
  order : ∀ o ∈ w.db.orders.lookup id, ∀ h ∈ o.txHash, own h
  settlement : ∀ s ∈ w.db.settlements.lookup id, own s.txHash

/-- Nothing is asked of the hashes. -/
theorem owns_any (id : String) : Owns (fun _ => True) id :=
  ⟨fun _ => trivial, fun _ _ => trivial⟩

theorem owned_any (id : String) (w : World) : Owned (fun _ => True) id w :=
  ⟨fun _ _ _ _ => trivial, fun _ _ => trivial⟩

theorem stored_thrown {r : Request} (hr : Reads r) (hp : ∀ h n, r ≠ .getTransaction h n)
    (ht : r.thrown = .database) {cfg : StellarConfig} {c : Choice} {w : World} {e : Failure}
    (h : (exec cfg r c w).1 = .error e) : Stored e :=
  Or.inl ((exec_thrown cfg hr hp h).trans ht)

/-- The answers of the world are those of the protocol. -/
theorem answers_exec (cfg : StellarConfig) {w : World} (h : Owned own id w) (r : Request)
    (c : Choice) : Answers own id r (exec cfg r c w).1 := by
  cases hx : (exec cfg r c w).1 with
  | ok a =>
    obtain ⟨-, ha⟩ := exec_ok cfg hx
    cases r with
    | orderFindUnique id' =>
      obtain rfl := Except.ok.inj ha
      rintro p hp rfl
      obtain ⟨o, ho, rfl⟩ := Option.map_eq_some_iff.1 hp
      exact h.order o ho
    | settlementFindUnique id' =>
      obtain rfl := Except.ok.inj ha
      rintro s hs rfl
      exact h.settlement s hs
    | orderFindMany statuses =>
      obtain rfl := Except.ok.inj ha
      have hperm := reorder_perm c.order (w.db.ordersIn statuses)
      constructor
      · refine (hperm.map _).nodup_iff.2 ?_
        rw [Database.ordersIn, List.map_map]
        exact w.db.orders.nodupKeys.sublist List.filter_sublist
      · rintro o ho rfl
        exact h.order o.order (lookup_of_mem_ordersIn (hperm.mem_iff.1 ho))
    | _ => trivial
  | error e =>
    cases r with
    | orderFindUnique id' => exact stored_thrown rfl (by simp) rfl hx
    | collaboratorFindMany productId => exact stored_thrown rfl (by simp) rfl hx
    | settlementFindUnique orderId => exact stored_thrown rfl (by simp) rfl hx
    | orderUpdate id' data =>
      rcases exec_orderUpdate cfg id' data c w with ⟨o, -, -, -, hx'⟩ | ⟨o, -, -, -, hx'⟩ |
        ⟨e', hx', he⟩
      · rw [hx'] at hx
        cases hx
      · rw [hx'] at hx
        exact Or.inl (Except.error.inj hx).symm
      · rw [hx'] at hx
        obtain rfl := Except.error.inj hx
        exact he.imp And.left And.left
    | settlementCreate data =>
      rcases exec_settlementCreate cfg data c w with ⟨-, -, hx'⟩ | ⟨-, -, hx'⟩ | ⟨e', hx', he⟩
      · rw [hx'] at hx
        cases hx
      · rw [hx'] at hx
        exact Or.inl (Except.error.inj hx).symm
      · rw [hx'] at hx
        obtain rfl := Except.error.inj hx
        exact he.imp And.left And.left
    | _ => trivial

/-- Nothing happens to the order, unless it is created. -/
structure Unmoved (id : String) (w w' : World) : Prop where
  order : w'.db.orders.lookup id = w.db.orders.lookup id ∨ w.db.orders.lookup id = none ∧
    ∃ o, w'.db.orders.lookup id = some o ∧ o.status = .paymentPending ∧ o.txHash = none
  settlement : w'.db.settlements.lookup id = w.db.settlements.lookup id
  emitted : w'.emitted = w.emitted
  contract : w'.chain.contract = w.chain.contract
  results : w'.chain.results = w.chain.results

theorem Unmoved.refl (w : World) : Unmoved id w w :=
  ⟨Or.inl rfl, rfl, rfl, rfl, rfl⟩

theorem Unmoved.status {w w' : World} (h : Unmoved id w w') : statusOf w' id = statusOf w id ∨
    statusOf w id = none ∧ statusOf w' id = some .paymentPending := by
  rcases h.order with he | ⟨hnone, o, ho, hst, -⟩
  · exact Or.inl (by rw [statusOf, he, statusOf])
  · exact Or.inr (by simp [statusOf, hnone, ho, hst])

theorem unmoved_exec (cfg : StellarConfig) {r : Request} (h : ¬ Writes id r) (c : Choice)
    (w : World) : Unmoved id w (exec cfg r c w).2 := by
  by_cases hread : r.reads = true
  · rw [exec_reads cfg hread]
    exact .refl w
  cases r with
  | orderCreate data =>
    rcases exec_orderCreate cfg data c w with ⟨x, hl, hx⟩ | ⟨e, hx⟩
    · rw [hx]
      refine ⟨?_, rfl, rfl, rfl, rfl⟩
      by_cases hid : id = c.uuid
      · subst hid
        exact Or.inr ⟨hl, _, w.setOrder_lookup _ _, not_not.1 h, rfl⟩
      · exact Or.inl (w.setOrder_lookup_ne _ hid)
    · rw [hx]
      exact .refl w
  | orderUpdate id' data =>
    rcases exec_orderUpdate cfg id' data c w with ⟨o, -, -, -, hx⟩ | ⟨o, -, -, -, hx⟩ |
      ⟨e, hx, -⟩
    · rw [hx]
      exact ⟨Or.inl (w.setOrder_lookup_ne _ (Ne.symm h)), rfl, rfl, rfl, rfl⟩
    · rw [hx]
      exact ⟨Or.inl (w.setOrder_lookup_ne _ (Ne.symm h)), rfl, rfl, rfl, rfl⟩
    · rw [hx]
      exact .refl w
  | settlementCreate data =>
    rcases exec_settlementCreate cfg data c w with ⟨-, -, hx⟩ | ⟨-, -, hx⟩ | ⟨e, hx, -⟩
    · rw [hx]
      exact ⟨Or.inl rfl, AList.lookup_insert_ne (Ne.symm h), rfl, rfl, rfl⟩
    · rw [hx]
      exact ⟨Or.inl rfl, AList.lookup_insert_ne (Ne.symm h), rfl, rfl, rfl⟩
    · rw [hx]
      exact .refl w
  | walletCreate creatorId walletAddress provider =>
    rcases exec_walletCreate cfg creatorId walletAddress provider c w with ⟨wallet, -, -, hx⟩ |
      ⟨wallet, -, -, hx⟩ | ⟨e, hx⟩
    all_goals
      rw [hx]
      exact ⟨Or.inl rfl, rfl, rfl, rfl, rfl⟩
  | sendTransaction tx =>
    rcases exec_sendTransaction_world cfg tx c w with hx | hx
    · rw [hx]
      exact .refl w
    · rw [hx]
      exact ⟨Or.inl rfl, rfl, rfl, rfl, rfl⟩
  | _ => exact absurd rfl hread

end OrderProtocol

end Kreav
