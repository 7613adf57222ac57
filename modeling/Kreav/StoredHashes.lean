import Kreav.Resends

/-!
# The stored hash of an order in `settlementPending`

One run of `handlePaymentReceived` among runs for other orders, with a working database and
any faults of the RPC server and of Horizon. When the run ends with its order in
`settlementPending`, the order has the hash of the transaction that the network accepted in
the run, if and only if no transaction has its last poll answered with `notFound`
(`pending_hash_stored`) : the timeout is the only way in which the run leaves such an order,
and it leaves the hash out.

`StoredHashes.protocol` says where the run stands towards its order, and `Fact` what is then
known of the database and of the transactions that the network has accepted.
-/

open Async Prog

namespace Kreav

namespace StoredHashes

/-- The database answers the run in thread `i`. -/
def Meets (i : ℕ) (s : Config backend World Unit) (a : Action Choice Env) : Prop :=
  ∀ c r, a = .run i c → s.Waits i r → r.thrown = .database → c.fault = .none

/-- The hash stored for the order. -/
def hashOf (w : World) (id : String) : Option TxHash :=
  (w.db.orders.lookup id).bind (·.txHash)

/-- The last poll of a transaction, whose hash the order did not have in `w₀` already, is
answered with `notFound`. -/
def TimesOut (cfg : StellarConfig) (w₀ : World) (id : String) (i : ℕ)
    (s : Config backend World Unit) (a : Action Choice Env) : Prop :=
  ∃ c txHash n, a = .run i c ∧ s.Waits i (.getTransaction txHash n) ∧
    n + 1 = pollMaxAttempts ∧ hashOf w₀ id ≠ some txHash ∧
      (exec cfg (.getTransaction txHash n) c s.world).1 = .ok .notFound

/-- The last transaction for the order that the network accepted after `w₀`. -/
def Accepted (w₀ : World) (id : String) (w : World) (tx : Tx) : Prop :=
  ∃ sent, w.chain.sent = sent ++ w₀.chain.sent ∧ sent.find? (·.orderRef = id) = some tx

/-- In `settlementPending` the order has the hash of this transaction. -/
def Stored (w₀ : World) (id : String) (w : World) : Prop :=
  statusOf w id = some .settlementPending → ∀ tx, Accepted w₀ id w tx →
    hashOf w id = some (.onChain tx)

/-! ## The protocol of a run -/

/-- Where a run stands with the order. -/
inductive Phase
  /-- A run for another order. -/
  | foreign
  | start
  /-- The order is in `settlementPending`. -/
  | claimed
  /-- The transaction was accepted. -/
  | polling (tx : Tx)
  | timedOut
  /-- A final status was written. -/
  | done
  /-- A write of the order failed. -/
  | broken
  | ended

/-- The request writes no order `id` and sends no transaction of it. -/
def Apart (id : String) : Request → Prop
  | .orderCreate _ => False
  | .orderUpdate id' _ => id' ≠ id
  | .sendTransaction tx => tx.orderRef ≠ id
  | _ => True

/-- Besides, it is no poll. -/
def Plain (id : String) : Request → Prop
  | .getTransaction _ _ => False
  | r => Apart id r

variable (id : String)

/-- How the answers take a run on. -/
inductive Reply : Phase → (r : Request) → Except Failure r.Ans → Phase → Prop
  | foreign {r x} (h : Apart id r) : Reply .foreign r x .foreign
  -- before the write of `settlementPending`
  | first {r x} (h : Plain id r) : Reply .start r x .start
  | claim : Reply .start (.orderUpdate id { status := .settlementPending }) (.ok ()) .claimed
  | unclaimed {e} :
    Reply .start (.orderUpdate id { status := .settlementPending }) (.error e) .start
  | giveUp {x} : Reply .start (.orderUpdate id { status := .settlementFailed }) x .done
  -- the settlement
  | work {r x} (h : Plain id r) : Reply .claimed r x .claimed
  | write {data} (hs : data.status ≠ .settlementPending) :
    Reply .claimed (.orderUpdate id data) (.ok ()) .done
  | cut {data e} (hp : data.paymentRef = none) :
    Reply .claimed (.orderUpdate id data) (.error e) .broken
  | accept {tx} {status : SendStatus} (hid : tx.orderRef = id) (h : status.accepted = true) :
    Reply .claimed (.sendTransaction tx) (.ok status) (.polling tx)
  | refuse {tx} {status : SendStatus} (h : status.accepted = false) :
    Reply .claimed (.sendTransaction tx) (.ok status) .claimed
  | unsent {tx e} : Reply .claimed (.sendTransaction tx) (.error e) .claimed
  -- the polls
  | poll {tx n} (h : n + 1 < pollMaxAttempts) :
    Reply (.polling tx) (.getTransaction (.onChain tx) n) (.ok TxStatus.notFound) (.polling tx)
  | timeout {tx n} (h : n + 1 = pollMaxAttempts) :
    Reply (.polling tx) (.getTransaction (.onChain tx) n) (.ok TxStatus.notFound) .timedOut
  | found {tx n} {status : TxStatus} (h : status ≠ .notFound) :
    Reply (.polling tx) (.getTransaction (.onChain tx) n) (.ok status) .claimed
  | thrown {tx n e} :
    Reply (.polling tx) (.getTransaction (.onChain tx) n) (.error e) .claimed
  -- after a final status
  | after {r x} (h : Plain id r) : Reply .done r x .done
  | rewrite {data x} (hs : data.status ≠ .settlementPending) :
    Reply .done (.orderUpdate id data) x .done
  | broken {r x} : Reply .broken r x .broken

/-- The phases that a run may end in. -/
def Final : Phase → Prop
  | .claimed => False
  | .polling _ => False
  | _ => True

/-- The protocol of the runs. -/
def protocol : Protocol backend Phase where
  answers _ x := ∀ e, x = .error e → e.Thrown
  reply := Reply id
  event φ _ φ' := φ' = φ
  final := Final
  rest := .ended

variable {id}

/-! ## Programs that stay in a phase -/

theorem apart_of_reads {r : Request} (h : Reads r) : Apart id r := by
  cases r with
  | orderCreate data => cases h
  | orderUpdate id' data => cases h
  | sendTransaction tx => cases h
  | _ => trivial

theorem ofOrder_foreign {id' : String} (h : id' ≠ id) :
    OfOrder (fun _ p => p.Stays (protocol id) .foreign) id' where
  toCompositional := Stays.compositional (protocol id) Phase.foreign
  read hr := Stays.ask fun _ _ => .foreign (apart_of_reads hr)
  update _ := Stays.ask fun _ _ => .foreign h
  signal _ _ := Follows.signal rfl rfl

theorem stays_foreign (cfg : StellarConfig) {payload : PaymentReceivedPayload}
    (h : payload.orderId ≠ id) :
    (handlePaymentReceived cfg payload).Stays (protocol id) .foreign :=
  (ofOrder_foreign h).settlement.handlePaymentReceived
    (fun _ htx _ => ⟨(ofOrder_foreign h).read rfl,
      Stays.ask fun _ _ => .foreign fun he => h (htx.symm.trans he)⟩)
    fun _ _ => Stays.ask fun _ _ => .foreign trivial

/-- After a write failed nothing is said. -/
theorem stays_broken {α : Type} (p : Method α) : p.Stays (protocol id) .broken := by
  induction p with
  | ret a => rfl
  | raise e => rfl
  | emit v p ih => exact ⟨_, rfl, ih⟩
  | call r k ih => exact fun x _ => ⟨_, .broken, ih x⟩

/-- A request before, during or after the settlement that does not decide it. -/
theorem follows_plain {φ : Phase} (hφ : φ = .start ∨ φ = .claimed ∨ φ = .done) {r : Request}
    (h : Plain id r) : (await r).Follows (protocol id) (fun _ φ' => φ' = φ)
      (fun e φ' => φ' = φ ∧ e.Thrown) φ := by
  have hr : ∀ x, (protocol id).reply φ r x φ := by
    intro x
    rcases hφ with rfl | rfl | rfl
    · exact .first h
    · exact .work h
    · exact .after h
  exact Follows.ask (fun _ _ => ⟨φ, hr _, rfl⟩) fun _ he => ⟨φ, hr _, rfl, he _ rfl⟩

/-- The write that decides the settlement. -/
theorem follows_decide (data : OrderUpdate) (hs : data.status ≠ .settlementPending)
    (hp : data.paymentRef = none) :
    (await (.orderUpdate id data)).Follows (protocol id) (fun _ φ => φ = .done)
      (fun _ φ => φ = .broken) .claimed :=
  Follows.ask (fun _ _ => ⟨_, Reply.write hs, rfl⟩) fun _ _ => ⟨_, Reply.cut hp, rfl⟩

/-- Another write after it. -/
theorem follows_rewrite (data : OrderUpdate) (hs : data.status ≠ .settlementPending) :
    (await (.orderUpdate id data)).Follows (protocol id) (fun _ φ => φ = .done)
      (fun e φ => φ = .done ∧ e.Thrown) .done :=
  Follows.ask (fun _ _ => ⟨_, Reply.rewrite hs, rfl⟩)
    fun _ he => ⟨_, Reply.rewrite hs, rfl, he _ rfl⟩

/-! ## The run -/

/-- The handler writes `settlementFailed` for the error. -/
def Decided (id : String) (e : Failure) : Prop :=
  handleSettlementError id e = setStatus id .settlementFailed

theorem decided_of_thrown {e : Failure} (h : e.Thrown) : Decided id e := by
  rcases h with rfl | rfl | rfl | rfl <;> rfl

/-- The errors of one attempt. -/
def Attempt (id : String) (e : Failure) : Phase → Prop
  | .claimed => e = .settlementNetwork ∨ Decided id e
  | .timedOut => ∃ txHash, e = .settlementTimeout txHash
  | .broken => True
  | _ => False

/-- The errors that reach the handler's `catch`. -/
def Escapes (id : String) (e : Failure) : Phase → Prop
  | .start => e.Thrown ∨ ∃ source target, e = .invalidStateTransition source target
  | .claimed => Decided id e
  | .done => Decided id e
  | .timedOut => ∃ txHash, e = .settlementTimeout txHash
  | .broken => True
  | _ => False

theorem follows_pollFrom (tx : Tx) : ∀ left attempt : ℕ, attempt + (left + 1) = pollMaxAttempts →
    (pollFrom (.onChain tx) attempt (left + 1)).Follows (protocol id) (fun _ φ => φ = .claimed)
      (Attempt id) (.polling tx) := by
  intro left attempt hleft
  have hthrown : ∀ e, (protocol id).answers (.getTransaction (.onChain tx) attempt) (.error e) →
      ∃ φ, Reply id (.polling tx) (.getTransaction (.onChain tx) attempt) (.error e) φ ∧
        Attempt id e φ := fun e he =>
    ⟨.claimed, .thrown, Or.inr (decided_of_thrown (he e rfl))⟩
  cases left with
  | zero =>
    refine Follows.bind (R := fun (status : TxStatus) φ =>
      φ = if status = .notFound then .timedOut else .claimed) (Follows.ask ?_ hthrown) ?_
    · intro (status : TxStatus) _
      by_cases h : status = .notFound
      · subst h
        exact ⟨_, Reply.timeout (by omega), rfl⟩
      · exact ⟨_, Reply.found h, (if_neg h).symm⟩
    · rintro status φ rfl
      cases status with
      | notFound => exact ⟨_, rfl⟩
      | success => exact rfl
      | failed => exact rfl
  | succ left =>
    refine Follows.bind (R := fun (status : TxStatus) φ =>
      φ = if status = .notFound then .polling tx else .claimed) (Follows.ask ?_ hthrown) ?_
    · intro (status : TxStatus) _
      by_cases h : status = .notFound
      · subst h
        exact ⟨_, Reply.poll (by omega), rfl⟩
      · exact ⟨_, Reply.found h, (if_neg h).symm⟩
    · rintro status φ rfl
      cases status with
      | notFound => exact follows_pollFrom tx left (attempt + 1) (by omega)
      | success => exact rfl
      | failed => exact rfl

theorem follows_work {r : Request} (h : Plain id r) : (await r).Follows (protocol id)
    (fun _ φ => φ = .claimed) (Attempt id) .claimed :=
  (follows_plain (Or.inr (Or.inl rfl)) h).mono (fun _ _ h => h) fun _ _ h => by
    obtain ⟨rfl, he⟩ := h
    exact Or.inr (decided_of_thrown he)

theorem follows_submitSettle {tx : Tx} (hid : tx.orderRef = id) :
    (submitSettle tx).Follows (protocol id) (fun _ φ => φ = .claimed) (Attempt id) .claimed := by
  refine follows_submitSettle_of (P := fun φ => φ = .claimed)
    (R := fun status φ => φ = if status.accepted = true then .polling tx else .claimed)
    (follows_work (r := .simulateSettle tx) trivial) ?_ ?_ ?_ ?_
  · rintro _ rfl
    exact Or.inr rfl
  · rintro _ rfl
    refine Follows.ask ?_
      fun e he => ⟨.claimed, .unsent, Or.inr (decided_of_thrown (he e rfl))⟩
    intro (status : SendStatus) _
    cases h : status.accepted with
    | true => exact ⟨_, Reply.accept hid h, rfl⟩
    | false => exact ⟨_, Reply.refuse h, rfl⟩
  · rintro status _ h rfl
    rw [h]
    exact Or.inr rfl
  · rintro status _ h rfl
    rw [h]
    exact follows_pollFrom tx _ 0 rfl

theorem follows_invokeSettle (cfg : StellarConfig) (totalAmountBase : ℤ)
    (recipients : List RecipientInput) :
    (invokeSettle cfg id totalAmountBase recipients).Follows (protocol id)
      (fun _ φ => φ = .claimed) (Attempt id) .claimed := by
  refine follows_invokeSettle_of (P := fun φ => φ = .claimed) (Y := Attempt id)
    (follows_work (r := .getAccount) trivial) ?_ ?_ (fun _ _ _ h => h) ?_
  · rintro _ rfl
    exact Or.inr rfl
  · rintro tx _ hid rfl
    exact follows_submitSettle hid
  · intro e φ hknown h
    cases φ with
    | claimed => exact Or.inl rfl
    | timedOut =>
      obtain ⟨txHash, rfl⟩ := h
      cases hknown
    | broken => exact trivial
    | _ => exact h

theorem follows_recordSettlementSuccess (amountUsd : Usd) (totalAmountBase : ℤ)
    (txHash : TxHash) (recipients : List RecipientInput) (collaborators : List Collaborator) :
    (recordSettlementSuccess id amountUsd totalAmountBase txHash recipients
      collaborators).Follows (protocol id) (fun _ φ => φ = .done)
        (fun e φ => φ = .broken ∨ φ = .claimed ∧ e.Thrown) .claimed := by
  refine Follows.bind ((follows_plain (r := .settlementCreate _) (Or.inr (Or.inl rfl))
    trivial).mono (fun _ _ h => h) fun _ _ h => Or.inr h) ?_
  rintro _ _ rfl
  refine Follows.bind ((follows_decide { status := .settled, txHash := some txHash }
    (by simp) rfl).mono (fun _ _ h => h) fun _ _ h => Or.inl h) ?_
  rintro _ _ rfl
  exact Follows.signal rfl rfl

theorem follows_settleAndRecord (cfg : StellarConfig) (amountUsd : Usd)
    (recipients : List RecipientInput) (collaborators : List Collaborator) :
    (settleAndRecord cfg id amountUsd recipients collaborators).Follows (protocol id)
      (fun _ φ => φ = .done) (Attempt id) .claimed := by
  refine Follows.bind (follows_invokeSettle cfg _ recipients) ?_
  rintro ⟨txHash, status⟩ _ rfl
  cases status with
  | success =>
    refine (follows_recordSettlementSuccess _ _ _ _ _).mono (fun _ _ h => h) ?_
    rintro e φ (rfl | ⟨rfl, he⟩)
    · exact trivial
    · exact Or.inr (decided_of_thrown he)
  | failed =>
    refine (follows_decide { status := .settlementFailed, txHash := some txHash }
      (by simp) rfl).mono (fun _ _ h => h) ?_
    rintro e φ rfl
    exact trivial

/-- Once a write failed, everything is said. -/
theorem follows_broken {α : Type} (p : Method α) :
    p.Follows (protocol id) (fun _ => Final) (Escapes id) .broken :=
  (stays_broken p).follows (fun _ => trivial) fun _ => trivial

theorem follows_setFailed {X : Failure → Phase → Prop} (hX : ∀ e, X e .broken) :
    (setStatus id .settlementFailed).Follows (protocol id) (fun _ => Final) X .claimed := by
  refine (follows_decide { status := .settlementFailed } (by simp) rfl).mono ?_ ?_
  · rintro _ φ rfl
    exact trivial
  · rintro e φ rfl
    exact hX e

theorem follows_settleWithRetry (cfg : StellarConfig) (amountUsd : Usd)
    (recipients : List RecipientInput) (collaborators : List Collaborator) : ∀ left : ℕ,
    (settleWithRetry cfg id amountUsd recipients collaborators (left + 1)).Follows (protocol id)
      (fun _ => Final) (Escapes id) .claimed := by
  intro left
  refine Follows.tryCatch ((follows_settleAndRecord cfg amountUsd recipients
    collaborators).mono (fun _ φ h => ?_) fun _ _ h => h) ?_
  · rw [h]
    exact trivial
  intro err φ h
  cases φ with
  | broken => exact follows_broken _
  | claimed =>
    cases err with
    | settlementNetwork =>
      dsimp only
      cases left with
      | zero => exact follows_setFailed fun _ => trivial
      | succ left => exact follows_settleWithRetry cfg amountUsd recipients collaborators left
    | _ => exact h.resolve_left (by simp)
  | timedOut =>
    obtain ⟨txHash, rfl⟩ := h
    exact ⟨txHash, rfl⟩
  | _ => exact h.elim

/-- A settlement recorded from the database, after the status was written. -/
theorem follows_recordRecoveredSettlement (txHash : TxHash) :
    (recordRecoveredSettlement id txHash).Follows (protocol id) (fun _ φ => φ = .done)
      (fun e φ => φ = .done ∧ e.Thrown) .done := by
  have hplain : ∀ {r : Request}, Plain id r → (await r).Follows (protocol id)
      (fun _ φ => φ = .done) (fun e φ => φ = .done ∧ e.Thrown) .done := fun h =>
    follows_plain (Or.inr (Or.inr rfl)) h
  refine Follows.bind (hplain (r := .orderFindUnique id) trivial) ?_
  rintro found _ rfl
  cases found with
  | none => exact rfl
  | some p =>
    obtain ⟨order, creatorId⟩ := p
    refine Follows.bind (hplain (r := .collaboratorFindMany order.productId) trivial) ?_
    rintro collaborators _ rfl
    split
    · exact follows_rewrite _ (by simp)
    · refine Follows.bind (hplain (r := .settlementCreate _) trivial) ?_
      rintro _ _ rfl
      refine Follows.bind (follows_rewrite _ (by simp)) ?_
      rintro _ _ rfl
      exact Follows.signal rfl rfl

theorem follows_recoverAlreadySettled (amountUsd : Usd) (totalAmountBase : ℤ)
    (knownTxHash : Option TxHash) (recipients : List RecipientInput)
    (collaborators : List Collaborator) :
    (recoverAlreadySettled id amountUsd totalAmountBase knownTxHash recipients
      collaborators).Follows (protocol id) (fun _ => Final) (Escapes id) .claimed := by
  have hdone : ∀ {β : Type} (b : β) (φ : Phase), φ = .done → Final φ := by
    rintro β b φ rfl
    exact trivial
  refine Follows.bind ((follows_plain (r := .settlementFindUnique id) (Or.inr (Or.inl rfl))
    trivial).mono (fun _ _ h => h) ?_) ?_
  · rintro e φ ⟨rfl, he⟩
    exact decided_of_thrown he
  rintro existing _ rfl
  cases existing with
  | some s =>
    refine (follows_decide { status := .settled, txHash := some s.txHash }
      (by simp) rfl).mono hdone ?_
    rintro _ φ rfl
    exact trivial
  | none =>
    dsimp only
    split
    · refine (follows_recordSettlementSuccess _ _ _ _ _).mono hdone ?_
      rintro e φ (rfl | ⟨rfl, he⟩)
      · exact trivial
      · exact decided_of_thrown he
    · refine Follows.bind ((follows_decide { status := .settled } (by simp) rfl).mono
        (fun _ _ h => h) ?_) ?_
      · rintro _ φ rfl
        exact trivial
      rintro _ _ rfl
      refine (follows_recordRecoveredSettlement _).mono hdone ?_
      rintro e φ ⟨rfl, he⟩
      exact decided_of_thrown he

theorem stays_work {r : Request} (h : Plain id r) : (await r).Stays (protocol id) .claimed :=
  (follows_plain (Or.inr (Or.inl rfl)) h).mono (fun _ _ h => h) fun _ _ h => h.1

theorem follows_checkSettled : (checkSettled id).Follows (protocol id)
    (fun _ φ => φ = .claimed) (fun _ _ => False) .claimed := by
  refine follows_checkSettled_of (follows_sorobanIsSettled_of (P := fun φ => φ = Phase.claimed)
    (R := fun _ φ => φ = Phase.claimed) (stays_work (r := .getAccount) trivial) ?_ fun _ h => h)
  rintro _ rfl
  exact stays_work (r := .simulateIsSettled id) trivial

/-- The float check ends the run, or leaves the settlement to the attempts. -/
theorem follows_checkFloat (cfg : StellarConfig) (amountUsd : Usd) :
    (checkFloat cfg id amountUsd).Follows (protocol id)
      (fun funded φ => φ = .broken ∨ φ = if funded = true then .claimed else .done)
        (fun _ _ => False) .claimed := by
  refine follows_checkFloat_of (P := fun φ => φ = .claimed)
    ((stays_work (r := .getUsdcBalance cfg.platformWalletAddress) trivial).follows
      (fun _ => rfl) fun _ => Or.inr rfl) (fun _ h => Or.inr h) ?_
  rintro _ rfl
  exact (follows_decide { status := .settlementFailed } (by simp) rfl).mono
    (fun _ _ h => Or.inr h) fun _ _ h => Or.inl h

theorem follows_settleCollaborators (cfg : StellarConfig) (payload : PaymentReceivedPayload)
    (order : Order) (collaborators : List Collaborator) :
    (settleCollaborators cfg payload order collaborators).Follows (protocol payload.orderId)
      (fun _ => Final) (Escapes payload.orderId) .claimed := by
  refine follows_settleCollaborators_of (P := fun φ => φ = .claimed)
    (R := fun _ φ => φ = .claimed)
    (F := fun funded φ => φ = .broken ∨ φ = if funded = true then .claimed else .done)
    (follows_findRecipientsMissingTrustline_of (fun _ => stays_work (by trivial)) _)
    ?_ ?_ ?_ ?_ ?_ ?_
  · rintro _ rfl
    exact follows_setFailed fun _ => trivial
  · rintro _ rfl
    exact follows_checkSettled.mono (fun _ _ h => h) fun _ _ h => h.elim
  · rintro _ rfl
    exact follows_recoverAlreadySettled _ _ _ _ _
  · rintro _ rfl
    exact (follows_checkFloat cfg _).mono (fun _ _ h => h) fun _ _ h => h.elim
  · rintro _ (rfl | rfl)
    · exact follows_broken _
    · exact follows_settleWithRetry cfg _ _ _ _
  · rintro _ (rfl | rfl)
    · exact trivial
    · exact trivial

theorem follows_settlePending (cfg : StellarConfig) (payload : PaymentReceivedPayload)
    (order : Order) : (settlePending cfg payload order).Follows (protocol payload.orderId)
      (fun _ => Final) (Escapes payload.orderId) .claimed := by
  refine follows_settlePending_of (P := fun φ => φ = .claimed)
    ((follows_plain (r := .collaboratorFindMany order.productId) (Or.inr (Or.inl rfl))
      trivial).mono (fun _ _ h => h) ?_) ?_ ?_
  · rintro e φ ⟨rfl, he⟩
    exact decided_of_thrown he
  · rintro _ rfl
    exact follows_setFailed fun _ => trivial
  · rintro collaborators _ rfl
    exact follows_settleCollaborators cfg payload order collaborators

theorem follows_settleOrder (cfg : StellarConfig) (payload : PaymentReceivedPayload) :
    (settleOrder cfg payload).Follows (protocol payload.orderId) (fun _ => Final)
      (Escapes payload.orderId) .start := by
  refine follows_settleOrder_of (R := fun _ φ => φ = .start) (S := fun _ φ => φ = .claimed)
    ((follows_plain (r := .orderFindUnique payload.orderId) (Or.inl rfl) trivial).mono
      (fun _ _ h => h) ?_) ?_ ?_ ?_ ?_
  · rintro e φ ⟨rfl, he⟩
    exact Or.inl he
  · rintro _ rfl
    exact trivial
  · rintro order creatorId _ rfl
    exact Or.inr ⟨_, _, rfl⟩
  · rintro order creatorId _ rfl
    exact Follows.ask (fun _ _ => ⟨_, Reply.claim, rfl⟩) fun e he =>
      ⟨.start, .unclaimed, Or.inl (he e rfl)⟩
  · rintro order _ rfl
    exact follows_settlePending cfg payload order

theorem conforms_handlePaymentReceived (cfg : StellarConfig) (payload : PaymentReceivedPayload) :
    (handlePaymentReceived cfg payload).Conforms (protocol payload.orderId) .start := by
  refine Follows.tryCatch (follows_settleOrder cfg payload) fun e φ h => ?_
  have hfinal : ∀ (b : Unit) (φ : Phase), φ = .done → Final φ := by
    rintro b φ rfl
    exact trivial
  cases φ with
  | start =>
    rcases h with he | ⟨source, target, rfl⟩
    · rw [decided_of_thrown he]
      exact Follows.ask (fun _ _ => ⟨.done, .giveUp, trivial⟩) fun _ _ => ⟨.done, .giveUp, trivial⟩
    · exact trivial
  | claimed =>
    rw [show handleSettlementError payload.orderId e = _ from h]
    exact follows_setFailed fun _ => trivial
  | done =>
    rw [show handleSettlementError payload.orderId e = _ from h]
    exact (follows_rewrite { status := .settlementFailed } (by simp)).mono hfinal
      fun _ φ h => hfinal () φ h.1
  | timedOut =>
    obtain ⟨txHash, rfl⟩ := h
    exact trivial
  | broken => exact (stays_broken _).follows (fun _ => trivial) fun _ => trivial
  | _ => exact h.elim

/-! ## The invariant -/

/-- What is known while the run is in the phase. -/
def Fact (w₀ : World) (id : String) (w : World) : Phase → Prop
  | .start => (∀ tx, ¬ Accepted w₀ id w tx) ∧ hashOf w id = hashOf w₀ id
  | .claimed => statusOf w id = some .settlementPending ∧ hashOf w id = hashOf w₀ id
  | .polling tx => (statusOf w id = some .settlementPending ∧ hashOf w id = hashOf w₀ id) ∧
    Accepted w₀ id w tx
  | .timedOut => Stored w₀ id w
  | .done => statusOf w id ≠ some .settlementPending
  | .ended => Stored w₀ id w
  | _ => False

variable {cfg : StellarConfig} {w₀ w w' : World} {i : ℕ}

/-- Where a run may end, no hash is missing. -/
theorem Fact.stored {φ : Phase} (h : Fact w₀ id w φ) (hφ : Final φ) : Stored w₀ id w := by
  cases φ with
  | start => exact fun _ tx htx => absurd htx (h.1 tx)
  | done => exact fun hp => absurd hp h
  | timedOut => exact h
  | ended => exact h
  | claimed => exact hφ.elim
  | polling tx => exact hφ.elim
  | foreign => exact h.elim
  | broken => exact h.elim

theorem not_accepted_self (tx : Tx) : ¬ Accepted w id w tx := by
  rintro ⟨sent, hsent, htx⟩
  obtain rfl : sent = [] := by simpa using hsent
  simp at htx

theorem Accepted.unique {tx tx' : Tx} (h : Accepted w₀ id w tx) (h' : Accepted w₀ id w tx') :
    tx = tx' := by
  obtain ⟨sent, hsent, htx⟩ := h
  obtain ⟨sent', hsent', htx'⟩ := h'
  obtain rfl : sent = sent' := List.append_cancel_right (hsent.symm.trans hsent')
  exact Option.some.inj (htx.symm.trans htx')

/-- The order is as before, and so is its transaction. -/
structure Same (w₀ : World) (id : String) (w w' : World) : Prop where
  order : w'.db.orders.lookup id = w.db.orders.lookup id
  accepted : ∀ tx, Accepted w₀ id w' tx ↔ Accepted w₀ id w tx

theorem Same.refl (w₀ : World) (id : String) (w : World) : Same w₀ id w w :=
  ⟨rfl, fun _ => Iff.rfl⟩

theorem Same.status (h : Same w₀ id w w') : statusOf w' id = statusOf w id := by
  rw [statusOf, h.order, statusOf]

theorem Same.hash (h : Same w₀ id w w') : hashOf w' id = hashOf w id := by
  rw [hashOf, h.order, hashOf]

theorem Same.stored (h : Same w₀ id w w') (hw : Stored w₀ id w) : Stored w₀ id w' := by
  intro hp tx htx
  rw [h.hash]
  exact hw (h.status.symm.trans hp) tx ((h.accepted tx).1 htx)

theorem Fact.same {φ : Phase} (h : Fact w₀ id w φ) (hs : Same w₀ id w w') :
    Fact w₀ id w' φ := by
  cases φ with
  | start => exact ⟨fun tx htx => h.1 tx ((hs.accepted tx).1 htx), hs.hash.trans h.2⟩
  | claimed => exact ⟨hs.status.trans h.1, hs.hash.trans h.2⟩
  | polling tx =>
    exact ⟨⟨hs.status.trans h.1.1, hs.hash.trans h.1.2⟩, (hs.accepted tx).2 h.2⟩
  | timedOut => exact hs.stored h
  | done =>
    rw [Fact, hs.status]
    exact h
  | ended => exact hs.stored h
  | foreign => exact h.elim
  | broken => exact h.elim

theorem same_of_sent (horder : w'.db.orders.lookup id = w.db.orders.lookup id)
    (hsent : w'.chain.sent = w.chain.sent) : Same w₀ id w w' :=
  ⟨horder, fun _ => by rw [Accepted, hsent, Accepted]⟩

theorem same_env (e : Env) (w : World) : Same w₀ id w ((machine cfg).env e w) := by
  obtain ⟨horders, -, -, hchain⟩ := env_keeps cfg e w
  exact same_of_sent (by rw [horders]) hchain.sent

/-- A transaction for another order. -/
theorem accepted_cons {tx : Tx} (htx : tx.orderRef ≠ id)
    (h : w'.chain.sent = tx :: w.chain.sent) (hw : w₀.chain.sent <:+ w.chain.sent) (tx' : Tx) :
    Accepted w₀ id w' tx' ↔ Accepted w₀ id w tx' := by
  obtain ⟨sent, hsent⟩ := hw
  have hw : w.chain.sent = sent ++ w₀.chain.sent := hsent.symm
  have hw' : w'.chain.sent = (tx :: sent) ++ w₀.chain.sent := by rw [h, hw, List.cons_append]
  have hfind : (tx :: sent).find? (·.orderRef = id) = sent.find? (·.orderRef = id) :=
    List.find?_cons_of_neg (by simpa using htx)
  constructor
  · rintro ⟨sent', hsent', htx'⟩
    obtain rfl := List.append_cancel_right (hw'.symm.trans hsent')
    exact ⟨sent, hw, hfind.symm.trans htx'⟩
  · rintro ⟨sent', hsent', htx'⟩
    obtain rfl := List.append_cancel_right (hw.symm.trans hsent')
    exact ⟨tx :: sent, hw', hfind.trans htx'⟩

theorem suffix_exec (r : Request) (c : Choice) (w : World) :
    w.chain.sent <:+ (exec cfg r c w).2.chain.sent := by
  rcases exec_chain cfg r c w with hx | ⟨tx, rfl, hx⟩
  · rw [hx]
  · rw [hx]
    exact List.suffix_cons tx w.chain.sent

/-- A request that keeps apart from the order. -/
theorem same_exec {r : Request} (h : Apart id r) (c : Choice)
    (hw : w₀.chain.sent <:+ w.chain.sent) : Same w₀ id w (exec cfg r c w).2 := by
  have horder : (exec cfg r c w).2.db.orders.lookup id = w.db.orders.lookup id := by
    by_cases hread : r.reads = true
    · rw [exec_reads cfg hread]
    cases r with
    | orderCreate data => exact h.elim
    | orderUpdate id' data =>
      rcases exec_orderUpdate cfg id' data c w with ⟨o, -, -, -, hx⟩ | ⟨o, -, -, -, hx⟩ |
        ⟨e, hx, -⟩
      · rw [hx, w.setOrder_lookup_ne _ (Ne.symm h)]
      · rw [hx, w.setOrder_lookup_ne _ (Ne.symm h)]
      · rw [hx]
    | settlementCreate data =>
      rcases exec_settlementCreate cfg data c w with ⟨-, -, hx⟩ | ⟨-, -, hx⟩ | ⟨e, hx, -⟩
      all_goals exact congrArg (·.2.db.orders.lookup id) hx
    | walletCreate creatorId walletAddress provider =>
      rcases exec_walletCreate cfg creatorId walletAddress provider c w with
        ⟨wallet, -, -, hx⟩ | ⟨wallet, -, -, hx⟩ | ⟨e, hx⟩
      all_goals exact congrArg (·.2.db.orders.lookup id) hx
    | sendTransaction tx =>
      rcases exec_sendTransaction_world cfg tx c w with hx | hx
      all_goals exact congrArg (·.db.orders.lookup id) hx
    | _ => exact absurd rfl hread
  rcases exec_chain cfg r c w with hx | ⟨tx, rfl, hx⟩
  · exact same_of_sent horder (by rw [hx])
  · exact ⟨horder, accepted_cons h (by rw [hx]; rfl) hw⟩

theorem apart_of_plain {r : Request} (h : Plain id r) : Apart id r := by
  cases r with
  | getTransaction txHash n => trivial
  | _ => exact h

/-- Sending a transaction leaves the order as it is. -/
theorem Fact.send (h : Fact w₀ id w .claimed) (tx : Tx) (c : Choice) :
    Fact w₀ id (exec cfg (.sendTransaction tx) c w).2 .claimed := by
  rcases exec_sendTransaction_world cfg tx c w with hx | hx
  · rw [hx]
    exact h
  · rw [hx]
    exact h

theorem accepted_exec {tx : Tx} (hid : tx.orderRef = id) {c : Choice} {status : SendStatus}
    (h : (exec cfg (.sendTransaction tx) c w).1 = .ok status) (hs : status.accepted = true)
    (hw : w₀.chain.sent <:+ w.chain.sent) :
    Accepted w₀ id (exec cfg (.sendTransaction tx) c w).2 tx := by
  rcases exec_sendTransaction cfg tx c w with ⟨s, hacc, -, -, hx⟩ | ⟨s, -, -, -, hx⟩ | ⟨hx, -⟩
  · rw [hx] at h
    obtain rfl : s = status := Except.ok.inj h
    rw [hs] at hacc
    cases hacc
  · obtain ⟨sent, hsent⟩ := hw
    rw [hx]
    refine ⟨tx :: sent, ?_, List.find?_cons_of_pos (by simpa using hid)⟩
    rw [List.cons_append, hsent]
    rfl
  · rw [hx] at h
    cases h

/-- An update that does not write the hash. -/
theorem hashOf_update {data : OrderUpdate} (ht : data.txHash = none) (c : Choice) :
    hashOf (exec cfg (.orderUpdate id data) c w).2 id = hashOf w id := by
  have hset : ∀ o, w.db.orders.lookup id = some o →
      hashOf (w.setOrder id (data.applyTo o)) id = hashOf w id := by
    intro o ho
    simp [hashOf, ho, OrderUpdate.applyTo, ht]
  rcases exec_orderUpdate cfg id data c w with ⟨o, -, ho, -, hx⟩ | ⟨o, -, ho, -, hx⟩ | ⟨e, hx, -⟩
  · rw [hx]
    exact hset o ho
  · rw [hx]
    exact hset o ho
  · rw [hx]

/-- A write of another status. -/
theorem not_pending_update {data : OrderUpdate} (hs : data.status ≠ .settlementPending)
    {c : Choice} (h : (exec cfg (.orderUpdate id data) c w).2 = w →
      statusOf w id ≠ some .settlementPending) :
    statusOf (exec cfg (.orderUpdate id data) c w).2 id ≠ some .settlementPending := by
  rcases statusOf_orderUpdate cfg id data c w with he | ⟨-, he⟩
  · have := h he
    rwa [he]
  · rw [he]
    exact fun hp => hs (Option.some.inj hp)

/-- What holds in every state : what was sent is kept, the run knows what is true, and no other run
is for the order. -/
structure Inv (w₀ : World) (id : String) (i : ℕ) (w : World) (φ : ℕ → Phase) : Prop where
  sent : w₀.chain.sent <:+ w.chain.sent
  fact : Fact w₀ id w (φ i)
  others : ∀ j, j ≠ i → φ j = .foreign ∨ φ j = .ended

variable {φ : ℕ → Phase}

/-- A step of the run. -/
theorem Inv.own (h : Inv w₀ id i w φ) (hw : w.chain.sent <:+ w'.chain.sent) {φ' : Phase}
    (hφ' : Fact w₀ id w' φ') : Inv w₀ id i w' (Function.update φ i φ') := by
  refine ⟨h.sent.trans hw, by rwa [Function.update_self], fun j hj => ?_⟩
  rw [Function.update_of_ne hj]
  exact h.others j hj

/-- A step of another one. -/
theorem Inv.other (h : Inv w₀ id i w φ) (hw : w.chain.sent <:+ w'.chain.sent)
    (hs : Same w₀ id w w') {j : ℕ} (hj : j ≠ i) {φ' : Phase}
    (hφ' : φ' = .foreign ∨ φ' = .ended) : Inv w₀ id i w' (Function.update φ j φ') := by
  refine ⟨h.sent.trans hw, ?_, fun k hk => ?_⟩
  · rw [Function.update_of_ne hj.symm]
    exact h.fact.same hs
  · exact (Function.forall_update_iff φ fun k ψ => k ≠ i → ψ = .foreign ∨ ψ = .ended).2
      ⟨fun _ => hφ', fun k _ => h.others k⟩ k hk

theorem invariant (cfg : StellarConfig) (w₀ : World) (id : String) (i : ℕ) :
    (protocol id).Invariant (machine cfg) (fun s a => Meets i s a ∧ ¬ TimesOut cfg w₀ id i s a)
      (Inv w₀ id i) where
  final_rest := trivial
  event {w φ j v φ'} h hv := by
    obtain rfl := hv
    rw [Function.update_eq_self]
    exact ⟨h.sent, h.fact.same (same_of_sent rfl rfl), h.others⟩
  ended {w φ j} h hfinal := by
    by_cases hj : j = i
    · subst hj
      exact h.own List.suffix_rfl (h.fact.stored hfinal)
    · exact h.other List.suffix_rfl (.refl w₀ id w) hj (Or.inr rfl)
  outside {s φ e} h _ := by
    have hsent : s.world.chain.sent <:+ ((machine cfg).env e s.world).chain.sent := by
      rw [(env_keeps cfg e s.world).2.2.2.sent]
    exact ⟨h.sent.trans hsent, h.fact.same (same_env e s.world), h.others⟩
  reply {s φ j r k c} h hs hget hP := by
    have hw : s.Waits j r := ⟨_, hget, rfl⟩
    refine ⟨fun e he => exec_error cfg he, fun φ' hφ' hk => .update hk ?_⟩
    by_cases hj : j = i
    · subst hj
      have hfact := h.fact
      have hfault : r.thrown = .database → c.fault = .none := hP.1 c r rfl hw
      refine h.own (suffix_exec r c s.world) ?_
      generalize hi : φ j = ψ at hφ' hfact
      generalize hx : ((machine cfg).exec r c s.world).1 = x at hφ'
      have hapart : Apart id r → Fact w₀ id (exec cfg r c s.world).2 ψ := fun hr =>
        hfact.same (same_exec hr c h.sent)
      cases hφ' with
      | foreign _ => exact hfact.elim
      | first hr => exact hapart (apart_of_plain hr)
      | claim => exact ⟨statusOf_orderUpdate_ok cfg hx, (hashOf_update rfl c).trans hfact.2⟩
      | unclaimed =>
        refine ⟨fun tx htx => hfact.1 tx ?_, (hashOf_update rfl c).trans hfact.2⟩
        rcases exec_chain cfg (.orderUpdate id { status := .settlementPending }) c s.world with
          hchain | ⟨tx, htx, -⟩
        · rwa [Accepted, hchain] at htx
        · cases htx
      | giveUp =>
        refine not_pending_update (by simp) fun hsame hp => ?_
        have ha : statusOf (exec cfg (.orderUpdate id { status := .settlementFailed }) c
            s.world).2 id = some .settlementFailed :=
          (statusOf_orderUpdate_applied cfg rfl (by simp [hfault rfl]) (by rw [hp]; rfl)).1
        rw [hsame, hp] at ha
        cases ha
      | work hr => exact hapart (apart_of_plain hr)
      | write hs' =>
        refine not_pending_update hs' fun hsame hp => ?_
        have ha := statusOf_orderUpdate_ok cfg hx
        rw [hsame, hp] at ha
        exact hs' (Option.some.inj ha).symm
      | cut hp =>
        have hok := (statusOf_orderUpdate_applied cfg hp (c := c) (by simp [hfault rfl])
          (w := s.world) (by rw [hfact.1]; rfl)).2 (hfault rfl)
        have he := hx.symm.trans hok
        cases he
      | accept hid hacc => exact ⟨hfact.send _ c, accepted_exec hid hx hacc h.sent⟩
      | refuse _ => exact hfact.send _ c
      | unsent => exact hfact.send _ c
      | poll _ => exact hapart trivial
      | @timeout tx n hn =>
        -- the order has the hash already
        have hknown : hashOf w₀ id = some (.onChain tx) := by
          by_contra hne
          exact hP.2 ⟨c, .onChain tx, n, rfl, hw, hn, hne, hx⟩
        have hpoll := hapart trivial
        intro _ tx' htx'
        obtain rfl := hpoll.2.unique htx'
        exact hpoll.1.2.trans hknown
      | found _ => exact (hapart trivial).1
      | thrown => exact (hapart trivial).1
      | after hr => exact hapart (apart_of_plain hr)
      | rewrite hs' => exact not_pending_update hs' fun _ => hfact
      | broken => exact hfact.elim
    · have hothers := h.others j hj
      generalize hi : φ j = ψ at hφ' hothers
      generalize hx : ((machine cfg).exec r c s.world).1 = x at hφ'
      rcases hothers with rfl | rfl
      · cases hφ' with
        | foreign hr =>
          exact h.other (suffix_exec r c s.world) (same_exec hr c h.sent) hj (Or.inl rfl)
      · cases hφ'

/-! ## The timeout -/

/-- The order waits for a transaction whose hash it does not have. -/
def Stuck (w₀ : World) (id : String) (w : World) : Prop :=
  statusOf w id = some .settlementPending ∧
    ∃ tx, Accepted w₀ id w tx ∧ hashOf w id ≠ some (.onChain tx)

theorem Stuck.same (h : Stuck w₀ id w) (hs : Same w₀ id w w') : Stuck w₀ id w' := by
  obtain ⟨hp, tx, htx, hh⟩ := h
  exact ⟨hs.status.trans hp, tx, (hs.accepted tx).2 htx, by rwa [hs.hash]⟩

theorem Stuck.not_stored (h : Stuck w₀ id w) : ¬ Stored w₀ id w := by
  obtain ⟨hp, tx, htx, hh⟩ := h
  exact fun hst => hh (hst hp tx htx)

/-- The run has ended, and the order is stuck. -/
structure Left (w₀ : World) (id : String) (w : World) (φ : ℕ → Phase) : Prop where
  sent : w₀.chain.sent <:+ w.chain.sent
  stuck : Stuck w₀ id w
  others : ∀ j, φ j = .foreign ∨ φ j = .ended

/-- Nobody else changes that. -/
theorem left_invariant (cfg : StellarConfig) (w₀ : World) (id : String) :
    (protocol id).Invariant (machine cfg)
      (fun (_ : Config backend World Unit) (_ : Action Choice Env) => True) (Left w₀ id) where
  final_rest := trivial
  event {w φ j v φ'} h hv := by
    obtain rfl := hv
    rw [Function.update_eq_self]
    exact ⟨h.sent, h.stuck.same (same_of_sent rfl rfl), h.others⟩
  ended {w φ j} h _ := by
    refine ⟨h.sent, h.stuck, ?_⟩
    exact (Function.forall_update_iff φ fun _ ψ => ψ = .foreign ∨ ψ = .ended).2
      ⟨Or.inr rfl, fun k _ => h.others k⟩
  outside {s φ e} h _ := by
    have hsent : s.world.chain.sent <:+ ((machine cfg).env e s.world).chain.sent := by
      rw [(env_keeps cfg e s.world).2.2.2.sent]
    exact ⟨h.sent.trans hsent, h.stuck.same (same_env e s.world), h.others⟩
  reply {s φ j r k c} h hs hget _ := by
    refine ⟨fun e he => exec_error cfg he, fun φ' hφ' hk => .update hk ?_⟩
    have hothers := h.others j
    generalize hi : φ j = ψ at hφ' hothers
    generalize hx : ((machine cfg).exec r c s.world).1 = x at hφ'
    rcases hothers with rfl | rfl
    · cases hφ' with
      | foreign hr =>
        have hφ : Function.update φ j .foreign = φ := by rw [← hi, Function.update_eq_self]
        rw [hφ]
        exact ⟨h.sent.trans (suffix_exec r c s.world), h.stuck.same (same_exec hr c h.sent),
          h.others⟩
    · cases hφ'

/-- After the last poll there are events at most, and the run ends. -/
theorem flush_timedOut (cfg : StellarConfig) (w₀ : World) {p : Method Unit}
    (h : p.Conforms (protocol id) .timedOut) (w : World) :
    (p.flush (machine cfg) w).1.Ended ∧ Same w₀ id w (p.flush (machine cfg) w).2 ∧
      (p.flush (machine cfg) w).2.chain = w.chain := by
  induction p generalizing w with
  | ret a => exact ⟨trivial, .refl w₀ id w, rfl⟩
  | raise e => exact ⟨trivial, .refl w₀ id w, rfl⟩
  | emit v p ih =>
    obtain ⟨φ', rfl, hp⟩ := h
    obtain ⟨hend, hsame, hchain⟩ := ih hp ((machine cfg).log v w)
    exact ⟨hend, ⟨hsame.order, hsame.accepted⟩, hchain⟩
  | call r k _ =>
    obtain ⟨φ', hφ', -⟩ := h (.error .database) fun e he => by
      obtain rfl := Except.error.inj he
      exact Or.inl rfl
    cases hφ'

variable {s : Config backend World Unit}

theorem left_of_timesOut (h : Inv w₀ id i s.world φ) (hs : s.Tracks (protocol id) φ)
    {a : Action Choice Env} (ha : TimesOut cfg w₀ id i s a) :
    ∃ ψ, (s.act (machine cfg) a).Tracks (protocol id) ψ ∧
      Left w₀ id (s.act (machine cfg) a).world ψ := by
  obtain ⟨c, txHash, n, rfl, hw, hn, hne, hx⟩ := ha
  obtain ⟨k, hp⟩ := hw.exists_call
  obtain ⟨φ', hφ', hk⟩ := (hs.thread hp).2 (.ok TxStatus.notFound) fun e he => by cases he
  have hfact := h.fact
  -- the run polls, and gives up
  have hstuck : φ' = .timedOut ∧ Stuck w₀ id s.world := by
    generalize φ i = ψ at hφ' hfact
    cases hφ' with
    | foreign _ => exact hfact.elim
    | first hr => exact hr.elim
    | work hr => exact hr.elim
    | poll hn' => omega
    | @timeout tx n _ =>
      obtain ⟨⟨hpending, hhash⟩, htx⟩ := hfact
      exact ⟨rfl, hpending, tx, htx, by rwa [hhash]⟩
    | found hne => exact absurd rfl hne
    | after hr => exact hr.elim
    | broken => exact hfact.elim
  obtain ⟨rfl, hstuck⟩ := hstuck
  have hresume : (Prog.call (S := backend) (.getTransaction txHash n) k).resume (machine cfg) c
      s.world = (k (.ok TxStatus.notFound)).flush (machine cfg) s.world := by
    have hworld : (exec cfg (.getTransaction txHash n) c s.world).2 = s.world :=
      exec_reads cfg rfl c s.world
    simp only [Prog.resume, machine, hx, hworld]
  obtain ⟨hend, hsame, hchain⟩ := flush_timedOut cfg w₀ hk s.world
  refine ⟨Function.update φ i .ended, hs.act_run hp ?_ ?_ fun j hj => ?_, ?_⟩
  · exact Prog.suspended_flush _ _ _
  · rw [Function.update_self, hresume]
    exact hend.conforms trivial
  · exact Or.inl (Function.update_of_ne hj ..)
  · rw [Config.act_run (machine cfg) c hp, hresume]
    refine ⟨by rw [hchain]; exact h.sent, hstuck.same hsame, ?_⟩
    exact (Function.forall_update_iff φ fun _ ψ => ψ = .foreign ∨ ψ = .ended).2
      ⟨Or.inr rfl, h.others⟩

/-- The phases that the runs start in. -/
def startPhase (i : ℕ) (payloads : List PaymentReceivedPayload) (j : ℕ) : Phase :=
  if j = i then .start else if j < payloads.length then .foreign else .ended

theorem tracks_startPhase (cfg : StellarConfig) {payloads : List PaymentReceivedPayload}
    {payload : PaymentReceivedPayload} (hi : payloads[i]? = some payload)
    (hothers : ∀ j p, payloads[j]? = some p → p.orderId = payload.orderId → j = i) (w : World) :
    Config.Tracks (protocol payload.orderId)
      (⟨payloads.map (handlePaymentReceived cfg), w⟩ : Config backend World Unit)
        (startPhase i payloads) where
  thread {j q} hq := by
    obtain ⟨p, hp, rfl⟩ := by simpa using hq
    refine ⟨trivial, ?_⟩
    by_cases hj : j = i
    · subst hj
      obtain rfl := Option.some.inj (hp.symm.trans hi)
      rw [startPhase, if_pos rfl]
      exact conforms_handlePaymentReceived cfg p
    · have hlen := (List.getElem?_eq_some_iff.1 hp).1
      rw [startPhase, if_neg hj, if_pos hlen]
      exact (stays_foreign cfg fun he => hj (hothers j p hp he)).follows (fun _ => trivial)
        fun _ => trivial
  absent {j} hj := by
    have hlen : payloads.length ≤ j := by simpa using hj
    have hi := (List.getElem?_eq_some_iff.1 hi).1
    rw [startPhase, if_neg (by omega), if_neg (by omega)]
    rfl

theorem inv_startPhase (payloads : List PaymentReceivedPayload) (w : World) :
    Inv w id i w (startPhase i payloads) := by
  refine ⟨List.suffix_rfl, ?_, fun j hj => ?_⟩
  · rw [startPhase, if_pos rfl]
    exact ⟨not_accepted_self, rfl⟩
  · rw [startPhase, if_neg hj]
    split
    · exact Or.inl rfl
    · exact Or.inr rfl

end StoredHashes

/-- A run of `handlePaymentReceived` in thread `i`, among runs for other orders, with a working
database and any faults of the RPC server and of Horizon. When it has ended, its order in
`settlementPending` has the hash of the transaction that the network accepted, if and only if
no transaction timed out whose hash the order did not have before. -/
theorem pending_hash_stored (cfg : StellarConfig) (payloads : List PaymentReceivedPayload)
    (w : World) (i : ℕ) (payload : PaymentReceivedPayload) (hi : payloads[i]? = some payload)
    (hothers : ∀ j p, payloads[j]? = some p → p.orderId = payload.orderId → j = i)
    (as : List (Action Choice Env))
    (hrun : Config.Along (machine cfg) (StoredHashes.Meets i) as
      ⟨payloads.map (handlePaymentReceived cfg), w⟩)
    (hend : ∃ p ∈ (Config.run (machine cfg) as
      ⟨payloads.map (handlePaymentReceived cfg), w⟩).threads[i]?, p.Ended) :
    StoredHashes.Stored w payload.orderId (Config.run (machine cfg) as
        ⟨payloads.map (handlePaymentReceived cfg), w⟩).world ↔
      Config.Along (machine cfg)
        (fun s a => ¬ StoredHashes.TimesOut cfg w payload.orderId i s a) as
          ⟨payloads.map (handlePaymentReceived cfg), w⟩ := by
  have htracks := StoredHashes.tracks_startPhase cfg hi hothers w
  have hinv : StoredHashes.Inv w payload.orderId i w _ :=
    StoredHashes.inv_startPhase payloads w
  have hI := StoredHashes.invariant cfg w payload.orderId i
  constructor
  · intro hstored
    by_contra hlate
    -- the first timeout leaves the order stuck
    obtain ⟨before, a, after, rfl, hbefore, ha⟩ := Config.exists_of_not_along hlate
    obtain ⟨hmeets, -, -⟩ := Config.along_append.1 hrun
    obtain ⟨φ, hφ, hinv⟩ := hI.run before htracks hinv (Config.along_and.2 ⟨hmeets, hbefore⟩)
    obtain ⟨ψ, hψ, hleft⟩ := StoredHashes.left_of_timesOut hinv hφ (not_not.1 ha)
    obtain ⟨χ, -, hleft⟩ := (StoredHashes.left_invariant cfg w payload.orderId).run after hψ hleft
      (Config.along_of_forall (fun _ _ => trivial) after _)
    rw [Config.run_append, Config.run_cons] at hstored
    exact hleft.stuck.not_stored hstored
  · intro hnone
    obtain ⟨φ, hφ, hinv⟩ := hI.run as htracks hinv (Config.along_and.2 ⟨hrun, hnone⟩)
    obtain ⟨p, hp, hend⟩ := hend
    exact hinv.fact.stored (hend.final (hφ.thread hp).2)

namespace StoredHashes

/-- No fault, and no last poll. -/
def prompt (i : ℕ) (s : Config backend World Unit) : Action Choice Env → Bool
  | .run _ c => decide (c.fault = .none) && match s.threads[i]?.bind Prog.request with
    | some (.getTransaction _ n) => decide (n + 1 ≠ pollMaxAttempts)
    | _ => true
  | .env _ => true

variable {cfg : StellarConfig} {w₀ : World} {id : String} {i : ℕ}
  {s : Config backend World Unit} {a : Action Choice Env}

theorem meets_of_prompt (h : prompt i s a = true) : Meets i s a := by
  rintro c r rfl - -
  simp only [prompt, Bool.and_eq_true, decide_eq_true_eq] at h
  exact h.1

theorem not_timesOut_of_prompt (h : prompt i s a = true) : ¬ TimesOut cfg w₀ id i s a := by
  rintro ⟨c, txHash, n, rfl, hw, hn, -, -⟩
  have hreq : s.threads[i]?.bind Prog.request = some (.getTransaction txHash n) :=
    Config.waits_iff.1 hw
  simp [prompt, hreq, hn] at h

end StoredHashes

/-- The settlement succeeds, and the order is `settled`. -/
theorem pending_hash_stored_settled : ∃ s, s = Config.run (machine demoConfig)
      (List.replicate 11 (.run 0 {}) ++ .env (.network (.close false)) ::
        List.replicate 3 (.run 0 {})) demoSettling ∧
    statusOf s.world "order" = some .settled ∧
      StoredHashes.Stored demoSettling.world "order" s.world :=
  ⟨_, rfl, by decide, (pending_hash_stored demoConfig [demoPayload "order"] _ 0
    (demoPayload "order") rfl (fun _ _ hj _ => by
      have := (List.getElem?_eq_some_iff.1 hj).1
      simpa using this) _
    (Config.Along.mono (P := fun s a => StoredHashes.prompt 0 s a = true)
      (fun _ _ => StoredHashes.meets_of_prompt) (by decide))
    (by decide)).2
    (Config.Along.mono (P := fun s a => StoredHashes.prompt 0 s a = true)
      (fun _ _ => StoredHashes.not_timesOut_of_prompt) (by decide))⟩

/-- The network applies the transaction, and no poll sees it. The order stays in
`settlementPending` without the hash. -/
theorem pending_hash_lost : ∃ s, s = Config.run (machine demoConfig)
      (List.replicate 11 (.run 0 {}) ++ .env (.network (.close false)) ::
        List.replicate 30 (.run 0 { lag := true })) demoSettling ∧
    s.Ended ∧ statusOf s.world "order" = some .settlementPending ∧
      StoredHashes.Accepted demoSettling.world "order" s.world demoTx ∧
        s.world.chain.result demoTx = some true ∧
          StoredHashes.hashOf s.world "order" = none :=
  ⟨_, rfl, by decide, by decide, ⟨[demoTx], by decide, by decide⟩, by decide, by decide⟩

end Kreav
