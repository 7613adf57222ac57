import Kreav.SorobanRpc

/-!
# The settlement service

`backend/src/stellar/settlement.service.ts`. `handlePaymentReceived` takes an order to
`settlementPending`, checks its collaborators and their trustlines, the contract's marker
and the platform's float, invokes `settle` with up to `maxRetries` attempts, and records
the result. `recoverAlreadySettled` and `recordRecoveredSettlement` record a settlement
that the contract already has. `handleSettlementError` chooses the order's status when
anything threw.

`settlementRows` are the rows of a settlement : the split computed again from the total and
the recipients, as the contract computes it.
-/

open Async

namespace Kreav

/-- Attempts to invoke `settle`. -/
def maxRetries : ℕ :=
  3

/-- `order.update` of the status alone. -/
def setStatus (orderId : String) (status : OrderStatus) : Method Unit :=
  await (.orderUpdate orderId { status })

/-! ## Recording a settlement -/

/-- `shareBps = revenuePercentage * 100`. -/
def recipientInputs (collaborators : List Collaborator) : List RecipientInput :=
  collaborators.map fun c => ⟨c.walletAddress, c.revenuePercentage⟩

@[simp] theorem recipientInputs_address (cs : List Collaborator) :
    (recipientInputs cs).map (·.address) = cs.map (·.walletAddress) := by
  rw [recipientInputs, List.map_map]
  rfl

@[simp] theorem recipientInputs_shareBps (cs : List Collaborator) :
    (recipientInputs cs).map (·.shareBps) = cs.map (·.revenuePercentage) := by
  rw [recipientInputs, List.map_map]
  rfl

/-- The platform fee, `total * 500n / 10000n`. -/
def platformFeeBase (totalAmountBase : ℤ) : ℤ :=
  (totalAmountBase * 500).tdiv 10000

/-- What is left for the creators. -/
def creatorPoolBase (totalAmountBase : ℤ) : ℤ :=
  totalAmountBase - platformFeeBase totalAmountBase

/-- The `creatorAmountsBase` of the recipients left, with `distributedBase` given out. -/
def creatorAmountsFrom (creatorPool : ℤ) : ℤ → List RecipientInput → List ℤ
  | _, [] => []
  | distributedBase, [_] => [creatorPool - distributedBase]
  | distributedBase, r :: next :: rest =>
    let amountBase := (creatorPool * r.shareBps).tdiv 10000
    amountBase :: creatorAmountsFrom creatorPool (distributedBase + amountBase) (next :: rest)

/-- The amounts of the recipients, the last with the rest. -/
def creatorAmountsBase (totalAmountBase : ℤ) (recipients : List RecipientInput) : List ℤ :=
  creatorAmountsFrom (creatorPoolBase totalAmountBase) 0 recipients

/-- The creator rows : recipients with their amounts, roles and percentages by position. -/
def creatorRows : List RecipientInput → List ℤ → List Collaborator → List RecipientCreate
  | r :: recipients, amountBase :: amounts, collaborators =>
    { walletAddress := r.address
      recipientType := .creator
      role := (collaborators.head?.map (·.role)).getD "Creator"
      percentage := (collaborators.head?.map (·.revenuePercentage)).getD 0
      amount := ofBase amountBase } :: creatorRows recipients amounts collaborators.tail
  | _, _, _ => []

/-- The rows of a settlement, the platform fee first. -/
def settlementRows (totalAmountBase : ℤ) (recipients : List RecipientInput)
    (collaborators : List Collaborator) : List RecipientCreate :=
  ⟨"", .platform, "Platform Fee", 500, ofBase (platformFeeBase totalAmountBase)⟩ ::
    creatorRows recipients (creatorAmountsBase totalAmountBase recipients) collaborators

/-- Record a successful settlement : the rows, the order's status, the event. -/
def recordSettlementSuccess (orderId : String) (amountUsd : Usd) (totalAmountBase : ℤ)
    (txHash : TxHash) (recipients : List RecipientInput) (collaborators : List Collaborator) :
    Method Unit := do
  await (.settlementCreate ⟨orderId, amountUsd, txHash,
    settlementRows totalAmountBase recipients collaborators⟩)
  await (.orderUpdate orderId { status := .settled, txHash := some txHash })
  emit (.settlementCompleted ⟨orderId, txHash,
    toCents (ofBase (creatorPoolBase totalAmountBase)),
    toCents (ofBase (platformFeeBase totalAmountBase))⟩)

/-- Record a settlement from what the database has of the order. -/
def recordRecoveredSettlement (orderId : String) (txHash : TxHash) : Method Unit := do
  match ← await (.orderFindUnique orderId) with
  | none => return ()
  | some (order, _) =>
    let collaborators ← await (.collaboratorFindMany order.productId)
    if collaborators.length = 0 then
      setStatus orderId .settlementFailed
    else
      recordSettlementSuccess orderId order.amountUsd order.amountUsd.toBase txHash
        (recipientInputs collaborators) collaborators

/-- A hash column that JavaScript takes for true. -/
def truthy : Option TxHash → Option TxHash
  | some (.placeholder "") => none
  | txHash => txHash

/-- `orderId.slice(0, 8)`. -/
def idPrefix (orderId : String) : String :=
  (orderId.take 8).toString

/-- Recover the database for an order that the contract already settled. -/
def recoverAlreadySettled (orderId : String) (amountUsd : Usd) (totalAmountBase : ℤ)
    (knownTxHash : Option TxHash) (recipients : List RecipientInput)
    (collaborators : List Collaborator) : Method Unit := do
  match ← await (.settlementFindUnique orderId) with
  | some existing =>
    await (.orderUpdate orderId { status := .settled, txHash := some existing.txHash })
  | none =>
    match truthy knownTxHash with
    | some txHash =>
      recordSettlementSuccess orderId amountUsd totalAmountBase txHash recipients collaborators
    | none => do
      setStatus orderId .settled
      recordRecoveredSettlement orderId (.placeholder ("recovery-" ++ idPrefix orderId))

/-! ## Handling a payment -/

/-- Map an error to the order's status. -/
def handleSettlementError (orderId : String) : Failure → Method Unit
  | .invalidStateTransition _ _ => return ()
  -- the transaction may still confirm later
  | .settlementTimeout _ => return ()
  | .settlementNetwork => return ()
  | _ => setStatus orderId .settlementFailed

/-- The recipients without a trustline. A read that throws counts as a trustline. -/
def findRecipientsMissingTrustline : List RecipientInput → Method (List String)
  | [] => return []
  | r :: rest => do
    let missing ← tryCatch (do
        let state ← await (.getUsdcBalance r.address)
        return if state.hasUsdcTrustline then [] else [r.address])
      fun _ => return []
    let others ← findRecipientsMissingTrustline rest
    return missing ++ others

/-- The float check of a settlement : false when it ended the run. A read that throws
passes it. -/
def checkFloat (cfg : StellarConfig) (orderId : String) (amountUsd : Usd) : Method Bool :=
  tryCatch (do
      let float ← await (.getUsdcBalance cfg.platformWalletAddress)
      if float.balance < amountUsd.toBase then
        setStatus orderId .settlementFailed
        return false
      else return true)
    fun _ => return true

/-- The `is_settled` pre-check : a read that throws counts as not settled. -/
def checkSettled (orderId : String) : Method Bool :=
  tryCatch (sorobanIsSettled orderId) fun _ => return false

/-- One attempt to settle and record. -/
def settleAndRecord (cfg : StellarConfig) (orderId : String) (amountUsd : Usd)
    (recipients : List RecipientInput) (collaborators : List Collaborator) : Method Unit := do
  let result ← invokeSettle cfg orderId amountUsd.toBase recipients
  match result.status with
  | .success =>
    recordSettlementSuccess orderId amountUsd amountUsd.toBase result.txHash recipients
      collaborators
  | .failed =>
    await (.orderUpdate orderId
      { status := .settlementFailed, txHash := some (some result.txHash) })

/-- The attempts that are left. Only `settlementNetwork` is tried again. -/
def settleWithRetry (cfg : StellarConfig) (orderId : String) (amountUsd : Usd)
    (recipients : List RecipientInput) (collaborators : List Collaborator) : ℕ → Method Unit
  | 0 => return ()
  | left + 1 =>
    tryCatch (settleAndRecord cfg orderId amountUsd recipients collaborators) fun err =>
      match err with
      | .settlementNetwork =>
        if left = 0 then setStatus orderId .settlementFailed
        else settleWithRetry cfg orderId amountUsd recipients collaborators left
      | err => throw err

/-- From the trustline check on, with collaborators that add up. -/
def settleCollaborators (cfg : StellarConfig) (payload : PaymentReceivedPayload) (order : Order)
    (collaborators : List Collaborator) : Method Unit := do
  let recipients := recipientInputs collaborators
  let missingTrustline ← findRecipientsMissingTrustline recipients
  if 0 < missingTrustline.length then
    setStatus payload.orderId .settlementFailed
  else
    let alreadySettled ← checkSettled payload.orderId
    if alreadySettled then
      recoverAlreadySettled payload.orderId payload.amountUsd payload.amountUsd.toBase
        order.txHash recipients collaborators
    else
      let funded ← checkFloat cfg payload.orderId payload.amountUsd
      if funded then
        settleWithRetry cfg payload.orderId payload.amountUsd recipients collaborators maxRetries
      else return ()

/-- The settlement of an order in `settlementPending`. -/
def settlePending (cfg : StellarConfig) (payload : PaymentReceivedPayload) (order : Order) :
    Method Unit := do
  let collaborators ← await (.collaboratorFindMany order.productId)
  if collaborators.length = 0 then
    setStatus payload.orderId .settlementFailed
  else if (collaborators.map (·.revenuePercentage)).sum ≠ 10000 then
    setStatus payload.orderId .settlementFailed
  else if maxRecipients < collaborators.length then
    setStatus payload.orderId .settlementFailed
  else
    settleCollaborators cfg payload order collaborators

/-- From the write of `settlementPending` on. -/
def startSettlement (cfg : StellarConfig) (payload : PaymentReceivedPayload) (order : Order) :
    Method Unit := do
  setStatus payload.orderId .settlementPending
  settlePending cfg payload order

/-- The body of the handler : read the order and check its status. -/
def settleOrder (cfg : StellarConfig) (payload : PaymentReceivedPayload) : Method Unit := do
  match ← await (.orderFindUnique payload.orderId) with
  | none => return ()
  | some (order, _) =>
    if !canTransition order.status .settlementPending then
      throw (.invalidStateTransition order.status .settlementPending)
    else startSettlement cfg payload order

/-- Handle a `payment.received` event. -/
def handlePaymentReceived (cfg : StellarConfig) (payload : PaymentReceivedPayload) :
    Method Unit :=
  tryCatch (settleOrder cfg payload) (handleSettlementError payload.orderId)

end Kreav
