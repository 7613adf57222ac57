import Kreav.Settlement

/-!
# Startup recovery

`backend/src/common/startup/startup-recovery.service.ts`. One pass over the orders in
`paymentReceived` or `settlementPending`. The former are emitted again. The latter are
checked by their transaction hash, or by the contract's marker when there is none. An
error while one order is recovered does not stop the pass.
-/

open Async

namespace Kreav

/-- Emit `payment.received` again for an order that was paid but never settled. -/
def recoverPaymentReceived (o : StuckOrder) : Method Bool := do
  let wallet ← await (.walletFindFirst o.creatorId)
  emit (.paymentReceived ⟨o.id, o.order.amountUsd, o.creatorId, wallet,
    o.order.paymentRef.getD ("recovery-" ++ idPrefix o.id)⟩)
  return true

/-- An order without a transaction hash : true when the marker led to a recovery. -/
def recoverByMarker (o : StuckOrder) : Method Bool :=
  tryCatch (do
      let alreadySettled ← sorobanIsSettled o.id
      if alreadySettled then
        recordRecoveredSettlement o.id (.placeholder ("unknown-" ++ idPrefix o.id))
        return true
      else return false)
    fun _ => return false

/-- The second look at a transaction that was not found : the answer of the recovery, if
the look settled it. -/
def recheckTransaction (o : StuckOrder) (txHash : TxHash) : Method (Option Bool) :=
  tryCatch (do
      match ← getTransactionStatus txHash with
      | .success =>
        recordRecoveredSettlement o.id txHash
        return some true
      | .failed =>
        setStatus o.id .settlementFailed
        return some false
      | .notFound => return none)
    fun _ => return none

/-- Roll an order back whose transaction was dropped, and emit `payment.received`. -/
def retrySettlement (o : StuckOrder) : Method Bool := do
  await (.orderUpdate o.id { status := .paymentReceived, txHash := some none })
  emit (.paymentReceived ⟨o.id, o.order.amountUsd, o.creatorId, none,
    "recovery-" ++ idPrefix o.id⟩)
  return true

/-- An order with a transaction hash. -/
def recoverByTransaction (o : StuckOrder) (txHash : TxHash) : Method Bool :=
  tryCatch (do
      match ← getTransactionStatus txHash with
      | .success =>
        match ← await (.settlementFindUnique o.id) with
        | some _ =>
          setStatus o.id .settled
          return true
        | none =>
          recordRecoveredSettlement o.id txHash
          return true
      | .failed =>
        setStatus o.id .settlementFailed
        return false
      | .notFound =>
        match ← recheckTransaction o txHash with
        | some recovered => return recovered
        | none => retrySettlement o)
    fun _ => return false

/-- Verify an order in `settlementPending`. -/
def recoverSettlementPending (o : StuckOrder) : Method Bool := do
  match truthy o.order.txHash with
  | some txHash => recoverByTransaction o txHash
  | none =>
    let recovered ← recoverByMarker o
    if recovered then return true
    else
      setStatus o.id .settlementFailed
      return false

/-- Recover a stuck order, and say whether it was. -/
def recoverOrder (o : StuckOrder) : Method Bool :=
  match o.order.status with
  | .paymentReceived => recoverPaymentReceived o
  | .settlementPending => recoverSettlementPending o
  | _ => return false

/-- The loop of the pass. It counts the recovered and the failed orders. -/
def recoverAll : List StuckOrder → Method (ℕ × ℕ)
  | [] => return (0, 0)
  | o :: rest => do
    let recovered ← tryCatch (recoverOrder o) fun _ => return false
    let (recoveredCount, failedCount) ← recoverAll rest
    return if recovered then (recoveredCount + 1, failedCount)
      else (recoveredCount, failedCount + 1)

/-- One recovery pass, at the start of the application. -/
def onApplicationBootstrap : Method (ℕ × ℕ) := do
  let stuckOrders ← await (.orderFindMany [.paymentReceived, .settlementPending])
  recoverAll stuckOrders

end Kreav
