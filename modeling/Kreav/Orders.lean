import Kreav.Backend

/-!
# Checkout and the payment webhook

`backend/src/orders/orders.service.ts` and `orders.controller.ts`. `checkout` creates an
order in `paymentPending` with the price of its product. `handleGcashPayment` looks for the
payment reference, reads the order and the creator's wallet, checks the transition, writes
the new status with the reference, and emits an event. The write fails when another order
holds the reference, which counts as a duplicate webhook.
-/

open Async

namespace Kreav

/-- Create an order for a product. Returns its id and its amount. -/
def checkout (productId buyerEmail : String) : Method (String × Usd) := do
  match ← await (.productFindUnique productId) with
  | none => throw .notFound
  | some product =>
    let orderId ← await (.orderCreate
      { productId, buyerEmail, amountUsd := product.priceUsd, status := .paymentPending })
    return (orderId, product.priceUsd)

/-- The write of the new status. False when another request claimed the reference first. -/
def claimPayment (orderId paymentRef : String) (targetState : OrderStatus) : Method Bool :=
  tryCatch (do
      await (.orderUpdate orderId { status := targetState, paymentRef := some paymentRef })
      return true)
    fun
      | .uniqueViolation => return false
      | err => throw err

/-- From the transition check on : write the new status and emit its event. -/
def confirmPayment (orderId paymentRef : String) (order : Order) (creatorId : String) :
    Option String → Method Unit
  | none => do
    if !canTransition order.status .waitingWallet then
      throw (.invalidStateTransition order.status .waitingWallet)
    else if ← claimPayment orderId paymentRef .waitingWallet then
      emit (.walletConnectRequired ⟨orderId, creatorId, order.amountUsd, paymentRef⟩)
    else return ()
  | some walletAddress => do
    if !canTransition order.status .paymentReceived then
      throw (.invalidStateTransition order.status .paymentReceived)
    else if ← claimPayment orderId paymentRef .paymentReceived then
      emit (.paymentReceived
        ⟨orderId, order.amountUsd, creatorId, some walletAddress, paymentRef⟩)
    else return ()

/-- Confirm a payment, once for a payment reference. -/
def handleGcashPayment (orderId paymentRef : String) : Method Unit := do
  match ← await (.orderFindFirst paymentRef) with
  | some _ => return ()
  | none =>
    match ← await (.orderFindUnique orderId) with
    | none => throw .notFound
    | some (order, creatorId) =>
      let wallet ← await (.walletFindFirst creatorId)
      confirmPayment orderId paymentRef order creatorId wallet

/-- The demo's payment of an order. -/
def simulatePayment (demoMode : Bool) (id : String) : Method Unit :=
  if demoMode then handleGcashPayment id ("demo-" ++ id) else throw .forbidden

end Kreav
