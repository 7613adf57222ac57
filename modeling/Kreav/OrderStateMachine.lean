import Mathlib.Data.List.Basic

/-!
# The order state machine

`backend/src/orders/order-state-machine.ts`. `transitions` lists the legal next states of
each state, and `canTransition` is the check the services make before they write one.
`canTransition_settlementPending` and `canTransition_paymentReceived` name the states the
settlement and the payment handler accept.
-/

namespace Kreav

/-- The statuses of an order. -/
inductive OrderStatus
  | created
  | checkoutStarted
  | paymentPending
  | paymentReceived
  | settlementPending
  | settled
  | withdrawPending
  | withdrawCompleted
  | paymentFailed
  | settlementFailed
  | withdrawFailed
  | waitingWallet
  | cancelled
  deriving DecidableEq, Repr

open OrderStatus

/-- The only legal transitions an order may make. -/
def transitions : OrderStatus → List OrderStatus
  | created => [checkoutStarted, cancelled]
  | checkoutStarted => [paymentPending, cancelled]
  | paymentPending => [paymentReceived, waitingWallet, paymentFailed, cancelled]
  | paymentReceived => [settlementPending, waitingWallet, cancelled]
  -- settlement deferred until the creator connects a wallet
  | waitingWallet => [settlementPending, cancelled]
  -- back to `paymentReceived` : the transaction was dropped, retry settlement
  | settlementPending => [settled, settlementFailed, cancelled, paymentReceived]
  | settled => [withdrawPending]
  | withdrawPending => [withdrawCompleted, withdrawFailed, cancelled]
  | withdrawCompleted => []
  | paymentFailed => []
  | settlementFailed => []
  | withdrawFailed => []
  | cancelled => []

/-- The transition is permitted. -/
def canTransition (source target : OrderStatus) : Bool :=
  (transitions source).contains target

/-- The order is finished. -/
def isTerminal (status : OrderStatus) : Bool :=
  (transitions status).length = 0

theorem canTransition_settlementPending {s : OrderStatus} :
    canTransition s settlementPending = true ↔ s = paymentReceived ∨ s = waitingWallet := by
  cases s <;> decide

theorem canTransition_paymentReceived {s : OrderStatus} :
    canTransition s paymentReceived = true ↔ s = paymentPending ∨ s = settlementPending := by
  cases s <;> decide

/-- A finished order goes nowhere. -/
theorem not_canTransition_of_isTerminal {s t : OrderStatus} (h : isTerminal s = true) :
    canTransition s t = false := by
  have hs : transitions s = [] := by simpa [isTerminal] using h
  simp [canTransition, hs]

end Kreav
