import Kreav.Backend

/-!
# Wallets

`backend/src/wallets/wallets.service.ts`. `connect` stores a creator's wallet, unless the
address is taken, and then emits `payment.received` for the creator's orders that wait for
one.
-/

open Async

namespace Kreav

/-- `wallet.create`. A taken address is a conflict. -/
def createWallet (creatorId walletAddress : String) (provider : WalletProvider) :
    Method Wallet :=
  tryCatch (await (.walletCreate creatorId walletAddress provider))
    fun
      | .uniqueViolation => throw .conflict
      | err => throw err

/-- Emit `payment.received` for each of the orders. -/
def resumeOrders (walletAddress : String) : List StuckOrder → Method Unit
  | [] => return ()
  | o :: rest => do
    emit (.paymentReceived ⟨o.id, o.order.amountUsd, o.creatorId, some walletAddress,
      o.order.paymentRef.getD ("resume-" ++ o.id)⟩)
    resumeOrders walletAddress rest

/-- Resume the settlement of a creator's orders in `waitingWallet`. -/
def resumeWaitingWalletOrders (creatorId walletAddress : String) : Method Unit := do
  let waitingOrders ← await (.orderFindWaiting creatorId)
  resumeOrders walletAddress waitingOrders

/-- Connect a wallet to a creator. -/
def connect (creatorId walletAddress : String) (provider : WalletProvider) : Method Wallet := do
  let creator : Bool ← await (.userFindUnique creatorId)
  if !creator then throw .notFound
  else
    let existing : Bool ← await (.walletFindAddress walletAddress)
    if existing then throw .conflict
    else
      let wallet ← createWallet creatorId walletAddress provider
      resumeWaitingWalletOrders creatorId walletAddress
      return wallet

end Kreav
