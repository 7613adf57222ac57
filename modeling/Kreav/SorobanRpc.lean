import Kreav.Backend

/-!
# The Soroban RPC service

`backend/src/stellar/soroban-rpc.service.ts`. `invokeSettle` reads the account, builds and
simulates a transaction, sends it and polls for its result, at most `pollMaxAttempts`
times. It passes on the errors that say what happened to the transaction and turns all
others into `settlementNetwork`, which the caller retries. `sorobanIsSettled` asks the contract by
a simulation.
-/

open Async CheckedInt

namespace Kreav

/-- A recipient of a settlement. -/
structure RecipientInput where
  address : String
  shareBps : ℤ
  deriving DecidableEq, Repr

/-- How the transaction ended. -/
inductive InvokeStatus
  | success
  | failed
  deriving DecidableEq, Repr

/-- The transaction, and how it ended. -/
structure InvokeResult where
  txHash : TxHash
  status : InvokeStatus
  deriving DecidableEq, Repr

/-- Polls of `getTransaction` for one transaction. -/
def pollMaxAttempts : ℕ :=
  30

/-- Seconds a settle transaction stays valid. -/
def settleTimeout : ℕ :=
  180

/-- One entry of the `Recipient` vector. The SDK throws on a bad address and on a share
that is no `i128`. -/
def RecipientInput.toScVal (cfg : StellarConfig) (r : RecipientInput) :
    Option (Recipient String) :=
  if cfg.isAddress r.address then
    (Bounded.ofInt? r.shareBps).map fun shareBps => ⟨r.address, shareBps⟩
  else none

/-- `buildSettleArgs` and the transaction around them. -/
def buildSettle (cfg : StellarConfig) (sequence now : ℕ) (orderRef : String)
    (totalAmountBase : ℤ) (recipients : List RecipientInput) : Option Tx := do
  let recipients ← recipients.mapM (·.toScVal cfg)
  let totalAmount ← Bounded.ofInt? totalAmountBase
  return ⟨sequence + 1, now + settleTimeout, orderRef, totalAmount, recipients⟩

/-- The polls from `attempt` on, with `left` of them. -/
def pollFrom (txHash : TxHash) (attempt : ℕ) : ℕ → Method InvokeResult
  | 0 => throw (.settlementTimeout txHash)
  | left + 1 => do
    match ← await (.getTransaction txHash attempt) with
    | .notFound => pollFrom txHash (attempt + 1) left
    | .success => return ⟨txHash, .success⟩
    | .failed => return ⟨txHash, .failed⟩

/-- Poll `getTransaction` until the transaction is confirmed or failed. -/
def pollTransaction (txHash : TxHash) : Method InvokeResult :=
  pollFrom txHash 0 pollMaxAttempts

/-- Simulate a transaction, send it and poll. -/
def submitSettle (tx : Tx) : Method InvokeResult := do
  let simulated ← await (.simulateSettle tx)
  if !simulated then throw .settlementSimulation
  else match ← await (.sendTransaction tx) with
    | .error => throw .settlementSubmission
    | .tryAgainLater => throw .settlementSubmission
    | .pending => pollTransaction (.onChain tx)
    | .duplicate => pollTransaction (.onChain tx)

/-- Build, send and await the transaction that settles an order. -/
def doInvokeSettle (cfg : StellarConfig) (orderRef : String) (totalAmountBase : ℤ)
    (recipients : List RecipientInput) : Method InvokeResult := do
  let (sequence, now) ← await .getAccount
  match buildSettle cfg sequence now orderRef totalAmountBase recipients with
  | none => throw .rpc
  | some tx => submitSettle tx

/-- The errors `invokeSettle` passes on. -/
def Failure.known : Failure → Bool
  | .settlementSimulation => true
  | .settlementSubmission => true
  | .settlementTimeout _ => true
  | _ => false

/-- Invoke the `settle` function of the contract. -/
def invokeSettle (cfg : StellarConfig) (orderRef : String) (totalAmountBase : ℤ)
    (recipients : List RecipientInput) : Method InvokeResult :=
  tryCatch (doInvokeSettle cfg orderRef totalAmountBase recipients) fun err =>
    if err.known then throw err else throw .settlementNetwork

/-- The status of a transaction, without polling. -/
def getTransactionStatus (txHash : TxHash) : Method TxStatus :=
  await (.getTransaction txHash 0)

/-- `isSettled` : an archived marker counts as settled. -/
def sorobanIsSettled (orderRef : String) : Method Bool := do
  let _ ← await .getAccount
  match ← await (.simulateIsSettled orderRef) with
  | .error => throw .isSettledSimulation
  | .restore => return true
  | .value settled => return settled

end Kreav
