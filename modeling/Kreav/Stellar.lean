import Kreav.Contract

/-!
# The Stellar network

What the backend can reach of the network : the ledgers with the settlement contract, and
the queue of transactions of the platform account. `submit` follows the sequence rule : a
transaction is accepted only with the number after the last one in a ledger or in the
queue. `close` puts the first queued transaction into a ledger. `TxHash` identifies the hash of a
transaction with its content, and keeps the placeholders the backend writes apart.

The SDK's check of an address and the token contracts are parameters (`StellarConfig`).
-/

namespace Kreav

/-- A transaction that invokes `settle`, signed by the platform key. -/
structure Tx where
  seq : ℕ
  maxTime : ℕ
  orderRef : String
  totalAmount : I128
  recipients : List (Recipient String)
  deriving DecidableEq, Repr

/-- A transaction hash column : the hash of a transaction, or a text that is none. -/
inductive TxHash
  | onChain (tx : Tx)
  | placeholder (text : String)
  deriving DecidableEq, Repr

/-- A transaction of the platform account. The backend also signs others than `settle`. -/
inductive PlatformTx
  | settle (tx : Tx)
  | other (seq : ℕ)
  deriving DecidableEq, Repr

/-- The sequence number. -/
def PlatformTx.seq : PlatformTx → ℕ
  | .settle tx => tx.seq
  | .other seq => seq

/-- The configured accounts and the code outside of the repository. -/
structure StellarConfig where
  platformWalletAddress : String
  /-- The public key of the platform keypair. -/
  publicKey : String
  /-- The asset whose balance Horizon reports. -/
  usdc : String
  /-- `new Address(address)` does not throw. -/
  isAddress : String → Bool
  /-- The token contracts, given who has a trustline. -/
  sac : (String → Bool) → Sac String

/-- The network. -/
structure Chain where
  contract : ContractState String
  trustline : String → Bool
  /-- Sequence number of the platform account in the last closed ledger. -/
  closedSequence : ℕ
  /-- Accepted transactions, in the order they will be applied. -/
  mempool : List PlatformTx
  /-- Applied `settle` transactions with their success, newest first. -/
  results : List (Tx × Bool)
  /-- The `settle` transactions that were accepted when the backend sent them. -/
  sent : List Tx

/-- The answers of `sendTransaction`. -/
inductive SendStatus
  | pending
  | duplicate
  | tryAgainLater
  | error
  deriving DecidableEq, Repr

/-- The answers of `getTransaction`. -/
inductive TxStatus
  | success
  | failed
  | notFound
  deriving DecidableEq, Repr

namespace Chain

/-- The sequence number of the platform account, queued transactions included. -/
def sequence (c : Chain) : ℕ :=
  c.closedSequence + c.mempool.length

/-- Whether an applied transaction succeeded. -/
def result (c : Chain) (tx : Tx) : Option Bool :=
  c.results.lookup tx

/-- The transaction was applied with success. -/
def Executed (c : Chain) (tx : Tx) : Prop :=
  c.result tx = some true

instance (c : Chain) (tx : Tx) : Decidable (c.Executed tx) :=
  inferInstanceAs (Decidable (_ = _))

/-- Offer a transaction to the queue. -/
def submit (t : PlatformTx) (c : Chain) : SendStatus × Chain :=
  if t ∈ c.mempool then (.duplicate, c)
  else if t.seq = c.sequence + 1 then (.pending, { c with mempool := c.mempool ++ [t] })
  else (.error, c)

/-- The invocation of a transaction, authorized by the platform key. -/
def invokeSettle (cfg : StellarConfig) (c : Chain) (tx : Tx) :
    Except Halt (ContractState String) :=
  settle (cfg.sac c.trustline) (fun a => a = cfg.publicKey) tx.orderRef tx.totalAmount
    tx.recipients c.contract

/-- Apply a transaction. `fails` : it fails for a reason other than the contract's. -/
def apply (cfg : StellarConfig) (fails : Bool) (tx : Tx) (c : Chain) : Chain :=
  match if fails then .error .trap else c.invokeSettle cfg tx with
  | .ok contract => { c with contract, results := (tx, true) :: c.results }
  | .error _ => { c with results := (tx, false) :: c.results }

/-- Put the first queued transaction into a ledger. None is applied twice. -/
def close (cfg : StellarConfig) (fails : Bool) (c : Chain) : Chain :=
  match c.mempool with
  | [] => c
  | .other _ :: rest => { c with closedSequence := c.closedSequence + 1, mempool := rest }
  | .settle tx :: rest =>
    if (c.result tx).isSome then { c with mempool := rest }
    else apply cfg fails tx { c with closedSequence := c.closedSequence + 1, mempool := rest }

end Chain

/-- What happens on the network without the backend's handlers. -/
inductive NetworkStep
  /-- A ledger takes the first queued transaction. -/
  | close (fails : Bool)
  /-- Only the first `n` queued transactions are kept. -/
  | drop (n : ℕ)
  /-- Another process submits a transaction of the platform account. -/
  | submit (t : PlatformTx)
  /-- Other accounts' operations leave these balances and trustlines. -/
  | accounts (ledger : String → TokenLedger.Ledger String) (trustline : String → Bool)

/-- One step of the network. -/
def Chain.step (cfg : StellarConfig) : NetworkStep → Chain → Chain
  | .close fails, c => c.close cfg fails
  | .drop n, c => { c with mempool := c.mempool.take n }
  | .submit t, c => (c.submit t).2
  | .accounts ledger trustline, c =>
    { c with contract := { c.contract with ledger }, trustline }

end Kreav
