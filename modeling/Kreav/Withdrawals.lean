import Kreav.Backend
import Kreav.Lib.Doubles
import Kreav.Settlement
import Mathlib.Data.List.MinMax

/-!
# Withdrawals

`backend/src/withdrawals/withdrawals.service.ts` and `anchor/withdrawals-anchor.controller.ts`.
`requestWithdrawal` checks the balance of a wallet and creates a withdrawal. A later read,
`getWithdrawal`, completes it by the clock. `interactive` creates one that an anchor carries
out, and `transaction` polls the anchor and copies its status and amount to the row.

The balance of a wallet is what completed settlements credited it with, less its creator's
completed withdrawals. The methods are programs over requests of their own
(`withdrawals`), of which single database statements and calls to the anchor are one each.
Money is in cents, on receipts in dollars as doubles, and times are in milliseconds.
-/

open Async Rounding

namespace Kreav

/-! ## Rows -/

/-- The statuses of a withdrawal. -/
inductive WithdrawalStatus
  | requested
  | processing
  | completed
  | failed
  deriving DecidableEq, Repr

/-- `KRV-WD-YYYYMMDD-NNNNNN`, or `KRV-WD-A-` and eight random digits. -/
inductive Reference
  | numbered (day num : ℕ)
  | anchor (digits : String)
  deriving DecidableEq, Repr

/-- A row of `withdrawals`. -/
structure Withdrawal where
  id : String
  creatorId : String
  amount : Usd
  destinationType : String
  destinationAccount : String
  reference : Reference
  status : WithdrawalStatus
  settlementTxHash : Option TxHash
  anchorTransactionId : Option String
  txHash : Option String
  createdAt : ℕ
  completedAt : Option ℕ
  deriving DecidableEq, Repr

/-- The table, in the order of creation, with its unique columns. -/
structure WithdrawalTable where
  rows : List Withdrawal
  ids : (rows.map (·.id)).Nodup
  references : (rows.map (·.reference)).Nodup

/-- The columns of a withdrawal to create. The amount may be too large for its column. -/
structure WithdrawalCreate where
  creatorId : String
  amount : ℤ
  destinationType : String
  destinationAccount : String
  reference : Reference
  status : WithdrawalStatus
  settlementTxHash : Option TxHash := none
  anchorTransactionId : Option String := none
  deriving DecidableEq, Repr

/-- The columns an update sets. `completedAt` may be set to null. -/
structure WithdrawalUpdate where
  status : Option WithdrawalStatus := none
  completedAt : Option (Option ℕ) := none
  amount : Option ℤ := none
  txHash : Option String := none
  deriving DecidableEq, Repr

/-- The amount an update stores, if it fits. -/
def WithdrawalUpdate.stored (data : WithdrawalUpdate) : Option (Option Usd) :=
  match data.amount with
  | none => some none
  | some cents => (Usd.ofCents? cents).map some

/-- The row after an update that stores `amount`. -/
def WithdrawalUpdate.applyTo (data : WithdrawalUpdate) (amount : Option Usd) (r : Withdrawal) :
    Withdrawal :=
  { r with
    status := data.status.getD r.status
    completedAt := data.completedAt.getD r.completedAt
    amount := amount.getD r.amount
    txHash := data.txHash.or r.txHash }

namespace WithdrawalTable

/-- The table without rows. -/
def empty : WithdrawalTable :=
  ⟨[], List.nodup_nil, List.nodup_nil⟩

/-- Add a row, with the unique indexes on `id` and `reference`. -/
def add (r : Withdrawal) (t : WithdrawalTable) : Except DbError WithdrawalTable :=
  if h : r.id ∉ t.rows.map (·.id) ∧ r.reference ∉ t.rows.map (·.reference) then
    .ok
      { rows := t.rows.concat r
        ids := by simpa using List.Nodup.concat h.1 t.ids
        references := by simpa using List.Nodup.concat h.2 t.references }
  else .error .uniqueViolation

/-- Apply an update to the rows that match. -/
def modify (p : Withdrawal → Bool) (data : WithdrawalUpdate) (amount : Option Usd)
    (t : WithdrawalTable) : WithdrawalTable where
  rows := t.rows.map fun r => if p r then data.applyTo amount r else r
  ids := by
    have hid : ((·.id) ∘ fun r => if p r then data.applyTo amount r else r) =
        fun r : Withdrawal => r.id := by
      funext r
      simp only [Function.comp_apply]
      split <;> rfl
    rw [List.map_map, hid]
    exact t.ids
  references := by
    have hid : ((·.reference) ∘ fun r => if p r then data.applyTo amount r else r) =
        fun r : Withdrawal => r.reference := by
      funext r
      simp only [Function.comp_apply]
      split <;> rfl
    rw [List.map_map, hid]
    exact t.references

/-- `withdrawal.create`. The id and the time are the database's. -/
def create (id : String) (createdAt : ℕ) (data : WithdrawalCreate) (t : WithdrawalTable) :
    Except DbError (Withdrawal × WithdrawalTable) :=
  match Usd.ofCents? data.amount with
  | none => .error .outOfRange
  | some amount =>
    let r : Withdrawal :=
      { id, amount, createdAt
        creatorId := data.creatorId
        destinationType := data.destinationType
        destinationAccount := data.destinationAccount
        reference := data.reference
        status := data.status
        settlementTxHash := data.settlementTxHash
        anchorTransactionId := data.anchorTransactionId
        txHash := none
        completedAt := none }
    (t.add r).map fun t => (r, t)

/-- `withdrawal.updateMany`. -/
def updateMany (p : Withdrawal → Bool) (data : WithdrawalUpdate) (t : WithdrawalTable) :
    Except DbError WithdrawalTable :=
  match data.stored with
  | some amount => .ok (t.modify p data amount)
  | none => if t.rows.any p then .error .outOfRange else .ok t

/-- `withdrawal.update`. -/
def update (id : String) (data : WithdrawalUpdate) (t : WithdrawalTable) :
    Except DbError WithdrawalTable :=
  if t.rows.any (·.id = id) then t.updateMany (·.id = id) data else .error .recordNotFound

end WithdrawalTable

/-- What the settlements credited a wallet with : its creator rows. -/
def Database.credits (db : Database) (walletAddress : String) : ℤ :=
  (db.settlements.entries.map fun e => ((e.2.recipients.filter fun r =>
    r.walletAddress = walletAddress ∧ r.recipientType = .creator).map (·.amount)).sum).sum

/-- The transaction hashes of the settlements that credited a wallet. -/
def Database.settlementHashes (db : Database) (walletAddress : String) : List TxHash :=
  db.settlements.entries.flatMap fun e => (e.2.recipients.filter fun r =>
    r.walletAddress = walletAddress ∧ r.recipientType = .creator).map fun _ => e.2.txHash

/-! ## Requests -/

/-- A decimal number as a text, `digits / 10 ^ scale`, or a text that is no number. -/
inductive DecimalText
  | decimal (digits : ℤ) (scale : ℕ)
  | invalid
  deriving DecidableEq, Repr

/-- What a `Decimal(18,2)` column keeps of a decimal, in cents. -/
def decimalCents (digits : ℤ) (scale : ℕ) : ℤ :=
  if scale ≤ 2 then digits * 10 ^ (2 - scale) else roundHalfAway (10 ^ (scale - 2)) digits

/-- A transaction as the anchor reports it. -/
structure AnchorTransaction where
  status : String
  withdrawAnchorAccount : Option String := none
  withdrawMemo : Option String := none
  withdrawMemoType : Option String := none
  amountIn : Option DecimalText := none
  moreInfoUrl : Option String := none
  deriving DecidableEq, Repr

/-- The errors of the withdrawal endpoints. -/
inductive WithdrawalError
  /-- A `DomainException`. -/
  | domain (code message : String) (status : ℕ)
  | notFound (message : String)
  | forbidden (message : String)
  | unauthorized (message : String)
  | uniqueViolation
  | database
  /-- A call to the anchor or to Horizon failed. -/
  | remote
  /-- The `Decimal` constructor threw. -/
  | decimal
  deriving DecidableEq, Repr

/-- The error that a method sees. -/
def DbError.withdrawalError : DbError → WithdrawalError
  | .uniqueViolation => .uniqueViolation
  | .recordNotFound => .database
  | .outOfRange => .database
  | .nullViolation => .database
  | .unavailable => .database

/-- What the endpoints ask of the database, of the anchor and of the clock. -/
inductive WithdrawalRequest
  /-- `wallet.findFirst` by address : its creator. -/
  | walletCreator (walletAddress : String)
  /-- `wallet.findFirst` by creator : its address. -/
  | walletOf (creatorId : String)
  /-- `settlementRecipient.aggregate` of a wallet's creator rows. -/
  | settledTotal (walletAddress : String)
  /-- `withdrawal.aggregate` of a creator's completed withdrawals. -/
  | completedTotal (creatorId : String)
  /-- `withdrawal.findFirst` of the newest reference of a day. -/
  | lastReference (day : ℕ)
  /-- `settlementRecipient.findFirst` of a wallet, newest first : the transaction hash. -/
  | recentSettlement (walletAddress : String)
  | withdrawalCreate (data : WithdrawalCreate)
  | withdrawalUpdate (id : String) (data : WithdrawalUpdate)
  /-- `withdrawal.updateMany` by anchor transaction and creator. -/
  | withdrawalUpdateMany (anchorTransactionId creatorId : String) (data : WithdrawalUpdate)
  | withdrawalFindUnique (id : String)
  /-- `Date.now()`. -/
  | now
  /-- The digits of `randomUUID().slice(0, 8).toUpperCase()`. -/
  | randomDigits
  /-- `withdrawInteractive` of the anchor : the id of its transaction. -/
  | withdrawInteractive (token account : String) (amount : ℤ)
  /-- `getTransaction` of the anchor. -/
  | getTransaction (token id : String)
  /-- `submitWithdrawPayment` : the hash of the payment. -/
  | submitWithdrawPayment (signedXdr expectedFrom : String)
  deriving DecidableEq, Repr

/-- The answers. -/
def WithdrawalRequest.Ans : WithdrawalRequest → Type
  | .walletCreator _ => Option String
  | .walletOf _ => Option String
  | .settledTotal _ => ℤ
  | .completedTotal _ => ℤ
  | .lastReference _ => Option Reference
  | .recentSettlement _ => Option TxHash
  | .withdrawalCreate _ => Withdrawal
  | .withdrawalUpdate _ _ => Unit
  | .withdrawalUpdateMany _ _ _ => Unit
  | .withdrawalFindUnique _ => Option Withdrawal
  | .now => ℕ
  | .randomDigits => String
  | .withdrawInteractive _ _ _ => String
  | .getTransaction _ _ => AnchorTransaction
  | .submitWithdrawPayment _ _ => String

/-- The requests of the withdrawal endpoints. They emit no events. -/
abbrev withdrawals : Sig where
  Req := WithdrawalRequest
  Ans := WithdrawalRequest.Ans
  Event := Empty
  Error := WithdrawalError

/-- An asynchronous method of the withdrawal endpoints. -/
abbrev WithdrawalMethod (α : Type) :=
  Prog withdrawals α

/-- `await` of a request. -/
abbrev awaitW (r : WithdrawalRequest) : WithdrawalMethod r.Ans :=
  Prog.ask (S := withdrawals) r

/-- The configuration. `localDay` is the calendar day of a time. -/
structure WithdrawalConfig where
  anchorEnabled : Bool
  anchorHomeDomain : String
  localDay : ℕ → ℕ

/-! ## The service -/

/-- Milliseconds before a withdrawal is completed. -/
def simulationDelayMs : ℕ :=
  2500

/-- `toFixed(2)` of an amount in cents. -/
def toFixed2 (cents : ℤ) : String :=
  let rest := cents.natAbs % 100
  (if cents < 0 then "-" else "") ++ toString (cents.natAbs / 100) ++ "." ++
    (if rest < 10 then "0" else "") ++ toString rest

/-- What `Decimal` makes of a sum or difference. -/
def decimalOf (cents : ℤ) : ℤ :=
  roundSig precision cents

/-- The withdrawable balance of a wallet. -/
def getWithdrawableBalance (walletAddress : String) : WithdrawalMethod ℤ := do
  match ← awaitW (.walletCreator walletAddress) with
  | none => return 0
  | some creatorId =>
    let totalSettled : ℤ ← awaitW (.settledTotal walletAddress)
    let totalWithdrawn : ℤ ← awaitW (.completedTotal creatorId)
    return decimalOf (totalSettled - totalWithdrawn)

/-- The next reference of the day. -/
def generateReference (cfg : WithdrawalConfig) : WithdrawalMethod Reference := do
  let now ← awaitW .now
  let day := cfg.localDay now
  match ← awaitW (.lastReference day) with
  | some (.numbered _ lastNum) => return .numbered day (lastNum + 1)
  | some (.anchor _) => return .numbered day 1
  | none => return .numbered day 1

/-- The hash of the newest settlement of a wallet. -/
def findRecentSettlementTxHash (walletAddress : String) : WithdrawalMethod (Option TxHash) := do
  let recent ← awaitW (.recentSettlement walletAddress)
  return truthy recent

/-- `Number(...)` of a decimal in dollars : the nearest double. Sums of `Decimal(18,2)` columns
are far from the largest one. -/
def toNumber (cents : ℤ) : ℚ :=
  Doubles.double (cents / 100)

/-- `buildReceipt`, without its constant texts. The money is in dollars, as doubles. -/
structure Receipt where
  withdrawalId : String
  reference : Reference
  status : WithdrawalStatus
  amount : ℚ
  availableBalanceBefore : ℚ
  availableBalanceAfter : ℚ
  destinationType : String
  destinationAccount : String
  settlementTxHash : Option TxHash
  requestedAt : ℕ
  completedAt : Option ℕ
  deriving DecidableEq, Repr

/-- Request a withdrawal. -/
def requestWithdrawal (cfg : WithdrawalConfig) (walletAddress : String) (amount : ℤ)
    (destinationType destinationAccount : String) : WithdrawalMethod Receipt := do
  match ← awaitW (.walletCreator walletAddress) with
  | none => throw (.domain "WALLET_NOT_FOUND"
      "No wallet found for the given address. Connect a wallet first." 404)
  | some creatorId =>
    let availableBalance ← getWithdrawableBalance walletAddress
    if availableBalance < amount then
      throw (.domain "INSUFFICIENT_BALANCE"
        ("Insufficient withdrawable balance. Available: " ++ toFixed2 availableBalance ++
          " USDC, Requested: " ++ toFixed2 amount ++ " USDC. " ++
          "Note: Withdrawable balance is calculated from completed settlements minus " ++
          "previous withdrawals.") 400)
    else
      let reference ← generateReference cfg
      let settlementTxHash ← findRecentSettlementTxHash walletAddress
      let withdrawal ← awaitW (.withdrawalCreate
        { creatorId, amount, destinationType, destinationAccount, reference, settlementTxHash
          status := .requested })
      awaitW (.withdrawalUpdate withdrawal.id { status := some .processing })
      return ⟨withdrawal.id, reference, .processing, toNumber amount, toNumber availableBalance,
        toNumber (decimalOf (availableBalance - amount)), destinationType, destinationAccount,
        settlementTxHash, withdrawal.createdAt, none⟩

/-- The receipt of a withdrawal with the status it has now. -/
def receiptOf (withdrawal : Withdrawal) (status : WithdrawalStatus) (completedAt : Option ℕ) :
    WithdrawalMethod Receipt := do
  let balanceBefore ← (do
    match ← awaitW (.walletOf withdrawal.creatorId) with
    | none => return 0
    | some walletAddress =>
      let currentAvailable ← getWithdrawableBalance walletAddress
      return decimalOf (currentAvailable + withdrawal.amount.cents))
  return ⟨withdrawal.id, withdrawal.reference, status, toNumber withdrawal.amount.cents,
    toNumber balanceBefore, toNumber (decimalOf (balanceBefore - withdrawal.amount.cents)),
    withdrawal.destinationType, withdrawal.destinationAccount, withdrawal.settlementTxHash,
    withdrawal.createdAt, completedAt⟩

/-- Read a withdrawal. One that is being processed is completed after the delay. -/
def getWithdrawal (id : String) (requesterCreatorId : Option String) :
    WithdrawalMethod Receipt := do
  match ← awaitW (.withdrawalFindUnique id) with
  | none => throw (.notFound "Withdrawal not found")
  | some withdrawal =>
    if requesterCreatorId.any fun requester => requester ≠ "" ∧ withdrawal.creatorId ≠ requester
    then throw (.notFound "Withdrawal not found")
    else if withdrawal.status = .processing then
      let now : ℕ ← awaitW .now
      if withdrawal.createdAt + simulationDelayMs ≤ now then
        let completedAt ← awaitW .now
        awaitW (.withdrawalUpdate withdrawal.id
          { status := some .completed, completedAt := some (some completedAt) })
        receiptOf withdrawal .completed (some completedAt)
      else receiptOf withdrawal withdrawal.status withdrawal.completedAt
    else receiptOf withdrawal withdrawal.status withdrawal.completedAt

/-! ## The anchor controller -/

/-- `assertEnabled`, then the rest of an endpoint. -/
def assertEnabled (cfg : WithdrawalConfig) : WithdrawalMethod Unit :=
  if cfg.anchorEnabled then return ()
  else throw (.forbidden "Anchor off-ramp is disabled (set ANCHOR_ENABLED=true)")

/-- The token of the anchor from its header. -/
def requireToken : Option String → WithdrawalMethod String
  | none => throw (.unauthorized "Missing x-anchor-token (authenticate with the anchor first)")
  | some token =>
    if token = "" then
      throw (.unauthorized "Missing x-anchor-token (authenticate with the anchor first)")
    else return token

/-- The wallet address of a creator. -/
def getAddressForCreator (creatorId : String) : WithdrawalMethod String := do
  match ← awaitW (.walletOf creatorId) with
  | none => throw (.notFound "No wallet connected to this account")
  | some walletAddress => return walletAddress

/-- What `interactive` and `transaction` return to the client. -/
structure InteractiveResponse where
  id : String
  withdrawalId : String
  deriving DecidableEq, Repr

/-- What a poll returns. -/
structure TransactionResponse where
  transaction : AnchorTransaction
  mappedStatus : WithdrawalStatus
  deriving DecidableEq, Repr

/-- Start an interactive withdrawal. -/
def interactive (cfg : WithdrawalConfig) (userId : String) (amount : ℤ) (token : Option String) :
    WithdrawalMethod InteractiveResponse := do
  assertEnabled cfg
  let anchorToken ← requireToken token
  let address ← getAddressForCreator userId
  let available ← getWithdrawableBalance address
  if available < amount then
    throw (.forbidden ("Insufficient withdrawable balance. Available: " ++ toFixed2 available ++
      " USDC, " ++ "Requested: " ++ toFixed2 amount ++ " USDC."))
  else
    let id ← awaitW (.withdrawInteractive anchorToken address amount)
    let digits ← awaitW .randomDigits
    let withdrawal ← awaitW (.withdrawalCreate
      { creatorId := userId, amount
        destinationType := "ANCHOR"
        destinationAccount := cfg.anchorHomeDomain
        reference := .anchor digits
        status := .processing
        anchorTransactionId := some id })
    return ⟨id, withdrawal.id⟩

/-- The status of a withdrawal for a status of the anchor. -/
def mapStatus (anchorStatus : String) : WithdrawalStatus :=
  if anchorStatus = "completed" then .completed
  else if anchorStatus ∈
    ["error", "refunded", "no_market", "too_small", "too_large", "expired"] then .failed
  else .processing

/-- The update of a poll, if the amount is a number. -/
def pollUpdate (tx : AnchorTransaction) (completedAt : Option ℕ) : Option WithdrawalUpdate :=
  let data : WithdrawalUpdate :=
    { status := some (mapStatus tx.status), completedAt := some completedAt }
  match tx.amountIn with
  | none => some data
  | some .invalid => none
  | some (.decimal digits scale) => some { data with amount := some (decimalCents digits scale) }

/-- Poll a transaction of the anchor and copy its status and amount. -/
def transaction (cfg : WithdrawalConfig) (userId id : String) (token : Option String) :
    WithdrawalMethod TransactionResponse := do
  assertEnabled cfg
  let anchorToken ← requireToken token
  let tx ← awaitW (.getTransaction anchorToken id)
  let completedAt ← (do
    if mapStatus tx.status = .completed then
      let now ← awaitW .now
      return some now
    else return none)
  match pollUpdate tx completedAt with
  | none => throw .decimal
  | some data =>
    awaitW (.withdrawalUpdateMany id userId data)
    return ⟨tx, mapStatus tx.status⟩

/-- Relay the creator's payment to the anchor. -/
def submitPayment (cfg : WithdrawalConfig) (userId signedXdr id : String) :
    WithdrawalMethod String := do
  assertEnabled cfg
  let address ← getAddressForCreator userId
  let txHash ← awaitW (.submitWithdrawPayment signedXdr address)
  awaitW (.withdrawalUpdateMany id userId { txHash := some txHash })
  return txHash

/-! ## The world -/

/-- The tables. -/
structure WithdrawalWorld where
  db : Database
  withdrawals : WithdrawalTable

/-- The outcome of one request, as far as the world does not determine it. -/
structure WithdrawalChoice where
  fault : Fault := .none
  /-- The order of the rows of a query. -/
  order : ℕ := 0
  /-- The time. -/
  now : ℕ := 0
  /-- The id the database or the anchor gives, or random digits. -/
  uuid : String := ""
  /-- What the anchor reports. -/
  transaction : AnchorTransaction := ⟨"", none, none, none, none, none⟩
  deriving DecidableEq, Repr

/-- The sum of a creator's withdrawals whose status counts. -/
def WithdrawalTable.total (counts : WithdrawalStatus → Bool) (creatorId : String)
    (t : WithdrawalTable) : ℤ :=
  ((t.rows.filter fun r => r.creatorId = creatorId ∧ counts r.status).map (·.amount.cents)).sum

/-- It is completed. -/
def WithdrawalStatus.isCompleted (s : WithdrawalStatus) : Bool :=
  s = .completed

/-- A withdrawal whose amount is out, or will be. -/
def WithdrawalStatus.isOpen (s : WithdrawalStatus) : Bool :=
  s ≠ .failed

/-- Lift the effect of a database write. -/
def WithdrawalWorld.write (w : WithdrawalWorld) :
    Except DbError WithdrawalTable → Except WithdrawalError Unit × WithdrawalWorld
  | .ok t => (.ok (), { w with withdrawals := t })
  | .error e => (.error e.withdrawalError, w)

/-- What a request answers and changes when no fault hits it. -/
def withdrawalEffect : (r : WithdrawalRequest) → WithdrawalChoice → WithdrawalWorld →
    Except WithdrawalError r.Ans × WithdrawalWorld
  | .walletCreator walletAddress, c, w =>
    (.ok ((reorder c.order (w.db.wallets.filter (·.walletAddress = walletAddress))).head?.map
      (·.creatorId)), w)
  | .walletOf creatorId, c, w =>
    (.ok ((reorder c.order (w.db.wallets.filter (·.creatorId = creatorId))).head?.map
      (·.walletAddress)), w)
  | .settledTotal walletAddress, _, w => (.ok (w.db.credits walletAddress), w)
  | .completedTotal creatorId, _, w =>
    (.ok (w.withdrawals.total WithdrawalStatus.isCompleted creatorId), w)
  | .lastReference day, c, w =>
    (.ok ((List.argmax (·.createdAt) (reorder c.order (w.withdrawals.rows.filter fun r =>
      match r.reference with
      | .numbered day' _ => day' = day
      | .anchor _ => false))).map (·.reference)), w)
  | .recentSettlement walletAddress, c, w =>
    (.ok (reorder c.order (w.db.settlementHashes walletAddress)).head?, w)
  | .withdrawalCreate data, c, w =>
    match w.withdrawals.create c.uuid c.now data with
    | .ok (r, t) => (.ok r, { w with withdrawals := t })
    | .error e => (.error e.withdrawalError, w)
  | .withdrawalUpdate id data, _, w => w.write (w.withdrawals.update id data)
  | .withdrawalUpdateMany anchorTransactionId creatorId data, _, w =>
    w.write (w.withdrawals.updateMany (fun r =>
      r.anchorTransactionId = some anchorTransactionId ∧ r.creatorId = creatorId) data)
  | .withdrawalFindUnique id, _, w => (.ok (w.withdrawals.rows.find? (·.id = id)), w)
  | .now, c, w => (.ok c.now, w)
  | .randomDigits, c, w => (.ok c.uuid, w)
  | .withdrawInteractive _ _ _, c, w => (.ok c.uuid, w)
  | .getTransaction _ _, c, w => (.ok c.transaction, w)
  | .submitWithdrawPayment _ _, c, w => (.ok c.uuid, w)

/-- The error of a request that throws. -/
def WithdrawalRequest.thrown : WithdrawalRequest → WithdrawalError
  | .withdrawInteractive _ _ _ => .remote
  | .getTransaction _ _ => .remote
  | .submitWithdrawPayment _ _ => .remote
  | _ => .database

/-- The clock and the random digits are not awaited. -/
def WithdrawalRequest.isLocal : WithdrawalRequest → Bool
  | .now => true
  | .randomDigits => true
  | _ => false

/-- Requests with their faults. -/
def withdrawalExec (r : WithdrawalRequest) (c : WithdrawalChoice) (w : WithdrawalWorld) :
    Except WithdrawalError r.Ans × WithdrawalWorld :=
  if r.isLocal then withdrawalEffect r c w
  else match c.fault with
    | .none => withdrawalEffect r c w
    | .lost => (.error r.thrown, w)
    | .unacked => (.error r.thrown, (withdrawalEffect r c w).2)

/-- Besides the endpoints, the settlement service records settlements. -/
inductive WithdrawalEnv
  | recordSettlement (orderId : String) (amountUsd : Usd) (txHash : TxHash)
      (collaborators : List Collaborator)

/-- The endpoints and the settlement service. -/
def withdrawalMachine : Machine withdrawals WithdrawalWorld WithdrawalChoice WithdrawalEnv where
  exec := withdrawalExec
  log e _ := nomatch e
  env
    | .recordSettlement orderId amountUsd txHash collaborators, w =>
      match w.db.createSettlement ⟨orderId, amountUsd, txHash,
        settlementRows amountUsd.toBase (recipientInputs collaborators) collaborators⟩ with
      | .ok db => { w with db }
      | .error _ => w

/-- A call of an endpoint. -/
inductive WithdrawalCall
  | requestWithdrawal (walletAddress : String) (amount : ℤ)
      (destinationType destinationAccount : String)
  | getWithdrawal (id : String) (requesterCreatorId : Option String)
  | interactive (userId : String) (amount : ℤ) (token : Option String)
  | transaction (userId id : String) (token : Option String)
  | submitPayment (userId signedXdr id : String)

/-- The method of a call, without its response. -/
def WithdrawalCall.method (cfg : WithdrawalConfig) : WithdrawalCall → WithdrawalMethod Unit
  | .requestWithdrawal walletAddress amount destinationType destinationAccount => do
    let _ ← Kreav.requestWithdrawal cfg walletAddress amount destinationType destinationAccount
  | .getWithdrawal id requesterCreatorId => do
    let _ ← Kreav.getWithdrawal id requesterCreatorId
  | .interactive userId amount token => do
    let _ ← Kreav.interactive cfg userId amount token
  | .transaction userId id token => do
    let _ ← Kreav.transaction cfg userId id token
  | .submitPayment userId signedXdr id => do
    let _ ← Kreav.submitPayment cfg userId signedXdr id

/-! ## A deployment to run on -/

/-- The configuration of the examples. -/
def demoWithdrawalConfig : WithdrawalConfig where
  anchorEnabled := true
  anchorHomeDomain := "anchor"
  localDay now := now / 86400000

/-- The $9.50 that are left of $10. -/
def demoEarned : Usd :=
  usd 950

/-- The creator `alice`, whose wallet `A` was credited with $9.50. -/
def demoCredited : WithdrawalWorld where
  db := { (demoWorld [] []).db with
    settlements := AList.insert "order"
      ⟨(demoPayload "order").amountUsd, .placeholder "tx",
        [⟨"", .platform, "Platform Fee", 500, 50⟩, ⟨"A", .creator, "Author", 10000, 950⟩]⟩ ∅ }
  withdrawals := .empty

/-- A call to withdraw the $9.50. -/
def demoWithdrawal : WithdrawalCall :=
  .requestWithdrawal "A" 950 "BANK" "1"

/-- Thread `i` makes the requests of a withdrawal, which gets the id `id`. -/
def demoRequest (i : ℕ) (id : String) : List (Action WithdrawalChoice WithdrawalEnv) :=
  List.replicate 9 (.run i { uuid := id })

/-- Thread `i` reads a withdrawal after the delay. -/
def demoRead (i : ℕ) : List (Action WithdrawalChoice WithdrawalEnv) :=
  List.replicate 8 (.run i { now := simulationDelayMs })

end Kreav
