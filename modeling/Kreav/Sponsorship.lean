import Kreav.Withdrawals
import Mathlib.Data.List.Infix

/-!
# The sponsorship service

`backend/src/stellar/sponsorship.service.ts`. `prepareSponsoredTrustline` builds a transaction
of the platform account that sponsors a creator's trustline, and `submitSponsoredTrustline`
relays what the creator's wallet has signed. `buildWithdrawPayment` and
`submitWithdrawPayment` do the same for the payment that a withdrawal sends to the anchor.

Transactions are as the SDK parses them. Its parser, its memos and its check of an address
are parameters (`SponsorshipConfig`). Amounts are in units of the seventh decimal and times in
milliseconds.
-/

open Async

namespace Kreav

/-! ## Transactions -/

/-- An asset. A trustline may also be one to a liquidity pool. -/
inductive Asset
  | native
  | credit (code issuer : String)
  | liquidityPool (id : String)
  deriving DecidableEq, Repr

/-- `getCode?.()`. -/
def Asset.getCode : Asset → Option String
  | .native => some "XLM"
  | .credit code _ => some code
  | .liquidityPool _ => none

/-- `getIssuer?.()`. -/
def Asset.getIssuer : Asset → Option String
  | .native => none
  | .credit _ issuer => some issuer
  | .liquidityPool _ => none

/-- The operations that the service neither builds nor looks for. -/
inductive OperationKind
  | pathPaymentStrictReceive
  | pathPaymentStrictSend
  | manageSellOffer
  | manageBuyOffer
  | createPassiveSellOffer
  | setOptions
  | allowTrust
  | accountMerge
  | inflation
  | manageData
  | bumpSequence
  | createClaimableBalance
  | claimClaimableBalance
  | revokeSponsorship
  | clawback
  | clawbackClaimableBalance
  | setTrustLineFlags
  | liquidityPoolDeposit
  | liquidityPoolWithdraw
  | invokeHostFunction
  | extendFootprintTtl
  | restoreFootprint
  deriving DecidableEq, Repr

/-- What an operation does. -/
inductive OperationBody
  | beginSponsoringFutureReserves (sponsoredId : String)
  | endSponsoringFutureReserves
  | createAccount (destination : String) (startingBalance : ℕ)
  | changeTrust (line : Asset) (limit : ℕ)
  | payment (destination : String) (asset : Asset) (amount : ℕ)
  | other (kind : OperationKind)
  deriving DecidableEq, Repr

/-- An operation. Without a source of its own it has that of the transaction. -/
structure Operation where
  source : Option String := none
  body : OperationBody
  deriving DecidableEq, Repr

/-- The hashes are in hexadecimal. -/
inductive Memo
  | none
  | text (value : String)
  | id (value : ℕ)
  | hash (value : String)
  | returnHash (value : String)
  deriving DecidableEq, Repr

/-- A parsed transaction. -/
structure Transaction where
  /-- A fee bump has none. -/
  source : Option String
  sequence : ℕ
  fee : ℕ
  operations : List Operation
  memo : Memo
  /-- The end of its time bounds, in seconds. -/
  maxTime : ℕ
  /-- The keys that signed it. -/
  signatures : List String
  deriving DecidableEq, Repr

/-- The configuration, the platform's keypair and the SDK. -/
structure SponsorshipConfig where
  usdcAssetCode : String
  usdcIssuer : String
  networkPassphrase : String
  /-- `platformKey.getPublicKey()`. -/
  platform : String
  /-- `TransactionBuilder.fromXDR` for the network. -/
  fromXDR : String → Option Transaction
  toXDR : Transaction → String
  /-- The SDK's operations take the address. -/
  isAddress : String → Bool
  memoText : String → Option Memo
  memoId : String → Option Memo
  /-- `Memo.hash(Buffer.from(memo, 'base64'))`. -/
  memoHash : String → Option Memo

/-! ## Requests -/

/-- What Horizon throws : the `result_codes` as JSON, the message, and the error as a text. -/
structure HorizonError where
  resultCodes : Option String
  message : Option String
  text : String
  deriving DecidableEq, Repr

/-- The errors of the service. -/
inductive SponsorshipError
  | badRequest (message : String)
  | conflict (message : String)
  | horizon (err : HorizonError)
  /-- The SDK threw. -/
  | sdk
  deriving DecidableEq, Repr

/-- `getUsdcBalance`, as far as the service reads it. -/
structure WalletState where
  hasUsdcTrustline : Bool
  accountExists : Bool
  deriving DecidableEq, Repr

/-- What the service asks of Horizon and of the clock. -/
inductive SponsorshipRequest
  | getUsdcBalance (address : String)
  /-- `loadAccount` : the sequence number. -/
  | loadAccount (address : String)
  /-- `submitTransaction` : the hash. -/
  | submitTransaction (tx : Transaction)
  /-- `setTimeout`, awaited. -/
  | sleep (delay : ℕ)
  /-- `Date.now()`. -/
  | now
  deriving DecidableEq, Repr

/-- The answers. -/
def SponsorshipRequest.Ans : SponsorshipRequest → Type
  | .getUsdcBalance _ => WalletState
  | .loadAccount _ => ℕ
  | .submitTransaction _ => String
  | .sleep _ => Unit
  | .now => ℕ

/-- The requests of the service. -/
abbrev sponsorship : Sig where
  Req := SponsorshipRequest
  Ans := SponsorshipRequest.Ans
  Event := Empty
  Error := SponsorshipError

/-- A method of the service. -/
abbrev SponsorshipMethod (α : Type) :=
  Prog sponsorship α

/-- `await` of a request. -/
abbrev awaitS (r : SponsorshipRequest) : SponsorshipMethod r.Ans :=
  Prog.ask (S := sponsorship) r

/-! ## Errors of Horizon -/

/-- `text.includes(part)`. -/
def includes (text part : String) : Bool :=
  decide (part.toList <:+: text.toList)

/-- The error that a `catch` looks at. -/
def SponsorshipError.caught : SponsorshipError → HorizonError
  | .horizon err => err
  | .badRequest message => ⟨none, some message, message⟩
  | .conflict message => ⟨none, some message, message⟩
  | .sdk => ⟨none, none, ""⟩

/-- A readable text of an error. -/
def extractHorizonError (err : HorizonError) : String :=
  match err.resultCodes with
  | some codes => codes
  | none =>
    match err.message with
    | some message => if message = "" then err.text else message
    | none => err.text

/-- The sequence number was wrong. -/
def isBadSeqError (err : HorizonError) : Bool :=
  match err.resultCodes with
  | some codes => includes codes "tx_bad_seq"
  | none =>
    match err.message with
    | some message => includes message "tx_bad_seq" || includes message "bad sequence"
    | none => false

/-! ## Sponsored trustlines -/

section Service

variable (cfg : SponsorshipConfig)

/-- The configured USDC. -/
def SponsorshipConfig.usdcAsset : Asset :=
  .credit cfg.usdcAssetCode cfg.usdcIssuer

theorem Asset.eq_usdcAsset {line : Asset} (hcode : line.getCode = some cfg.usdcAssetCode)
    (hissuer : line.getIssuer = some cfg.usdcIssuer) : line = cfg.usdcAsset := by
  cases line with
  | credit code issuer =>
    rw [SponsorshipConfig.usdcAsset, Option.some.inj hcode, Option.some.inj hissuer]
  | native => cases hissuer
  | liquidityPool id => cases hissuer

/-- `BASE_FEE`. -/
def baseFee : ℕ :=
  100

/-- The limit of a trustline when none is given. -/
def maxLimit : ℕ :=
  2 ^ 63 - 1

/-- `builder.setTimeout(300).build()`. The builder's fee is one for each operation. -/
def buildTransaction (source : String) (sequence fee now : ℕ) (operations : List Operation)
    (memo : Memo) : Transaction where
  source := some source
  sequence := sequence + 1
  fee := fee * operations.length
  operations := operations
  memo := memo
  maxTime := now / 1000 + 300
  signatures := []

/-- The operations of a sponsored trustline. -/
def sponsoredOperations (creatorAddress : String) (createsAccount : Bool) : List Operation :=
  [{ body := .beginSponsoringFutureReserves creatorAddress }] ++
    (if createsAccount then [{ body := .createAccount creatorAddress 0 }] else []) ++
    [{ body := .changeTrust cfg.usdcAsset maxLimit, source := some creatorAddress },
      { body := .endSponsoringFutureReserves, source := some creatorAddress }]

/-- A prepared transaction, signed by the platform. -/
structure PreparedSponsoredTx where
  xdr : String
  networkPassphrase : String
  createsAccount : Bool
  deriving DecidableEq, Repr

/-- Build and sign a sponsored trustline for the creator. -/
def prepareSponsoredTrustline (creatorAddress : String) :
    SponsorshipMethod PreparedSponsoredTx := do
  let state ← awaitS (.getUsdcBalance creatorAddress)
  if state.hasUsdcTrustline then
    throw (.conflict "Wallet already has a USDC trustline")
  else
    let sequence ← awaitS (.loadAccount cfg.platform)
    let createsAccount := !state.accountExists
    if !cfg.isAddress creatorAddress then throw .sdk
    else
      let now ← awaitS .now
      let tx := buildTransaction cfg.platform sequence
        (baseFee * (if createsAccount then 4 else 3)) now
        (sponsoredOperations cfg creatorAddress createsAccount) .none
      return ⟨cfg.toXDR { tx with signatures := [cfg.platform] }, cfg.networkPassphrase,
        createsAccount⟩

/-- The account that a `beginSponsoringFutureReserves` sponsors. -/
def Operation.sponsoredId : Operation → Option String
  | ⟨_, .beginSponsoringFutureReserves sponsoredId⟩ => some sponsoredId
  | _ => none

/-- The operation ends a sponsorship. -/
def Operation.isEnd : Operation → Bool
  | ⟨_, .endSponsoringFutureReserves⟩ => true
  | _ => false

/-- The line and the source of a `changeTrust`. -/
def Operation.trustline : Operation → Option (Asset × Option String)
  | ⟨source, .changeTrust line _⟩ => some (line, source)
  | _ => none

/-- The structure of a transaction that the creator has signed. -/
def assertIsOurSponsoredTrustline (tx : Transaction) (expectedCreator : String) :
    Except SponsorshipError Unit :=
  if tx.source ≠ some cfg.platform then
    throw (.badRequest "Transaction source is not the platform account")
  else match tx.operations.findSome? (·.sponsoredId), tx.operations.any (·.isEnd),
      tx.operations.findSome? (·.trustline) with
    | some sponsoredId, true, some (line, source) =>
      if sponsoredId ≠ expectedCreator then
        throw (.badRequest "Sponsored account does not match the authenticated wallet")
      else if line.getCode ≠ some cfg.usdcAssetCode ∨ line.getIssuer ≠ some cfg.usdcIssuer then
        throw (.badRequest "Trustline asset is not the configured USDC")
      else if source ≠ some expectedCreator then
        throw (.badRequest "Trustline is not owned by the authenticated wallet")
      else return ()
    | _, _, _ => throw (.badRequest "Transaction is not a sponsored-trustline operation")

/-- The attempts from `attempt` on, with `left` of them. Only `tx_bad_seq` is tried again. -/
def submitAttempts (tx : Transaction) (attempt : ℕ) : ℕ → SponsorshipMethod String
  | 0 => throw .sdk
  | left + 1 =>
    tryCatch (awaitS (.submitTransaction tx)) fun err =>
      if isBadSeqError err.caught ∧ attempt < 2 then do
        awaitS (.sleep (2 ^ attempt * 100))
        submitAttempts tx (attempt + 1) left
      else throw (.badRequest
        ("Trustline submission failed: " ++ extractHorizonError err.caught))

/-- Check a signed transaction and relay it. -/
def submitSponsoredTrustline (signedXdr expectedCreator : String) : SponsorshipMethod String :=
  match cfg.fromXDR signedXdr with
  | none => throw (.badRequest "Malformed transaction XDR")
  | some tx =>
    match assertIsOurSponsoredTrustline cfg tx expectedCreator with
    | .error e => throw e
    | .ok () => submitAttempts tx 0 3

/-! ## Payments to the anchor -/

/-- An amount that the SDK's operations take. -/
def paymentAmount : DecimalText → Option ℕ
  | .invalid => none
  | .decimal digits scale =>
    if 0 < digits ∧ (10 : ℤ) ^ scale ∣ digits * 10 ^ 7 ∧
        digits * 10 ^ 7 / 10 ^ scale < 2 ^ 63 then
      some (digits * 10 ^ 7 / 10 ^ scale).toNat
    else none

/-- A SEP-24 memo as a memo of the SDK. -/
def toMemo (memo : String) (memoType : Option String) : Option Memo :=
  if memoType = some "hash" then cfg.memoHash memo
  else if memoType = some "id" then cfg.memoId memo
  else cfg.memoText memo

/-- The memo that is added : none for an empty text. -/
def withdrawMemo (memo memoType : Option String) : Option Memo :=
  match memo with
  | none => some .none
  | some memo => if memo = "" then some .none else toMemo cfg memo memoType

/-- The unsigned transaction that `buildWithdrawPayment` returns as XDR. -/
structure WithdrawPayment where
  xdr : String
  networkPassphrase : String
  deriving DecidableEq, Repr

/-- Build the unsigned payment of a creator to the anchor. -/
def buildWithdrawPayment (fromAddress toAddress : String) (amount : DecimalText)
    (memo memoType : Option String) : SponsorshipMethod WithdrawPayment := do
  let sequence ← awaitS (.loadAccount fromAddress)
  match paymentAmount amount with
  | none => throw .sdk
  | some amount =>
    if !cfg.isAddress toAddress then throw .sdk
    else match withdrawMemo cfg memo memoType with
      | none => throw .sdk
      | some memo =>
        let now ← awaitS .now
        let tx := buildTransaction fromAddress sequence baseFee now
          [{ body := .payment toAddress cfg.usdcAsset amount }] memo
        return ⟨cfg.toXDR tx, cfg.networkPassphrase⟩

/-- The asset of a payment. -/
def Operation.paymentAsset : Operation → Option Asset
  | ⟨_, .payment _ asset _⟩ => some asset
  | _ => none

/-- The checks of `submitWithdrawPayment`. -/
def checkWithdrawPayment (tx : Transaction) (expectedFrom : String) :
    Except SponsorshipError Unit :=
  if tx.source ≠ some expectedFrom then
    throw (.badRequest "Transaction source is not the authenticated wallet")
  else match tx.operations.length, tx.operations.findSome? (·.paymentAsset) with
    | 1, some asset =>
      if asset.getCode ≠ some cfg.usdcAssetCode ∨ asset.getIssuer ≠ some cfg.usdcIssuer then
        throw (.badRequest "Payment asset is not the configured USDC")
      else return ()
    | _, _ => throw (.badRequest "Transaction is not a single payment operation")

/-- Check a signed payment and relay it. -/
def submitWithdrawPayment (signedXdr expectedFrom : String) : SponsorshipMethod String :=
  match cfg.fromXDR signedXdr with
  | none => throw (.badRequest "Malformed transaction XDR")
  | some tx =>
    match checkWithdrawPayment cfg tx expectedFrom with
    | .error e => throw e
    | .ok () => tryCatch (awaitS (.submitTransaction tx)) fun err =>
      throw (.badRequest ("Withdraw payment failed: " ++ extractHorizonError err.caught))

end Service

/-! ## Horizon -/

/-- What Horizon answers to a request, and the time. -/
structure SponsorshipChoice where
  error : Option HorizonError := none
  state : WalletState := ⟨false, false⟩
  sequence : ℕ := 0
  hash : String := ""
  now : ℕ := 0
  deriving DecidableEq, Repr

/-- An answer, unless Horizon throws. -/
def SponsorshipChoice.answer {α : Type} (c : SponsorshipChoice) (a : α) :
    Except SponsorshipError α :=
  match c.error with
  | none => .ok a
  | some err => .error (.horizon err)

/-- Horizon may answer anything. The transactions that were relayed to it are recorded. -/
def relayMachine : Machine sponsorship (List Transaction) SponsorshipChoice Empty where
  exec
    | .getUsdcBalance _, c, relayed => (c.answer c.state, relayed)
    | .loadAccount _, c, relayed => (c.answer c.sequence, relayed)
    | .submitTransaction tx, c, relayed => (c.answer c.hash, relayed ++ [tx])
    | .sleep _, _, relayed => (.ok (), relayed)
    | .now, c, relayed => (.ok c.now, relayed)
  log e _ := nomatch e
  env e _ := nomatch e

/-- The transactions that a call relays. -/
def relayedBy {α : Type} (p : SponsorshipMethod α) (ch : ℕ → SponsorshipChoice) :
    List Transaction :=
  (p.eval relayMachine ch []).2.2

section Relaying

variable {tx : Transaction} {f : SponsorshipError → SponsorshipMethod String}
  {ch : ℕ → SponsorshipChoice} {relayed : List Transaction}

theorem eval_submitTransaction_ok {hash : String}
    (h : (ch 0).answer (ch 0).hash = .ok hash) :
    (tryCatch (awaitS (.submitTransaction tx)) f).eval relayMachine ch relayed =
      (.ok hash, fun n => ch (n + 1), relayed ++ [tx]) :=
  Prog.eval_tryCatch_ok ((Prog.eval_ask_eq relayMachine _ ch relayed).trans
    (congrArg (·, fun n => ch (n + 1), relayed ++ [tx]) h))

theorem eval_submitTransaction_error {err : SponsorshipError}
    (h : (ch 0).answer (ch 0).hash = .error err) :
    (tryCatch (awaitS (.submitTransaction tx)) f).eval relayMachine ch relayed =
      (f err).eval relayMachine (fun n => ch (n + 1)) (relayed ++ [tx]) :=
  Prog.eval_tryCatch_error ((Prog.eval_ask_eq relayMachine _ ch relayed).trans
    (congrArg (·, fun n => ch (n + 1), relayed ++ [tx]) h))

end Relaying

/-! ## A deployment to run on -/

/-- A configuration whose parser knows one transaction. -/
def demoSponsorship (xdr : String) (tx : Transaction) : SponsorshipConfig where
  usdcAssetCode := "USDC"
  usdcIssuer := "GBBD47IF6LWK7P7MDEVSCWR7DPUWV3NY3DTQEVFL4NAT4AQH3ZLLFLA5"
  networkPassphrase := "Test SDF Network ; September 2015"
  platform := "GAAQCAIBAEAQCAIBAEAQCAIBAEAQCAIBAEAQCAIBAEAQCAIBAEAQDZ7H"
  fromXDR xdr' := if xdr' = xdr then some tx else none
  toXDR tx' := if tx' = tx then xdr else ""
  isAddress address := address.length = 56
  memoText value := some (.text value)
  memoId _ := none
  memoHash _ := none

theorem demoSponsorship_fromXDR (xdr : String) (tx : Transaction) :
    (demoSponsorship xdr tx).fromXDR xdr = some tx :=
  if_pos rfl

/-- The asset of the examples. -/
def demoUsdc : Asset :=
  .credit "USDC" "GBBD47IF6LWK7P7MDEVSCWR7DPUWV3NY3DTQEVFL4NAT4AQH3ZLLFLA5"

/-- The address of the creator. -/
def demoCreator : String :=
  "GABAEAQCAIBAEAQCAIBAEAQCAIBAEAQCAIBAEAQCAIBAEAQCAIBAEJXA"

end Kreav
