import Kreav.Lib.CheckedInt
import Kreav.Lib.TokenLedger

/-!
# The settlement contract

`smartcontract/src/lib.rs`. The contract keeps the platform wallet and the USDC token
contract in instance storage, and one marker for each settled order in persistent storage.
`settle` takes 5% of the total as the platform fee, splits the rest among the recipients
by basis points, and transfers it from the platform wallet. The fee stays where it is.

A call returns `Err` with a `ContractError`, or traps : a panic, a missing authorization,
or a failed token transfer. The host undoes both (`invoke`). The token contract is not
part of the repository, so whether it carries out a transfer is a parameter (`Sac`).
-/

open CheckedInt TokenLedger

namespace Kreav

/-! ## Constants and data -/

/-- `i128` : the integers from `-2 ^ 127` to `2 ^ 127 - 1`. -/
abbrev I128 :=
  Bounded (-170141183460469231731687303715884105728) 170141183460469231731687303715884105727

/-- An `i128` literal. -/
def i128 (x : ℤ) (h : -170141183460469231731687303715884105728 ≤ x ∧
    x ≤ 170141183460469231731687303715884105727 := by decide) : I128 :=
  ⟨x, h.1, h.2⟩

/-- `i128` division by a positive constant. -/
def I128.quot (a : I128) (d : ℕ) : I128 :=
  Bounded.quot (by decide) a d

@[simp] theorem val_i128 (x : ℤ) (h) : (i128 x h).val = x :=
  rfl

@[simp] theorem I128.val_quot (a : I128) (d : ℕ) : (a.quot d).val = a.val.tdiv d :=
  rfl

/-- Platform fee in basis points, 5%. -/
def platformFeeBps : I128 :=
  i128 500

/-- Basis points denominator, 100%. -/
def bpsDenominator : ℕ :=
  10000

/-- Maximum number of recipients in a single settlement. -/
def maxRecipients : ℕ :=
  10

/-- A recipient's address and its share of the creator pool in basis points. -/
structure Recipient (A : Type) where
  address : A
  shareBps : I128
  deriving DecidableEq, Repr

/-- `ContractError`, in the order of its codes. -/
inductive ContractError
  | alreadyInitialized
  | invalidConfiguration
  | notInitialized
  | unauthorizedCaller
  | orderAlreadySettled
  | invalidTotalAmount
  | emptyRecipients
  | tooManyRecipients
  | invalidRecipientAddress
  | duplicateRecipient
  | zeroAllocation
  | invalidAllocationSum
  | arithmeticOverflow
  deriving DecidableEq, Repr

/-- Why a call has no effect : it returned `Err`, or the host trapped it. -/
inductive Halt
  | err (e : ContractError)
  | trap
  deriving DecidableEq, Repr

/-- The events that `settle` publishes. -/
inductive ContractEvent (A : Type)
  | recipientPaid (orderRef : String) (address : A) (amount : I128)
  | settlementExecuted (orderRef : String) (totalAmount platformFeeAmount creatorPoolAmount : I128)
      (recipientCount : ℕ)
  deriving DecidableEq, Repr

variable {A : Type} [DecidableEq A]

/-! ## Internal helpers -/

/-- The loop of `calculate_creator_amounts` on the recipients left, with `distributed`
handed out before them. A failed checked operation panics. -/
def calculateFrom (creatorPool : I128) : I128 → List (Recipient A) → Option (List I128)
  | _, [] => some []
  -- last recipient : absorb the rounding dust
  | distributed, [_] => do
    let amount ← creatorPool.checkedSub distributed
    return [amount]
  | distributed, recipient :: next :: rest => do
    let product ← creatorPool.checkedMul recipient.shareBps
    let computed := I128.quot product bpsDenominator
    let distributed ← distributed.checkedAdd computed
    let amounts ← calculateFrom creatorPool distributed (next :: rest)
    return computed :: amounts

/-- The amount of each recipient of the creator pool. -/
def calculateCreatorAmounts (recipients : List (Recipient A)) (creatorPool : I128) :
    Option (List I128) :=
  calculateFrom creatorPool (i128 0) recipients

/-- The loop of `validate_recipients` on the recipients left, then its check of the sum. -/
def validateFrom : I128 → List (Recipient A) → Except ContractError I128
  | allocationSum, [] =>
    if allocationSum.val ≠ bpsDenominator then .error .invalidAllocationSum
    else .ok allocationSum
  | allocationSum, recipient :: rest =>
    if recipient.shareBps.val ≤ 0 then .error .zeroAllocation
    else match allocationSum.checkedAdd recipient.shareBps with
      | none => .error .arithmeticOverflow
      | some allocationSum =>
        if rest.any fun other => recipient.address = other.address then .error .duplicateRecipient
        else validateFrom allocationSum rest

/-- Validate all recipients in a single pass. -/
def validateRecipients (recipients : List (Recipient A)) : Except ContractError I128 :=
  if recipients.length = 0 then .error .emptyRecipients
  else if maxRecipients < recipients.length then .error .tooManyRecipients
  else validateFrom (i128 0) recipients

/-- The platform fee and the creator pool of a total, as `settle` computes them. -/
def feeAndPool (totalAmount : I128) : Except ContractError (I128 × I128) :=
  match totalAmount.checkedMul platformFeeBps with
  | none => .error .arithmeticOverflow
  | some product =>
    match totalAmount.checkedSub (I128.quot product bpsDenominator) with
    | none => .error .arithmeticOverflow
    | some creatorPool => .ok (I128.quot product bpsDenominator, creatorPool)

/-! ## The host -/

/-- Storage of the contract, the token ledgers it can reach, and the events published. -/
structure ContractState (A : Type) [DecidableEq A] where
  platformWallet : Option A
  usdcSac : Option A
  settlement : Finset String
  ledger : A → Ledger A
  events : List (ContractEvent A)

/-- The token contracts : which transfers they carry out. Anything else traps. -/
structure Sac (A : Type) [DecidableEq A] where
  accepts : (token : A) → Ledger A → (source destination : A) → (amount : ℤ) → Bool

/-- `token.transfer` : exactly the given amount moves, or the call traps. -/
def ContractState.transfer (s : ContractState A) (sac : Sac A) (token source destination : A)
    (amount : ℤ) : Except Halt (ContractState A) :=
  if sac.accepts token (s.ledger token) source destination amount then
    .ok { s with
      ledger := Function.update s.ledger token
        ((s.ledger token).transfer source destination amount) }
  else .error .trap

/-- `env.events().publish`. -/
def ContractState.publish (s : ContractState A) (e : ContractEvent A) : ContractState A :=
  { s with events := s.events ++ [e] }

/-- The transfer loop of `settle`. -/
def payRecipients (sac : Sac A) (usdcSac platformWallet : A) (orderRef : String) :
    List (Recipient A × I128) → ContractState A → Except Halt (ContractState A)
  | [], s => .ok s
  | (recipient, amount) :: rest, s => do
    let s ← (if 0 < amount.val then
        s.transfer sac usdcSac platformWallet recipient.address amount.val
      else .ok s)
    payRecipients sac usdcSac platformWallet orderRef rest
      (s.publish (.recipientPaid orderRef recipient.address amount))

/-! ## Public API -/

/-- `initialize`. `auth` says whose authorization the invocation carries. -/
def initializeContract (auth : A → Bool) (platformWallet usdcSac : A) (s : ContractState A) :
    Except Halt (ContractState A) :=
  if s.platformWallet.isSome then .error (.err .alreadyInitialized)
  else if platformWallet = usdcSac then .error (.err .invalidConfiguration)
  else if !auth platformWallet then .error .trap
  else .ok { s with platformWallet := some platformWallet, usdcSac := some usdcSac }

/-- `settle` from the point where configuration, authorization and input are checked. -/
def settleChecked (sac : Sac A) (platformWallet usdcSac : A) (orderRef : String)
    (totalAmount : I128) (recipients : List (Recipient A)) (s : ContractState A) :
    Except Halt (ContractState A) :=
  match feeAndPool totalAmount with
  | .error e => .error (.err e)
  | .ok (platformFee, creatorPool) =>
    match calculateCreatorAmounts recipients creatorPool with
    | none => .error .trap
    | some amounts => do
      let s ← payRecipients sac usdcSac platformWallet orderRef (recipients.zip amounts) s
      let s := { s with settlement := insert orderRef s.settlement }
      .ok (s.publish (.settlementExecuted orderRef totalAmount platformFee creatorPool
        recipients.length))

/-- `settle`. -/
def settle (sac : Sac A) (auth : A → Bool) (orderRef : String) (totalAmount : I128)
    (recipients : List (Recipient A)) (s : ContractState A) : Except Halt (ContractState A) :=
  match s.platformWallet, s.usdcSac with
  | none, _ => .error (.err .notInitialized)
  | _, none => .error (.err .notInitialized)
  | some platformWallet, some usdcSac =>
    if !auth platformWallet then .error .trap
    else if orderRef ∈ s.settlement then .error (.err .orderAlreadySettled)
    else if totalAmount.val ≤ 0 then .error (.err .invalidTotalAmount)
    else match validateRecipients recipients with
      | .error e => .error (.err e)
      | .ok _ => settleChecked sac platformWallet usdcSac orderRef totalAmount recipients s

/-- `is_settled`. -/
def isSettled (orderRef : String) (s : ContractState A) : Bool :=
  orderRef ∈ s.settlement

/-! ## Invocations -/

/-- A call of the public API with its arguments and the authorization it carries. -/
inductive Invocation (A : Type)
  | initializeContract (auth : A → Bool) (platformWallet usdcSac : A)
  | settle (auth : A → Bool) (orderRef : String) (totalAmount : I128)
      (recipients : List (Recipient A))
  | isSettled (orderRef : String)

/-- What an invocation returns. -/
inductive Outcome
  | ok
  | answer (settled : Bool)
  | halted (h : Halt)
  deriving DecidableEq, Repr

/-- The host keeps the state of a call that returned `Ok` and undoes any other. -/
def commit (s : ContractState A) : Except Halt (ContractState A) → Outcome × ContractState A
  | .ok s' => (.ok, s')
  | .error h => (.halted h, s)

/-- Run one invocation. -/
def invoke (sac : Sac A) : Invocation A → ContractState A → Outcome × ContractState A
  | .initializeContract auth platformWallet usdcSac, s =>
    commit s (initializeContract auth platformWallet usdcSac s)
  | .settle auth orderRef totalAmount recipients, s =>
    commit s (settle sac auth orderRef totalAmount recipients s)
  | .isSettled orderRef, s => (.answer (isSettled orderRef s), s)

/-- The contract as deployed, over the ledgers of the tokens. -/
def deployed (ledger : A → Ledger A) : ContractState A :=
  ⟨none, none, ∅, ledger, []⟩

end Kreav
