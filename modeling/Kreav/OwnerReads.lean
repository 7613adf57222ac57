import Kreav.Lib.SingleRuns
import Kreav.WalletHistory
import Kreav.WithdrawalSteps

/-!
# What a creator reads

`GET /withdrawals/:id` and `GET /orders/:id` (`findOne` of
`backend/src/orders/orders.service.ts`) over tables with all rows that they read. An answer
needs several queries : the receipt of a withdrawal its creator's wallet and the balance of the
wallet, over all completed settlements, and an order its product, settlement and recipients.

`visible A` is what concerns the creator `A` : its withdrawals, its wallets and the credits to
them, and its products with their orders and settlements.
-/

open Async

namespace Kreav

/-! ## Rows -/

/-- A row of `products`, its columns that an order shows. -/
structure ProductRow where
  id : String
  creatorId : String
  title : String
  priceUsd : Usd
  deriving DecidableEq, Repr

/-- A row of `orders`. -/
structure OrderRow where
  id : String
  productId : String
  buyerEmail : String
  amountUsd : Usd
  status : OrderStatus
  txHash : Option String
  paymentRef : Option String
  createdAt : Timestamp
  deriving DecidableEq, Repr

/-- A row of `settlements`. -/
structure SettlementRow where
  id : String
  orderId : String
  txHash : String
  totalAmount : Usd
  status : SettlementStatus
  createdAt : Timestamp
  deriving DecidableEq, Repr

/-- A row of `settlement_recipients`. The percentage is in hundredths. -/
structure RecipientDetail where
  settlementId : String
  walletAddress : String
  recipientType : RecipientTypeColumn
  role : String
  percentage : ℤ
  amount : Usd
  createdAt : Timestamp
  deriving DecidableEq, Repr

/-- The tables, with their unique columns. -/
structure OwnerTables where
  products : List ProductRow
  orders : List OrderRow
  settlements : List SettlementRow
  recipients : List RecipientDetail
  wallets : List Wallet
  withdrawals : WithdrawalTable
  productIds : (products.map (·.id)).Nodup
  orderIds : (orders.map (·.id)).Nodup
  settlementOrders : (settlements.map (·.orderId)).Nodup
  walletAddresses : (wallets.map (·.walletAddress)).Nodup

/-! ## Orders -/

/-- An order as `findUnique` includes its product and its settlement. -/
structure OrderWithDetails where
  order : OrderRow
  product : ProductRow
  settlement : Option (SettlementRow × List RecipientDetail)
  deriving DecidableEq, Repr

/-- A recipient of a settlement, as it is returned. -/
structure RecipientItem where
  walletAddress : String
  recipientType : String
  role : String
  percentage : String
  amount : String
  deriving DecidableEq, Repr

/-- A settlement, as it is returned. -/
structure SettlementItem where
  id : String
  txHash : String
  explorerLink : String
  totalAmount : String
  status : String
  createdAt : String
  recipients : List RecipientItem
  deriving DecidableEq, Repr

/-- The answer to `GET /orders/:id`. -/
structure OrderDetail where
  id : String
  productId : String
  productTitle : String
  productPrice : String
  buyerEmail : String
  amountUsd : String
  status : OrderStatus
  paymentRef : Option String
  txHash : Option String
  settlement : Option SettlementItem
  createdAt : String
  deriving DecidableEq, Repr

/-- The errors of the reads. -/
inductive OrderReadError
  | notFound (message : String)
  | database
  deriving DecidableEq, Repr

/-- What the reads ask of the database. -/
inductive OrderReadRequest
  /-- `order.findUnique` with the product and the settlement. -/
  | orderFindUnique (id : String)
  deriving DecidableEq, Repr

/-- The answers. -/
def OrderReadRequest.Ans : OrderReadRequest → Type
  | .orderFindUnique _ => Option OrderWithDetails

/-- The requests of the reads. -/
abbrev orderReads : Sig where
  Req := OrderReadRequest
  Ans := OrderReadRequest.Ans
  Event := Empty
  Error := OrderReadError

namespace OrdersService

variable (explorerUrl : String)

/-- A recipient as it is returned. -/
def recipientItem (r : RecipientDetail) : RecipientItem where
  walletAddress := r.walletAddress
  recipientType := r.recipientType.text
  role := r.role
  percentage := percentageText r.percentage
  amount := r.amount.toFixed

/-- A settlement as it is returned. -/
def settlementItem (s : SettlementRow) (recipients : List RecipientDetail) : SettlementItem where
  id := s.id
  txHash := s.txHash
  explorerLink := txUrl explorerUrl s.txHash
  totalAmount := s.totalAmount.toFixed
  status := s.status.text
  createdAt := s.createdAt.toISOString
  recipients := recipients.map recipientItem

/-- An order as it is returned. -/
def orderDetail (o : OrderWithDetails) : OrderDetail where
  id := o.order.id
  productId := o.product.id
  productTitle := o.product.title
  productPrice := o.product.priceUsd.toFixed
  buyerEmail := o.order.buyerEmail
  amountUsd := o.order.amountUsd.toFixed
  status := o.order.status
  paymentRef := o.order.paymentRef
  txHash := o.order.txHash
  settlement := o.settlement.map fun (s, recipients) => settlementItem explorerUrl s recipients
  createdAt := o.order.createdAt.toISOString

/-- A single order. A mismatch of the creator is answered as a missing order. -/
def findOne (id : String) (requesterCreatorId : Option String) : Prog orderReads OrderDetail := do
  match ← Prog.ask (S := orderReads) (.orderFindUnique id) with
  | none => throw (.notFound "Order not found")
  | some order =>
    if requesterCreatorId.any fun requester =>
      requester ≠ "" ∧ order.product.creatorId ≠ requester
    then throw (.notFound "Order not found")
    else return orderDetail explorerUrl order

end OrdersService

namespace OwnerTables

/-- `orderBy: { createdAt: 'asc' }`. -/
def orderByOldest (rows : List RecipientDetail) : List RecipientDetail :=
  rows.insertionSort fun a b => ¬ b.createdAt < a.createdAt

/-- The settlement of an order, with its recipients. -/
def settlementOf (t : OwnerTables) (order : ℕ) (orderId : String) :
    Option (SettlementRow × List RecipientDetail) :=
  (t.settlements.find? (·.orderId = orderId)).map fun s =>
    (s, orderByOldest (reorder order (t.recipients.filter (·.settlementId = s.id))))

/-- `order.findUnique`. The product is there, by its foreign key. -/
def orderWithDetails (t : OwnerTables) (order : ℕ) (id : String) : Option OrderWithDetails :=
  (t.orders.find? (·.id = id)).bind fun o =>
    (t.products.find? (·.id = o.productId)).map fun p => ⟨o, p, t.settlementOf order o.id⟩

end OwnerTables

/-- The reads of orders. They change nothing. -/
def orderMachine : Machine orderReads OwnerTables WithdrawalChoice Empty where
  exec
    | .orderFindUnique id, c, t =>
      (if c.fault ≠ .none then .error .database else .ok (t.orderWithDetails c.order id), t)
  log e _ := e.elim
  env e _ := e.elim

/-! ## Withdrawals -/

/-- The types that settlements are recorded with. -/
def RecipientTypeColumn.stored : RecipientTypeColumn → Option RecipientType
  | .creator => some .creator
  | .platform => some .platform
  | .affiliate => none
  | .treasury => none

/-- A recipient as the withdrawal endpoints see it. -/
def RecipientDetail.stored (r : RecipientDetail) : Option SettlementRecipient :=
  r.recipientType.stored.map fun recipientType =>
    ⟨r.walletAddress, recipientType, r.role, r.percentage, r.amount.cents⟩

namespace OwnerTables

/-- The completed settlements, with their recipients. -/
def completed (t : OwnerTables) : AList fun _ : String => Settlement where
  entries := (t.settlements.filter (·.status = .completed)).map fun s =>
    ⟨s.orderId, s.totalAmount, .placeholder s.txHash,
      (t.recipients.filter (·.settlementId = s.id)).filterMap (·.stored)⟩
  nodupKeys := by
    rw [List.NodupKeys, List.keys, List.map_map]
    exact t.settlementOrders.sublist (List.filter_sublist.map _)

/-- What the withdrawal endpoints read of the tables. -/
def withdrawalWorld (t : OwnerTables) : WithdrawalWorld where
  db :=
    { users := []
      products := ∅
      collaborators := []
      orders := ∅
      settlements := t.completed
      wallets := t.wallets }
  withdrawals := t.withdrawals

/-! ## What concerns a creator -/

/-- The credits of completed settlements : wallets and amounts. -/
def credits (t : OwnerTables) : List (String × ℤ) :=
  (t.settlements.filter (·.status = .completed)).flatMap fun s =>
    (t.recipients.filter fun r => r.settlementId = s.id ∧ r.recipientType = .creator).map fun r =>
      (r.walletAddress, r.amount.cents)

/-- The order is one of a product of `A`. -/
def sells (A : String) (t : OwnerTables) (o : OrderRow) : Bool :=
  t.products.any fun p => p.creatorId = A ∧ p.id = o.productId

/-- The settlement is one of such an order. -/
def settles (A : String) (t : OwnerTables) (s : SettlementRow) : Bool :=
  t.orders.any fun o => t.sells A o ∧ o.id = s.orderId

/-- The address is one of a wallet of `A`. -/
def holds (A : String) (t : OwnerTables) (walletAddress : String) : Bool :=
  t.wallets.any fun x => x.creatorId = A ∧ x.walletAddress = walletAddress

end OwnerTables

/-- Rows that concern one creator. -/
structure OwnerView where
  withdrawals : List Withdrawal
  wallets : List Wallet
  credits : List (String × ℤ)
  products : List ProductRow
  orders : List OrderRow
  settlements : List SettlementRow
  recipients : List RecipientDetail

/-- Everything creator `A` may see. -/
def OwnerTables.visible (A : String) (t : OwnerTables) : OwnerView where
  withdrawals := t.withdrawals.rows.filter (·.creatorId = A)
  wallets := t.wallets.filter (·.creatorId = A)
  credits := t.credits.filter fun c => t.holds A c.1
  products := t.products.filter (·.creatorId = A)
  orders := t.orders.filter (t.sells A)
  settlements := t.settlements.filter (t.settles A)
  recipients := t.recipients.filter fun r =>
    t.settlements.any fun s => t.settles A s ∧ s.id = r.settlementId

/-- Tables where each creator has one row of every kind, under its own name. -/
def demoOwners (creators : List String) (hnodup : creators.Nodup) : OwnerTables :=
  let createdAt : Timestamp :=
    ⟨2026, 6, 29, 12, 0, 0, 0, by omega, by omega⟩
  { products := creators.map fun c => ⟨c, c, "E-book", demoProduct.priceUsd⟩
    orders := creators.map fun c =>
      ⟨c, c, "buyer", demoProduct.priceUsd, .settled, none, none, createdAt⟩
    settlements := creators.map fun c =>
      ⟨c, c, c, demoProduct.priceUsd, .completed, createdAt⟩
    recipients := creators.map fun c =>
      ⟨c, c, .creator, "Author", 10000, demoEarned, createdAt⟩
    wallets := creators.map fun c => ⟨c, c, .freighter, 0⟩
    withdrawals :=
      { rows := creators.map fun c =>
          ⟨c, c, demoEarned, "BANK", "1", .anchor c, .processing, none, none, none, 0, none⟩
        ids := by simpa [Function.comp_def] using hnodup
        references := by
          rw [List.map_map]
          exact hnodup.map fun a b hab => Reference.anchor.inj hab }
    productIds := by simpa [Function.comp_def] using hnodup
    orderIds := by simpa [Function.comp_def] using hnodup
    settlementOrders := by simpa [Function.comp_def] using hnodup
    walletAddresses := by simpa [Function.comp_def] using hnodup }

theorem demoCreators_nodup : ["alice", "bob"].Nodup := by decide

end Kreav
