import Kreav.Money
import Kreav.OrderStateMachine
import Kreav.Stellar
import Mathlib.Data.List.AList
import Mathlib.Data.List.GetD
import Mathlib.Data.List.Permutation

/-!
# The database

Rows of the tables the payment and settlement services use (`backend/prisma/schema.prisma`)
and the effect of one statement on them. Orders, products and settlements are keyed by
their unique column, so a key has at most one row. `updateOrder`, `createOrder`,
`createWallet` and `createSettlement` fail as the database does, on a missing row or on a
unique index.

A query without an `orderBy` returns its rows in any order : `reorder n` is the `n`-th
arrangement of a list, and every arrangement is one (`exists_reorder`).
-/

namespace Kreav

/-! ## Rows -/

/-- The status of a product. -/
inductive ProductStatus
  | active
  | archived
  deriving DecidableEq, Repr

/-- A row of `products`. -/
structure Product where
  creatorId : String
  title : String
  description : Option String
  fileUrl : Option String
  priceUsd : Usd
  status : ProductStatus
  deriving DecidableEq, Repr

/-- The status of a collaborator. -/
inductive CollaboratorStatus
  | active
  | inactive
  deriving DecidableEq, Repr

/-- A row of `product_collaborators`. The percentage is in hundredths. -/
structure Collaborator where
  productId : String
  walletAddress : String
  role : String
  revenuePercentage : ℤ
  status : CollaboratorStatus
  deriving DecidableEq, Repr

/-- A row of `orders`. -/
structure Order where
  productId : String
  buyerEmail : String
  amountUsd : Usd
  status : OrderStatus
  txHash : Option TxHash
  paymentRef : Option String
  deriving DecidableEq, Repr

/-- Whom a recipient of a settlement stands for. -/
inductive RecipientType
  | creator
  | platform
  deriving DecidableEq, Repr

/-- A row of `settlement_recipients`, percentage in hundredths and amount in cents. -/
structure SettlementRecipient where
  walletAddress : String
  recipientType : RecipientType
  role : String
  percentage : ℤ
  amount : ℤ
  deriving DecidableEq, Repr

/-- A row of `settlements` with its recipients. -/
structure Settlement where
  totalAmount : Usd
  txHash : TxHash
  recipients : List SettlementRecipient
  deriving DecidableEq, Repr

/-- The wallets that can be connected. -/
inductive WalletProvider
  | freighter
  | lobstr
  deriving DecidableEq, Repr

/-- A row of `wallets`. -/
structure Wallet where
  creatorId : String
  walletAddress : String
  provider : WalletProvider
  connectedAt : ℕ
  deriving DecidableEq, Repr

/-- The tables. -/
structure Database where
  /-- The ids of the users. -/
  users : List String
  products : AList fun _ : String => Product
  collaborators : List Collaborator
  orders : AList fun _ : String => Order
  settlements : AList fun _ : String => Settlement
  wallets : List Wallet

/-! ## Statements -/

/-- The columns an order update sets. `txHash` may be set to null. -/
structure OrderUpdate where
  status : OrderStatus
  txHash : Option (Option TxHash) := none
  paymentRef : Option String := none
  deriving DecidableEq, Repr

/-- The columns of a recipient to create, its amount with seven decimals. -/
structure RecipientCreate where
  walletAddress : String
  recipientType : RecipientType
  role : String
  percentage : ℤ
  amount : ℤ
  deriving DecidableEq, Repr

/-- The columns of an order to create. -/
structure OrderCreate where
  productId : String
  buyerEmail : String
  amountUsd : Usd
  status : OrderStatus
  deriving DecidableEq, Repr

/-- A settlement to create, with its recipients. -/
structure SettlementCreate where
  orderId : String
  totalAmount : Usd
  txHash : TxHash
  recipients : List RecipientCreate
  deriving DecidableEq, Repr

/-- Why a statement fails. -/
inductive DbError
  | uniqueViolation
  | recordNotFound
  /-- A number too large for its column. -/
  | outOfRange
  /-- Null for a column that has none. -/
  | nullViolation
  | unavailable
  deriving DecidableEq, Repr

/-- The row after an update. -/
def OrderUpdate.applyTo (data : OrderUpdate) (o : Order) : Order where
  productId := o.productId
  buyerEmail := o.buyerEmail
  amountUsd := o.amountUsd
  status := data.status
  txHash := data.txHash.getD o.txHash
  paymentRef := data.paymentRef.or o.paymentRef

/-- The row that is stored : the other columns are null. -/
def OrderCreate.stored (data : OrderCreate) : Order :=
  ⟨data.productId, data.buyerEmail, data.amountUsd, data.status, none, none⟩

/-- The row that is stored : the amount column keeps two decimals. -/
def RecipientCreate.stored (r : RecipientCreate) : SettlementRecipient :=
  ⟨r.walletAddress, r.recipientType, r.role, r.percentage, toCents r.amount⟩

/-- The `n`-th arrangement of a list, itself when there is none. -/
def reorder {α : Type} (n : ℕ) (l : List α) : List α :=
  l.permutations'.getD n l

namespace Database

/-- Another order already holds the payment reference. -/
def RefTaken (db : Database) (id ref : String) : Prop :=
  ∃ e ∈ db.orders.entries, e.1 ≠ id ∧ e.2.paymentRef = some ref

instance (db : Database) (id ref : String) : Decidable (db.RefTaken id ref) :=
  inferInstanceAs (Decidable (∃ e ∈ _, _))

/-- `order.update`, with the unique index on `paymentRef`. -/
def updateOrder (id : String) (data : OrderUpdate) (db : Database) : Except DbError Database :=
  match db.orders.lookup id with
  | none => .error .recordNotFound
  | some o =>
    if ∃ ref ∈ data.paymentRef, db.RefTaken id ref then .error .uniqueViolation
    else .ok { db with orders := db.orders.insert id (data.applyTo o) }

/-- `order.create` with the id `id`. -/
def createOrder (id : String) (data : OrderCreate) (db : Database) : Except DbError Database :=
  if (db.products.lookup data.productId).isNone then .error .recordNotFound
  else if (db.orders.lookup id).isSome then .error .uniqueViolation
  else .ok { db with orders := db.orders.insert id data.stored }

/-- `wallet.create`, with the unique index on `walletAddress`. -/
def createWallet (wallet : Wallet) (db : Database) : Except DbError Database :=
  if wallet.creatorId ∉ db.users then .error .recordNotFound
  else if wallet.walletAddress ∈ db.wallets.map (·.walletAddress) then .error .uniqueViolation
  else .ok { db with wallets := db.wallets ++ [wallet] }

/-- `settlement.create`, with the unique index on `orderId`. -/
def createSettlement (data : SettlementCreate) (db : Database) : Except DbError Database :=
  if (db.settlements.lookup data.orderId).isSome then .error .uniqueViolation
  else .ok { db with
    settlements := db.settlements.insert data.orderId
      ⟨data.totalAmount, data.txHash, data.recipients.map (·.stored)⟩ }

/-- `order.findFirst` by payment reference. -/
def orderWithRef (db : Database) (ref : String) : Option String :=
  (db.orders.entries.find? fun e => e.2.paymentRef = some ref).map (·.1)

/-- The creator of a product. -/
def creatorOf (db : Database) (productId : String) : String :=
  ((db.products.lookup productId).map (·.creatorId)).getD ""

/-- The active collaborators of a product. -/
def activeCollaborators (db : Database) (productId : String) : List Collaborator :=
  db.collaborators.filter fun c => c.productId = productId ∧ c.status = .active

/-- Replace the collaborators of a product : the transaction of a product update. -/
def replaceCollaborators (productId : String) (rows : List Collaborator) (db : Database) :
    Database :=
  { db with
    collaborators := db.collaborators.filter (·.productId ≠ productId) ++
      rows.filter (·.productId = productId) }

end Database

/-- One more row, with a key that no row has. -/
theorem nodup_map_concat {α β : Type} {key : α → β} {rows : List α} {row : α}
    (h : (rows.map key).Nodup) (hrow : key row ∉ rows.map key) :
    ((rows ++ [row]).map key).Nodup := by
  rw [List.map_append, List.map_singleton, ← List.concat_eq_append]
  exact h.concat hrow

theorem reorder_perm {α : Type} (n : ℕ) (l : List α) : (reorder n l).Perm l := by
  unfold reorder
  rw [List.getD_eq_getElem?_getD]
  cases h : l.permutations'[n]? with
  | none => exact List.Perm.refl l
  | some l' => exact List.mem_permutations'.1 (List.mem_of_getElem? h)

/-- Every arrangement of a list can be returned. -/
theorem exists_reorder {α : Type} {l l' : List α} (h : l'.Perm l) : ∃ n, reorder n l = l' := by
  obtain ⟨n, hn, he⟩ := List.getElem_of_mem (List.mem_permutations'.2 h)
  exact ⟨n, by rw [reorder, List.getD_eq_getElem _ _ hn, he]⟩

end Kreav
