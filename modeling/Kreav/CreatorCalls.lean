import Kreav.Lib.SingleRuns
import Kreav.Products
import Kreav.Site
import Kreav.Withdrawals

/-!
# The calls of a creator

What the controllers of withdrawals, products and mini-sites do for an authenticated user, over
all tables at once (`Tables`). Besides the services of their own modules these are
`listWithdrawals` of `backend/src/withdrawals/withdrawals.service.ts` and `setStatus` of
`backend/src/products/products.service.ts`, by which a product is archived and restored.

`CreatorCall.run` is one call run alone, with the id of the user from its session.
-/

open Async

namespace Kreav

/-! ## Lists of withdrawals -/

/-- An item of the list. Its amount is in dollars, as a double. -/
structure WithdrawalItem where
  withdrawalId : String
  reference : Reference
  status : WithdrawalStatus
  amount : ℚ
  destinationType : String
  destinationAccount : String
  requestedAt : ℕ
  completedAt : Option ℕ
  settlementTxHash : Option TxHash
  deriving DecidableEq, Repr

/-- What `listWithdrawals` returns. -/
structure WithdrawalList where
  address : String
  withdrawals : List WithdrawalItem
  page : ℕ
  limit : ℕ
  total : ℕ
  deriving DecidableEq, Repr

/-- A row as an item of the list. -/
def Withdrawal.item (w : Withdrawal) : WithdrawalItem where
  withdrawalId := w.id
  reference := w.reference
  status := w.status
  amount := toNumber w.amount.cents
  destinationType := w.destinationType
  destinationAccount := w.destinationAccount
  requestedAt := w.createdAt
  completedAt := w.completedAt
  settlementTxHash := w.settlementTxHash

/-- The reads of the list. -/
inductive WithdrawalListRequest
  /-- `withdrawal.findMany` of a creator, the newest first. -/
  | withdrawalFindMany (creatorId : String) (skip take : ℕ)
  | withdrawalCount (creatorId : String)
  deriving DecidableEq, Repr

/-- The answers. -/
def WithdrawalListRequest.Ans : WithdrawalListRequest → Type
  | .withdrawalFindMany _ _ _ => List Withdrawal
  | .withdrawalCount _ => ℕ

/-- The requests of the withdrawals with those of their list. -/
abbrev withdrawalLists : Sig :=
  withdrawals.extend WithdrawalListRequest WithdrawalListRequest.Ans

/-- Await a request of the list. -/
abbrev awaitList (r : WithdrawalListRequest) : Prog withdrawalLists r.Ans :=
  Prog.ask (S := withdrawalLists) (.inr r)

/-- A page of the withdrawals of a wallet's creator. -/
def listWithdrawals (walletAddress : String) (page limit : ℕ) :
    Prog withdrawalLists WithdrawalList := do
  match ← (awaitW (.walletCreator walletAddress)).lift with
  | none => return ⟨walletAddress, [], page, limit, 0⟩
  | some creatorId =>
    let rows : List Withdrawal ←
      awaitList (.withdrawalFindMany creatorId ((page - 1) * limit) limit)
    let total ← awaitList (.withdrawalCount creatorId)
    return ⟨walletAddress, rows.map (·.item), page, limit, total⟩

/-- The withdrawals of a creator, the newest first. -/
def WithdrawalTable.newest (order : ℕ) (creatorId : String) (t : WithdrawalTable) :
    List Withdrawal :=
  (reorder order (t.rows.filter (·.creatorId = creatorId))).insertionSort fun a b =>
    b.createdAt ≤ a.createdAt

/-- A request of the list, on the table. -/
def withdrawalListExec (r : WithdrawalListRequest) (c : WithdrawalChoice) (w : WithdrawalWorld) :
    Except WithdrawalError r.Ans × WithdrawalWorld :=
  if c.fault ≠ .none then (.error .database, w)
  else match r with
    | .withdrawalFindMany creatorId skip take =>
      (.ok (((w.withdrawals.newest c.order creatorId).drop skip).take take), w)
    | .withdrawalCount creatorId =>
      (.ok (w.withdrawals.rows.filter (·.creatorId = creatorId)).length, w)

/-- The endpoints with the list. -/
def withdrawalListMachine :
    Machine withdrawalLists WithdrawalWorld WithdrawalChoice WithdrawalEnv :=
  withdrawalMachine.extend withdrawalListExec

/-! ## The status of a product -/

/-- `product.update` of the status. -/
def Database.setProductStatus (id : String) (status : ProductStatus) (db : Database) :
    Except DbError Database :=
  match db.products.lookup id with
  | none => .error .recordNotFound
  | some p => .ok { db with products := db.products.insert id { p with status } }

/-- The update that `setStatus` makes. -/
inductive ProductStatusRequest
  | productSetStatus (id : String) (status : ProductStatus)
  deriving DecidableEq, Repr

/-- The answers. -/
def ProductStatusRequest.Ans : ProductStatusRequest → Type
  | .productSetStatus _ _ => Unit

/-- The requests of the products with this update. -/
abbrev productStatuses : Sig :=
  catalog.extend ProductStatusRequest ProductStatusRequest.Ans

/-- Archive or restore a product. -/
def Products.setStatus (id creatorId : String) (status : ProductStatus) :
    Prog productStatuses Unit := do
  let _ ← (Products.loadOwnedProduct id creatorId).lift
  Prog.ask (S := productStatuses) (.inr (.productSetStatus id status))

/-- The update, on the database. -/
def productStatusExec (r : ProductStatusRequest) (c : Choice) (w : World) :
    Except CatalogError r.Ans × World :=
  match r with
  | .productSetStatus id status =>
    match c.fault with
    | .none => w.insertC () (w.db.setProductStatus id status)
    | .lost => (.error (.database .unavailable), w)
    | .unacked =>
      (.error (.database .unavailable), (w.insertC () (w.db.setProductStatus id status)).2)

/-- The catalog with the statuses of its products. -/
def productStatusMachine (cfg : StellarConfig) :
    Machine productStatuses World Choice Elsewhere :=
  (catalogMachine cfg).extend productStatusExec

/-! ## Calls -/

/-- `POST /withdrawals`, for the wallet of the user. -/
def postWithdrawal (cfg : WithdrawalConfig) (userId : String) (amount : ℤ)
    (destinationType destinationAccount : String) : WithdrawalMethod Receipt := do
  let address ← getAddressForCreator userId
  requestWithdrawal cfg address amount destinationType destinationAccount

/-- `GET /withdrawals`, for the wallet of the user. -/
def getWithdrawals (userId : String) (page limit : ℕ) : Prog withdrawalLists WithdrawalList := do
  let address ← (getAddressForCreator userId).lift
  listWithdrawals address page limit

/-- All tables, and the network. -/
structure Tables where
  world : World
  withdrawals : WithdrawalTable
  site : SiteTables

/-- The outcomes of the requests of a call, for the service that it calls. -/
structure Outcomes where
  withdrawals : ℕ → WithdrawalChoice
  catalog : ℕ → Choice
  site : ℕ → SiteChoice

/-- The configurations of the services. -/
structure CallConfig where
  withdrawals : WithdrawalConfig
  stellar : StellarConfig

namespace Tables

/-- What the withdrawal endpoints work on. -/
def withdrawalWorld (t : Tables) : WithdrawalWorld :=
  ⟨t.world.db, t.withdrawals⟩

/-- What the site service works on, with no transaction open. -/
def siteDatabase (t : Tables) : Staged SiteDatabase :=
  .closed ⟨t.world.db, t.site⟩

variable {S : Sig} {E α : Type}

/-- Run a method of the withdrawal endpoints. -/
def runWithdrawals (M : Machine S WithdrawalWorld WithdrawalChoice E) (p : Prog S α)
    (o : Outcomes) (t : Tables) : Tables :=
  let w := (p.eval M o.withdrawals t.withdrawalWorld).2.2
  { t with world := { t.world with db := w.db }, withdrawals := w.withdrawals }

/-- Run a method of the products service. -/
def runCatalog (M : Machine S World Choice E) (p : Prog S α) (o : Outcomes) (t : Tables) :
    Tables :=
  { t with world := (p.eval M o.catalog t.world).2.2 }

/-- Run a method of the site service. -/
def runSite (p : SiteMethod α) (o : Outcomes) (t : Tables) : Tables :=
  let w := (p.eval siteMachine o.site t.siteDatabase).2.2.committed
  { t with world := { t.world with db := w.db }, site := w.site }

end Tables

/-- A call of an authenticated creator. -/
inductive CreatorCall
  | postWithdrawal (amount : ℤ) (destinationType destinationAccount : String)
  | getWithdrawal (id : String)
  | getWithdrawals (page limit : ℕ)
  | interactive (amount : ℤ) (token : Option String)
  | transaction (id : String) (token : Option String)
  | submitPayment (signedXdr id : String)
  | createProduct (dto : CreateProductDto)
  | updateProduct (id : String) (dto : UpdateProductDto)
  | archive (id : String)
  | restore (id : String)
  | updateSite (dto : SiteDto)

/-- The tables after a call of the user `userId`. -/
def CreatorCall.run (cfg : CallConfig) (userId : String) (o : Outcomes) (t : Tables) :
    CreatorCall → Tables
  | .postWithdrawal amount destinationType destinationAccount =>
    t.runWithdrawals withdrawalMachine
      (Kreav.postWithdrawal cfg.withdrawals userId amount destinationType destinationAccount) o
  | .getWithdrawal id =>
    t.runWithdrawals withdrawalMachine (Kreav.getWithdrawal id (some userId)) o
  | .getWithdrawals page limit =>
    t.runWithdrawals withdrawalListMachine (Kreav.getWithdrawals userId page limit) o
  | .interactive amount token =>
    t.runWithdrawals withdrawalMachine
      (Kreav.interactive cfg.withdrawals userId amount token) o
  | .transaction id token =>
    t.runWithdrawals withdrawalMachine (Kreav.transaction cfg.withdrawals userId id token) o
  | .submitPayment signedXdr id =>
    t.runWithdrawals withdrawalMachine
      (Kreav.submitPayment cfg.withdrawals userId signedXdr id) o
  | .createProduct dto =>
    t.runCatalog (catalogMachine cfg.stellar) (ProductCall.create dto userId).method o
  | .updateProduct id dto =>
    t.runCatalog (catalogMachine cfg.stellar) (ProductCall.update id dto userId).method o
  | .archive id =>
    t.runCatalog (productStatusMachine cfg.stellar) (Products.setStatus id userId .archived) o
  | .restore id =>
    t.runCatalog (productStatusMachine cfg.stellar) (Products.setStatus id userId .active) o
  | .updateSite dto => t.runSite (SiteService.updateSite userId dto) o

/-! ## Tables to run on -/

/-- A withdrawal of `alice` that a read would complete. -/
def demoPending : Withdrawal :=
  ⟨"withdrawal", "alice", demoEarned, "BANK", "1", .numbered 0 1, .processing, none, none, none,
    0, none⟩

/-- The creator `alice` with a product, a withdrawal and a mini-site. -/
def demoTables : Tables where
  world := demoWorld [] []
  withdrawals := ⟨[demoPending], List.nodup_singleton _, List.nodup_singleton _⟩
  site := demoSite.site

/-- The configurations of the examples. -/
def demoCallConfig : CallConfig :=
  ⟨demoWithdrawalConfig, demoConfig⟩

/-- Outcomes without faults, long after the withdrawal. -/
def demoOutcomes : Outcomes where
  withdrawals _ := { now := simulationDelayMs }
  catalog _ := {}
  site _ := {}

end Kreav
