import Kreav.Database
import Kreav.Lib.Schedule

/-!
# The backend's requests

The services are programs over `backend` : they await database statements and calls to the
RPC server and to Horizon, and emit application events. `effect` is what a request does
to the world and answers when it succeeds, with a `Choice` for all that is left open : the
order of rows, the clock, a lagging or refusing RPC server. `exec` adds the faults, a
request that throws before it took effect (`lost`) or after (`unacked`).

`World` has the database, the network and the events emitted so far. Besides the handlers,
the network moves on and product owners replace collaborators (`Env`).
-/

open Async

namespace Kreav

/-! ## Events and errors -/

/-- The payload of `payment.received`. -/
structure PaymentReceivedPayload where
  orderId : String
  amountUsd : Usd
  creatorId : String
  walletAddress : Option String
  paymentRef : String
  deriving DecidableEq, Repr

/-- The payload of `wallet.connect_required`. -/
structure WalletConnectRequiredPayload where
  orderId : String
  creatorId : String
  amountUsd : Usd
  paymentRef : String
  deriving DecidableEq, Repr

/-- The amounts are in cents. -/
structure SettlementCompletedPayload where
  orderId : String
  txHash : TxHash
  creatorAmountUsd : ℤ
  platformAmountUsd : ℤ
  deriving DecidableEq, Repr

/-- The application events. -/
inductive AppEvent
  | paymentReceived (payload : PaymentReceivedPayload)
  | walletConnectRequired (payload : WalletConnectRequiredPayload)
  | settlementCompleted (payload : SettlementCompletedPayload)
  deriving DecidableEq, Repr

/-- The order of an event. -/
def AppEvent.orderId : AppEvent → String
  | .paymentReceived payload => payload.orderId
  | .walletConnectRequired payload => payload.orderId
  | .settlementCompleted payload => payload.orderId

/-- The errors the services throw or catch. -/
inductive Failure
  /-- Prisma's P2002. -/
  | uniqueViolation
  /-- Any other database error. -/
  | database
  | rpc
  | horizon
  | notFound
  | conflict
  | forbidden
  | invalidStateTransition (source target : OrderStatus)
  | settlementSimulation
  | settlementSubmission
  | settlementTimeout (txHash : TxHash)
  | settlementNetwork
  | isSettledSimulation
  deriving DecidableEq, Repr

/-- The failure that a method sees. -/
def DbError.failure : DbError → Failure
  | .uniqueViolation => .uniqueViolation
  | .recordNotFound => .database
  | .outOfRange => .database
  | .nullViolation => .database
  | .unavailable => .database

/-! ## Requests -/

/-- The answer to a simulated `is_settled`. -/
inductive IsSettledSimulation
  | error
  /-- An entry it reads is archived. -/
  | restore
  | value (settled : Bool)
  deriving DecidableEq, Repr

/-- An order with its id and the creator of its product. -/
structure StuckOrder where
  id : String
  order : Order
  creatorId : String
  deriving DecidableEq, Repr

/-- The balance of USDC that Horizon tells, and whether there is a trustline. -/
structure WalletBalance where
  /-- In units of the seventh decimal. -/
  balance : ℤ
  hasUsdcTrustline : Bool
  deriving DecidableEq, Repr

/-- What the services ask of the database, of Horizon, of the RPC server and of the clock. -/
inductive Request
  /-- `product.findUnique` among the active ones. -/
  | productFindUnique (id : String)
  | userFindUnique (id : String)
  /-- `order.findFirst` by payment reference : the id of the order. -/
  | orderFindFirst (paymentRef : String)
  /-- `order.findUnique` : the order and the creator of its product. -/
  | orderFindUnique (id : String)
  | orderCreate (data : OrderCreate)
  | orderUpdate (id : String) (data : OrderUpdate)
  /-- `order.findMany` by status. -/
  | orderFindMany (statuses : List OrderStatus)
  /-- `order.findMany` of a creator's orders in `waitingWallet`. -/
  | orderFindWaiting (creatorId : String)
  | walletFindFirst (creatorId : String)
  /-- `wallet.findFirst` by address : whether there is one. -/
  | walletFindAddress (walletAddress : String)
  | walletCreate (creatorId walletAddress : String) (provider : WalletProvider)
  /-- `productCollaborator.findMany` of the active ones. -/
  | collaboratorFindMany (productId : String)
  | settlementFindUnique (orderId : String)
  | settlementCreate (data : SettlementCreate)
  | getUsdcBalance (address : String)
  /-- The sequence number of the platform account and the time. -/
  | getAccount
  /-- `simulateTransaction` of a `settle` : whether it succeeds. -/
  | simulateSettle (tx : Tx)
  | simulateIsSettled (orderRef : String)
  | sendTransaction (tx : Tx)
  /-- `attempt` counts the polls of one transaction. -/
  | getTransaction (txHash : TxHash) (attempt : ℕ)
  deriving DecidableEq, Repr

/-- The answers. -/
def Request.Ans : Request → Type
  | .productFindUnique _ => Option Product
  | .userFindUnique _ => Bool
  | .orderFindFirst _ => Option String
  | .orderFindUnique _ => Option (Order × String)
  | .orderCreate _ => String
  | .orderUpdate _ _ => Unit
  | .orderFindMany _ => List StuckOrder
  | .orderFindWaiting _ => List StuckOrder
  | .walletFindFirst _ => Option String
  | .walletFindAddress _ => Bool
  | .walletCreate _ _ _ => Wallet
  | .collaboratorFindMany _ => List Collaborator
  | .settlementFindUnique _ => Option Settlement
  | .settlementCreate _ => Unit
  | .getUsdcBalance _ => WalletBalance
  | .getAccount => ℕ × ℕ
  | .simulateSettle _ => Bool
  | .simulateIsSettled _ => IsSettledSimulation
  | .sendTransaction _ => SendStatus
  | .getTransaction _ _ => TxStatus

/-- The requests, events and errors of the backend. -/
abbrev backend : Sig where
  Req := Request
  Ans := Request.Ans
  Event := AppEvent
  Error := Failure

/-- An asynchronous method of the backend. -/
abbrev Method (α : Type) :=
  Prog backend α

/-- `await` of a request. -/
abbrev await (r : Request) : Method r.Ans :=
  Prog.ask (S := backend) r

/-- `emitter.emit`. -/
abbrev emit (e : AppEvent) : Method Unit :=
  Prog.signal (S := backend) e

/-! ## The world -/

/-- The database, the network, and the events emitted so far. -/
structure World where
  db : Database
  chain : Chain
  emitted : List AppEvent

/-- Whether a request throws, and whether it took effect first. -/
inductive Fault
  | none
  | lost
  | unacked
  deriving DecidableEq, Repr

/-- How the RPC server turns a transaction down without offering it to the network. -/
inductive Refusal
  | tryAgainLater
  | error
  deriving DecidableEq, Repr

/-- The status that `sendTransaction` answers with it. -/
def Refusal.status : Refusal → SendStatus
  | .tryAgainLater => .tryAgainLater
  | .error => .error

/-- The outcome of one request, as far as the world does not determine it. -/
structure Choice where
  fault : Fault := .none
  /-- The order of the rows of a query. -/
  order : ℕ := 0
  /-- The time, in seconds. -/
  now : ℕ := 0
  /-- The id of a new row. -/
  uuid : String := ""
  /-- A transaction is refused for another reason than its sequence number. -/
  refusal : Option Refusal := .none
  /-- The RPC server does not know an applied transaction yet. -/
  lag : Bool := false
  /-- A simulation fails for another reason than the contract's. -/
  simulationFails : Bool := false
  /-- A simulated `is_settled` reads an archived entry. -/
  restore : Bool := false
  deriving DecidableEq, Repr

/-- A request that neither throws nor lags nor is refused. -/
structure Choice.Healthy (c : Choice) : Prop where
  fault : c.fault = .none
  refusal : c.refusal = .none
  lag : c.lag = false
  simulationFails : c.simulationFails = false
  restore : c.restore = false

instance (c : Choice) : Decidable c.Healthy :=
  decidable_of_iff (c.fault = .none ∧ c.refusal = .none ∧ c.lag = false ∧
    c.simulationFails = false ∧ c.restore = false)
    ⟨fun ⟨hf, hr, hl, hs, he⟩ => ⟨hf, hr, hl, hs, he⟩,
      fun ⟨hf, hr, hl, hs, he⟩ => ⟨hf, hr, hl, hs, he⟩⟩

/-- Lift the effect of a database write. -/
def World.write (w : World) : Except DbError Database → Except Failure Unit × World
  | .ok db => (.ok (), { w with db })
  | .error e => (.error e.failure, w)

/-- Lift the effect of a database write that answers `a`. -/
def World.insert {α : Type} (w : World) (a : α) :
    Except DbError Database → Except Failure α × World
  | .ok db => (.ok a, { w with db })
  | .error e => (.error e.failure, w)

/-- The rows of `order.findMany` by status. -/
def Database.ordersIn (db : Database) (statuses : List OrderStatus) : List StuckOrder :=
  (db.orders.entries.filter fun e => e.2.status ∈ statuses).map fun e =>
    ⟨e.1, e.2, db.creatorOf e.2.productId⟩

/-- The rows of `order.findMany` of a creator's orders in `waitingWallet`. -/
def Database.waitingOrders (db : Database) (creatorId : String) : List StuckOrder :=
  (db.ordersIn [.waitingWallet]).filter (·.creatorId = creatorId)

/-- `sendTransaction`. What the network accepts is remembered in `sent`. -/
def Chain.send (refusal : Option Refusal) (tx : Tx) (c : Chain) : SendStatus × Chain :=
  match refusal with
  | some refusal => (refusal.status, c)
  | none =>
    match c.submit (.settle tx) with
    | (.error, c') => (.error, c')
    | (.tryAgainLater, c') => (.tryAgainLater, c')
    | (status, c') => (status, { c' with sent := tx :: c'.sent })

/-- `getTransaction`. A text that is no hash makes the server throw. -/
def Chain.status (lag : Bool) (c : Chain) : TxHash → Except Failure TxStatus
  | .placeholder _ => .error .rpc
  | .onChain tx =>
    if lag then .ok .notFound
    else match c.result tx with
      | none => .ok .notFound
      | some true => .ok .success
      | some false => .ok .failed

/-- What a request answers and changes when no fault hits it. -/
def effect (cfg : StellarConfig) :
    (r : Request) → Choice → World → Except Failure r.Ans × World
  | .productFindUnique id, _, w =>
    (.ok ((w.db.products.lookup id).filter (·.status = .active)), w)
  | .userFindUnique id, _, w => (.ok (decide (id ∈ w.db.users)), w)
  | .orderFindFirst ref, _, w => (.ok (w.db.orderWithRef ref), w)
  | .orderFindUnique id, _, w =>
    (.ok ((w.db.orders.lookup id).map fun o => (o, w.db.creatorOf o.productId)), w)
  | .orderCreate data, c, w => w.insert c.uuid (w.db.createOrder c.uuid data)
  | .orderUpdate id data, _, w => w.write (w.db.updateOrder id data)
  | .orderFindMany statuses, c, w => (.ok (reorder c.order (w.db.ordersIn statuses)), w)
  | .orderFindWaiting creatorId, c, w =>
    (.ok (reorder c.order (w.db.waitingOrders creatorId)), w)
  | .walletFindFirst creatorId, c, w =>
    (.ok ((reorder c.order (w.db.wallets.filter (·.creatorId = creatorId))).head?.map
      (·.walletAddress)), w)
  | .walletFindAddress walletAddress, _, w =>
    (.ok (decide (walletAddress ∈ w.db.wallets.map (·.walletAddress))), w)
  | .walletCreate creatorId walletAddress provider, c, w =>
    w.insert ⟨creatorId, walletAddress, provider, c.now⟩
      (w.db.createWallet ⟨creatorId, walletAddress, provider, c.now⟩)
  | .collaboratorFindMany productId, c, w =>
    (.ok (reorder c.order (w.db.activeCollaborators productId)), w)
  | .settlementFindUnique orderId, _, w => (.ok (w.db.settlements.lookup orderId), w)
  | .settlementCreate data, _, w => w.write (w.db.createSettlement data)
  | .getUsdcBalance address, _, w =>
    (.ok ⟨(w.chain.contract.ledger cfg.usdc).balance address, w.chain.trustline address⟩, w)
  | .getAccount, c, w => (.ok (w.chain.closedSequence, c.now), w)
  | .simulateSettle tx, c, w =>
    (.ok (!c.simulationFails && (w.chain.invokeSettle cfg tx).isOk), w)
  | .simulateIsSettled ref, c, w =>
    (.ok (if c.simulationFails then .error else if c.restore then .restore
      else .value (isSettled ref w.chain.contract)), w)
  | .sendTransaction tx, c, w =>
    (.ok (w.chain.send c.refusal tx).1, { w with chain := (w.chain.send c.refusal tx).2 })
  | .getTransaction hash _, c, w => (w.chain.status c.lag hash, w)

/-- The error of a request that throws. -/
def Request.thrown : Request → Failure
  | .getUsdcBalance _ => .horizon
  | .getAccount => .rpc
  | .simulateSettle _ => .rpc
  | .simulateIsSettled _ => .rpc
  | .sendTransaction _ => .rpc
  | .getTransaction _ _ => .rpc
  | _ => .database

/-- Requests with their faults. -/
def exec (cfg : StellarConfig) (r : Request) (c : Choice) (w : World) :
    Except Failure r.Ans × World :=
  match c.fault with
  | .none => effect cfg r c w
  | .lost => (.error r.thrown, w)
  | .unacked => (.error r.thrown, (effect cfg r c w).2)

/-- What changes the world besides the handlers. -/
inductive Env
  | network (step : NetworkStep)
  /-- The owner of a product replaces its collaborators. -/
  | updateProduct (productId : String) (rows : List Collaborator)

/-- The backend, the network and the product owners. -/
def machine (cfg : StellarConfig) : Machine backend World Choice Env where
  exec := exec cfg
  log e w := { w with emitted := w.emitted ++ [e] }
  env
    | .network step, w => { w with chain := w.chain.step cfg step }
    | .updateProduct productId rows, w =>
      { w with db := w.db.replaceCollaborators productId rows }

/-! ## A deployment to run on -/

/-- The platform account `P`, and a token contract that moves what the source holds to any
account with a trustline. -/
def demoConfig : StellarConfig where
  platformWalletAddress := "P"
  publicKey := "P"
  usdc := "USDC"
  isAddress _ := true
  sac trustline := ⟨fun _ l source destination amount =>
    amount ≤ l.balance source ∧ trustline destination⟩

/-- A product of the creator `alice` for ten dollars. -/
def demoProduct : Product :=
  ⟨"alice", "Presets", none, some "https://drive", usd 1000, .active⟩

/-- One product of the creator `alice` with these collaborators and orders. The contract is
initialized and the platform holds a million dollars. -/
def demoWorld (collaborators : List Collaborator) (orders : List (String × Order)) : World where
  db :=
    { users := ["alice"]
      products := AList.insert "product" demoProduct ∅
      collaborators
      orders := orders.foldr (fun o t => t.insert o.1 o.2) ∅
      settlements := ∅
      wallets := [⟨"alice", "A", .freighter, 0⟩] }
  chain :=
    { contract := { deployed fun _ => TokenLedger.Ledger.single "P" 10000000000000 with
        platformWallet := some "P", usdcSac := some "USDC" }
      trustline _ := true
      closedSequence := 0
      mempool := []
      results := []
      sent := [] }
  emitted := []

/-- A collaborator of the product, with a percentage in hundredths. -/
def demoCollaborator (walletAddress : String) (revenuePercentage : ℤ) : Collaborator :=
  ⟨"product", walletAddress, "Author", revenuePercentage, .active⟩

/-- An order of the product over ten dollars. -/
def demoOrder (status : OrderStatus) : Order :=
  ⟨"product", "buyer", demoProduct.priceUsd, status, none, none⟩

/-- The event of an order of ten dollars. -/
def demoPayload (orderId : String) : PaymentReceivedPayload :=
  ⟨orderId, usd 1000, "alice", some "A", "ref"⟩

end Kreav
