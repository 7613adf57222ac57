import Kreav.Backend

/-!
# The products service

`backend/src/products/products.service.ts` with the bodies of `dto/create-product.dto.ts` and
`dto/update-product.dto.ts`. `resolveCollaborators` checks the revenue split of a body : the
percentages add up to 100, each is positive, and every wallet is registered and can receive
USDC. `create` stores a product with its collaborators and `update` replaces them.

The methods are programs over `catalog`, on the database and the network of `World`.
-/

open Async Rounding

namespace Kreav

/-! ## Validators -/

/-- The number that digits are. -/
def digitsValue (digits : List Char) : ℕ :=
  digits.foldl (fun n c => 10 * n + (c.toNat - 48)) 0

/-- `/^\d+(\.\d{1,2})?$/`. -/
def isDecimal (s : String) : Bool :=
  !(s.toList.takeWhile Char.isDigit).isEmpty &&
    match s.toList.dropWhile Char.isDigit with
    | [] => true
    | ['.', a] => a.isDigit
    | ['.', a, b] => a.isDigit && b.isDigit
    | _ => false

/-- The value of such a text, in hundredths. -/
def hundredths (s : String) : ℕ :=
  100 * digitsValue (s.toList.takeWhile Char.isDigit) +
    match s.toList.dropWhile Char.isDigit with
    | ['.', a] => 10 * digitsValue [a]
    | ['.', a, b] => digitsValue [a, b]
    | _ => 0

/-- `/^G[A-Z2-7]{55}$/`. -/
def isPublicKey (s : String) : Bool :=
  match s.toList with
  | 'G' :: rest => rest.length = 55 &&
    rest.all fun c => ('A' ≤ c && c ≤ 'Z') || ('2' ≤ c && c ≤ '7')
  | _ => false

/-- `/^(?!0(\.0{1,2})?$)\d+(\.\d{1,2})?$/`. -/
def isPrice (s : String) : Bool :=
  s ≠ "0" && s ≠ "0.0" && s ≠ "0.00" && isDecimal s

/-- A collaborator of a request. -/
structure CreateCollaboratorDto where
  walletAddress : String
  role : String
  revenuePercentage : String
  deriving DecidableEq, Repr

/-- The checks of its decorators. -/
def CreateCollaboratorDto.isValid (dto : CreateCollaboratorDto) : Bool :=
  isPublicKey dto.walletAddress && dto.role ≠ "" && isDecimal dto.revenuePercentage

/-- The body of `POST /products`. -/
structure CreateProductDto where
  title : String
  description : Option String
  fileUrl : String
  priceUsd : String
  collaborators : Option (List CreateCollaboratorDto)
  deriving DecidableEq, Repr

/-- The checks of its decorators. -/
def CreateProductDto.isValid (dto : CreateProductDto) : Bool :=
  dto.title ≠ "" && dto.fileUrl ≠ "" && isPrice dto.priceUsd &&
    dto.collaborators.all fun cs => cs.all (·.isValid)

/-- The body of `PATCH /products/:id`. A field may be absent or null. -/
structure UpdateProductDto where
  title : Option (Option String)
  description : Option (Option String)
  fileUrl : Option (Option String)
  priceUsd : Option (Option String)
  collaborators : Option (List CreateCollaboratorDto)
  deriving DecidableEq, Repr

/-- A field that is present and not null passes. -/
def optionally (check : String → Bool) (field : Option (Option String)) : Bool :=
  field.join.all check

/-- The checks of its decorators. What is absent is not checked. -/
def UpdateProductDto.isValid (dto : UpdateProductDto) : Bool :=
  optionally (· ≠ "") dto.title && optionally (· ≠ "") dto.fileUrl &&
    optionally isPrice dto.priceUsd && dto.collaborators.all fun cs => cs.all (·.isValid)

/-! ## Statements -/

/-- The columns of a collaborator to create, its percentage in hundredths. -/
structure CollaboratorCreate where
  walletAddress : String
  role : String
  revenuePercentage : ℤ
  deriving DecidableEq, Repr

/-- The row of a collaborator. -/
def CollaboratorCreate.stored (productId : String) (c : CollaboratorCreate) : Collaborator :=
  ⟨productId, c.walletAddress, c.role, c.revenuePercentage, .active⟩

/-- The percentage fits `Decimal(5,2)`. -/
def CollaboratorCreate.InRange (c : CollaboratorCreate) : Prop :=
  c.revenuePercentage.natAbs < 10 ^ 5

instance (c : CollaboratorCreate) : Decidable c.InRange :=
  inferInstanceAs (Decidable (_ < _))

/-- The columns of a product to create, its price in cents. -/
structure ProductCreate where
  title : String
  description : Option String
  fileUrl : String
  priceUsd : ℕ
  creatorId : String
  deriving DecidableEq, Repr

/-- The columns a product update sets. -/
structure ProductUpdate where
  title : Option (Option String)
  description : Option (Option String)
  fileUrl : Option (Option String)
  priceUsd : Option ℕ
  deriving DecidableEq, Repr

/-- A price that fits its column. -/
def priceColumn (cents : ℕ) : Except DbError Usd :=
  (Usd.ofCents? cents).elim (.error .outOfRange) .ok

namespace Database

/-- `product.create` with its collaborators, under the id `id`. -/
def createProduct (id : String) (data : ProductCreate) (rows : List CollaboratorCreate)
    (db : Database) : Except DbError Database :=
  match priceColumn data.priceUsd with
  | .error e => .error e
  | .ok priceUsd =>
    if data.creatorId ∉ db.users then .error .recordNotFound
    else if (db.products.lookup id).isSome then .error .uniqueViolation
    else if ∃ c ∈ rows, ¬ c.InRange then .error .outOfRange
    else .ok { db with
      products := db.products.insert id ⟨data.creatorId, data.title, data.description,
        some data.fileUrl, priceUsd, .active⟩
      collaborators := db.collaborators ++ rows.map (·.stored id) }

/-- The transaction of `productCollaborator.deleteMany` and `createMany`, when no other runs
meanwhile. -/
def replaceAll (productId : String) (rows : List CollaboratorCreate) (db : Database) :
    Except DbError Database :=
  if (db.products.lookup productId).isNone then .error .recordNotFound
  else if ∃ c ∈ rows, ¬ c.InRange then .error .outOfRange
  else .ok (db.replaceCollaborators productId (rows.map (·.stored productId)))

/-- `product.update`. -/
def updateProduct (id : String) (data : ProductUpdate) (db : Database) :
    Except DbError Database :=
  match db.products.lookup id with
  | none => .error .recordNotFound
  | some p =>
    match (data.priceUsd.map priceColumn).getD (.ok p.priceUsd) with
    | .error e => .error e
    | .ok priceUsd =>
      if data.title = some none then .error .nullViolation
      else .ok { db with
        products := db.products.insert id ⟨p.creatorId, data.title.join.getD p.title,
          data.description.getD p.description, data.fileUrl.getD p.fileUrl, priceUsd, p.status⟩ }

end Database

/-! ## Requests -/

/-- The errors of the products service. -/
inductive CatalogError
  /-- The validation pipe refuses the body. -/
  | validation
  | badRequest (message : String)
  | notFound (message : String)
  /-- `new Prisma.Decimal(null)`. -/
  | decimal
  | database (e : DbError)
  | horizon
  deriving DecidableEq, Repr

/-- What the products service asks of the database. -/
inductive CatalogRequest
  | productFindUnique (id : String)
  | productCreate (data : ProductCreate) (rows : List CollaboratorCreate)
  | productUpdate (id : String) (data : ProductUpdate)
  /-- `$transaction([deleteMany, createMany])`, as one step. Runs of these requests are those
  in which the transactions do not overlap. -/
  | collaboratorReplace (productId : String) (rows : List CollaboratorCreate)
  /-- `wallet.findFirst` of a creator, the last connected one. -/
  | walletFindLatest (creatorId : String)
  /-- `wallet.findFirst` by address : whether there is one. -/
  | walletFindAddress (walletAddress : String)
  | getUsdcBalance (address : String)
  deriving DecidableEq, Repr

/-- The answers. -/
def CatalogRequest.Ans : CatalogRequest → Type
  | .productFindUnique _ => Option Product
  | .productCreate _ _ => String
  | .productUpdate _ _ => Unit
  | .collaboratorReplace _ _ => Unit
  | .walletFindLatest _ => Option String
  | .walletFindAddress _ => Bool
  | .getUsdcBalance _ => WalletBalance

/-- The requests of the products service. It emits no events. -/
abbrev catalog : Sig where
  Req := CatalogRequest
  Ans := CatalogRequest.Ans
  Event := Empty
  Error := CatalogError

/-- An asynchronous method of the products service. -/
abbrev CatalogMethod (α : Type) :=
  Prog catalog α

/-- `await` of a request. -/
abbrev awaitC (r : CatalogRequest) : CatalogMethod r.Ans :=
  Prog.ask (S := catalog) r

/-! ## The service -/

namespace Products

/-- `Decimal.toString` of a number of hundredths. -/
def decimalText (x : ℕ) : String :=
  let digits := (Nat.toDigits 10 x).reverse.dropWhile (· = '0') |>.reverse
  if 10 ^ 23 ≤ x then
    String.ofList (digits.take 1) ++ (if digits.length = 1 then "" else ".") ++
      String.ofList (digits.drop 1) ++ "e+" ++ toString (Nat.log 10 x - 2)
  else
    toString (x / 100) ++
      if x % 100 = 0 then "" else if x % 10 = 0 then "." ++ toString (x % 100 / 10)
      else (if x % 100 < 10 then ".0" else ".") ++ toString (x % 100)

/-- `slice(0, 8)` of an address. -/
def short (address : String) : String :=
  (address.take 8).toString ++ "…"

/-- `acc.plus(revenuePercentage)` over the collaborators, in hundredths. -/
def percentageSum (cs : List CollaboratorCreate) : ℤ :=
  cs.foldl (fun acc c => roundSig precision (acc + c.revenuePercentage)) 0

/-- Every wallet is registered and can receive USDC. The source checks them concurrently. -/
def assertCollaboratorsEligible : List String → CatalogMethod Unit
  | [] => return ()
  | address :: rest => do
    let registered ← awaitC (.walletFindAddress address)
    if !registered then
      throw (.badRequest ("Collaborator wallet " ++ short address ++
        " is not registered on Kreav — they must connect their wallet first."))
    else
      let state ← tryCatch (awaitC (.getUsdcBalance address)) fun _ =>
        throw (.badRequest ("Couldn't verify the USDC trustline for " ++ short address ++
          " right now — please try again."))
      if !state.hasUsdcTrustline then
        throw (.badRequest ("Collaborator wallet " ++ short address ++
          " has no USDC trustline — they must activate USDC before being added as a " ++
          "collaborator."))
      else assertCollaboratorsEligible rest

/-- An explicit list, once it is parsed. -/
def checkCollaborators (parsed : List CollaboratorCreate) :
    CatalogMethod (List CollaboratorCreate) := do
  if percentageSum parsed ≠ 10000 then
    throw (.badRequest ("Collaborator revenue percentages must sum to 100.00 (got " ++
      decimalText (percentageSum parsed).toNat ++ ")."))
  else match parsed.find? fun c => c.revenuePercentage ≤ 0 with
    | some c =>
      throw (.badRequest ("Each collaborator must have a revenue share greater than 0% (got " ++
        decimalText c.revenuePercentage.toNat ++ " for " ++ short c.walletAddress ++ ")."))
    | none => do
      assertCollaboratorsEligible (parsed.map (·.walletAddress)).eraseDups
      return parsed

/-- No collaborators : the creator at 100%. -/
def soleCollaborator (creatorId : String) : CatalogMethod (List CollaboratorCreate) := do
  match ← awaitC (.walletFindLatest creatorId) with
  | none =>
    throw (.badRequest ("Connect a wallet before creating a product — the creator must be a " ++
      "revenue recipient."))
  | some walletAddress =>
    let state ← tryCatch (awaitC (.getUsdcBalance walletAddress)) fun _ =>
      throw (.badRequest ("Couldn't verify your USDC trustline right now — please try again."))
    if !state.hasUsdcTrustline then
      throw (.badRequest ("Activate your USDC trustline before creating a product — both solo " ++
        "and collaborative products need a wallet that can receive USDC."))
    else return [⟨walletAddress, "Creator", 10000⟩]

/-- The columns of a collaborator. -/
def parseCollaborator (dto : CreateCollaboratorDto) : CollaboratorCreate :=
  ⟨dto.walletAddress, dto.role, hundredths dto.revenuePercentage⟩

/-- The collaborator rows to store. -/
def resolveCollaborators (input : Option (List CreateCollaboratorDto)) (creatorId : String) :
    CatalogMethod (List CollaboratorCreate) :=
  match input with
  | some (dto :: rest) => checkCollaborators ((dto :: rest).map parseCollaborator)
  | some [] => soleCollaborator creatorId
  | none => soleCollaborator creatorId

/-- Create a product with its collaborators. -/
def create (dto : CreateProductDto) (creatorId : String) : CatalogMethod String := do
  let collaborators ← resolveCollaborators dto.collaborators creatorId
  awaitC (.productCreate ⟨dto.title, dto.description, dto.fileUrl, hundredths dto.priceUsd,
    creatorId⟩ collaborators)

/-- A product of the caller. -/
def loadOwnedProduct (id creatorId : String) : CatalogMethod Product := do
  match ← awaitC (.productFindUnique id) with
  | none => throw (.notFound "Product not found")
  | some product =>
    if product.creatorId ≠ creatorId then throw (.notFound "Product not found")
    else return product

/-- The new price of a body. -/
def patchPrice : Option (Option String) → CatalogMethod (Option ℕ)
  | none => return none
  | some none => throw .decimal
  | some (some priceUsd) => return some (hundredths priceUsd)

/-- Replace the collaborators when the body lists any. -/
def patchCollaborators (id creatorId : String) :
    Option (List CreateCollaboratorDto) → CatalogMethod Unit
  | some (dto :: rest) => do
    let collaborators ← resolveCollaborators (some (dto :: rest)) creatorId
    awaitC (.collaboratorReplace id collaborators)
  | some [] => return ()
  | none => return ()

/-- Change a product of the creator, and its collaborators if they are given. -/
def update (id : String) (dto : UpdateProductDto) (creatorId : String) :
    CatalogMethod Unit := do
  let _ ← loadOwnedProduct id creatorId
  let priceUsd ← patchPrice dto.priceUsd
  patchCollaborators id creatorId dto.collaborators
  awaitC (.productUpdate id ⟨dto.title, dto.description, dto.fileUrl, priceUsd⟩)

end Products

/-! ## The world -/

/-- The error of a request that throws. -/
def CatalogRequest.thrown : CatalogRequest → CatalogError
  | .getUsdcBalance _ => .horizon
  | _ => .database .unavailable

/-- Lift the effect of a database write that answers `a`. -/
def World.insertC {α : Type} (w : World) (a : α) :
    Except DbError Database → Except CatalogError α × World
  | .ok db => (.ok a, { w with db })
  | .error e => (.error (.database e), w)

/-- The wallets of a creator that no other of its wallets was connected after. -/
def Database.latestWallets (db : Database) (creatorId : String) : List Wallet :=
  (db.wallets.filter (·.creatorId = creatorId)).filter fun x =>
    ∀ y ∈ db.wallets, y.creatorId = creatorId → y.connectedAt ≤ x.connectedAt

/-- What a request answers and changes when no fault hits it. -/
def catalogEffect (cfg : StellarConfig) :
    (r : CatalogRequest) → Choice → World → Except CatalogError r.Ans × World
  | .productFindUnique id, _, w => (.ok (w.db.products.lookup id), w)
  | .productCreate data rows, c, w => w.insertC c.uuid (w.db.createProduct c.uuid data rows)
  | .productUpdate id data, _, w => w.insertC () (w.db.updateProduct id data)
  | .collaboratorReplace productId rows, _, w => w.insertC () (w.db.replaceAll productId rows)
  | .walletFindLatest creatorId, c, w =>
    (.ok ((reorder c.order (w.db.latestWallets creatorId)).head?.map (·.walletAddress)), w)
  | .walletFindAddress walletAddress, _, w =>
    (.ok (decide (walletAddress ∈ w.db.wallets.map (·.walletAddress))), w)
  | .getUsdcBalance address, _, w =>
    (.ok ⟨(w.chain.contract.ledger cfg.usdc).balance address, w.chain.trustline address⟩, w)

/-- Requests with their faults. -/
def catalogExec (cfg : StellarConfig) (r : CatalogRequest) (c : Choice) (w : World) :
    Except CatalogError r.Ans × World :=
  match c.fault with
  | .none => catalogEffect cfg r c w
  | .lost => (.error r.thrown, w)
  | .unacked => (.error r.thrown, (catalogEffect cfg r c w).2)

section Faults

variable {cfg : StellarConfig} {r : CatalogRequest} {c : Choice}

theorem catalogExec_none (h : c.fault = .none) (w : World) :
    catalogExec cfg r c w = catalogEffect cfg r c w := by
  simp only [catalogExec, h]

theorem catalogExec_lost (h : c.fault = .lost) (w : World) :
    catalogExec cfg r c w = (.error r.thrown, w) := by
  simp only [catalogExec, h]

theorem catalogExec_unacked (h : c.fault = .unacked) (w : World) :
    catalogExec cfg r c w = (.error r.thrown, (catalogEffect cfg r c w).2) := by
  simp only [catalogExec, h]

variable (cfg r c) in
/-- A request has its effect, or none. -/
theorem catalogExec_world (w : World) : (catalogExec cfg r c w).2 = w ∨
    (catalogExec cfg r c w).2 = (catalogEffect cfg r c w).2 := by
  cases h : c.fault with
  | none => exact .inr (by rw [catalogExec_none h])
  | lost => exact .inl (by rw [catalogExec_lost h])
  | unacked => exact .inr (by rw [catalogExec_unacked h])

end Faults

/-- What changes besides the catalog : users, wallets and the network. -/
structure Elsewhere where
  users : List String
  wallets : List Wallet
  chain : Chain

/-- The requests on the tables. Users, wallets and the network change in between. -/
def catalogMachine (cfg : StellarConfig) : Machine catalog World Choice Elsewhere where
  exec := catalogExec cfg
  log e _ := e.elim
  env e w := { w with db := { w.db with users := e.users, wallets := e.wallets }, chain := e.chain }

/-- A request to the products controller. -/
inductive ProductCall
  | create (dto : CreateProductDto) (creatorId : String)
  | update (id : String) (dto : UpdateProductDto) (creatorId : String)

/-- The validation pipe, then the service. -/
def ProductCall.method : ProductCall → CatalogMethod Unit
  | .create dto creatorId => do
    if !dto.isValid then throw .validation
    else
      let _ ← Products.create dto creatorId
      return ()
  | .update id dto creatorId =>
    if !dto.isValid then throw .validation else Products.update id dto creatorId

/-- The collaborators the body lists. -/
def ProductCall.listed : ProductCall → List CreateCollaboratorDto
  | .create dto _ => dto.collaborators.getD []
  | .update _ dto _ => dto.collaborators.getD []

end Kreav
