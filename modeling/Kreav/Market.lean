import Kreav.AmountTexts
import Kreav.ContractRuns
import Kreav.Lib.Arrivals
import Kreav.OrderProtocol
import Kreav.ProductSplit

/-!
# Orders at the price of their product

A price goes from the body of a product through `checkout` into the order, from there with
`payment.received`, which the webhook, a connected wallet and the startup recovery emit, to
the handler, and with a transaction to the contract.

`market` has all services. Calls arrive at any time, crashes end them, and the requests of
the products service come in between. `Lawful` turns deliver `payment.received` after it
was emitted only, and price the product with the texts in question. The product and its
orders have the amounts of these texts then (`Priced`), and an order keeps its amount
(`Grows`), which this module proves for each request and each step of the outside.
-/

open Async Prog

namespace Kreav

/-! ## The market -/

/-- What changes the world besides the services of the orders. -/
inductive MarketStep
  | backend (e : Env)
  /-- A request of a call of the products service. -/
  | catalog (call : ProductCall) (r : CatalogRequest) (c : Choice)

/-- The backend with the products service. -/
def market (cfg : StellarConfig) : Machine backend World Choice MarketStep where
  exec := exec cfg
  log := (machine cfg).log
  env
    | .backend e, w => (machine cfg).env e w
    | .catalog _ r c, w => (catalogExec cfg r c w).2

/-- The price in the body, if there is one. -/
def ProductCall.priceUsd : ProductCall → Option String
  | .create dto _ => some dto.priceUsd
  | .update _ dto _ => dto.priceUsd.join

/-- The product that the request writes. -/
def CatalogRequest.product (c : Choice) : CatalogRequest → Option String
  | .productCreate _ _ => some c.uuid
  | .productUpdate id _ => some id
  | _ => none

/-- The price that the request writes, in cents. -/
def CatalogRequest.priceUsd : CatalogRequest → Option ℕ
  | .productCreate data _ => some data.priceUsd
  | .productUpdate _ data => data.priceUsd
  | _ => none

/-- A request comes from a call that makes it, the bodies that price the product do so with
one of the texts `prices`, and `payment.received` is delivered once it was emitted. -/
def Lawful (productId : String) (prices : String → Prop) (s : Config backend World Unit) :
    Turn Choice MarketStep ServiceCall → Prop
  | .act (.env (.catalog pc r c)) => pc.method.Makes r ∧
    (r.product c = some productId → ∀ priceUsd ∈ pc.priceUsd, prices priceUsd)
  | .call (.paymentReceived payload) => payload ∈ payments s.world.emitted
  | _ => True

/-- The order has the amount. -/
def Costs (w : World) (id : String) (a : Usd) : Prop :=
  ∃ o, w.db.orders.lookup id = some o ∧ o.amountUsd = a

/-- Nothing of the product is there yet. -/
structure Unlisted (productId : String) (w : World) : Prop where
  product : w.db.products.lookup productId = none
  order : ∀ id o, w.db.orders.lookup id = some o → o.productId ≠ productId
  emitted : ∀ p ∈ payments w.emitted, Costs w p.orderId p.amountUsd

namespace Pricing

/-- The product and its orders have amounts in `V`, and each event that of its order. -/
structure Priced (productId : String) (V : Usd → Prop) (w : World) : Prop where
  product : ∀ p, w.db.products.lookup productId = some p → V p.priceUsd
  order : ∀ id o, w.db.orders.lookup id = some o → o.productId = productId → V o.amountUsd
  emitted : ∀ p ∈ payments w.emitted, Costs w p.orderId p.amountUsd

/-- Orders stay, with their product and their amount. -/
def Grows (w w' : World) : Prop :=
  ∀ id o, w.db.orders.lookup id = some o → ∃ o', w'.db.orders.lookup id = some o' ∧
    o'.productId = o.productId ∧ o'.amountUsd = o.amountUsd

variable {productId : String} {V : Usd → Prop} {w w' : World}

theorem Grows.of_orders (h : w'.db.orders = w.db.orders) : Grows w w' :=
  fun _ o ho => ⟨o, by rwa [h], rfl, rfl⟩

theorem costs_grows {id : String} {b : Usd} (h : Costs w id b) (hg : Grows w w') :
    Costs w' id b := by
  obtain ⟨o, ho, rfl⟩ := h
  obtain ⟨o', ho', -, ha⟩ := hg id o ho
  exact ⟨o', ho', ha⟩

theorem priced_of_unlisted (h : Unlisted productId w) : Priced productId V w where
  product p hp := by
    rw [h.product] at hp
    cases hp
  order id o ho hid := absurd hid (h.order id o ho)
  emitted := h.emitted

/-! ## What a request does to orders and products -/

theorem Priced.of_db (h : Priced productId V w) (hp : w'.db.products = w.db.products)
    (ho : w'.db.orders = w.db.orders) (he : w'.emitted = w.emitted) : Priced productId V w' where
  product p hl := h.product p (by rwa [← hp])
  order id o hl := h.order id o (by rwa [← ho])
  emitted p hm := costs_grows (h.emitted p (by rwa [← he])) (.of_orders ho)

/-- A new order at the price, or an update of an order. -/
theorem Priced.setOrder (h : Priced productId V w) {id : String} {o : Order}
    (hnew : ∀ o', w.db.orders.lookup id = some o' →
      o.productId = o'.productId ∧ o.amountUsd = o'.amountUsd)
    (hprice : o.productId = productId → V o.amountUsd) :
    Priced productId V (w.setOrder id o) ∧ Grows w (w.setOrder id o) := by
  have hg : Grows w (w.setOrder id o) := by
    intro id' o' ho'
    by_cases hid : id' = id
    · subst hid
      exact ⟨o, w.setOrder_lookup _ _, hnew o' ho'⟩
    · exact ⟨o', by rwa [w.setOrder_lookup_ne _ hid], rfl, rfl⟩
  refine ⟨⟨h.product, fun id' o' ho' hp => ?_, fun p hm => costs_grows (h.emitted p hm) hg⟩, hg⟩
  by_cases hid : id' = id
  · subst hid
    rw [w.setOrder_lookup] at ho'
    obtain rfl := Option.some.inj ho'
    exact hprice hp
  · rw [w.setOrder_lookup_ne _ hid] at ho'
    exact h.order id' o' ho' hp

/-- A new order has an amount in `V`, if it is one of the product. -/
def AtPrice (productId : String) (V : Usd → Prop) : Request → Prop
  | .orderCreate data => data.productId = productId → V data.amountUsd
  | _ => True

theorem Priced.exec (h : Priced productId V w) (cfg : StellarConfig) {r : Request}
    (hr : AtPrice productId V r) (c : Choice) :
    Priced productId V (exec cfg r c w).2 ∧ Grows w (exec cfg r c w).2 := by
  have hsame : ∀ {w'}, w'.db.products = w.db.products → w'.db.orders = w.db.orders →
      w'.emitted = w.emitted → Priced productId V w' ∧ Grows w w' :=
    fun hp ho he => ⟨h.of_db hp ho he, .of_orders ho⟩
  have hread : ∀ {r : Request}, r.reads = true →
      Priced productId V (Kreav.exec cfg r c w).2 ∧ Grows w (Kreav.exec cfg r c w).2 :=
    fun hr => by
      rw [exec_reads cfg hr]
      exact hsame rfl rfl rfl
  cases r with
  | orderCreate data =>
    rcases exec_orderCreate cfg data c w with ⟨x, hn, hx⟩ | ⟨e, hx⟩
    · rw [hx]
      refine h.setOrder (fun o' ho' => ?_) hr
      rw [hn] at ho'
      cases ho'
    · rw [hx]
      exact hsame rfl rfl rfl
  | orderUpdate id data =>
    have hupd : ∀ o, w.db.orders.lookup id = some o →
        Priced productId V (w.setOrder id (data.applyTo o)) ∧
          Grows w (w.setOrder id (data.applyTo o)) := fun o ho => by
      refine h.setOrder (fun o' ho' => ?_) (h.order id o ho)
      obtain rfl := Option.some.inj (ho.symm.trans ho')
      exact ⟨rfl, rfl⟩
    rcases exec_orderUpdate cfg id data c w with
      ⟨o, -, ho, -, hx⟩ | ⟨o, -, ho, -, hx⟩ | ⟨e, hx, -⟩
    · rw [hx]
      exact hupd o ho
    · rw [hx]
      exact hupd o ho
    · rw [hx]
      exact hsame rfl rfl rfl
  | walletCreate creatorId walletAddress provider =>
    rcases exec_walletCreate cfg creatorId walletAddress provider c w with
      ⟨wallet, -, -, hx⟩ | ⟨wallet, -, -, hx⟩ | ⟨e, hx⟩ <;>
    · rw [hx]
      exact hsame rfl rfl rfl
  | settlementCreate data =>
    rcases exec_settlementCreate cfg data c w with ⟨-, -, hx⟩ | ⟨-, -, hx⟩ | ⟨e, hx, -⟩ <;>
    · rw [hx]
      exact hsame rfl rfl rfl
  | sendTransaction tx =>
    rcases exec_sendTransaction_world cfg tx c w with hx | hx <;>
    · rw [hx]
      exact hsame rfl rfl rfl
  | _ => exact hread rfl

/-! ## The products service -/

/-- A request writes the price of the body, which was accepted. -/
def FromBody (price : Option String) (r : CatalogRequest) : Prop :=
  ∀ cents ∈ r.priceUsd, ∃ text ∈ price, isPrice text = true ∧ cents = hundredths text

theorem uses_unpriced {price : Option String} {r : CatalogRequest} (h : r.priceUsd = none) :
    (awaitC r).Uses (FromBody price) :=
  Uses.ask fun _ hc => by
    rw [h] at hc
    cases hc

theorem uses_resolveCollaborators (price : Option String) (creatorId : String) :
    ∀ input : Option (List CreateCollaboratorDto),
      (Products.resolveCollaborators input creatorId).Uses (FromBody price) := by
  have hk := Uses.compositional (S := catalog) (FromBody price)
  have hsole : (Products.soleCollaborator creatorId).Uses (FromBody price) := by
    refine hk.bind (uses_unpriced rfl) fun found => ?_
    cases found with
    | none => exact hk.raise _
    | some walletAddress =>
      refine hk.bind (hk.tryCatch (uses_unpriced rfl) fun _ => hk.raise _) fun state => ?_
      split
      · exact hk.raise _
      · exact hk.ret _
  have heligible : ∀ wallets : List String,
      (Products.assertCollaboratorsEligible wallets).Uses (FromBody price) := by
    intro wallets
    induction wallets with
    | nil => exact hk.ret _
    | cons address rest ih =>
      refine hk.bind (uses_unpriced rfl) fun registered => ?_
      dsimp only
      split
      · exact hk.raise _
      refine hk.bind (hk.tryCatch (uses_unpriced rfl) fun _ => hk.raise _) fun state => ?_
      split
      · exact hk.raise _
      · exact ih
  intro input
  match input with
  | none => exact hsole
  | some [] => exact hsole
  | some (dto :: rest) =>
    rw [Products.resolveCollaborators, Products.checkCollaborators]
    split
    · exact hk.raise _
    split
    · exact hk.raise _
    · exact hk.bind (heligible _) fun _ => hk.ret _

theorem uses_method (pc : ProductCall) : pc.method.Uses (FromBody pc.priceUsd) := by
  have hk := Uses.compositional (S := catalog) (FromBody pc.priceUsd)
  cases pc with
  | create dto creatorId =>
    simp only [ProductCall.method]
    split
    · exact hk.raise _
    next hvalid =>
    have hprice : isPrice dto.priceUsd = true := by
      simp only [CreateProductDto.isValid, Bool.not_eq_true', Bool.not_eq_false,
        Bool.and_eq_true] at hvalid
      exact hvalid.1.2
    refine hk.bind (hk.bind (uses_resolveCollaborators _ _ _) fun collaborators => ?_)
      fun _ => hk.ret _
    exact Uses.ask fun cents hc => ⟨dto.priceUsd, rfl, hprice, (Option.some.inj hc).symm⟩
  | update id dto creatorId =>
    simp only [ProductCall.method]
    split
    · exact hk.raise _
    next hvalid =>
    have hprice : ∀ text ∈ dto.priceUsd.join, isPrice text = true := by
      simp only [UpdateProductDto.isValid, optionally, Bool.not_eq_true', Bool.not_eq_false,
        Bool.and_eq_true] at hvalid
      intro text ht
      rw [Option.mem_def.1 ht] at hvalid
      exact hvalid.1.2
    refine hk.bind (hk.bind (uses_unpriced rfl) fun found => ?_) fun _ => ?_
    · cases found with
      | none => exact hk.raise _
      | some product =>
        dsimp only
        split
        · exact hk.raise _
        · exact hk.ret _
    have hset : ∀ price : Option ℕ, (∀ cents ∈ price, ∃ text ∈ dto.priceUsd.join,
        isPrice text = true ∧ cents = hundredths text) →
          (Products.patchCollaborators id creatorId dto.collaborators >>=
            fun _ => awaitC (.productUpdate id
              ⟨dto.title, dto.description, dto.fileUrl, price⟩)).Uses
                (FromBody dto.priceUsd.join) := by
      intro price hp
      refine hk.bind ?_ fun _ => Uses.ask hp
      rcases dto.collaborators with - | - | ⟨c, cs⟩
      · exact hk.ret _
      · exact hk.ret _
      · exact hk.bind (uses_resolveCollaborators _ _ _) fun _ => uses_unpriced rfl
    rcases hd : dto.priceUsd with - | - | text
    · exact hset none (by simp)
    · exact hk.raise _
    · have ht : text ∈ dto.priceUsd.join := by simp [hd]
      exact hset (some (hundredths text)) fun cents hc =>
        ⟨text, ht, hprice text ht, (Option.some.inj hc).symm⟩

theorem Priced.catalog (h : Priced productId V w) (cfg : StellarConfig) {r : CatalogRequest}
    {c : Choice} (hr : r.product c = some productId → ∀ cents ∈ r.priceUsd, ∀ a : Usd,
      a.cents = (cents : ℕ) → V a) :
    Priced productId V (catalogExec cfg r c w).2 ∧ Grows w (catalogExec cfg r c w).2 := by
  have hinsert : ∀ {id : String} {p : Product} {db' : Database},
      db'.products = w.db.products.insert id p → db'.orders = w.db.orders →
        (id = productId → V p.priceUsd) →
          Priced productId V { w with db := db' } ∧ Grows w { w with db := db' } := by
    intro id p db' hp ho hprice
    have hg : Grows w { w with db := db' } := .of_orders ho
    refine ⟨⟨fun q hq => ?_, fun id' o hl => h.order id' o (ho ▸ hl),
      fun p' hm => costs_grows (h.emitted p' hm) hg⟩, hg⟩
    rw [hp] at hq
    by_cases hid : productId = id
    · rw [hid, AList.lookup_insert] at hq
      exact Option.some.inj hq ▸ hprice hid.symm
    · rw [AList.lookup_insert_ne hid] at hq
      exact h.product q hq
  have hsame : ∀ {w'}, w'.db.products = w.db.products → w'.db.orders = w.db.orders →
      w'.emitted = w.emitted → Priced productId V w' ∧ Grows w w' :=
    fun hp ho he => ⟨h.of_db hp ho he, .of_orders ho⟩
  have heffect : Priced productId V (catalogEffect cfg r c w).2 ∧
      Grows w (catalogEffect cfg r c w).2 := by
    cases r with
    | productCreate data rows =>
      simp only [catalogEffect]
      cases hok : w.db.createProduct c.uuid data rows with
      | error e => exact hsame rfl rfl rfl
      | ok db' =>
        obtain ⟨-, ho, -, p, -, hcents, hp⟩ := Products.createProduct_eq_ok hok
        exact hinsert hp ho fun hid => hr (congrArg some hid) _ rfl _ hcents
    | productUpdate id data =>
      simp only [catalogEffect]
      cases hok : w.db.updateProduct id data with
      | error e => exact hsame rfl rfl rfl
      | ok db' =>
        obtain ⟨-, ho, p₀, p, hp₀, -, hkeep, hset, hp⟩ := Products.updateProduct_eq_ok hok
        refine hinsert hp ho fun hid => ?_
        cases hd : data.priceUsd with
        | none => exact (hkeep hd) ▸ h.product p₀ (hid ▸ hp₀)
        | some cents => exact hr (congrArg some hid) cents hd _ (hset cents hd)
    | collaboratorReplace id rows =>
      simp only [catalogEffect]
      cases hok : w.db.replaceAll id rows with
      | error e => exact hsame rfl rfl rfl
      | ok db' =>
        obtain ⟨-, rfl⟩ := Products.replaceAll_eq_ok hok
        exact hsame rfl rfl rfl
    | _ => exact hsame rfl rfl rfl
  rcases catalogExec_world cfg r c w with hw | hw <;> rw [hw]
  · exact hsame rfl rfl rfl
  · exact heffect

end Pricing

end Kreav
