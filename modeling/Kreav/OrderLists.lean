import Kreav.OwnerNoninterference

/-!
# Reading all orders

`findAll` of `backend/src/orders/orders.service.ts` : `GET /orders` answers one page of the
orders of a creator's products, the newest first, with their number.

Orders come in while a client reads one page after another (`readPages`). Each page is right
when it is read, and once a page is not full, the client has seen every order that there was
when it began, with its data (`orders_walked`). A new order only shifts the others to later
pages, since it is newer than all.
-/

open Async Prog Paging

namespace Kreav

/-! ## The list -/

/-- An order as the list shows it. -/
structure OrderItem where
  id : String
  productTitle : String
  productPrice : String
  buyerEmail : String
  amountUsd : String
  status : OrderStatus
  paymentRef : Option String
  txHash : Option String
  createdAt : String
  deriving DecidableEq, Repr

/-- The answer to `GET /orders`. -/
structure OrdersPage where
  data : List OrderItem
  page : ℕ
  limit : ℕ
  total : ℕ
  deriving DecidableEq, Repr

/-- What the list asks of the database. -/
inductive OrderListRequest
  /-- `order.findMany` with the products, the newest first. -/
  | orderFindMany (creatorId : Option String) (skip take : ℕ)
  | orderCount (creatorId : Option String)
  deriving DecidableEq, Repr

/-- The answers. -/
def OrderListRequest.Ans : OrderListRequest → Type
  | .orderFindMany _ _ _ => List (OrderRow × ProductRow)
  | .orderCount _ => ℕ

/-- The requests of the list. -/
abbrev orderLists : Sig where
  Req := OrderListRequest
  Ans := OrderListRequest.Ans
  Event := Empty
  Error := OrderReadError

namespace OrdersService

/-- A row as an item of the list. -/
def orderItem (row : OrderRow × ProductRow) : OrderItem where
  id := row.1.id
  productTitle := row.2.title
  productPrice := row.2.priceUsd.toFixed
  buyerEmail := row.1.buyerEmail
  amountUsd := row.1.amountUsd.toFixed
  status := row.1.status
  paymentRef := row.1.paymentRef
  txHash := row.1.txHash
  createdAt := row.1.createdAt.toISOString

/-- One page of the orders. Without a creator they are those of all. -/
def findAll (creatorId : Option String) (page limit : ℕ) : Prog orderLists OrdersPage := do
  let scope := creatorId.filter (· ≠ "")
  let rows : List (OrderRow × ProductRow) ←
    Prog.ask (S := orderLists) (.orderFindMany scope ((page - 1) * limit) limit)
  let total : ℕ ← Prog.ask (S := orderLists) (.orderCount scope)
  return ⟨rows.map orderItem, page, limit, total⟩

end OrdersService

/-- A client of the creator that reads `n` pages, one after another. -/
def readPages (creatorId : String) (limit : ℕ) : ℕ → ℕ → Prog orderLists (List OrdersPage)
  | _, 0 => return []
  | page, n + 1 => do
    let first ← OrdersService.findAll (some creatorId) page limit
    let rest ← readPages creatorId limit (page + 1) n
    return first :: rest

/-! ## The tables -/

/-- What changes the tables meanwhile. -/
inductive OrderStep
  | create (order : OrderRow)
  | update (id : String) (status : OrderStatus) (txHash paymentRef : Option String)
  /-- A new product, or a new title and price of one. -/
  | product (product : ProductRow)

namespace OwnerTables

/-- The orders of the products of a creator, or of all. -/
def inScope (scope : Option String) (t : OwnerTables) : List OrderRow :=
  t.orders.filter fun o => scope.all fun creatorId => t.sells creatorId o

/-- `order.findMany`. Orders of one time come in the `n`-th arrangement. -/
def orderPage (scope : Option String) (skip take n : ℕ) (t : OwnerTables) :
    List (OrderRow × ProductRow) :=
  (page skip take (orderByNewest (·.createdAt) (reorder n (t.inScope scope)))).filterMap fun o =>
    (t.products.find? (·.id = o.productId)).map fun p => (o, p)

/-- `order.create`, of a product that exists. The clock gives it a later time than any other. -/
def createOrder (order : OrderRow) (t : OwnerTables) : OwnerTables :=
  if h : order.id ∉ t.orders.map (·.id) ∧ order.productId ∈ t.products.map (·.id) ∧
      ∀ o ∈ t.orders, o.createdAt < order.createdAt then
    { t with
      orders := t.orders ++ [order]
      orderIds := nodup_map_concat t.orderIds h.1 }
  else t

/-- `order.update`. -/
def updateOrder (id : String) (status : OrderStatus) (txHash paymentRef : Option String)
    (t : OwnerTables) : OwnerTables :=
  { t with
    orders := t.orders.map fun o => if o.id = id then { o with status, txHash, paymentRef } else o
    orderIds := by
      have hids : (fun o : OrderRow => o.id) ∘ (fun o : OrderRow =>
          if o.id = id then { o with status, txHash, paymentRef } else o) = (·.id) := by
        funext o
        simp only [Function.comp]
        split <;> rfl
      rw [List.map_map, hids]
      exact t.orderIds }

/-- `product.create`, with an id that no row has or refers to. -/
def createProduct (product : ProductRow) (t : OwnerTables) : OwnerTables :=
  if h : product.id ∉ t.products.map (·.id) ∧ ∀ o ∈ t.orders, o.productId ≠ product.id then
    { t with
      products := t.products ++ [product]
      productIds := nodup_map_concat t.productIds h.1 }
  else t

/-- `product.update` of the title and the price. -/
def updateProduct (product : ProductRow) (t : OwnerTables) : OwnerTables :=
  { t with
    products := t.products.map fun p =>
      if p.id = product.id then { p with title := product.title, priceUsd := product.priceUsd }
      else p
    productIds := by
      have hids : (fun p : ProductRow => p.id) ∘ (fun p : ProductRow =>
          if p.id = product.id then { p with title := product.title, priceUsd := product.priceUsd }
          else p) = (·.id) := by
        funext p
        simp only [Function.comp]
        split <;> rfl
      rw [List.map_map, hids]
      exact t.productIds }

/-- What happens to the tables between two pages. -/
def orderStep : OrderStep → OwnerTables → OwnerTables
  | .create order, t => t.createOrder order
  | .update id status txHash paymentRef, t => t.updateOrder id status txHash paymentRef
  | .product product, t =>
    if product.id ∈ t.products.map (·.id) then t.updateProduct product
    else t.createProduct product

end OwnerTables

/-- The reads of lists. They change nothing. -/
def orderListMachine : Machine orderLists OwnerTables WithdrawalChoice OrderStep where
  exec
    | .orderFindMany scope skip take, c, t =>
      (if c.fault ≠ .none then .error .database else .ok (t.orderPage scope skip take c.order), t)
    | .orderCount scope, c, t =>
      (if c.fault ≠ .none then .error .database else .ok (t.inScope scope).length, t)
  log e _ := e.elim
  env := OwnerTables.orderStep

/-! ## The order of the list -/

namespace OrderLists

theorem fields_injective {s t : Timestamp} (h : s.fields = t.fields) : s = t := by
  cases s
  cases t
  simpa [Timestamp.fields] using h

/-- Rows of different times have one order, however the table keeps them. -/
theorem orderByNewest_perm {α : Type} {createdAt : α → Timestamp} {rows rows' : List α}
    (hperm : rows.Perm rows') (hdistinct : (rows.map createdAt).Nodup) :
    orderByNewest createdAt rows = orderByNewest createdAt rows' := by
  refine List.Perm.eq_of_pairwise (fun a b ha hb hab hba => ?_)
    (List.pairwise_insertionSort (Newer createdAt) rows)
    (List.pairwise_insertionSort (Newer createdAt) rows')
    ((List.perm_insertionSort _ rows).trans
      (hperm.trans (List.perm_insertionSort _ rows').symm))
  have htime : createdAt a = createdAt b :=
    fields_injective (le_antisymm (newer_iff.1 hba) (newer_iff.1 hab))
  exact List.inj_on_of_nodup_map hdistinct ((List.mem_insertionSort _).1 ha)
    (hperm.mem_iff.2 ((List.mem_insertionSort _).1 hb)) htime

/-- A row that is newer than all comes first. -/
theorem orderByNewest_concat {α : Type} {createdAt : α → Timestamp} {rows : List α} {a : α}
    (hdistinct : (rows.map createdAt).Nodup) (hnew : ∀ b ∈ rows, createdAt b < createdAt a) :
    orderByNewest createdAt (rows ++ [a]) = a :: orderByNewest createdAt rows := by
  have hnot : createdAt a ∉ rows.map createdAt := by
    intro hmem
    obtain ⟨b, hb, he⟩ := List.mem_map.1 hmem
    have hlt : (createdAt b).fields < (createdAt a).fields := hnew b hb
    rw [he] at hlt
    exact lt_irrefl _ hlt
  have hperm : (rows ++ [a]).Perm (a :: rows) := List.perm_append_singleton a rows
  rw [orderByNewest_perm hperm (nodup_map_concat hdistinct hnot)]
  refine List.insertionSort_cons_of_forall_rel _ fun b hb hlt => ?_
  exact absurd (List.lt_trans hlt (hnew b hb)) (lt_irrefl _)

variable {A : String} {t t' : OwnerTables}

/-- The orders of a creator, with their times. -/
def keysOf (A : String) (t : OwnerTables) : List (String × Timestamp) :=
  (t.orders.filter (t.sells A)).map fun o => (o.id, o.createdAt)

/-- The ids of all orders of a creator, the newest first. -/
def listing (A : String) (t : OwnerTables) : List String :=
  (orderByNewest (·.2) (keysOf A t)).map (·.1)

/-- No two orders of the creator were made at one time. -/
def Distinct (A : String) (t : OwnerTables) : Prop :=
  ((keysOf A t).map (·.2)).Nodup

instance (A : String) (t : OwnerTables) : Decidable (Distinct A t) :=
  inferInstanceAs (Decidable (List.Nodup _))

theorem mem_listing {o : OrderRow} (ho : o ∈ t.orders) (hs : t.sells A o = true) :
    o.id ∈ listing A t := by
  have hkey : (o.id, o.createdAt) ∈ keysOf A t :=
    List.mem_map_of_mem (List.mem_filter.2 ⟨ho, hs⟩)
  exact List.mem_map_of_mem ((List.mem_insertionSort _).2 hkey)

/-- A page of the query is a page of the list. -/
theorem map_id_orderPage (h : Distinct A t) (skip take n : ℕ) :
    (t.orderPage (some A) skip take n).map (·.1.id) = page skip take (listing A t) := by
  have hscope : t.inScope (some A) = t.orders.filter (t.sells A) := rfl
  have hproducts : ∀ rows : List OrderRow, (∀ o ∈ rows, t.sells A o = true) →
      (rows.filterMap fun o => (t.products.find? (·.id = o.productId)).map fun p => (o, p)).map
        (·.1.id) = rows.map (·.id) := by
    intro rows hrows
    induction rows with
    | nil => rfl
    | cons o rows ih =>
      obtain ⟨p, hp, -⟩ := Noninterference.sells_iff.1 (hrows o List.mem_cons_self)
      rw [List.filterMap_cons_some (b := (o, p)) (by rw [hp]; rfl), List.map_cons, List.map_cons,
        ih fun o' ho' => hrows o' (List.mem_cons_of_mem _ ho')]
  have hdistinct : ((t.orders.filter (t.sells A)).map (·.createdAt)).Nodup := by
    have hd := h
    rw [Distinct, keysOf, List.map_map] at hd
    exact hd
  have hsort : orderByNewest (·.createdAt) (reorder n (t.orders.filter (t.sells A))) =
      orderByNewest (·.createdAt) (t.orders.filter (t.sells A)) :=
    (orderByNewest_perm (reorder_perm n _).symm hdistinct).symm
  have hlisting : listing A t =
      (orderByNewest (·.createdAt) (t.orders.filter (t.sells A))).map (·.id) := by
    rw [listing, keysOf, orderByNewest, ← List.map_insertionSort (r := Newer (·.createdAt))
      (s := Newer (·.2)) (fun o : OrderRow => (o.id, o.createdAt)) _ fun _ _ _ _ => Iff.rfl,
      List.map_map]
    rfl
  rw [OwnerTables.orderPage, hscope, hsort, hlisting, page_map]
  refine hproducts _ fun o ho => ?_
  have hmem := (List.mem_insertionSort _).1 (List.mem_of_mem_drop (List.mem_of_mem_take ho))
  exact (List.mem_filter.1 hmem).2

/-! ## What a step leaves -/

/-- The list as it was is a suffix of the list, in which its orders have their data. -/
structure Grown (A : String) (t t' : OwnerTables) : Prop where
  listing : listing A t <:+ listing A t'
  orders : ∀ o ∈ t.orders, t.sells A o = true → ∃ o' ∈ t'.orders, t'.sells A o' = true ∧
    o'.id = o.id ∧ o'.buyerEmail = o.buyerEmail ∧ o'.amountUsd = o.amountUsd

theorem Grown.refl (A : String) (t : OwnerTables) : Grown A t t :=
  ⟨List.suffix_refl _, fun o ho hs => ⟨o, ho, hs, rfl, rfl, rfl⟩⟩

theorem Grown.trans {t'' : OwnerTables} (h : Grown A t t') (h' : Grown A t' t'') :
    Grown A t t'' where
  listing := h.listing.trans h'.listing
  orders o ho hs := by
    obtain ⟨o₁, ho₁, hs₁, hid, hemail, hamount⟩ := h.orders o ho hs
    obtain ⟨o₂, ho₂, hs₂, hid', hemail', hamount'⟩ := h'.orders o₁ ho₁ hs₁
    exact ⟨o₂, ho₂, hs₂, hid'.trans hid, hemail'.trans hemail, hamount'.trans hamount⟩

/-- A step changes no key, or one order is new, and newer than all. -/
inductive KeyStep (A : String) (t t' : OwnerTables) : Prop
  | same (h : keysOf A t' = keysOf A t)
  | new (k : String × Timestamp) (hnew : ∀ b ∈ keysOf A t, b.2 < k.2)
    (h : keysOf A t' = keysOf A t ++ [k])

theorem KeyStep.grows (h : KeyStep A t t') (hd : Distinct A t) :
    Distinct A t' ∧ listing A t <:+ listing A t' := by
  cases h with
  | same h =>
    rw [Distinct, listing, listing, h]
    exact ⟨hd, List.suffix_refl _⟩
  | new k hnew h =>
    have hnot : k.2 ∉ (keysOf A t).map (·.2) := by
      intro hmem
      obtain ⟨b, hb, he⟩ := List.mem_map.1 hmem
      have hlt : b.2.fields < k.2.fields := hnew b hb
      rw [he] at hlt
      exact lt_irrefl _ hlt
    rw [Distinct, listing, listing, h, orderByNewest_concat hd hnew, List.map_cons]
    exact ⟨nodup_map_concat hd hnot, List.suffix_cons _ _⟩

/-- The orders of a creator are the same, but for what an update sets. -/
theorem keysOf_map {f : OrderRow → OrderRow} (horders : t'.orders = t.orders.map f)
    (hkey : ∀ o, (f o).id = o.id ∧ (f o).createdAt = o.createdAt)
    (hsells : ∀ o ∈ t.orders, t'.sells A (f o) = t.sells A o) : keysOf A t' = keysOf A t := by
  rw [keysOf, keysOf, horders, List.filter_map, List.map_map]
  have hfilter : t.orders.filter (t'.sells A ∘ f) = t.orders.filter (t.sells A) :=
    List.filter_congr fun o ho => hsells o ho
  rw [hfilter]
  refine List.map_congr_left fun o _ => ?_
  exact Prod.ext (hkey o).1 (hkey o).2

theorem createOrder_step (order : OrderRow) (t : OwnerTables) :
    KeyStep A t (t.createOrder order) ∧ ∀ o ∈ t.orders, t.sells A o = true →
      o ∈ (t.createOrder order).orders ∧ (t.createOrder order).sells A o = true := by
  unfold OwnerTables.createOrder
  split
  · next hnew =>
    refine ⟨?_, fun o ho hs => ⟨List.mem_append_left _ ho, hs⟩⟩
    have hkeys : keysOf A { t with
        orders := t.orders ++ [order]
        orderIds := nodup_map_concat t.orderIds hnew.1 } =
          keysOf A t ++ ([order].filter (t.sells A)).map fun o => (o.id, o.createdAt) := by
      rw [keysOf, List.filter_append, List.map_append]
      rfl
    by_cases hs : t.sells A order = true
    · refine .new (order.id, order.createdAt) (fun b hb => ?_) ?_
      · obtain ⟨o, ho, rfl⟩ := List.mem_map.1 hb
        exact hnew.2.2 o (List.mem_filter.1 ho).1
      · rw [hkeys, List.filter_singleton, hs]
        rfl
    · refine .same ?_
      rw [hkeys, List.filter_singleton, Bool.eq_false_iff.2 hs]
      exact List.append_nil _
  · exact ⟨.same rfl, fun o ho hs => ⟨ho, hs⟩⟩

/-- The products keep their creators, and no order is of a new one. -/
theorem sells_product (product : ProductRow) {o : OrderRow} (ho : o ∈ t.orders) :
    (t.orderStep (.product product)).sells A o = t.sells A o := by
  unfold OwnerTables.orderStep
  dsimp only
  split
  · simp only [OwnerTables.sells, OwnerTables.updateProduct, List.any_map]
    congr 1
    funext p
    simp only [Function.comp]
    split <;> rfl
  · unfold OwnerTables.createProduct
    split
    · next hnew =>
      have hne : product.id ≠ o.productId := (hnew.2 o ho).symm
      simp [OwnerTables.sells, hne]
    · rfl

theorem orders_product (product : ProductRow) (t : OwnerTables) :
    (t.orderStep (.product product)).orders = t.orders := by
  unfold OwnerTables.orderStep
  dsimp only
  split
  · rfl
  · unfold OwnerTables.createProduct
    split <;> rfl

theorem grown_step (hd : Distinct A t) (e : OrderStep) :
    Distinct A (t.orderStep e) ∧ Grown A t (t.orderStep e) := by
  have hgrown : KeyStep A t (t.orderStep e) → (∀ o ∈ t.orders, t.sells A o = true →
      ∃ o' ∈ (t.orderStep e).orders, (t.orderStep e).sells A o' = true ∧ o'.id = o.id ∧
        o'.buyerEmail = o.buyerEmail ∧ o'.amountUsd = o.amountUsd) →
          Distinct A (t.orderStep e) ∧ Grown A t (t.orderStep e) := fun hk horders =>
    ⟨(hk.grows hd).1, (hk.grows hd).2, horders⟩
  cases e with
  | create order =>
    obtain ⟨hk, horders⟩ := createOrder_step (A := A) order t
    exact hgrown hk fun o ho hs => ⟨o, (horders o ho hs).1, (horders o ho hs).2, rfl, rfl, rfl⟩
  | update id status txHash paymentRef =>
    have hsame : ∀ o : OrderRow, ∀ o', o' = (if o.id = id then
        { o with status, txHash, paymentRef } else o) → o'.id = o.id ∧
          o'.createdAt = o.createdAt ∧ o'.productId = o.productId ∧
            o'.buyerEmail = o.buyerEmail ∧ o'.amountUsd = o.amountUsd := by
      rintro o o' rfl
      split <;> exact ⟨rfl, rfl, rfl, rfl, rfl⟩
    have hsells : ∀ o o' : OrderRow, o'.productId = o.productId →
        (t.updateOrder id status txHash paymentRef).sells A o' = t.sells A o := by
      intro o o' hp
      rw [OwnerTables.sells, OwnerTables.sells, hp]
      rfl
    refine hgrown (.same (keysOf_map rfl (fun o => ?_) fun o _ => ?_)) fun o ho hs => ?_
    · exact ⟨(hsame o _ rfl).1, (hsame o _ rfl).2.1⟩
    · exact hsells o _ (hsame o _ rfl).2.2.1
    · refine ⟨_, List.mem_map_of_mem ho, ?_, (hsame o _ rfl).1, (hsame o _ rfl).2.2.2⟩
      exact (hsells o _ (hsame o _ rfl).2.2.1).trans hs
  | product product =>
    refine hgrown (.same (keysOf_map (f := id) ?_ (fun o => ⟨rfl, rfl⟩) fun o ho =>
      sells_product product ho)) fun o ho hs => ⟨o, ?_, (sells_product product ho).trans hs,
        rfl, rfl, rfl⟩
    · rw [orders_product, List.map_id]
    · rwa [orders_product]

theorem grown_steps : ∀ {t : OwnerTables} (es : List OrderStep), Distinct A t →
    Distinct A (es.foldl (fun t e => orderListMachine.env e t) t) ∧
      Grown A t (es.foldl (fun t e => orderListMachine.env e t) t)
  | t, [], hd => ⟨hd, Grown.refl A t⟩
  | t, e :: es, hd => by
    obtain ⟨hd₁, hg₁⟩ := grown_step hd e
    obtain ⟨hd₂, hg₂⟩ := grown_steps es hd₁
    exact ⟨hd₂, hg₁.trans hg₂⟩

/-! ## Pages -/

variable {limit : ℕ} {ch ch' : ℕ → List OrderStep × WithdrawalChoice}

/-- A page is one of the list at some moment, with the data of its orders. -/
structure PageOf (A : String) (limit : ℕ) (t : OwnerTables) (number : ℕ) (p : OrdersPage) :
    Prop where
  ids : p.data.map (·.id) = page ((number - 1) * limit) limit (listing A t)
  items : ∀ item ∈ p.data, ∃ o ∈ t.orders, t.sells A o = true ∧ item.id = o.id ∧
    item.buyerEmail = o.buyerEmail ∧ item.amountUsd = o.amountUsd.toFixed

theorem pageOf_orderPage (hd : Distinct A t) (number total n : ℕ) :
    PageOf A limit t number ⟨(t.orderPage (some A) ((number - 1) * limit) limit n).map
      OrdersService.orderItem, number, limit, total⟩ where
  ids := by
    rw [List.map_map]
    exact map_id_orderPage hd _ _ _
  items item hitem := by
    obtain ⟨row, hrow, rfl⟩ := List.mem_map.1 hitem
    obtain ⟨o, ho, hp⟩ := List.mem_filterMap.1 hrow
    obtain ⟨p, -, rfl⟩ := Option.map_eq_some_iff.1 hp
    have hmem := (List.mem_insertionSort _).1 (List.mem_of_mem_drop (List.mem_of_mem_take ho))
    obtain ⟨ho, hs⟩ := List.mem_filter.1 ((reorder_perm n _).mem_iff.1 hmem)
    exact ⟨o, ho, hs, rfl, rfl, rfl⟩

theorem exec_findMany_ok {scope : Option String} {skip take : ℕ}
    {c : List OrderStep × WithdrawalChoice} {rows : List (OrderRow × ProductRow)}
    (h : orderListMachine.withSteps.exec (.orderFindMany scope skip take) c t = (.ok rows, t')) :
    t' = c.1.foldl (fun t e => orderListMachine.env e t) t ∧
      t'.orderPage scope skip take c.2.order = rows := by
  obtain ⟨hx, rfl⟩ := Prod.mk.inj h
  refine ⟨rfl, ?_⟩
  split at hx
  · cases hx
  · exact Except.ok.inj hx

/-- An answered call : its page, between the steps before the query and those after it. -/
theorem eval_findAll (hA : A ≠ "") (hd : Distinct A t) {number : ℕ} {p : OrdersPage}
    (h : (OrdersService.findAll (some A) number limit).eval orderListMachine.withSteps ch t =
      (.ok p, ch', t')) :
    ∃ t₁, Grown A t t₁ ∧ PageOf A limit t₁ number p ∧ Grown A t₁ t' ∧ Distinct A t' := by
  have hscope : (some A).filter (· ≠ "") = some A := by
    simp [hA]
  obtain ⟨rows, t₁, hrows, h⟩ := eval_ask_eq_ok h
  obtain ⟨total, t₂, htotal, h⟩ := eval_ask_eq_ok h
  obtain ⟨ht₁, rfl⟩ := exec_findMany_ok hrows
  obtain ⟨hd₁, hg₁⟩ := grown_steps (ch 0).1 hd
  rw [← ht₁] at hd₁ hg₁
  obtain ⟨hd₂, hg₂⟩ := grown_steps (ch 1).1 hd₁
  have ht₂ : (ch 1).1.foldl (fun t e => orderListMachine.env e t) t₁ = t₂ :=
    (Prod.mk.inj htotal).2
  rw [ht₂] at hd₂ hg₂
  cases h
  rw [hscope]
  exact ⟨t₁, hg₁, pageOf_orderPage hd₁ _ _ _, hg₂, hd₂⟩

/-- Pages read one after another. What is behind the pages read before is on one of them, if one
is not full. -/
theorem eval_readPages (hA : A ≠ "") : ∀ (n : ℕ) {number : ℕ} {t : OwnerTables}
    {ch : ℕ → List OrderStep × WithdrawalChoice} {pages : List OrdersPage}, Distinct A t →
    (readPages A limit number n).eval orderListMachine.withSteps ch t = (.ok pages, ch', t') →
      Grown A t t' ∧
      (∀ p ∈ pages, ∃ t₁ k, Grown A t t₁ ∧ PageOf A limit t₁ k p ∧ Grown A t₁ t') ∧
      ((∃ p ∈ pages, p.data.length < limit) → 1 ≤ number →
        ∀ id ∈ (listing A t).drop ((number - 1) * limit), ∃ p ∈ pages, id ∈ p.data.map (·.id))
  | 0, number, t, ch, pages, hd, h => by
    cases h
    exact ⟨Grown.refl A _, by simp, by simp⟩
  | n + 1, number, t, ch, pages, hd, h => by
    obtain ⟨p, ch₁, t₂, hp, h⟩ := eval_bind_eq_ok h
    obtain ⟨rest, ch₂, t₃, hrest, h⟩ := eval_bind_eq_ok h
    cases h
    obtain ⟨t₁, hg₁, hpage, hg₂, hd₂⟩ := eval_findAll hA hd hp
    obtain ⟨hg₃, hall, hshort⟩ := eval_readPages hA n hd₂ hrest
    refine ⟨(hg₁.trans hg₂).trans hg₃, fun p' hp' => ?_, fun hex hnumber id hid => ?_⟩
    · rcases List.mem_cons.1 hp' with rfl | hp'
      · exact ⟨t₁, number, hg₁, hpage, hg₂.trans hg₃⟩
      · obtain ⟨t₄, k, hg₄, hk, hg₅⟩ := hall p' hp'
        exact ⟨t₄, k, (hg₁.trans hg₂).trans hg₄, hk, hg₅⟩
    · have hid₁ := drop_subset_of_suffix hg₁.listing _ hid
      -- on this page, or behind it
      have hsplit : id ∈ page ((number - 1) * limit) limit (listing A t₁) ∨
          id ∈ (listing A t₁).drop ((number - 1) * limit + limit) := mem_page_or_mem_drop hid₁
      rcases hsplit with hmem | hbehind
      · exact ⟨p, List.mem_cons_self, hpage.ids ▸ hmem⟩
      obtain ⟨p', hp', hlt⟩ := hex
      rcases List.mem_cons.1 hp' with rfl | hp'
      · refine ⟨p', List.mem_cons_self, hpage.ids ▸ mem_page_of_length_lt hid₁ ?_⟩
        rw [← hpage.ids, List.length_map]
        exact hlt
      · have hskip : (number - 1) * limit + limit = (number + 1 - 1) * limit := by
          obtain ⟨m, rfl⟩ := Nat.exists_eq_add_of_le' hnumber
          simp only [Nat.add_sub_cancel, Nat.succ_mul]
        rw [hskip] at hbehind
        obtain ⟨q, hq, hmem⟩ := hshort ⟨p', hp', hlt⟩ (Nat.le_add_left 1 number) id
          (drop_subset_of_suffix hg₂.listing _ hbehind)
        exact ⟨q, List.mem_cons_of_mem _ hq, hmem⟩

end OrderLists

open OrderLists in
/-- Pages of the orders of a creator, read one after another while orders come in and change.
They show orders of the creator only. If one of them is not full, each order that there was
before is on one of them, with its buyer and its amount. -/
theorem orders_walked (A : String) (hA : A ≠ "") (limit n : ℕ) (t : OwnerTables)
    (hd : Distinct A t) (ch : ℕ → List OrderStep × WithdrawalChoice) :
    ∀ pages ch' t', (readPages A limit 1 n).eval orderListMachine.withSteps ch t =
        (.ok pages, ch', t') →
      (∀ p ∈ pages, ∀ item ∈ p.data, ∃ o ∈ t'.orders, t'.sells A o = true ∧ o.id = item.id ∧
        item.buyerEmail = o.buyerEmail ∧ item.amountUsd = o.amountUsd.toFixed) ∧
      ((∃ p ∈ pages, p.data.length < limit) → ∀ o ∈ t.orders, t.sells A o = true →
        ∃ p ∈ pages, ∃ item ∈ p.data, item.id = o.id ∧ item.buyerEmail = o.buyerEmail ∧
          item.amountUsd = o.amountUsd.toFixed) := by
  intro pages ch' t' h
  obtain ⟨-, hall, hshort⟩ := eval_readPages hA n hd h
  refine ⟨fun p hp item hitem => ?_, fun hex o ho hs => ?_⟩
  · obtain ⟨t₁, k, -, hpage, hg⟩ := hall p hp
    obtain ⟨o, ho, hs, hid, hemail, hamount⟩ := hpage.items item hitem
    obtain ⟨o', ho', hs', hid', hemail', hamount'⟩ := hg.orders o ho hs
    exact ⟨o', ho', hs', hid'.trans hid.symm, hemail.trans hemail'.symm,
      hamount.trans (congrArg Usd.toFixed hamount').symm⟩
  · have hlisted : o.id ∈ (listing A t).drop ((1 - 1) * limit) := by
      rw [Nat.sub_self, Nat.zero_mul, List.drop_zero]
      exact mem_listing ho hs
    obtain ⟨p, hp, hid⟩ := hshort hex le_rfl o.id hlisted
    obtain ⟨item, hitem, hid⟩ := List.mem_map.1 hid
    obtain ⟨t₁, k, hg, hpage, -⟩ := hall p hp
    refine ⟨p, hp, item, hitem, hid, ?_⟩
    -- the row of the page is the order's
    obtain ⟨o₁, ho₁, -, hid₁, hemail₁, hamount₁⟩ := hpage.items item hitem
    obtain ⟨o₂, ho₂, -, hid₂, hemail₂, hamount₂⟩ := hg.orders o ho hs
    obtain rfl : o₁ = o₂ := List.inj_on_of_nodup_map t₁.orderIds ho₁ ho₂
      (hid₁.symm.trans (hid.trans hid₂.symm))
    exact ⟨hemail₁.trans hemail₂, hamount₁.trans (congrArg Usd.toFixed hamount₂)⟩

/-- An order that comes in after the first page. -/
def demoArrivals (n : ℕ) : List OrderStep × WithdrawalChoice :=
  (if n = 2 then [.create ⟨"later", "alice", "buyer", demoProduct.priceUsd, .paymentPending,
    none, none, 2026, 7, 2, 9, 15, 0, 0, by decide, by decide⟩] else [], {})

/-- Three pages of one order each. The first order is on two of them, and the third is empty. -/
theorem orders_walked_arrival : ∃ pages rest t',
    (readPages "alice" 1 1 3).eval orderListMachine.withSteps demoArrivals
      (demoOwners ["alice", "bob"] demoCreators_nodup) = (.ok pages, rest, t') ∧
    ∃ p ∈ pages, ∃ item ∈ p.data, item.id = "alice" ∧ item.buyerEmail = "buyer" := by
  refine ⟨_, _, _, rfl, ?_⟩
  obtain ⟨p, hp, item, hitem, hid, hemail, -⟩ := (orders_walked "alice" (by decide) 1 3
    (demoOwners ["alice", "bob"] demoCreators_nodup) (by decide) demoArrivals _ _ _ rfl).2
      (by decide) _ List.mem_cons_self (by decide)
  exact ⟨p, hp, item, hitem, hid, hemail⟩

end Kreav
