import Kreav.Lib.Grouping
import Kreav.RevenueSeries
import Kreav.Withdrawals

/-!
# The totals of the dashboard

The other queries of `backend/src/analytics/analytics.service.ts` : the settled orders of a
creator (`getSettledStats`), those that wait for their settlement (`getPendingPayout`), the
active products, and the five products with the largest revenue (`getTopProducts`).
`getAnalytics` starts all queries at once, so each may read another state of the database.

`top_products_ranked` : the five products are the first of all by revenue, in every
arrangement of the rows. Their sales are those of the dashboard exactly when no more than five
products were sold.
-/

open Grouping

namespace Kreav

namespace Analytics

/-- An order with its product. -/
structure SoldOrder where
  id : String
  product : Product
  order : Order
  deriving DecidableEq, Repr

/-- `orders` joined with `products`. -/
def joined (db : Database) : List SoldOrder :=
  db.orders.entries.filterMap fun e =>
    (db.products.lookup e.2.productId).map fun product => ⟨e.1, product, e.2⟩

/-- The orders for the products of a creator in one of the statuses. -/
def ordersOf (db : Database) (creatorId : String) (statuses : List OrderStatus) :
    List SoldOrder :=
  (joined db).filter fun o => o.order.status ∈ statuses ∧ o.product.creatorId = creatorId

/-- The sum of the amounts, in cents. -/
def cents (orders : List SoldOrder) : ℤ :=
  (orders.map (·.order.amountUsd.cents)).sum

/-- `_sum.amountUsd` : null when there is no order. -/
def sumAmountUsd (orders : List SoldOrder) : Option ℤ :=
  if orders = [] then none else some (cents orders)

/-- The revenue and the sales of the settled orders. -/
structure SettledStats where
  revenueUsd : String
  sales : ℕ
  deriving DecidableEq, Repr

/-- The revenue and the sales of a creator. -/
def getSettledStats (creatorId : String) (db : Database) : SettledStats where
  revenueUsd := ((sumAmountUsd (ordersOf db creatorId [.settled])).map toFixed2).getD "0.00"
  sales := (ordersOf db creatorId [.settled]).length

/-- What is paid and not settled yet. -/
def getPendingPayout (creatorId : String) (db : Database) : String :=
  ((sumAmountUsd (ordersOf db creatorId [.paymentReceived, .settlementPending])).map
    toFixed2).getD "0.00"

/-- The products on sale. -/
def getActiveProductCount (creatorId : String) (db : Database) : ℕ :=
  (db.products.entries.filter fun e =>
    e.2.creatorId = creatorId ∧ e.2.status = .active).length

/-- A row of the query, its revenue in cents. -/
structure ProductSales where
  productId : String
  title : String
  sales : ℕ
  revenue : ℤ
  deriving DecidableEq, Repr

/-- `GROUP BY p.id, p.title`. -/
def productSales (orders : List SoldOrder) : List ProductSales :=
  (groups (fun o : SoldOrder => (o.order.productId, o.product.title)) orders).map fun g =>
    ⟨g.1.1, g.1.2, g.2.length, cents g.2⟩

/-- `ORDER BY revenue DESC`. -/
def byRevenue (a b : ProductSales) : Bool :=
  b.revenue ≤ a.revenue

/-- The rows of the query. The database groups and arranges them in any order `n` before it
sorts them. -/
def topRows (n : ℕ) (creatorId : String) (db : Database) : List ProductSales :=
  largest 5 byRevenue (reorder n (productSales (ordersOf db creatorId [.settled])))

/-- An item of the list of top products. -/
structure TopProduct where
  productId : String
  productTitle : String
  sales : ℕ
  revenue : String
  deriving DecidableEq, Repr

/-- The top products, with the grouped rows in an arrangement. -/
def getTopProducts (n : ℕ) (creatorId : String) (db : Database) : List TopProduct :=
  (topRows n creatorId db).map fun r => ⟨r.productId, r.title, r.sales, toFixed2 r.revenue⟩

/-- The figures at the top of the dashboard. -/
structure Totals where
  revenueUsd : String
  sales : ℕ
  activeProducts : ℕ
  pendingPayout : String
  deriving DecidableEq, Repr

/-- The changes of the figures, which are not computed yet. -/
structure Deltas where
  revenue : ℤ
  sales : ℤ
  products : ℤ
  payout : ℤ
  deriving DecidableEq, Repr

/-- What the dashboard gets. -/
structure AnalyticsResponse where
  totals : Totals
  deltas : Deltas
  revenueSeries : List RevenueDay
  topProducts : List TopProduct
  deriving DecidableEq, Repr

/-- The states that the queries of one call read, and the answer of the series. -/
structure Snapshots where
  settledStats : Database
  pendingPayout : Database
  activeProducts : Database
  topProducts : Database
  arrangement : ℕ
  revenueSeries : List RevenueDay

/-- The dashboard of a creator. Each query reads the database at a time of its own. -/
def getAnalytics (creatorId : String) (s : Snapshots) : AnalyticsResponse where
  totals :=
    { revenueUsd := (getSettledStats creatorId s.settledStats).revenueUsd
      sales := (getSettledStats creatorId s.settledStats).sales
      activeProducts := getActiveProductCount creatorId s.activeProducts
      pendingPayout := getPendingPayout creatorId s.pendingPayout }
  deltas := ⟨0, 0, 0, 0⟩
  revenueSeries := s.revenueSeries
  topProducts := getTopProducts s.arrangement creatorId s.topProducts

variable {db : Database} {creatorId : String} {statuses : List OrderStatus} {o : SoldOrder}

/-! ## The orders -/

/-- Without orders the sum is zero. -/
theorem text_sum (orders : List SoldOrder) :
    ((sumAmountUsd orders).map toFixed2).getD "0.00" = toFixed2 (cents orders) := by
  unfold sumAmountUsd
  split
  · next h =>
    subst h
    rfl
  · rfl

theorem mem_joined : o ∈ joined db ↔ db.orders.lookup o.id = some o.order ∧
    db.products.lookup o.order.productId = some o.product := by
  rw [joined, List.mem_filterMap]
  constructor
  · rintro ⟨e, he, h⟩
    obtain ⟨product, hp, rfl⟩ := Option.map_eq_some_iff.1 h
    exact ⟨AList.mem_lookup_iff.2 he, hp⟩
  · rintro ⟨ho, hp⟩
    exact ⟨⟨o.id, o.order⟩, AList.mem_lookup_iff.1 ho, by rw [hp]; rfl⟩

theorem mem_ordersOf : o ∈ ordersOf db creatorId statuses ↔
    (db.orders.lookup o.id = some o.order ∧
      db.products.lookup o.order.productId = some o.product) ∧
        o.order.status ∈ statuses ∧ o.product.creatorId = creatorId := by
  rw [ordersOf, List.mem_filter, mem_joined, decide_eq_true_iff]

/-- The database has an order once. -/
theorem nodup_ordersOf (db : Database) (creatorId : String) (statuses : List OrderStatus) :
    ((ordersOf db creatorId statuses).map (·.id)).Nodup := by
  have hkeys : (db.orders.entries.map Sigma.fst).Nodup := db.orders.nodupKeys
  have hsub : ((joined db).map (·.id)).Sublist (db.orders.entries.map Sigma.fst) := by
    unfold joined
    generalize db.orders.entries = entries
    induction entries with
    | nil => exact List.Sublist.slnil
    | cons e rest ih =>
      rw [List.map_cons]
      cases hp : db.products.lookup e.2.productId with
      | none =>
        rw [List.filterMap_cons_none (by rw [hp]; rfl)]
        exact ih.cons _
      | some product =>
        rw [List.filterMap_cons_some (by rw [hp]; rfl), List.map_cons]
        exact ih.cons_cons _
  exact (hkeys.sublist hsub).sublist (List.filter_sublist.map _)

/-- Orders of one product have it in common. -/
theorem product_eq {o o' : SoldOrder} (h : o ∈ ordersOf db creatorId statuses)
    (h' : o' ∈ ordersOf db creatorId statuses) (hp : o.order.productId = o'.order.productId) :
    o.product = o'.product := by
  have ho := (mem_ordersOf.1 h).1.2
  rw [hp, (mem_ordersOf.1 h').1.2] at ho
  exact (Option.some.inj ho).symm

/-! ## The best products -/

/-- The orders of one product. -/
def ofProduct (productId : String) (orders : List SoldOrder) : List SoldOrder :=
  orders.filter fun o => o.order.productId = productId

/-- The rows are the first five of the products that were sold, by revenue. -/
structure Ranked (orders : List SoldOrder) (top : List ProductSales) : Prop where
  once : (top.map (·.productId)).Nodup
  length : top.length = min 5 (orders.map (·.order.productId)).dedup.length
  sales : ∀ p ∈ top, p.sales = (ofProduct p.productId orders).length ∧ 0 < p.sales
  revenue : ∀ p ∈ top, p.revenue = cents (ofProduct p.productId orders)
  sorted : top.Pairwise fun a b => b.revenue ≤ a.revenue
  first : ∀ o ∈ orders, o.order.productId ∉ top.map (·.productId) →
    ∀ p ∈ top, cents (ofProduct o.order.productId orders) ≤ p.revenue

variable {p : ProductSales}

/-- The rows of the products that were sold. -/
theorem mem_productSales (hp : p ∈ productSales (ordersOf db creatorId statuses)) :
    p.sales = (ofProduct p.productId (ordersOf db creatorId statuses)).length ∧ 0 < p.sales ∧
      p.revenue = cents (ofProduct p.productId (ordersOf db creatorId statuses)) := by
  obtain ⟨g, hg, rfl⟩ := List.mem_map.1 hp
  obtain ⟨hrows, a, ha, hkey⟩ := mem_groups.1 hg
  have hsame : g.2 = ofProduct g.1.1 (ordersOf db creatorId statuses) := by
    rw [hrows, ofProduct]
    refine List.filter_congr fun o ho => decide_eq_decide.2 ?_
    rw [← hkey, Prod.ext_iff]
    exact ⟨And.left, fun he => ⟨he, by rw [product_eq ho ha he]⟩⟩
  exact ⟨congrArg List.length hsame, List.length_pos_iff.2 (ne_nil_of_mem_groups hg),
    congrArg cents hsame⟩

/-- There is one row for each of the products. -/
theorem productSales_ids (db : Database) (creatorId : String) (statuses : List OrderStatus) :
    ((productSales (ordersOf db creatorId statuses)).map (·.productId)).Perm
      ((ordersOf db creatorId statuses).map (·.order.productId)).dedup := by
  have hids : (productSales (ordersOf db creatorId statuses)).map (·.productId) =
      ((groups (fun o : SoldOrder => (o.order.productId, o.product.title))
        (ordersOf db creatorId statuses)).map (·.1)).map (·.1) := by
    rw [productSales, List.map_map, List.map_map]
    rfl
  rw [hids, groups_keys]
  refine (List.perm_ext_iff_of_nodup ?_ (List.nodup_dedup _)).2 fun id => ?_
  · -- the title of a product is the one that it has
    refine List.Nodup.map_on ?_ (List.nodup_dedup _)
    intro k hk k' hk' he
    obtain ⟨a, ha, rfl⟩ := List.mem_map.1 (List.mem_dedup.1 hk)
    obtain ⟨b, hb, rfl⟩ := List.mem_map.1 (List.mem_dedup.1 hk')
    rw [Prod.ext_iff]
    exact ⟨he, by rw [product_eq ha hb he]⟩
  · simp only [List.mem_map, List.mem_dedup]
    constructor
    · rintro ⟨k, ⟨o, ho, rfl⟩, rfl⟩
      exact ⟨o, ho, rfl⟩
    · rintro ⟨o, ho, rfl⟩
      exact ⟨_, ⟨o, ho, rfl⟩, rfl⟩

theorem sum_sales (orders : List SoldOrder) :
    ((productSales orders).map (·.sales)).sum = orders.length := by
  have h := sum_groups (fun o : SoldOrder => (o.order.productId, o.product.title))
    (fun _ => (1 : ℕ)) orders
  simp only [List.map_const', List.sum_replicate, nsmul_eq_mul, Nat.cast_id, mul_one] at h
  rw [← h, productSales, List.map_map]
  rfl

theorem ranked_topRows (n : ℕ) (creatorId : String) (db : Database) :
    Ranked (ordersOf db creatorId [.settled]) (topRows n creatorId db) := by
  have hperm := reorder_perm n (productSales (ordersOf db creatorId [.settled]))
  have hall := (largest_append_others 5 byRevenue _).trans hperm
  have hids := (hall.map (·.productId)).trans (productSales_ids db creatorId [.settled])
  have hnodup := hids.nodup_iff.2 (List.nodup_dedup _)
  rw [List.map_append, List.nodup_append] at hnodup
  have hmem : ∀ p ∈ topRows n creatorId db,
      p ∈ productSales (ordersOf db creatorId [.settled]) := fun p hp =>
    hall.mem_iff.1 (List.mem_append_left _ hp)
  have htrans : ∀ a b c, byRevenue a b = true → byRevenue b c = true → byRevenue a c = true :=
    fun a b c hab hbc => by
      simp only [byRevenue, decide_eq_true_iff] at *
      omega
  have htotal : ∀ a b, (byRevenue a b || byRevenue b a) = true := fun a b => by
    simp only [byRevenue, Bool.or_eq_true, decide_eq_true_iff]
    omega
  refine ⟨hnodup.1, ?_, fun p hp => ?_, fun p hp => (mem_productSales (hmem p hp)).2.2, ?_,
    fun o ho hout p hp => ?_⟩
  · rw [topRows, length_largest, hperm.length_eq, ← List.length_map (f := (·.productId)),
      (productSales_ids db creatorId [.settled]).length_eq]
  · have h := mem_productSales (hmem p hp)
    exact ⟨h.1, h.2.1⟩
  · refine ((List.pairwise_mergeSort htrans htotal _).sublist (List.take_sublist 5 _)).imp ?_
    exact fun h => of_decide_eq_true h
  · -- the product of the order has a row, which was left out
    obtain ⟨q, hq, hid⟩ := List.mem_map.1 (hids.mem_iff.2
      (List.mem_dedup.2 (List.mem_map_of_mem ho)))
    have hother := (List.mem_append.1 hq).resolve_left fun h =>
      hout (hid ▸ List.mem_map_of_mem h)
    rw [← hid, ← (mem_productSales (hall.mem_iff.1 hq)).2.2]
    exact of_decide_eq_true (le_of_mem_others htrans htotal hp hother)

/-- The sales of the rows and of those that are left out, which have one each at least. -/
theorem sum_topRows (n : ℕ) (creatorId : String) (db : Database) :
    ∃ rest : List ProductSales, (∀ p ∈ rest, 0 < p.sales) ∧
      (topRows n creatorId db).length + rest.length =
        ((ordersOf db creatorId [.settled]).map (·.order.productId)).dedup.length ∧
      ((topRows n creatorId db).map (·.sales)).sum + (rest.map (·.sales)).sum =
        (getSettledStats creatorId db).sales := by
  have hall := (largest_append_others 5 byRevenue _).trans
    (reorder_perm n (productSales (ordersOf db creatorId [.settled])))
  refine ⟨others 5 byRevenue (reorder n (productSales (ordersOf db creatorId [.settled]))),
    fun p hp => ?_, ?_, ?_⟩
  · exact (mem_productSales (hall.mem_iff.1 (List.mem_append_right _ hp))).2.1
  · rw [topRows, ← List.length_append, hall.length_eq, ← List.length_map (·.productId),
      (productSales_ids db creatorId [.settled]).length_eq]
  · rw [topRows, getSettledStats, ← sum_sales, ← List.sum_append, ← List.map_append]
    exact (hall.map _).sum_eq

end Analytics

open Analytics

/-- In every state of the database and every arrangement of its rows, the products of the
dashboard are the five with the largest revenue among all that were sold, each once, with their
settled orders. Their sales add up to no more than the sales of the dashboard, and to these
exactly when no more than five products were sold. -/
theorem top_products_ranked (n : ℕ) (creatorId : String) (db : Database) :
    Ranked (ordersOf db creatorId [.settled]) (topRows n creatorId db) ∧
      ((getTopProducts n creatorId db).map (·.sales)).sum ≤
        (getSettledStats creatorId db).sales ∧
      (((getTopProducts n creatorId db).map (·.sales)).sum =
          (getSettledStats creatorId db).sales ↔
        ((ordersOf db creatorId [.settled]).map (·.order.productId)).dedup.length ≤ 5) := by
  have hranked := ranked_topRows n creatorId db
  obtain ⟨rest, hpos, hlength, hsum⟩ := sum_topRows n creatorId db
  have hsales : (getTopProducts n creatorId db).map (·.sales) =
      (topRows n creatorId db).map (·.sales) := by
    rw [getTopProducts, List.map_map]
    rfl
  have htop := hranked.length
  rw [hsales]
  refine ⟨hranked, by omega, fun he => ?_, fun hle => ?_⟩
  · -- nothing is left out
    cases rest with
    | nil =>
      rw [List.length_nil] at hlength
      omega
    | cons p rest =>
      have hp := hpos p List.mem_cons_self
      rw [List.map_cons, List.sum_cons] at hsum
      omega
  · have hnil : rest = [] := List.eq_nil_of_length_eq_zero (by omega)
    rw [hnil, List.map_nil, List.sum_nil] at hsum
    omega

end Kreav
