import Kreav.Backend
import Mathlib.Algebra.BigOperators.Group.Finset.Basic

/-!
# The revenue series

`getRevenueSeries` of `backend/src/analytics/analytics.service.ts`. The window of the query
starts 30 days of the calendar ago, in local time. The day of an order is counted in
milliseconds from a second reading of the clock, and an order whose day is not among the 30
is left out of the sums.

`revenueSeries_complete_iff` : every fetched order is counted on one day, and the days add up
to the orders, exactly when no fetched order is 30 times 24 hours old.
-/

namespace Kreav

/-- The zone of the server : its clock at a time, and the time of a reading of its clock, both
in milliseconds. -/
structure TimeZone where
  localTime : ℤ → ℤ
  utc : ℤ → ℤ

/-- An order with the columns that the query looks at. -/
structure RevenueOrder where
  creatorId : String
  status : OrderStatus
  amountUsd : Usd
  createdAt : ℤ
  deriving DecidableEq, Repr

/-- A day with its revenue. -/
structure RevenueDay where
  day : ℤ
  amount : ℤ
  deriving DecidableEq, Repr

namespace Analytics

/-- A day in milliseconds. -/
def msPerDay : ℤ :=
  1000 * 60 * 60 * 24

/-- `setDate(getDate() - days)` : the calendar day that many days before, at the same local
time. -/
def daysBefore (zone : TimeZone) (days time : ℤ) : ℤ :=
  let t := zone.localTime time
  zone.utc ((t / msPerDay - days) * msPerDay + t % msPerDay)

/-- The start of the window. -/
def thirtyDaysAgo (zone : TimeZone) (time : ℤ) : ℤ :=
  daysBefore zone 30 time

/-- The query. -/
def findMany (creatorId : String) (since : ℤ) (rows : List RevenueOrder) : List RevenueOrder :=
  rows.filter fun o => o.status = .settled ∧ since ≤ o.createdAt ∧ o.creatorId = creatorId

/-- The amount of a day, in cents. -/
def dayTotal (dayTotals : AList fun _ : ℤ => ℤ) (day : ℤ) : ℤ :=
  (dayTotals.lookup day).getD 0

/-- The day of an order : 30 is today. -/
def dayIndex (now : ℤ) (order : RevenueOrder) : ℤ :=
  30 - (now - order.createdAt) / msPerDay

/-- The body of the loop. -/
def addOrder (now : ℤ) (dayTotals : AList fun _ : ℤ => ℤ) (order : RevenueOrder) :
    AList fun _ : ℤ => ℤ :=
  let dayIndex := dayIndex now order
  if 1 ≤ dayIndex ∧ dayIndex ≤ 30 then
    dayTotals.insert dayIndex (dayTotal dayTotals dayIndex + order.amountUsd.cents)
  else dayTotals

/-- The 30 days of the orders. -/
def series (now : ℤ) (orders : List RevenueOrder) : List RevenueDay :=
  let dayTotals := orders.foldl (addOrder now) ∅
  (List.range 30).map fun i : ℕ => ⟨i + 1, dayTotal dayTotals (i + 1)⟩

/-- The orders that the query fetches, when the clock is read at `start`. -/
def fetched (zone : TimeZone) (creatorId : String) (start : ℤ) (rows : List RevenueOrder) :
    List RevenueOrder :=
  findMany creatorId (thirtyDaysAgo zone start) rows

/-- The series, when the clock is read at `start` and, for the days, at `now`. -/
def getRevenueSeries (zone : TimeZone) (creatorId : String) (start now : ℤ)
    (rows : List RevenueOrder) : List RevenueDay :=
  series now (fetched zone creatorId start rows)

/-- The loop adds the order to the day. -/
def Contributes (now : ℤ) (order : RevenueOrder) (day : ℤ) : Prop :=
  ∀ dayTotals, addOrder now dayTotals order =
    dayTotals.insert day (dayTotal dayTotals day + order.amountUsd.cents)

/-- Every fetched order is counted on one of the days, and these add up to the orders. -/
structure Complete (now : ℤ) (orders : List RevenueOrder) (days : List RevenueDay) : Prop where
  once : ∀ o ∈ orders, ∃! day, (day ∈ days.map (·.day)) ∧ Contributes now o day
  total : (days.map (·.amount)).sum = (orders.map (·.amountUsd.cents)).sum

/-! ## The days of an order -/

variable {now day : ℤ} {o : RevenueOrder} {orders : List RevenueOrder}

theorem dayTotal_insert (t : AList fun _ : ℤ => ℤ) (k v d : ℤ) :
    dayTotal (t.insert k v) d = if d = k then v else dayTotal t d := by
  unfold dayTotal
  split
  · next h => rw [h, AList.lookup_insert, Option.getD_some]
  · next h => rw [AList.lookup_insert_ne h]

theorem mem_days : day ∈ (series now orders).map (·.day) ↔ 1 ≤ day ∧ day ≤ 30 := by
  simp only [series, List.map_map, List.mem_map, List.mem_range, Function.comp_apply]
  constructor
  · rintro ⟨i, hi, rfl⟩
    omega
  · rintro ⟨hlo, hhi⟩
    exact ⟨(day - 1).toNat, by omega, by omega⟩

theorem addOrder_of_mem (h : 1 ≤ dayIndex now o ∧ dayIndex now o ≤ 30) :
    Contributes now o (dayIndex now o) :=
  fun _ => if_pos h

/-- An order is counted on its day or not at all. -/
theorem contributes_iff : Contributes now o day ↔
    dayIndex now o = day ∧ 1 ≤ day ∧ day ≤ 30 := by
  constructor
  · intro h
    have hempty := congrArg (fun t => t.lookup day) (h ∅)
    simp only [AList.lookup_insert] at hempty
    by_cases hin : 1 ≤ dayIndex now o ∧ dayIndex now o ≤ 30
    · rw [addOrder_of_mem hin] at hempty
      have heq : dayIndex now o = day := by
        by_contra hne
        rw [AList.lookup_insert_ne (Ne.symm hne)] at hempty
        cases hempty
      exact ⟨heq, heq ▸ hin⟩
    · have hnone : addOrder now ∅ o = ∅ := if_neg hin
      rw [hnone] at hempty
      cases hempty
  · rintro ⟨rfl, h⟩
    exact addOrder_of_mem h

variable (orders) in
/-- An order that is not in the future is counted when it is less than 30 days old. -/
theorem exists_contributes_iff (h : o.createdAt ≤ now) :
    (∃! day, (day ∈ (series now orders).map (·.day)) ∧ Contributes now o day) ↔
      now - o.createdAt < 30 * msPerDay := by
  have hday : (1 ≤ dayIndex now o ∧ dayIndex now o ≤ 30) ↔ now - o.createdAt < 30 * msPerDay := by
    unfold dayIndex msPerDay
    omega
  rw [← hday]
  constructor
  · rintro ⟨day, ⟨-, hc⟩, -⟩
    obtain ⟨rfl, hin⟩ := contributes_iff.1 hc
    exact hin
  · intro hin
    refine ⟨dayIndex now o, ⟨mem_days.2 hin, addOrder_of_mem hin⟩, ?_⟩
    rintro day ⟨-, hc⟩
    exact (contributes_iff.1 hc).1.symm

/-! ## The sums -/

/-- The amounts of the days. -/
def seriesTotal (t : AList fun _ : ℤ => ℤ) : ℤ :=
  ∑ i ∈ Finset.range 30, dayTotal t (i + 1)

theorem seriesTotal_addOrder (t : AList fun _ : ℤ => ℤ)
    (h : 1 ≤ dayIndex now o ∧ dayIndex now o ≤ 30) :
    seriesTotal (addOrder now t o) = seriesTotal t + o.amountUsd.cents := by
  have hone (i : ℕ) : dayTotal (addOrder now t o) (i + 1) = dayTotal t (i + 1) +
      if i = (dayIndex now o - 1).toNat then o.amountUsd.cents else 0 := by
    rw [addOrder_of_mem h, dayTotal_insert]
    by_cases hi : (i : ℤ) + 1 = dayIndex now o
    · rw [if_pos hi, if_pos (by omega), hi]
    · rw [if_neg hi, if_neg (by omega), add_zero]
  have hmem : (dayIndex now o - 1).toNat ∈ Finset.range 30 := by
    rw [Finset.mem_range]
    omega
  unfold seriesTotal
  rw [Finset.sum_congr rfl fun i _ => hone i, Finset.sum_add_distrib, Finset.sum_ite_eq',
    if_pos hmem]

theorem seriesTotal_foldl : ∀ {orders : List RevenueOrder} (t : AList fun _ : ℤ => ℤ),
    (∀ o ∈ orders, 1 ≤ dayIndex now o ∧ dayIndex now o ≤ 30) →
      seriesTotal (orders.foldl (addOrder now) t) =
        seriesTotal t + (orders.map (·.amountUsd.cents)).sum
  | [], t, _ => (add_zero _).symm
  | o :: orders, t, h => by
    rw [List.foldl_cons, seriesTotal_foldl _ fun o' ho' => h o' (List.mem_cons_of_mem o ho'),
      seriesTotal_addOrder t (h o List.mem_cons_self), List.map_cons, List.sum_cons, add_assoc]

theorem sum_series (now : ℤ) (orders : List RevenueOrder) :
    ((series now orders).map (·.amount)).sum = seriesTotal (orders.foldl (addOrder now) ∅) := by
  rw [series, List.map_map]
  rfl

theorem complete_of_young (h : ∀ o ∈ orders, o.createdAt ≤ now)
    (hage : ∀ o ∈ orders, now - o.createdAt < 30 * msPerDay) :
    Complete now orders (series now orders) := by
  have honce (o : RevenueOrder) (ho : o ∈ orders) :=
    (exists_contributes_iff orders (h o ho)).2 (hage o ho)
  refine ⟨honce, ?_⟩
  have hin : ∀ o ∈ orders, 1 ≤ dayIndex now o ∧ dayIndex now o ≤ 30 := by
    intro o ho
    obtain ⟨day, ⟨-, hc⟩, -⟩ := honce o ho
    obtain ⟨rfl, hday⟩ := contributes_iff.1 hc
    exact hday
  rw [sum_series, seriesTotal_foldl ∅ hin]
  exact zero_add _

/-- The series of a creator, at two readings of the clock. It is complete exactly when no order
that it fetches is 30 times 24 hours old at the second. -/
theorem revenueSeries_complete_iff (zone : TimeZone) (creatorId : String) (start now : ℤ)
    (rows : List RevenueOrder)
    (h : ∀ o ∈ fetched zone creatorId start rows, o.createdAt ≤ now) :
    Complete now (fetched zone creatorId start rows)
        (getRevenueSeries zone creatorId start now rows) ↔
      ∀ o ∈ fetched zone creatorId start rows, now - o.createdAt < 30 * msPerDay :=
  ⟨fun hc o ho => (exists_contributes_iff _ (h o ho)).1 (hc.once o ho), complete_of_young h⟩

/-- A window that is shorter than 30 times 24 hours at the second reading loses no order. -/
theorem complete_of_window {zone : TimeZone} {creatorId : String} {start : ℤ}
    {rows : List RevenueOrder} (h : ∀ o ∈ fetched zone creatorId start rows, o.createdAt ≤ now)
    (hwindow : now - thirtyDaysAgo zone start < 30 * msPerDay) :
    Complete now (fetched zone creatorId start rows)
      (getRevenueSeries zone creatorId start now rows) := by
  refine complete_of_young h fun o ho => ?_
  have hsince := (of_decide_eq_true (List.mem_filter.1 ho).2).2.1
  omega

end Analytics

open Analytics

/-- A server that keeps universal time. -/
def demoZone : TimeZone :=
  ⟨id, id⟩

/-- A settled order of ten dollars. -/
def demoSettled (createdAt : ℤ) : RevenueOrder :=
  ⟨"alice", .settled, demoProduct.priceUsd, createdAt⟩

/-- An order of today. -/
theorem revenueSeries_today :
    Complete (31 * msPerDay)
      (fetched demoZone "alice" (31 * msPerDay) [demoSettled (30 * msPerDay)])
      (getRevenueSeries demoZone "alice" (31 * msPerDay) (31 * msPerDay)
        [demoSettled (30 * msPerDay)]) :=
  (revenueSeries_complete_iff demoZone "alice" (31 * msPerDay) (31 * msPerDay)
    [demoSettled (30 * msPerDay)] (by decide)).2 (by decide)

/-- An order in the first milliseconds of the window. The clock moves by five milliseconds
between its readings, and the order is fetched and not counted. -/
theorem revenueSeries_loses :
    fetched demoZone "alice" (30 * msPerDay) [demoSettled 2] = [demoSettled 2] ∧
      2 ≤ 30 * msPerDay + 5 ∧
      ((getRevenueSeries demoZone "alice" (30 * msPerDay) (30 * msPerDay + 5)
        [demoSettled 2]).map (·.amount)).sum = 0 ∧
      ¬ Complete (30 * msPerDay + 5) (fetched demoZone "alice" (30 * msPerDay) [demoSettled 2])
        (getRevenueSeries demoZone "alice" (30 * msPerDay) (30 * msPerDay + 5)
          [demoSettled 2]) := by
  refine ⟨by decide, by decide, by decide, fun h => ?_⟩
  exact absurd h.total (by decide)

end Kreav
