import Mathlib.Algebra.BigOperators.Group.List.Basic
import Mathlib.Algebra.Order.BigOperators.Group.List
import Mathlib.Data.List.Dedup

/-!
# Groups of rows

`GROUP BY`, `ORDER BY … DESC` and `LIMIT`. `groups key l` has each key of the list once, with
its rows (`groups_keys`, `mem_groups`), so the sums of the groups add up to the sum of the list
(`sum_groups`). `largest n le l` are the first rows of an order : none that is left out comes
before one of them (`le_of_mem_others`).
-/

namespace Grouping

variable {α κ β : Type} [DecidableEq κ]

/-- The keys of a list, with their rows. -/
def groups (key : α → κ) (l : List α) : List (κ × List α) :=
  (l.map key).dedup.map fun k => (k, l.filter fun a => key a = k)

variable {key : α → κ} {l : List α} {g : κ × List α}

theorem groups_keys (key : α → κ) (l : List α) : (groups key l).map (·.1) = (l.map key).dedup := by
  rw [groups, List.map_map]
  exact List.map_id _

theorem nodup_groups (key : α → κ) (l : List α) : ((groups key l).map (·.1)).Nodup := by
  rw [groups_keys]
  exact List.nodup_dedup _

theorem mem_groups : g ∈ groups key l ↔
    g.2 = l.filter (fun a => key a = g.1) ∧ ∃ a ∈ l, key a = g.1 := by
  rw [groups, List.mem_map]
  constructor
  · rintro ⟨k, hk, rfl⟩
    exact ⟨rfl, List.mem_map.1 (List.mem_dedup.1 hk)⟩
  · rintro ⟨hrows, a, ha, hkey⟩
    exact ⟨g.1, List.mem_dedup.2 (List.mem_map.2 ⟨a, ha, hkey⟩), by rw [← hrows]⟩

/-- A group has a row. -/
theorem ne_nil_of_mem_groups (h : g ∈ groups key l) : g.2 ≠ [] := by
  obtain ⟨hrows, a, ha, hkey⟩ := mem_groups.1 h
  rw [hrows]
  exact List.ne_nil_of_mem (List.mem_filter.2 ⟨ha, decide_eq_true hkey⟩)

variable [AddCommMonoid β]

/-- One more row adds to the sum of its key. -/
theorem sum_keys_cons (f : α → β) (a : α) (l : List α) : ∀ {ks : List κ}, ks.Nodup →
    key a ∈ ks →
      (ks.map fun k => (((a :: l).filter fun x => key x = k).map f).sum).sum =
        f a + (ks.map fun k => ((l.filter fun x => key x = k).map f).sum).sum
  | [], _, h => absurd h List.not_mem_nil
  | k :: ks, hnodup, h => by
    obtain ⟨hk, hks⟩ := List.nodup_cons.1 hnodup
    simp only [List.map_cons, List.sum_cons]
    by_cases hkey : key a = k
    · -- no later key is that of the row
      have hrest : (ks.map fun k => (((a :: l).filter fun x => key x = k).map f).sum) =
          ks.map fun k => ((l.filter fun x => key x = k).map f).sum := by
        refine List.map_congr_left fun k' hk' => ?_
        have hne : key a ≠ k' := fun he => hk (hkey ▸ he ▸ hk')
        rw [List.filter_cons_of_neg (by simpa using hne)]
      rw [hrest, List.filter_cons_of_pos (by simpa using hkey), List.map_cons, List.sum_cons,
        add_assoc]
    · have hmem : key a ∈ ks := (List.mem_cons.1 h).resolve_left hkey
      rw [List.filter_cons_of_neg (by simpa using hkey), sum_keys_cons f a l hks hmem,
        add_left_comm]

theorem sum_keys (f : α → β) {ks : List κ} (hks : ks.Nodup) : ∀ {l : List α},
    (∀ a ∈ l, key a ∈ ks) →
      (ks.map fun k => ((l.filter fun x => key x = k).map f).sum).sum = (l.map f).sum
  | [], _ => by simp
  | a :: l, h => by
    rw [sum_keys_cons f a l hks (h a List.mem_cons_self),
      sum_keys f hks fun b hb => h b (List.mem_cons_of_mem a hb), List.map_cons, List.sum_cons]

/-- The sums of the groups add up. -/
theorem sum_groups (key : α → κ) (f : α → β) (l : List α) :
    ((groups key l).map fun g => (g.2.map f).sum).sum = (l.map f).sum := by
  rw [groups, List.map_map]
  exact sum_keys f (List.nodup_dedup _) fun a ha =>
    List.mem_dedup.2 (List.mem_map_of_mem ha)

omit [DecidableEq κ] [AddCommMonoid β]

/-- The first `n` rows in the order `le`. -/
def largest (n : ℕ) (le : α → α → Bool) (l : List α) : List α :=
  (l.mergeSort le).take n

variable {n : ℕ} {le : α → α → Bool}

/-- The rows that are left out. -/
def others (n : ℕ) (le : α → α → Bool) (l : List α) : List α :=
  (l.mergeSort le).drop n

theorem largest_append_others (n : ℕ) (le : α → α → Bool) (l : List α) :
    (largest n le l ++ others n le l).Perm l := by
  rw [largest, others, List.take_append_drop]
  exact List.mergeSort_perm l le

/-- Every row that is left out comes after all that are not. -/
theorem le_of_mem_others (htrans : ∀ a b c, le a b = true → le b c = true → le a c = true)
    (htotal : ∀ a b, (le a b || le b a) = true) {a b : α} (ha : a ∈ largest n le l)
    (hb : b ∈ others n le l) : le a b = true := by
  have hsorted := List.pairwise_mergeSort htrans htotal l
  rw [← List.take_append_drop n (l.mergeSort le)] at hsorted
  exact (List.pairwise_append.1 hsorted).2.2 a ha b hb

theorem length_largest (n : ℕ) (le : α → α → Bool) (l : List α) :
    (largest n le l).length = min n l.length := by
  rw [largest, List.length_take, List.length_mergeSort]

end Grouping
