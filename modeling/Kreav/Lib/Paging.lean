import Mathlib.Data.List.Sort
import Mathlib.Data.List.TakeDrop

/-!
# Pages of a merged list

Two lists that are sorted by `r` are put together by a stable sort, which merges them
(`insertionSort_append`). The first `k` entries of a merge come from the first `k` entries of
the lists (`take_merge`), so a page of the merge can be read off prefixes of the lists that
reach as far as the page ends (`page_insertionSort_take`).

Pages of one size, put after one another, are a prefix of the list (`flatMap_page`).

A list that grows at its head while its pages are read shifts its entries to later pages. What
is not yet read stays behind the pages read (`drop_subset_of_suffix`), so it comes with a later
page (`mem_page_or_mem_drop`), at the latest with one that is not full
(`mem_page_of_length_lt`).
-/

namespace Paging

variable {α : Type} {r : α → α → Prop} [DecidableRel r]

/-- The entries `skip`, …, `skip + limit - 1`. -/
def page (skip limit : ℕ) (l : List α) : List α :=
  (l.drop skip).take limit

/-! ## Merges -/

/-- Insert an entry that comes before all of the first list. -/
theorem orderedInsert_merge [IsTrans α r] {x : α} {xs ys : List α} (hx : ∀ a ∈ xs, r x a) :
    (List.merge xs ys (r · ·)).orderedInsert r x = List.merge (x :: xs) ys (r · ·) := by
  induction ys with
  | nil =>
    rw [List.merge_right, List.merge_right]
    cases xs with
    | nil => rfl
    | cons a xs => exact List.orderedInsert_cons_of_le r xs (hx a List.mem_cons_self)
  | cons y ys ih =>
    by_cases hxy : r x y
    · rw [List.cons_merge_cons_pos _ _ _ (by simpa using hxy)]
      cases xs with
      | nil =>
        rw [List.nil_merge]
        exact List.orderedInsert_cons_of_le r ys hxy
      | cons a xs =>
        have ha : r x a := hx a List.mem_cons_self
        rw [List.cons_merge_cons]
        split
        · exact List.orderedInsert_cons_of_le r _ ha
        · exact List.orderedInsert_cons_of_le r _ hxy
    · rw [List.cons_merge_cons_neg _ _ _ (by simpa using hxy), ← ih]
      cases xs with
      | nil =>
        rw [List.nil_merge, List.nil_merge]
        exact List.orderedInsert_of_not_le r ys hxy
      | cons a xs =>
        have hay : ¬ r a y := fun hay => hxy (trans_of r (hx a List.mem_cons_self) hay)
        rw [List.cons_merge_cons_neg _ _ _ (by simpa using hay)]
        exact List.orderedInsert_of_not_le r _ hxy

/-- A stable sort of two sorted lists merges them. -/
theorem insertionSort_append [IsTrans α r] {xs ys : List α} (hx : xs.Pairwise r)
    (hy : ys.Pairwise r) : (xs ++ ys).insertionSort r = List.merge xs ys (r · ·) := by
  induction xs with
  | nil => rw [List.nil_append, List.nil_merge, hy.insertionSort_eq]
  | cons x xs ih =>
    obtain ⟨hhead, htail⟩ := List.pairwise_cons.1 hx
    rw [List.cons_append, List.insertionSort_cons, ih htail, orderedInsert_merge hhead]

/-- The first entries of a merge come from the first entries of the lists. -/
theorem take_merge (le : α → α → Bool) {k m n : ℕ} (hm : k ≤ m) (hn : k ≤ n)
    (xs ys : List α) :
    (List.merge (xs.take m) (ys.take n) le).take k = (List.merge xs ys le).take k := by
  induction k generalizing m n xs ys with
  | zero => rfl
  | succ k ih =>
    obtain ⟨m, rfl⟩ := Nat.exists_eq_add_of_lt hm
    obtain ⟨n, rfl⟩ := Nat.exists_eq_add_of_lt hn
    cases xs with
    | nil => rw [List.take_nil, List.nil_merge, List.nil_merge, List.take_take, min_eq_left hn]
    | cons x xs =>
    cases ys with
    | nil => rw [List.take_nil, List.merge_right, List.merge_right, List.take_take, min_eq_left hm]
    | cons y ys =>
      rw [List.take_succ_cons, List.take_succ_cons, List.cons_merge_cons, List.cons_merge_cons]
      split
      · rw [List.take_succ_cons, List.take_succ_cons, ← List.take_succ_cons (a := y),
          ih (by omega) (by omega)]
      · rw [List.take_succ_cons, List.take_succ_cons, ← List.take_succ_cons (a := x),
          ih (by omega) (by omega)]

/-! ## Pages -/

theorem page_eq_drop_take (skip limit : ℕ) (l : List α) :
    page skip limit l = (l.take (skip + limit)).drop skip := by
  rw [page, List.drop_take, Nat.add_sub_cancel_left]

theorem page_map {β : Type} (f : α → β) (skip limit : ℕ) (l : List α) :
    page skip limit (l.map f) = (page skip limit l).map f := by
  rw [page, page, List.map_take, List.map_drop]

/-- A page of the sorted lists, read off prefixes that reach as far as it. -/
theorem page_insertionSort_take [IsTrans α r] {xs ys : List α} (hx : xs.Pairwise r)
    (hy : ys.Pairwise r) {skip limit n : ℕ} (hn : skip + limit ≤ n) :
    page skip limit ((xs.take n ++ ys.take n).insertionSort r) =
      page skip limit ((xs ++ ys).insertionSort r) := by
  rw [insertionSort_append (hx.sublist (xs.take_sublist n)) (hy.sublist (ys.take_sublist n)),
    insertionSort_append hx hy, page_eq_drop_take, page_eq_drop_take, take_merge _ hn hn]

/-- The first pages, put after one another. -/
theorem flatMap_page (limit n : ℕ) (l : List α) :
    (List.range n).flatMap (fun p => page (p * limit) limit l) = l.take (n * limit) := by
  induction n with
  | zero => simp
  | succ n ih =>
    rw [List.range_succ, List.flatMap_append, ih, List.flatMap_singleton, page, Nat.succ_mul,
      List.take_add]

/-! ## Pages of a list that grows -/

/-- Entries behind a page are behind it when the list has grown at its head. -/
theorem drop_subset_of_suffix {l l' : List α} (h : l <:+ l') (n : ℕ) : l.drop n ⊆ l'.drop n := by
  obtain ⟨new, rfl⟩ := h
  rw [List.drop_append]
  exact List.Subset.trans (List.drop_subset_drop_left l (Nat.sub_le n new.length))
    (List.subset_append_right _ _)

/-- An entry that is not before the page is on it or behind it. -/
theorem mem_page_or_mem_drop {l : List α} {skip limit : ℕ} {a : α} (h : a ∈ l.drop skip) :
    a ∈ page skip limit l ∨ a ∈ l.drop (skip + limit) := by
  rw [← List.take_append_drop limit (l.drop skip), List.mem_append, List.drop_drop] at h
  exact h

/-- Nothing is behind a page that is not full. -/
theorem mem_page_of_length_lt {l : List α} {skip limit : ℕ} {a : α} (h : a ∈ l.drop skip)
    (hshort : (page skip limit l).length < limit) : a ∈ page skip limit l := by
  refine (mem_page_or_mem_drop h).resolve_right fun hbehind => ?_
  have hlength := List.length_pos_of_mem hbehind
  rw [List.length_drop] at hlength
  rw [page, List.length_take, List.length_drop] at hshort
  omega

end Paging
