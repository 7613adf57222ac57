import Mathlib.Algebra.BigOperators.Finsupp.Basic
import Mathlib.Algebra.Order.BigOperators.Group.List

/-!
# Double-entry bookkeeping

An entry says by how much each account changes. It is `Balanced` when the changes add up to
zero. `moved p q n` moves `n` from `p` to `q`, and a journal is a list of entries. What a
journal posts to an account is the sum of its entries there, whatever their order
(`posted_perm`), and a journal of balanced entries is balanced (`balanced_sum`).
-/

namespace Journal

variable {A G : Type} [AddCommGroup G]

/-- The sum of all changes. -/
noncomputable def total : (A →₀ G) →+ G :=
  Finsupp.liftAddHom fun _ => AddMonoidHom.id G

/-- Nothing is made or lost. -/
def Balanced (e : A →₀ G) : Prop :=
  total e = 0

/-- The entry of a transfer. -/
noncomputable def moved (p q : A) (n : G) : A →₀ G :=
  Finsupp.single q n - Finsupp.single p n

theorem moved_apply [DecidableEq A] (p q : A) (n : G) (x : A) :
    moved p q n x = (if x = q then n else 0) - if x = p then n else 0 := by
  simp only [moved, Finsupp.sub_apply, Finsupp.single_apply, eq_comm]

theorem total_single (p : A) (n : G) : total (Finsupp.single p n) = n := by
  simp [total]

theorem balanced_moved (p q : A) (n : G) : Balanced (moved p q n) := by
  rw [Balanced, moved, map_sub, total_single, total_single, sub_self]

theorem balanced_sum {es : List (A →₀ G)} (h : ∀ e ∈ es, Balanced e) : Balanced es.sum := by
  induction es with
  | nil => exact map_zero total
  | cons e es ih =>
    obtain ⟨he, hes⟩ := List.forall_mem_cons.1 h
    rw [Balanced, List.sum_cons, map_add, he, ih hes, add_zero]

/-- What a journal posts to an account. -/
theorem posted_eq (es : List (A →₀ G)) (x : A) : es.sum x = (es.map fun e => e x).sum :=
  map_list_sum (Finsupp.applyAddHom x) es

/-- The order of the entries does not matter. -/
theorem posted_perm {es es' : List (A →₀ G)} (h : es.Perm es') : es.sum = es'.sum :=
  h.sum_eq

/-- An account that no entry takes from does not go down. -/
theorem posted_nonneg [PartialOrder G] [IsOrderedAddMonoid G] {es : List (A →₀ G)} {x : A}
    (h : ∀ e ∈ es, 0 ≤ e x) : 0 ≤ es.sum x := by
  rw [posted_eq]
  exact List.sum_nonneg (List.forall_mem_map.2 h)

end Journal
