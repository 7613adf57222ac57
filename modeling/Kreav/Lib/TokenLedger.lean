import Mathlib.Algebra.BigOperators.Group.Finset.Basic
import Mathlib.Algebra.BigOperators.Group.Finset.Piecewise
import Mathlib.Data.Int.Basic
import Mathlib.Tactic.Abel

/-!
# Balances of one token

A `Ledger` gives every account a balance and carries a finite set of holders outside of
which all balances are zero, so its `supply` is a finite sum. `transfer` moves an exact
amount, and `supply_transfer` says that it makes or destroys nothing.
-/

open Finset

namespace TokenLedger

/-- The balances of a token, zero outside a finite set of holders. -/
structure Ledger (A : Type) [DecidableEq A] where
  balance : A → ℤ
  holders : Finset A
  eq_zero : ∀ a, a ∉ holders → balance a = 0

variable {A : Type} [DecidableEq A]

namespace Ledger

/-- Everything that is held. -/
def supply (l : Ledger A) : ℤ :=
  ∑ a ∈ l.holders, l.balance a

/-- A set that contains the holders has the same sum of balances. -/
theorem sum_eq_supply (l : Ledger A) {t : Finset A} (h : l.holders ⊆ t) :
    ∑ a ∈ t, l.balance a = l.supply :=
  (sum_subset h fun a _ ha => l.eq_zero a ha).symm

/-- Everything is held by `a`. -/
def single (a : A) (n : ℤ) : Ledger A where
  balance x := if x = a then n else 0
  holders := {a}
  eq_zero _ hx := if_neg (by simpa using hx)

/-- Move `n` from `p` to `q`. -/
def transfer (l : Ledger A) (p q : A) (n : ℤ) : Ledger A where
  balance a := l.balance a - (if a = p then n else 0) + if a = q then n else 0
  holders := insert p (insert q l.holders)
  eq_zero a ha := by
    simp only [mem_insert, not_or] at ha
    simp [ha.1, ha.2.1, l.eq_zero a ha.2.2]

theorem balance_transfer (l : Ledger A) (p q : A) (n : ℤ) (a : A) :
    (l.transfer p q n).balance a =
      l.balance a - (if a = p then n else 0) + if a = q then n else 0 :=
  rfl

/-- A transfer leaves the supply as it was. -/
theorem supply_transfer (l : Ledger A) (p q : A) (n : ℤ) :
    (l.transfer p q n).supply = l.supply := by
  rw [← l.sum_eq_supply ((subset_insert q l.holders).trans (subset_insert p _))]
  unfold supply
  simp only [transfer, sum_add_distrib, sum_sub_distrib, sum_ite_eq', mem_insert,
    true_or, or_true, if_true]
  abel

end Ledger

end TokenLedger
