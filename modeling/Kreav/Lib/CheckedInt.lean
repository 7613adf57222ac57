import Mathlib.Data.Int.Basic
import Mathlib.Tactic.Linarith

/-!
# Machine integers with checked arithmetic

A `Bounded lo hi` is an integer between `lo` and `hi`, so a value outside the range of
the machine type cannot be written. `checkedAdd`, `checkedSub` and `checkedMul` return the
exact result when it is in range and nothing otherwise. `quot` divides by a constant and
truncates toward zero, which stays in any range around zero.
-/

namespace CheckedInt

/-- The integers from `lo` to `hi`. -/
@[ext] structure Bounded (lo hi : ℤ) where
  val : ℤ
  lo_le : lo ≤ val
  le_hi : val ≤ hi
  deriving DecidableEq, Repr

variable {lo hi : ℤ}

namespace Bounded

/-- The value `x`, if it is in range. -/
def ofInt? (x : ℤ) : Option (Bounded lo hi) :=
  if h : lo ≤ x ∧ x ≤ hi then some ⟨x, h.1, h.2⟩ else none

/-- The sum, if it is within the bounds. -/
def checkedAdd (a b : Bounded lo hi) : Option (Bounded lo hi) :=
  ofInt? (a.val + b.val)

/-- The difference, if it is within the bounds. -/
def checkedSub (a b : Bounded lo hi) : Option (Bounded lo hi) :=
  ofInt? (a.val - b.val)

/-- The product, if it is within the bounds. -/
def checkedMul (a b : Bounded lo hi) : Option (Bounded lo hi) :=
  ofInt? (a.val * b.val)

theorem ofInt?_eq_some {x : ℤ} {c : Bounded lo hi} : ofInt? x = some c ↔ c.val = x := by
  unfold ofInt?
  constructor
  · intro h
    split at h
    · rw [← Option.some.inj h]
    · cases h
  · rintro rfl
    rw [dif_pos ⟨c.lo_le, c.le_hi⟩]

theorem ofInt?_of_mem {x : ℤ} (h : lo ≤ x ∧ x ≤ hi) :
    ∃ c : Bounded lo hi, ofInt? x = some c ∧ c.val = x :=
  ⟨⟨x, h.1, h.2⟩, dif_pos h, rfl⟩

theorem ofInt?_eq_none {x : ℤ} : (ofInt? x : Option (Bounded lo hi)) = none ↔
    ¬ (lo ≤ x ∧ x ≤ hi) := by
  unfold ofInt?
  split
  · next h => simp [h]
  · next h => simpa using h

/-- A checked sum that completes is exact. -/
theorem checkedAdd_eq_some {a b c : Bounded lo hi} :
    checkedAdd a b = some c ↔ c.val = a.val + b.val :=
  ofInt?_eq_some

theorem checkedSub_eq_some {a b c : Bounded lo hi} :
    checkedSub a b = some c ↔ c.val = a.val - b.val :=
  ofInt?_eq_some

theorem checkedMul_eq_some {a b c : Bounded lo hi} :
    checkedMul a b = some c ↔ c.val = a.val * b.val :=
  ofInt?_eq_some

/-- Truncating division does not move a value away from zero. -/
theorem tdiv_mem (h : lo ≤ 0 ∧ 0 ≤ hi) (a : Bounded lo hi) (d : ℕ) :
    lo ≤ a.val.tdiv d ∧ a.val.tdiv d ≤ hi := by
  have h1 := a.lo_le
  have h2 := a.le_hi
  rcases le_total 0 a.val with ha | ha
  · have h3 := Int.tdiv_nonneg ha (Int.natCast_nonneg d)
    have h4 := Int.tdiv_le_self (b := (d : ℤ)) ha
    omega
  · have h3 := Int.tdiv_nonneg (a := -a.val) (by omega) (Int.natCast_nonneg d)
    have h4 := Int.tdiv_le_self (a := -a.val) (b := (d : ℤ)) (by omega)
    rw [Int.neg_tdiv] at h3 h4
    omega

/-- Division by `d`, truncated toward zero. -/
def quot (h : lo ≤ 0 ∧ 0 ≤ hi) (a : Bounded lo hi) (d : ℕ) : Bounded lo hi :=
  ⟨a.val.tdiv d, (tdiv_mem h a d).1, (tdiv_mem h a d).2⟩

@[simp] theorem val_quot (h : lo ≤ 0 ∧ 0 ≤ hi) (a : Bounded lo hi) (d : ℕ) :
    (a.quot h d).val = a.val.tdiv d :=
  rfl

end Bounded

end CheckedInt
