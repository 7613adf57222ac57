import Mathlib.Algebra.Order.Field.Power
import Mathlib.Data.Int.Log
import Mathlib.Data.Rat.Floor
import Mathlib.Tactic.Linarith
import Mathlib.Tactic.Positivity
import Mathlib.Tactic.FieldSimp

/-!
# Binary floating-point numbers

`toPrecision p x` is the rational `x` rounded to `p` significant binary digits, ties to the even
digit : the unit in the last place (`ulp`) times the rounded quotient. `double` has the
53 digits of a double. Exponents are unbounded, so there is neither overflow nor a gap at zero.

Rounding moves a number by half of its last place at most (`abs_sub_toPrecision_le`). So
numbers that are further apart than the last place of their magnitude stay apart
(`abs_sub_le_of_toPrecision_eq`), and a number of `p` digits is not changed
(`toPrecision_of_digits`).
-/

namespace Doubles

/-- The nearest integer, the even one of two. -/
def roundHalfEven (x : ℚ) : ℤ :=
  if Int.fract x < 1 / 2 then ⌊x⌋
  else if 1 / 2 < Int.fract x then ⌊x⌋ + 1
  else if ⌊x⌋ % 2 = 0 then ⌊x⌋ else ⌊x⌋ + 1

theorem abs_sub_roundHalfEven (x : ℚ) : |x - roundHalfEven x| ≤ 1 / 2 := by
  have hfloor := Int.floor_add_fract x
  have hlt := Int.fract_lt_one x
  have hnonneg := Int.fract_nonneg x
  rw [abs_le]
  unfold roundHalfEven
  split_ifs <;> push_cast <;> constructor <;> linarith

@[simp]
theorem roundHalfEven_intCast (n : ℤ) : roundHalfEven n = n := by
  unfold roundHalfEven
  rw [Int.fract_intCast, Int.floor_intCast, if_pos (by norm_num)]

/-- The unit of the last of `p` digits. -/
def ulp (p : ℕ) (x : ℚ) : ℚ :=
  2 ^ (Int.log 2 |x| + 1 - p)

theorem ulp_pos (p : ℕ) (x : ℚ) : 0 < ulp p x := by
  unfold ulp
  positivity

/-- A number to `p` significant binary digits. -/
def toPrecision (p : ℕ) (x : ℚ) : ℚ :=
  ulp p x * roundHalfEven (x / ulp p x)

/-- A number as a double. -/
def double (x : ℚ) : ℚ :=
  toPrecision 53 x

@[simp]
theorem toPrecision_zero (p : ℕ) : toPrecision p 0 = 0 := by
  unfold toPrecision
  rw [zero_div, ← Int.cast_zero, roundHalfEven_intCast, Int.cast_zero, mul_zero]

theorem abs_sub_toPrecision_le (p : ℕ) (x : ℚ) : |x - toPrecision p x| ≤ ulp p x / 2 := by
  have hpos := ulp_pos p x
  have hround := abs_sub_roundHalfEven (x / ulp p x)
  have hx : x - toPrecision p x = ulp p x * (x / ulp p x - roundHalfEven (x / ulp p x)) := by
    rw [mul_sub, mul_div_cancel₀ x hpos.ne', toPrecision]
  rw [hx, abs_mul, abs_of_pos hpos]
  nlinarith

/-- The last place of a number below `2 ^ k`. -/
theorem ulp_le {p : ℕ} {k : ℤ} {x : ℚ} (hx : x ≠ 0) (h : |x| < 2 ^ k) : ulp p x ≤ 2 ^ (k - p) := by
  have hlog : Int.log 2 |x| < k := (Int.lt_zpow_iff_log_lt one_lt_two (abs_pos.2 hx)).1 (by
    exact_mod_cast h)
  exact zpow_le_zpow_right₀ one_le_two (by omega)

/-- Rounding moves a number below `2 ^ k` by half of the last place there at most. -/
theorem abs_sub_toPrecision_le_of_lt {k : ℤ} {x : ℚ} (p : ℕ) (h : |x| < 2 ^ k) :
    |x - toPrecision p x| ≤ 2 ^ (k - p) / 2 := by
  rcases eq_or_ne x 0 with rfl | hx
  · rw [toPrecision_zero, sub_zero, abs_zero]
    positivity
  · linarith [abs_sub_toPrecision_le p x, ulp_le (p := p) hx h]

/-- Numbers below `2 ^ k` that are rounded to the same are at most a last place apart. -/
theorem abs_sub_le_of_toPrecision_eq {p : ℕ} {k : ℤ} {x y : ℚ} (hx : |x| < 2 ^ k)
    (hy : |y| < 2 ^ k) (h : toPrecision p x = toPrecision p y) : |x - y| ≤ 2 ^ (k - p) := by
  have hx' := abs_sub_toPrecision_le_of_lt p hx
  have hy' := abs_sub_toPrecision_le_of_lt p hy
  calc |x - y| ≤ |x - toPrecision p x| + |toPrecision p x - y| := abs_sub_le _ _ _
    _ = |x - toPrecision p x| + |y - toPrecision p y| := by rw [h, abs_sub_comm y]
    _ ≤ 2 ^ (k - p) := by linarith

/-- A number of at most `p` binary digits is not changed. -/
theorem toPrecision_of_digits {p : ℕ} {m : ℤ} (e : ℤ) (hm : |m| < 2 ^ p) :
    toPrecision p (m * 2 ^ e) = m * 2 ^ e := by
  rcases eq_or_ne m 0 with rfl | hne
  · simp
  have hpos : (0 : ℚ) < |(m : ℚ)| := abs_pos.2 (by exact_mod_cast hne)
  have habs : |(m : ℚ) * 2 ^ e| = |(m : ℚ)| * 2 ^ e := by
    rw [abs_mul, abs_of_pos (by positivity : (0 : ℚ) < 2 ^ e)]
  have hlt : |(m : ℚ) * 2 ^ e| < (2 : ℚ) ^ (p + e) := by
    rw [habs, zpow_add₀ two_ne_zero, zpow_natCast]
    have hm' : |(m : ℚ)| < 2 ^ p := by exact_mod_cast hm
    gcongr
  have hlog : Int.log 2 |(m : ℚ) * 2 ^ e| < p + e :=
    (Int.lt_zpow_iff_log_lt one_lt_two (by rw [habs]; positivity)).1 (by exact_mod_cast hlt)
  -- the number is a whole multiple of its last place
  obtain ⟨n, hn⟩ := Int.eq_ofNat_of_zero_le
    (show 0 ≤ e - (Int.log 2 |(m : ℚ) * 2 ^ e| + 1 - p) by omega)
  have hquot : (m : ℚ) * 2 ^ e / ulp p (m * 2 ^ e) = ((m * 2 ^ n : ℤ) : ℚ) := by
    rw [ulp, mul_div_assoc, ← zpow_sub₀ two_ne_zero, hn, zpow_natCast]
    push_cast
    ring
  rw [toPrecision, hquot, roundHalfEven_intCast, ← hquot,
    mul_div_cancel₀ _ (ulp_pos p _).ne']

end Doubles
