import Mathlib.Algebra.BigOperators.Group.List.Basic
import Mathlib.Algebra.Order.Ring.Int
import Mathlib.Data.Nat.Log
import Mathlib.Tactic.Linarith
import Mathlib.Tactic.Ring

/-!
# Decimal rounding of integers

`roundHalfAway u x` is `x / u` rounded to an integer, halves away from zero : the truncated
quotient plus a `carry`. `roundSig n x` rounds `x` to `n` significant decimal digits in the
same way, as a decimal type of that precision does, and leaves every multiple of its last
digit's unit alone (`roundSig_of_dvd`).

Rounding to a unit and then to an even multiple of it carries a little more often than
rounding once (`carryAfter`, `roundHalfAway_twice`). `sum_roundHalfAway` : rounding the terms
of a sum keeps the sum exactly when the carries make up for the remainders.
-/

namespace Rounding

/-- One away from zero when the remainder is at least half of `u`. -/
def carry (u : ℕ) (x : ℤ) : ℤ :=
  if u ≤ 2 * (x.tmod u).natAbs then x.sign else 0

/-- `x / u` to the nearest integer, halves away from zero. -/
def roundHalfAway (u : ℕ) (x : ℤ) : ℤ :=
  x.tdiv u + carry u x

/-- The unit of the `n`-th significant digit of `x`. -/
def unit (n : ℕ) (x : ℤ) : ℕ :=
  10 ^ (Nat.log 10 x.natAbs + 1 - n)

/-- `x` to `n` significant digits. -/
def roundSig (n : ℕ) (x : ℤ) : ℤ :=
  unit n x * roundHalfAway (unit n x) x

theorem mul_roundHalfAway (u : ℕ) (x : ℤ) :
    u * roundHalfAway u x = x - x.tmod u + u * carry u x := by
  have h := Int.mul_tdiv_add_tmod x u
  rw [roundHalfAway, mul_add]
  omega

theorem carry_of_dvd {u : ℕ} {x : ℤ} (hu : 0 < u) (h : (u : ℤ) ∣ x) : carry u x = 0 := by
  rw [carry, Int.tmod_eq_zero_of_dvd h, if_neg]
  rw [Int.natAbs_zero]
  omega

theorem roundHalfAway_nonneg (u : ℕ) {x : ℤ} (h : 0 ≤ x) : 0 ≤ roundHalfAway u x := by
  have hd : 0 ≤ x.tdiv u := Int.tdiv_nonneg h (Int.natCast_nonneg u)
  have hs : 0 ≤ x.sign := Int.sign_nonneg_iff.2 h
  unfold roundHalfAway carry
  split <;> omega

theorem roundSig_nonneg (n : ℕ) {x : ℤ} (h : 0 ≤ x) : 0 ≤ roundSig n x :=
  mul_nonneg (Int.natCast_nonneg _) (roundHalfAway_nonneg _ h)

/-- A multiple of the unit is not changed. -/
theorem mul_roundHalfAway_of_dvd {u : ℕ} {x : ℤ} (hu : 0 < u) (h : (u : ℤ) ∣ x) :
    u * roundHalfAway u x = x := by
  rw [mul_roundHalfAway, carry_of_dvd hu h, Int.tmod_eq_zero_of_dvd h]
  ring

theorem roundSig_of_dvd {n : ℕ} {x : ℤ} (h : (unit n x : ℤ) ∣ x) : roundSig n x = x :=
  mul_roundHalfAway_of_dvd (Nat.pow_pos (by omega)) h

/-- The unit of a number of at most `n + k` digits is at most the one of the `k`-th digit. -/
theorem unit_dvd {n k : ℕ} {x : ℤ} (hn : 0 < n) (h : x.natAbs < 10 ^ (n + k)) :
    unit n x ∣ 10 ^ k := by
  have hlog : Nat.log 10 x.natAbs < n + k := by
    rcases eq_or_ne x.natAbs 0 with h0 | h0
    · rw [h0, Nat.log_zero_right]
      omega
    · exact Nat.log_lt_of_lt_pow h0 h
  exact pow_dvd_pow 10 (by omega)

/-- A number of at most `n` digits, times a power of ten, is not changed. -/
theorem roundSig_mul_pow {n : ℕ} {x : ℤ} (k : ℕ) (hn : 0 < n) (h : x.natAbs < 10 ^ n) :
    roundSig n (x * 10 ^ k) = x * 10 ^ k := by
  have hx : (x * 10 ^ k).natAbs < 10 ^ (n + k) := by
    rw [Int.natAbs_mul, Int.natAbs_pow, pow_add]
    exact Nat.mul_lt_mul_of_pos_right h (Nat.pow_pos (by omega))
  refine roundSig_of_dvd (Dvd.dvd.mul_left ?_ x)
  exact_mod_cast unit_dvd hn hx

/-- A number of at most `n` digits is not changed. -/
theorem roundSig_of_lt {n : ℕ} {x : ℤ} (hn : 0 < n) (h : x.natAbs < 10 ^ n) :
    roundSig n x = x := by
  simpa using roundSig_mul_pow 0 hn h

/-! ## Rounding twice -/

theorem carry_neg (u : ℕ) (x : ℤ) : carry u (-x) = -carry u x := by
  simp only [carry, Int.neg_tmod, Int.natAbs_neg, Int.sign_neg]
  split <;> simp

theorem roundHalfAway_neg (u : ℕ) (x : ℤ) : roundHalfAway u (-x) = -roundHalfAway u x := by
  rw [roundHalfAway, roundHalfAway, carry_neg, Int.neg_tdiv]
  ring

theorem roundSig_neg (n : ℕ) (x : ℤ) : roundSig n (-x) = -roundSig n x := by
  rw [roundSig, roundSig, roundHalfAway_neg, unit, unit, Int.natAbs_neg]
  ring

/-- A number that is rounded to `a` or more is at least `a`, if `a` has at most `n` digits. -/
theorem le_of_le_roundSig {n : ℕ} {a x : ℤ} (hn : 0 < n) (ha : 0 < a) (hlt : a < 10 ^ n)
    (h : a ≤ roundSig n x) : a ≤ x := by
  by_contra hx
  push Not at hx
  rcases lt_or_ge x 0 with hneg | hpos
  · have hround := roundSig_nonneg n (by omega : 0 ≤ -x)
    rw [roundSig_neg] at hround
    omega
  · have habs : (x.natAbs : ℤ) < (10 ^ n : ℕ) := by
      rw [Int.natAbs_of_nonneg hpos]
      exact_mod_cast hx.trans hlt
    rw [roundSig_of_lt hn (by exact_mod_cast habs)] at h
    omega

theorem roundHalfAway_natCast {u : ℕ} (hu : 0 < u) (n : ℕ) :
    roundHalfAway u n = (n / u + if u ≤ 2 * (n % u) then 1 else 0 : ℕ) := by
  have hm : ((n : ℤ).tmod u).natAbs = n % u := by
    rw [Int.natAbs_tmod, Int.natAbs_natCast, Int.natAbs_natCast]
  have hd : (n : ℤ).tdiv u = (n / u : ℕ) := (Int.ofNat_tdiv n u).symm
  rw [roundHalfAway, carry, hm, hd]
  rcases Nat.eq_zero_or_pos n with rfl | hn
  · simp [hu.ne']
  · rw [Int.sign_natCast_of_ne_zero hn.ne']
    push_cast
    rfl

/-- Rounding to `n + 1` digits keeps a number of more digits at `10 ^ n` at least. -/
theorem le_roundSig {n : ℕ} {x : ℤ} (h : 10 ^ n ≤ x) : 10 ^ n ≤ roundSig (n + 1) x := by
  obtain ⟨x, rfl⟩ := Int.eq_ofNat_of_zero_le (le_trans (by positivity) h)
  have hx : 10 ^ n ≤ x := by exact_mod_cast h
  have hpos : 0 < x := lt_of_lt_of_le (by positivity) hx
  have hlog : n ≤ Nat.log 10 x := (Nat.le_log_iff_pow_le (by omega) hpos.ne').2 hx
  have hu : unit (n + 1) (x : ℤ) = 10 ^ (Nat.log 10 x - n) := by
    rw [unit, Int.natAbs_natCast, Nat.add_sub_add_right]
  have hdiv : 10 ^ n ≤ x / unit (n + 1) (x : ℤ) := by
    rw [hu, Nat.le_div_iff_mul_le (by positivity), ← pow_add, Nat.add_sub_cancel' hlog]
    exact Nat.pow_log_le_self 10 hpos.ne'
  have hround : (10 ^ n : ℤ) ≤ roundHalfAway (unit (n + 1) (x : ℤ)) x := by
    rw [roundHalfAway_natCast (by rw [hu]; positivity)]
    exact_mod_cast hdiv.trans (Nat.le_add_right _ _)
  have hone : (1 : ℤ) ≤ unit (n + 1) (x : ℤ) := by
    rw [hu]
    exact_mod_cast Nat.one_le_pow _ _ (by omega)
  calc (10 ^ n : ℤ) ≤ roundHalfAway (unit (n + 1) (x : ℤ)) x := hround
    _ ≤ unit (n + 1) (x : ℤ) * roundHalfAway (unit (n + 1) (x : ℤ)) x :=
      le_mul_of_one_le_left (le_trans (by positivity) hround) hone

/-- What rounding to `v` first adds to the cases where `u` rounds up : remainders that are
short of the half by at most half of `v`. -/
def carryAfter (v u : ℕ) (x : ℤ) : ℤ :=
  if u ≤ 2 * (x.tmod u).natAbs + v then x.sign else 0

theorem carryAfter_neg (v u : ℕ) (x : ℤ) : carryAfter v u (-x) = -carryAfter v u x := by
  simp only [carryAfter, Int.neg_tmod, Int.natAbs_neg, Int.sign_neg]
  split <;> simp

/-- The half is reached with the digits below `v` rounded, exactly when it is reached with
half of `v` to spare. -/
theorem half_le_iff {v t a b : ℕ} (hv : 0 < v) (hb : b < v) :
    t ≤ a + (if v ≤ 2 * b then 1 else 0) ↔ v * (2 * t) ≤ 2 * (b + v * a) + v := by
  constructor
  · intro h
    split at h
    · have := Nat.mul_le_mul_left v h
      rw [Nat.mul_add] at this
      linarith
    · have := Nat.mul_le_mul_left v h
      linarith
  · intro h
    by_contra hlt
    have := Nat.mul_le_mul_left v (Nat.lt_of_not_le hlt)
    split at this
    · rw [Nat.mul_succ, Nat.mul_add] at this
      linarith
    · rw [Nat.mul_succ] at this
      linarith

/-- Adding a carry to `m` and rounding by `2 * t`. -/
theorem div_add_half {m t e : ℕ} (ht : 0 < t) (he : e ≤ 1) :
    (m + e) / (2 * t) + (if t ≤ (m + e) % (2 * t) then 1 else 0) =
      m / (2 * t) + if t ≤ m % (2 * t) + e then 1 else 0 := by
  have hlt := Nat.mod_lt m (show 0 < 2 * t by omega)
  have hm := Nat.div_add_mod m (2 * t)
  rcases Nat.lt_or_ge (m % (2 * t) + e) (2 * t) with h | h
  · have hq : (m + e) / (2 * t) = m / (2 * t) ∧ (m + e) % (2 * t) = m % (2 * t) + e :=
      (Nat.div_mod_unique (by omega)).2 ⟨by omega, h⟩
    rw [hq.1, hq.2]
  · have hq : (m + e) / (2 * t) = m / (2 * t) + 1 ∧ (m + e) % (2 * t) = 0 :=
      (Nat.div_mod_unique (by omega)).2 ⟨by rw [Nat.mul_add]; omega, by omega⟩
    rw [hq.1, hq.2, if_neg (by omega), if_pos (by omega)]

theorem roundHalfAway_twice_natCast {u v : ℕ} (hv : 0 < v) (hu : 0 < u) (h : 2 * v ∣ u) (n : ℕ) :
    roundHalfAway u (v * roundHalfAway v n) = (n : ℤ).tdiv u + carryAfter v u n := by
  obtain ⟨t, ht⟩ := h
  have hu' : u = v * (2 * t) := by rw [ht]; ring
  have ht0 : 0 < t := by
    rcases Nat.eq_zero_or_pos t with rfl | h0
    · simp [hu'] at hu
    · exact h0
  have hm : ((n : ℤ).tmod u).natAbs = n % v + v * (n / v % (2 * t)) := by
    rw [Int.natAbs_tmod, Int.natAbs_natCast, Int.natAbs_natCast, hu', Nat.mod_mul]
  have hd : (n : ℤ).tdiv u = (n / v / (2 * t) : ℕ) := by
    rw [Nat.div_div_eq_div_mul, ← hu']
    exact (Int.ofNat_tdiv n u).symm
  have hc : carryAfter v u n =
      (if t ≤ n / v % (2 * t) + (if v ≤ 2 * (n % v) then 1 else 0) then 1 else 0 : ℕ) := by
    rw [carryAfter, hm, hu']
    simp only [half_le_iff hv (Nat.mod_lt n hv)]
    rcases Nat.eq_zero_or_pos n with rfl | hn
    · have hlt : ¬ v * (2 * t) ≤ v := by nlinarith
      simp [hlt]
    · rw [Int.sign_natCast_of_ne_zero hn.ne']
      push_cast
      rfl
  have hhalf : ∀ r, v * (2 * t) ≤ 2 * (v * r) ↔ t ≤ r := fun r => by
    rw [show 2 * (v * r) = v * (2 * r) by ring, Nat.mul_le_mul_left_iff hv]
    omega
  rw [roundHalfAway_natCast hv, ← Nat.cast_mul, roundHalfAway_natCast hu, hd, hc, ← Nat.cast_add,
    hu', Nat.mul_div_mul_left _ _ hv, Nat.mul_mod_mul_left]
  simp only [hhalf]
  rw [div_add_half ht0 (by split <;> omega)]
/-- Rounding to `v` and then to `u`, an even multiple of it. -/
theorem roundHalfAway_twice {u v : ℕ} (hv : 0 < v) (hu : 0 < u) (h : 2 * v ∣ u) (x : ℤ) :
    roundHalfAway u (v * roundHalfAway v x) = x.tdiv u + carryAfter v u x := by
  rcases Int.eq_nat_or_neg x with ⟨n, rfl | rfl⟩
  · exact roundHalfAway_twice_natCast hv hu h n
  · rw [roundHalfAway_neg, mul_neg, roundHalfAway_neg, roundHalfAway_twice_natCast hv hu h n,
      carryAfter_neg, Int.neg_tdiv]
    ring

/-- Rounding the terms of a sum, after each was cut to `n` digits, keeps the sum exactly when
the carries make up for the remainders. -/
theorem sum_roundHalfAway {n u : ℕ} (hu : 0 < u) : ∀ xs : List ℤ,
    (∀ x ∈ xs, 2 * unit n x ∣ u) →
      u * (xs.map fun x => roundHalfAway u (roundSig n x)).sum =
        xs.sum - (xs.map fun x => x.tmod u).sum +
          u * (xs.map fun x => carryAfter (unit n x) u x).sum
  | [], _ => by simp
  | x :: xs, h => by
    have hx : roundHalfAway u (roundSig n x) = x.tdiv u + carryAfter (unit n x) u x :=
      roundHalfAway_twice (Nat.pow_pos (by omega)) hu (h x (by simp)) x
    have hq := Int.mul_tdiv_add_tmod x u
    have ih := sum_roundHalfAway hu xs fun y hy => h y (List.mem_cons_of_mem x hy)
    simp only [List.map_cons, List.sum_cons, mul_add, ih, hx]
    linarith

end Rounding
