import Mathlib.Algebra.Order.BigOperators.Group.List
import Mathlib.Data.Int.Basic
import Mathlib.Data.List.Infix
import Mathlib.Tactic.Linarith
import Mathlib.Tactic.Ring

/-!
# Splitting a pool by shares

`apportion P D ss` splits the pool `P` among shares out of `D` : every share but the last
gets `P · s / D` truncated toward zero, and the last gets what is left. `apportionFrom`
is the same with the amount handed out so far as an accumulator, as a loop computes it.

The parts add up to the pool whatever the shares are (`sum_apportion`). When the pool
and the shares are not negative and the shares sum to `D`, no part is negative, and the
last is above its exact share by less than one unit for each of the others
(`apportion_last`). So every part is its truncated quotient and at most one unit for each
other share (`apportion_near`), and two orders of the shares differ by no more
(`abs_apportion_sub_le`).

In coarser units of at least `D` each, with the pool rounded up, the parts are the truncated
ones exactly when every exact part is a whole number of them (`apportion_map_ediv_iff`).

`valuesFrom` lists what the loop computes on the way. Of these only the products can exceed
the pool (`valuesFrom_le`).
-/

namespace Apportion

/-- The parts for the remaining shares when `d` of the pool is already handed out. -/
def apportionFrom (P D : ℤ) : ℤ → List ℤ → List ℤ
  | _, [] => []
  | d, [_] => [P - d]
  | d, s :: s' :: ss => (P * s).tdiv D :: apportionFrom P D (d + (P * s).tdiv D) (s' :: ss)

/-- Truncated parts for all shares but the last, which gets the remainder. -/
def apportion (P D : ℤ) (ss : List ℤ) : List ℤ :=
  apportionFrom P D 0 ss

/-- The products, running sums and the remainder that `apportionFrom` goes through. -/
def valuesFrom (P D : ℤ) : ℤ → List ℤ → List ℤ
  | _, [] => []
  | d, [_] => [P - d]
  | d, s :: s' :: ss =>
    P * s :: (d + (P * s).tdiv D) :: valuesFrom P D (d + (P * s).tdiv D) (s' :: ss)

variable {P D : ℤ}

theorem length_apportionFrom : ∀ (d : ℤ) (ss : List ℤ), (apportionFrom P D d ss).length = ss.length
  | _, [] => rfl
  | _, [_] => rfl
  | d, s :: s' :: ss => by
    simp [apportionFrom, length_apportionFrom _ (s' :: ss)]

@[simp] theorem length_apportion (ss : List ℤ) : (apportion P D ss).length = ss.length :=
  length_apportionFrom 0 ss

theorem apportionFrom_ne_nil (d : ℤ) {ss : List ℤ} (h : ss ≠ []) : apportionFrom P D d ss ≠ [] := by
  rw [← List.length_pos_iff, length_apportionFrom]
  exact List.length_pos_iff.2 h

theorem apportion_ne_nil {ss : List ℤ} (h : ss ≠ []) : apportion P D ss ≠ [] :=
  apportionFrom_ne_nil 0 h

theorem sum_apportionFrom : ∀ (d : ℤ) (ss : List ℤ), ss ≠ [] → (apportionFrom P D d ss).sum = P - d
  | _, [], h => absurd rfl h
  | _, [_], _ => by simp [apportionFrom]
  | d, s :: s' :: ss, _ => by
    rw [apportionFrom, List.sum_cons, sum_apportionFrom _ (s' :: ss) (List.cons_ne_nil _ _)]
    ring

/-- The whole pool is handed out. -/
theorem sum_apportion {ss : List ℤ} (h : ss ≠ []) : (apportion P D ss).sum = P := by
  rw [apportion, sum_apportionFrom 0 ss h, sub_zero]

theorem getElem_apportionFrom : ∀ (d : ℤ) (ss : List ℤ) (i : ℕ) (hi : i + 1 < ss.length)
    (h : i < (apportionFrom P D d ss).length), (apportionFrom P D d ss)[i] = (P * ss[i]).tdiv D
  | _, [], _, hi, _ => by simp at hi
  | _, [_], _, hi, _ => by simp at hi
  | d, s :: s' :: ss, 0, _, _ => rfl
  | d, s :: s' :: ss, i + 1, hi, h => by
    simpa only [apportionFrom, List.getElem_cons_succ] using
      getElem_apportionFrom (d + (P * s).tdiv D) (s' :: ss) i (by simpa using hi)
        (by simpa [apportionFrom] using h)

/-- Every part but the last is the truncated quotient. -/
theorem getElem_apportion {ss : List ℤ} {i : ℕ} (hi : i + 1 < ss.length)
    (h : i < (apportion P D ss).length) : (apportion P D ss)[i] = (P * ss[i]).tdiv D :=
  getElem_apportionFrom 0 ss i hi h

/-- A truncated quotient of nonnegative numbers falls short by less than one. -/
theorem tdiv_bounds {x : ℤ} (hx : 0 ≤ x) (hD : 0 < D) :
    0 ≤ x.tdiv D ∧ D * x.tdiv D ≤ x ∧ x ≤ D * x.tdiv D + (D - 1) := by
  rw [Int.tdiv_eq_ediv_of_nonneg hx]
  have h1 := Int.mul_ediv_add_emod x D
  have h2 := Int.emod_nonneg x hD.ne'
  have h3 := Int.emod_lt_of_pos x hD
  exact ⟨Int.ediv_nonneg hx hD.le, by omega, by omega⟩

/-- The product of every share but the last is among the values. -/
theorem mul_mem_valuesFrom {s : ℤ} : ∀ {d : ℤ} {ss : List ℤ}, s ∈ ss.dropLast →
    P * s ∈ valuesFrom P D d ss
  | _, [], h => by simp at h
  | _, [_], h => by simp at h
  | d, t :: t' :: ss, h => by
    rw [List.dropLast_cons_cons, List.mem_cons] at h
    rcases h with rfl | h
    · simp [valuesFrom]
    · exact List.mem_cons_of_mem _ (List.mem_cons_of_mem _ (mul_mem_valuesFrom h))

/-- While the shares left do not exceed the pool left, every value is one of the products or
between zero and the pool. -/
theorem valuesFrom_le (hP : 0 ≤ P) (hD : 0 < D) {x : ℤ} : ∀ {d : ℤ} {ss : List ℤ},
    (∀ s ∈ ss, 0 ≤ s) → 0 ≤ d → D * d + P * ss.sum ≤ D * P → x ∈ valuesFrom P D d ss →
      0 ≤ x ∧ (x ≤ P ∨ ∃ s ∈ ss.dropLast, x = P * s)
  | _, [], _, _, _, hx => by simp [valuesFrom] at hx
  | d, [s], hs, hd, hle, hx => by
    obtain rfl : x = P - d := by simpa [valuesFrom] using hx
    have hPs : 0 ≤ P * s := mul_nonneg hP (hs s (by simp))
    have hdP : D * d ≤ D * P := by
      simp only [List.sum_cons, List.sum_nil, add_zero] at hle
      omega
    have := le_of_mul_le_mul_left hdP hD
    exact ⟨by omega, Or.inl (by omega)⟩
  | d, s :: s' :: ss, hs, hd, hle, hx => by
    have hrest : ∀ t ∈ s' :: ss, 0 ≤ t := fun t ht => hs t (List.mem_cons_of_mem s ht)
    have hPs : 0 ≤ P * s := mul_nonneg hP (hs s (by simp))
    have hPrest : 0 ≤ P * (s' :: ss).sum := mul_nonneg hP (List.sum_nonneg hrest)
    rw [List.sum_cons, mul_add] at hle
    obtain ⟨hq0, hq1, -⟩ := tdiv_bounds hPs hD
    have hle' : D * (d + (P * s).tdiv D) + P * (s' :: ss).sum ≤ D * P := by
      rw [mul_add]
      omega
    rw [List.dropLast_cons_cons]
    rcases List.mem_cons.1 hx with rfl | hx
    · exact ⟨hPs, Or.inr ⟨s, by simp, rfl⟩⟩
    rcases List.mem_cons.1 hx with rfl | hx
    · have hdP : D * (d + (P * s).tdiv D) ≤ D * P := by omega
      exact ⟨by omega, Or.inl (le_of_mul_le_mul_left hdP hD)⟩
    · obtain ⟨h0, h⟩ := valuesFrom_le hP hD hrest (by omega) hle' hx
      refine ⟨h0, h.imp_right ?_⟩
      rintro ⟨t, ht, hxt⟩
      exact ⟨t, List.mem_cons_of_mem s ht, hxt⟩

/-- The last part, scaled by `D`, exceeds what the shares before it leave of the pool by
at most `D - 1` for each of them. -/
theorem last_apportionFrom (hP : 0 ≤ P) (hD : 0 < D) : ∀ (d : ℤ) (ss : List ℤ) (h : ss ≠ []),
    (∀ s ∈ ss, 0 ≤ s) →
    D * (P - d) - P * (ss.sum - ss.getLast h) ≤
        D * (apportionFrom P D d ss).getLast (apportionFrom_ne_nil d h) ∧
      D * (apportionFrom P D d ss).getLast (apportionFrom_ne_nil d h) ≤
        D * (P - d) - P * (ss.sum - ss.getLast h) + (D - 1) * (ss.length - 1)
  | _, [], h, _ => absurd rfl h
  | d, [s], _, _ => by simp [apportionFrom]
  | d, s :: s' :: ss, _, hs => by
    have hne : s' :: ss ≠ [] := List.cons_ne_nil _ _
    obtain ⟨hlo, hhi⟩ := last_apportionFrom hP hD (d + (P * s).tdiv D) (s' :: ss) hne
      fun x hx => hs x (List.mem_cons_of_mem _ hx)
    obtain ⟨-, hq1, hq2⟩ := tdiv_bounds (x := P * s) (mul_nonneg hP (hs s (by simp))) hD
    have hne' : apportionFrom P D (d + (P * s).tdiv D) (s' :: ss) ≠ [] :=
      apportionFrom_ne_nil _ hne
    have hl : (s :: s' :: ss).getLast (List.cons_ne_nil _ _) = (s' :: ss).getLast hne :=
      List.getLast_cons hne
    simp only [apportionFrom, List.getLast_cons hne', hl, List.sum_cons, List.length_cons]
      at hlo hhi ⊢
    push_cast at hlo hhi ⊢
    constructor
    · linarith
    · linarith

/-- With shares that sum to `D`, the last part covers its exact share and absorbs at most
`D - 1` parts of a unit from each of the others. -/
theorem apportion_last (hP : 0 ≤ P) (hD : 0 < D) {ss : List ℤ} (h : ss ≠ [])
    (hs : ∀ s ∈ ss, 0 ≤ s) (hsum : ss.sum = D) :
    P * ss.getLast h ≤ D * (apportion P D ss).getLast (apportion_ne_nil h) ∧
      D * (apportion P D ss).getLast (apportion_ne_nil h) ≤
        P * ss.getLast h + (D - 1) * (ss.length - 1) := by
  obtain ⟨hlo, hhi⟩ := last_apportionFrom hP hD 0 ss h hs
  have hex : D * (P - 0) - P * (ss.sum - ss.getLast h) = P * ss.getLast h := by
    rw [hsum]
    ring
  rw [hex] at hlo hhi
  exact ⟨hlo, hhi⟩

/-- No part is negative. -/
theorem apportion_nonneg (hP : 0 ≤ P) (hD : 0 < D) {ss : List ℤ} (hs : ∀ s ∈ ss, 0 ≤ s)
    (hsum : ss.sum = D) : ∀ a ∈ apportion P D ss, 0 ≤ a := by
  intro a ha
  have hne : ss ≠ [] := by
    rintro rfl
    exact absurd hsum.symm hD.ne'
  obtain ⟨i, hi, rfl⟩ := List.getElem_of_mem ha
  rw [length_apportion] at hi
  rcases Nat.lt_or_ge (i + 1) ss.length with hlt | hge
  · rw [getElem_apportion hlt]
    exact (tdiv_bounds (mul_nonneg hP (hs _ (List.getElem_mem _))) hD).1
  · have hlast := (apportion_last hP hD hne hs hsum).1
    obtain rfl : i = (apportion P D ss).length - 1 := by
      rw [length_apportion]
      omega
    rw [← List.getLast_eq_getElem (apportion_ne_nil hne)]
    have h0 : 0 ≤ P * ss.getLast hne := mul_nonneg hP (hs _ (List.getLast_mem hne))
    exact nonneg_of_mul_nonneg_right (h0.trans hlast) hD

theorem apportionFrom_neg : ∀ (d : ℤ) (ss : List ℤ),
    apportionFrom (-P) D (-d) ss = (apportionFrom P D d ss).map (-·)
  | _, [] => rfl
  | d, [_] => by
    simp only [apportionFrom, List.map_cons, List.map_nil]
    rw [show -P - -d = -(P - d) by ring]
  | d, s :: s' :: ss => by
    have hq : (-P * s).tdiv D = -(P * s).tdiv D := by rw [neg_mul, Int.neg_tdiv]
    simp only [apportionFrom, List.map_cons, hq]
    rw [← neg_add, apportionFrom_neg]

theorem apportion_neg (ss : List ℤ) : apportion (-P) D ss = (apportion P D ss).map (-·) := by
  have h := apportionFrom_neg (P := P) (D := D) 0 ss
  rwa [neg_zero] at h

/-- Every part of a pool that is not negative is its truncated quotient, and at most one unit
more for each other share. -/
theorem apportion_near (hP : 0 ≤ P) (hD : 0 < D) {ss : List ℤ} (hs : ∀ s ∈ ss, 0 ≤ s)
    (hsum : ss.sum = D) {i : ℕ} (hi : i < ss.length) (h : i < (apportion P D ss).length) :
    (P * ss[i]).tdiv D ≤ (apportion P D ss)[i] ∧
      (apportion P D ss)[i] ≤ (P * ss[i]).tdiv D + (ss.length - 1) := by
  have hPs : 0 ≤ P * ss[i] := mul_nonneg hP (hs _ (List.getElem_mem _))
  obtain ⟨-, hq1, hq2⟩ := tdiv_bounds hPs hD
  rcases Nat.lt_or_ge (i + 1) ss.length with hlt | hge
  · rw [getElem_apportion hlt]
    omega
  · have hne : ss ≠ [] := List.length_pos_iff.1 (by omega)
    obtain ⟨hlo, hhi⟩ := apportion_last hP hD hne hs hsum
    obtain rfl : i = ss.length - 1 := by omega
    have hget : (apportion P D ss)[ss.length - 1] =
        (apportion P D ss).getLast (apportion_ne_nil hne) := by
      simp [List.getLast_eq_getElem]
    rw [hget]
    rw [List.getLast_eq_getElem hne] at hlo hhi
    set a := (apportion P D ss).getLast (apportion_ne_nil hne)
    set q := (P * ss[ss.length - 1]).tdiv D
    have hn : (1 : ℤ) ≤ ss.length := by omega
    constructor
    · exact le_of_mul_le_mul_left (hq1.trans hlo) hD
    · have hlt : D * a < D * (q + ss.length) := by
        have hring : D * (q + ss.length) = D * q + (D - 1) + (D - 1) * (ss.length - 1) +
          ss.length := by ring
        omega
      have := lt_of_mul_lt_mul_left hlt hD.le
      omega

/-- No part is larger than the pool, of either sign. -/
theorem natAbs_le_of_mem_apportion (hD : 0 < D) {ss : List ℤ} (hs : ∀ s ∈ ss, 0 ≤ s)
    (hsum : ss.sum = D) {a : ℤ} (ha : a ∈ apportion P D ss) : a.natAbs ≤ P.natAbs := by
  have hne : ss ≠ [] := by
    rintro rfl
    exact absurd hsum.symm hD.ne'
  have hpos : ∀ {P a : ℤ}, 0 ≤ P → a ∈ apportion P D ss → a.natAbs ≤ P.natAbs := by
    intro P a hP ha
    have hnn := apportion_nonneg hP hD hs hsum
    have hle : a ≤ (apportion P D ss).sum := List.single_le_sum hnn a ha
    rw [sum_apportion hne] at hle
    have h0 := hnn a ha
    omega
  rcases le_total 0 P with hP | hP
  · exact hpos hP ha
  · have hneg : -a ∈ apportion (-P) D ss := by
      rw [apportion_neg]
      exact List.mem_map_of_mem ha
    simpa using hpos (by omega) hneg

/-- Where a share stands moves its part by at most one unit for each other share. -/
theorem abs_apportion_sub_le (hD : 0 < D) {ss ss' : List ℤ} (hs : ∀ s ∈ ss, 0 ≤ s)
    (hsum : ss.sum = D) (hperm : ss'.Perm ss) {i j : ℕ} (hi : i < ss.length)
    (hj : j < ss'.length) (hij : ss[i] = ss'[j]) (h : i < (apportion P D ss).length)
    (h' : j < (apportion P D ss').length) :
    |(apportion P D ss)[i] - (apportion P D ss')[j]| ≤ ss.length - 1 := by
  have hs' : ∀ s ∈ ss', 0 ≤ s := fun s hm => hs s (hperm.mem_iff.1 hm)
  have hsum' : ss'.sum = D := hperm.sum_eq.trans hsum
  have hlen : ss'.length = ss.length := hperm.length_eq
  have hpos : ∀ {P : ℤ} (h : i < (apportion P D ss).length) (h' : j < (apportion P D ss').length),
      0 ≤ P → |(apportion P D ss)[i] - (apportion P D ss')[j]| ≤ ss.length - 1 := by
    intro P h h' hP
    obtain ⟨h1, h2⟩ := apportion_near hP hD hs hsum hi h
    obtain ⟨h3, h4⟩ := apportion_near hP hD hs' hsum' hj h'
    rw [hij] at h1 h2
    rw [hlen] at h4
    rw [abs_le]
    omega
  rcases le_total 0 P with hP | hP
  · exact hpos h h' hP
  · have hle := hpos (P := -P) (by simpa using hi) (by simpa using hj) (by omega)
    simp only [apportion_neg, List.getElem_map] at hle
    rw [← abs_neg]
    convert hle using 2
    ring

/-! ## Coarser units -/

variable {Q k : ℤ}

theorem apportionFrom_of_dvd : ∀ {d : ℤ} {ss : List ℤ}, D ≠ 0 → (∀ s ∈ ss, D ∣ P * s) →
    D * d + P * ss.sum = D * P → apportionFrom P D d ss = ss.map fun s => P * s / D
  | _, [], _, _, _ => rfl
  | d, [s], hD, _, h => by
    rw [List.sum_singleton] at h
    have hs : P * s = D * (P - d) := by rw [mul_sub]; omega
    rw [apportionFrom, List.map_singleton, hs, Int.mul_ediv_cancel_left _ hD]
  | d, s :: s' :: ss, hD, hdvd, h => by
    obtain ⟨q, hq⟩ := hdvd s List.mem_cons_self
    have htdiv : (P * s).tdiv D = q := by rw [hq, Int.mul_tdiv_cancel_left _ hD]
    have hrest : D * (d + q) + P * (s' :: ss).sum = D * P := by
      rw [List.sum_cons, mul_add, hq] at h
      rw [mul_add]
      omega
    have hediv : P * s / D = q := by rw [hq, Int.mul_ediv_cancel_left _ hD]
    rw [apportionFrom, htdiv, List.map_cons, hediv,
      apportionFrom_of_dvd hD (fun t ht => hdvd t (List.mem_cons_of_mem s ht)) hrest]

/-- Shares that divide the pool get exact parts. -/
theorem apportion_of_dvd {ss : List ℤ} (hD : D ≠ 0) (hdvd : ∀ s ∈ ss, D ∣ P * s)
    (hsum : ss.sum = D) : apportion P D ss = ss.map fun s => P * s / D :=
  apportionFrom_of_dvd hD hdvd (by rw [hsum]; ring)

theorem dvd_mul_sum {m : ℤ} : ∀ {ss : List ℤ}, (∀ s ∈ ss, m ∣ P * s) → m ∣ P * ss.sum
  | [], _ => by simp
  | s :: ss, h => by
    rw [List.sum_cons, mul_add]
    exact Int.dvd_add (h s List.mem_cons_self)
      (dvd_mul_sum fun t ht => h t (List.mem_cons_of_mem s ht))

theorem sum_map_ediv_le (hk : 0 < k) : ∀ as : List ℤ,
    k * (as.map (· / k)).sum ≤ as.sum ∧
      (k * (as.map (· / k)).sum = as.sum → ∀ a ∈ as, k ∣ a)
  | [] => ⟨by simp, by simp⟩
  | a :: as => by
    obtain ⟨hle, hdvd⟩ := sum_map_ediv_le hk as
    have hmod := Int.mul_ediv_add_emod a k
    have hnn := Int.emod_nonneg a hk.ne'
    rw [List.map_cons, List.sum_cons, List.sum_cons, mul_add]
    refine ⟨by omega, fun h => List.forall_mem_cons.2 ⟨?_, hdvd (by omega)⟩⟩
    exact Int.dvd_of_emod_eq_zero (by omega)

theorem tdiv_of_map_apportionFrom : ∀ {d d' : ℤ} {ss : List ℤ},
    apportionFrom P D d ss = (apportionFrom Q D d' ss).map (k * ·) →
      ∀ s ∈ ss.dropLast, (P * s).tdiv D = k * (Q * s).tdiv D
  | _, _, [], _, s, hs => by cases hs
  | _, _, [_], _, s, hs => by cases hs
  | d, d', t :: t' :: ss, h, s, hs => by
    simp only [apportionFrom, List.map_cons, List.cons.injEq] at h
    rw [List.dropLast_cons_cons, List.mem_cons] at hs
    rcases hs with rfl | hs
    · exact h.1
    · exact tdiv_of_map_apportionFrom h.2 s hs

/-- A product that is truncated alike in a unit finer by `k` is exact. -/
theorem dvd_of_tdiv_mul {x : ℤ} (hx : 0 ≤ x) (hD : 0 < D) (hk : D ≤ k)
    (h : (k * x).tdiv D = k * x.tdiv D) : D ∣ x := by
  rw [Int.tdiv_eq_ediv_of_nonneg hx,
    Int.tdiv_eq_ediv_of_nonneg (mul_nonneg (hD.le.trans hk) hx)] at h
  have hmod := Int.mul_ediv_add_emod x D
  have hlt := Int.emod_lt_of_pos (k * x) hD
  have hmod' := Int.mul_ediv_add_emod (k * x) D
  have hring : k * (x % D) = k * x - D * (k * (x / D)) := by
    have hr : x % D = x - D * (x / D) := by omega
    rw [hr]
    ring
  have hsmall : k * (x % D) < D := by
    rw [hring, ← h]
    omega
  refine Int.dvd_of_emod_eq_zero ?_
  by_contra hne
  have hpos : 1 ≤ x % D := by
    have := Int.emod_nonneg x hD.ne'
    omega
  have := le_mul_of_one_le_right (hD.le.trans hk) hpos
  omega

/-- A pool apportioned in units, and the pool rounded up to coarser units of at least `D`
each. The parts agree, truncated to coarser units, exactly when every exact part is a whole
number of these. -/
theorem apportion_map_ediv_iff (hD : 0 < D) (hk : D ≤ k) (hP : 0 ≤ P) (hQ : P ≤ k * Q)
    (hQ' : k * Q < P + k) {ss : List ℤ} (hs : ∀ s ∈ ss, 0 ≤ s) (hsum : ss.sum = D) :
    (apportion P D ss).map (· / k) = apportion Q D ss ↔ ∀ s ∈ ss, k * D ∣ P * s := by
  have hk0 : 0 < k := hD.trans_le hk
  have hne : ss ≠ [] := by
    rintro rfl
    exact absurd hsum.symm hD.ne'
  constructor
  · intro h
    obtain ⟨hle, hexact⟩ := sum_map_ediv_le hk0 (apportion P D ss)
    rw [h, sum_apportion hne, sum_apportion hne] at hle hexact
    have hPQ : P = k * Q := by omega
    have hQ0 : 0 ≤ Q := by
      by_contra hneg
      have := mul_neg_of_pos_of_neg hk0 (not_le.1 hneg)
      omega
    have hmap : apportion P D ss = (apportion Q D ss).map (k * ·) := by
      rw [← h, List.map_map]
      refine (List.map_id _).symm.trans (List.map_congr_left fun a ha => ?_)
      exact (Int.mul_ediv_cancel' (hexact hPQ.symm a ha)).symm
    have hinit : ∀ s ∈ ss.dropLast, D ∣ Q * s := by
      intro s hs'
      have htdiv := tdiv_of_map_apportionFrom hmap s hs'
      rw [hPQ, mul_assoc] at htdiv
      exact dvd_of_tdiv_mul (mul_nonneg hQ0 (hs s (List.mem_of_mem_dropLast hs'))) hD hk htdiv
    have hlast : D ∣ Q * ss.getLast hne := by
      have htotal : Q * ss.dropLast.sum + Q * ss.getLast hne = Q * D := by
        rw [← mul_add, ← hsum]
        conv_rhs => rw [← List.dropLast_append_getLast hne]
        simp
      exact (Int.dvd_add_right (dvd_mul_sum hinit)).1 (htotal ▸ Dvd.intro_left Q rfl)
    intro s hs'
    have hdvd : D ∣ Q * s := by
      rw [← List.dropLast_append_getLast hne] at hs'
      rcases List.mem_append.1 hs' with hs' | hs'
      · exact hinit s hs'
      · exact List.mem_singleton.1 hs' ▸ hlast
    rw [hPQ, mul_assoc]
    exact mul_dvd_mul_left k hdvd
  · intro hdvd
    have hkP : k ∣ P := by
      have hall : k * D ∣ P * D := by
        have h := dvd_mul_sum hdvd
        rwa [hsum] at h
      exact Int.dvd_of_mul_dvd_mul_right hD.ne' hall
    obtain ⟨q, rfl⟩ := hkP
    obtain rfl : Q = q := by
      have h1 : q ≤ Q := le_of_mul_le_mul_left hQ hk0
      have h2 : k * Q < k * (q + 1) := by rw [mul_add]; omega
      have := lt_of_mul_lt_mul_left h2 hk0.le
      omega
    have hcoarse : ∀ s ∈ ss, D ∣ Q * s := by
      intro s hs'
      have h := hdvd s hs'
      rw [mul_assoc] at h
      exact Int.dvd_of_mul_dvd_mul_left hk0.ne' h
    rw [apportion_of_dvd hD.ne' hcoarse hsum,
      apportion_of_dvd hD.ne' (fun s hs' => (Dvd.intro_left k rfl).trans (hdvd s hs')) hsum,
      List.map_map]
    refine List.map_congr_left fun s hs' => ?_
    obtain ⟨r, hr⟩ := hcoarse s hs'
    have hfine : k * Q * s / D = k * r := by
      rw [mul_assoc, hr, mul_left_comm, Int.mul_ediv_cancel_left _ hD.ne']
    show k * Q * s / D / k = Q * s / D
    rw [hfine, hr, Int.mul_ediv_cancel_left _ hk0.ne', Int.mul_ediv_cancel_left _ hD.ne']

end Apportion
