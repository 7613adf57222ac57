import Kreav.Contract
import Kreav.Lib.Apportion
import Mathlib.Algebra.Order.BigOperators.Group.List

/-!
# The split of a settlement

`validateRecipients` accepts exactly the lists that are `Valid` (`validateRecipients_eq_ok`).
The amounts are the `apportion` of the creator pool (`calculateCreatorAmounts_val`), so they
add up to it. `calculateCreatorAmounts_complete` : up to `2 ^ 127 / 10000` base units the
checked arithmetic does not fail.
-/

set_option linter.unusedSectionVars false

open CheckedInt Apportion

namespace Kreav

variable {A : Type} [DecidableEq A]

/-- The largest total whose split stays in range whatever the shares are. -/
def maxTotal : ℤ :=
  17014118346046923173168730371588410

/-! ## Accepted recipients -/

/-- The recipient lists the contract accepts. -/
structure Valid (recipients : List (Recipient A)) : Prop where
  ne_nil : recipients ≠ []
  length_le : recipients.length ≤ maxRecipients
  pos : ∀ r ∈ recipients, 0 < r.shareBps.val
  nodup : (recipients.map (·.address)).Nodup
  sum : (recipients.map (·.shareBps.val)).sum = 10000

theorem any_address {r : Recipient A} {rest : List (Recipient A)} :
    (rest.any fun other => r.address = other.address) = true ↔
      r.address ∈ rest.map (·.address) := by
  simp only [List.any_eq_true, decide_eq_true_eq, List.mem_map, eq_comm (a := r.address)]

theorem validateFrom_sound : ∀ {a s : I128} {rs : List (Recipient A)},
    validateFrom a rs = .ok s → s.val = 10000 ∧
      a.val + (rs.map (·.shareBps.val)).sum = 10000 ∧ (∀ r ∈ rs, 0 < r.shareBps.val) ∧
      (rs.map (·.address)).Nodup
  | a, s, [], h => by
    by_cases ha : a.val = bpsDenominator
    · obtain rfl : a = s := by simpa [validateFrom, ha] using h
      exact ⟨ha, by simpa [bpsDenominator] using ha, by simp, by simp⟩
    · simp [validateFrom, ha] at h
  | a, s, r :: rest, h => by
    unfold validateFrom at h
    by_cases hpos : r.shareBps.val ≤ 0
    · simp [hpos] at h
    rw [if_neg hpos] at h
    cases hadd : a.checkedAdd r.shareBps with
    | none => simp [hadd] at h
    | some b =>
      simp only [hadd] at h
      by_cases hany : r.address ∈ rest.map (·.address)
      · rw [if_pos (any_address.2 hany)] at h
        cases h
      rw [if_neg (mt any_address.1 hany)] at h
      obtain ⟨hs, hsum, hps, hnd⟩ := validateFrom_sound h
      rw [Bounded.checkedAdd_eq_some.1 hadd] at hsum
      refine ⟨hs, ?_, ?_, ?_⟩
      · rw [List.map_cons, List.sum_cons]
        omega
      · simp only [List.mem_cons, forall_eq_or_imp]
        exact ⟨by omega, hps⟩
      · rw [List.map_cons, List.nodup_cons]
        exact ⟨hany, hnd⟩

theorem sum_shares_nonneg {rs : List (Recipient A)} (hpos : ∀ r ∈ rs, 0 < r.shareBps.val) :
    0 ≤ (rs.map (·.shareBps.val)).sum := by
  refine List.sum_nonneg fun x hx => ?_
  obtain ⟨r, hr, rfl⟩ := List.mem_map.1 hx
  exact (hpos r hr).le

theorem Valid.share_le {rs : List (Recipient A)} (h : Valid rs) {r : Recipient A} (hr : r ∈ rs) :
    r.shareBps.val ≤ 10000 := by
  rw [← h.sum]
  refine List.single_le_sum ?_ _ (List.mem_map_of_mem hr)
  simpa using fun x hx => (h.pos x hx).le

theorem validateFrom_complete : ∀ {a : I128} {rs : List (Recipient A)}, 0 ≤ a.val →
    a.val + (rs.map (·.shareBps.val)).sum = 10000 → (∀ r ∈ rs, 0 < r.shareBps.val) →
      (rs.map (·.address)).Nodup → ∃ s, validateFrom a rs = .ok s
  | a, [], _, hsum, _, _ => by
    have ha : a.val = bpsDenominator := by simpa [bpsDenominator] using hsum
    exact ⟨a, by simp [validateFrom, ha]⟩
  | a, r :: rest, ha, hsum, hpos, hnd => by
    rw [List.map_cons, List.sum_cons] at hsum
    rw [List.map_cons, List.nodup_cons] at hnd
    have hr := hpos r (by simp)
    have hrest := fun x hx => hpos x (List.mem_cons_of_mem r hx)
    have hnn := sum_shares_nonneg hrest
    obtain ⟨b, hb, hbv⟩ : ∃ b : I128, a.checkedAdd r.shareBps = some b ∧
        b.val = a.val + r.shareBps.val := Bounded.ofInt?_of_mem (by omega)
    unfold validateFrom
    rw [if_neg (by omega)]
    simp only [hb]
    rw [if_neg (mt any_address.1 hnd.1)]
    exact validateFrom_complete (by omega) (by omega) hrest hnd.2

/-- A list that is accepted has a length that is, and passes the loop. -/
theorem validateFrom_of_ok {rs : List (Recipient A)} {s : I128}
    (h : validateRecipients rs = .ok s) :
    rs.length ≠ 0 ∧ rs.length ≤ maxRecipients ∧ validateFrom (i128 0) rs = .ok s := by
  unfold validateRecipients at h
  by_cases h0 : rs.length = 0
  · simp [h0] at h
  rw [if_neg h0] at h
  by_cases h10 : maxRecipients < rs.length
  · simp [h10] at h
  rw [if_neg h10] at h
  exact ⟨h0, Nat.le_of_not_lt h10, h⟩

/-- `validate_recipients` accepts the valid lists and no others. -/
theorem validateRecipients_eq_ok {rs : List (Recipient A)} :
    (∃ s, validateRecipients rs = .ok s) ↔ Valid rs := by
  constructor
  · rintro ⟨s, h⟩
    obtain ⟨h0, h10, h⟩ := validateFrom_of_ok h
    obtain ⟨-, hsum, hpos, hnd⟩ := validateFrom_sound h
    exact ⟨mt List.length_eq_zero_iff.2 h0, h10, hpos, hnd, by simpa using hsum⟩
  · intro h
    unfold validateRecipients
    rw [if_neg (mt List.length_eq_zero_iff.1 h.ne_nil), if_neg (by have := h.length_le; omega)]
    exact validateFrom_complete (by simp) (by simpa using h.sum) h.pos h.nodup

/-! ## Amounts -/

theorem calculateFrom_val {pool : I128} : ∀ {d : I128} {rs : List (Recipient A)}
    {amounts : List I128}, calculateFrom pool d rs = some amounts →
      amounts.map (·.val) = apportionFrom pool.val 10000 d.val (rs.map (·.shareBps.val))
  | _, [], _, h => by
    cases h
    rfl
  | d, [r], _, h => by
    obtain ⟨x, hx, h⟩ := Option.bind_eq_some_iff.1 h
    cases h
    simp [apportionFrom, Bounded.checkedSub_eq_some.1 hx]
  | d, r :: r' :: rs, _, h => by
    obtain ⟨p, hp, h⟩ := Option.bind_eq_some_iff.1 h
    obtain ⟨d', hd, h⟩ := Option.bind_eq_some_iff.1 h
    obtain ⟨as, has, h⟩ := Option.bind_eq_some_iff.1 h
    cases h
    have ih := calculateFrom_val has
    rw [Bounded.checkedAdd_eq_some.1 hd] at ih
    simp only [I128.val_quot, Bounded.checkedMul_eq_some.1 hp] at ih
    simp only [List.map_cons, apportionFrom, I128.val_quot, Bounded.checkedMul_eq_some.1 hp, ih]
    rfl

/-- The amounts are the creator pool apportioned by the shares. -/
theorem calculateCreatorAmounts_val {rs : List (Recipient A)} {pool : I128}
    {amounts : List I128} (h : calculateCreatorAmounts rs pool = some amounts) :
    amounts.map (·.val) = apportion pool.val 10000 (rs.map (·.shareBps.val)) :=
  calculateFrom_val h

theorem length_calculateCreatorAmounts {rs : List (Recipient A)} {pool : I128}
    {amounts : List I128} (h : calculateCreatorAmounts rs pool = some amounts) :
    amounts.length = rs.length := by
  simpa using congrArg List.length (calculateCreatorAmounts_val h)

theorem feeAndPool_eq_ok {total fee pool : I128} (h : feeAndPool total = .ok (fee, pool)) :
    fee.val = (total.val * 500).tdiv 10000 ∧ pool.val = total.val - fee.val := by
  unfold feeAndPool at h
  cases hp : total.checkedMul platformFeeBps with
  | none => simp [hp] at h
  | some p =>
    simp only [hp] at h
    cases hs : total.checkedSub (I128.quot p bpsDenominator) with
    | none => simp [hs] at h
    | some q =>
      simp only [hs, Except.ok.injEq, Prod.mk.injEq] at h
      obtain ⟨rfl, rfl⟩ := h
      have h1 := Bounded.checkedMul_eq_some.1 hp
      have h2 := Bounded.checkedSub_eq_some.1 hs
      refine ⟨?_, h2⟩
      rw [I128.val_quot, h1]
      rfl

/-- The pool of a positive total is between zero and the total. -/
theorem feeAndPool_bounds {total fee pool : I128} (h : feeAndPool total = .ok (fee, pool))
    (ht : 0 ≤ total.val) :
    fee.val = total.val * 500 / 10000 ∧ 0 ≤ pool.val ∧ pool.val ≤ total.val := by
  obtain ⟨hf, hp⟩ := feeAndPool_eq_ok h
  rw [Int.tdiv_eq_ediv_of_nonneg (by omega)] at hf
  omega

/-! ## The arithmetic completes -/

/-- The integers of an `i128`. -/
def FitsI128 (x : ℤ) : Prop :=
  -170141183460469231731687303715884105728 ≤ x ∧ x ≤ 170141183460469231731687303715884105727

instance (x : ℤ) : Decidable (FitsI128 x) :=
  inferInstanceAs (Decidable (_ ∧ _))

theorem feeAndPool_overflow {total : I128} (h : ¬ FitsI128 (total.val * 500)) :
    feeAndPool total = .error .arithmeticOverflow := by
  have hp : total.checkedMul platformFeeBps = none := Bounded.ofInt?_eq_none.2 h
  simp only [feeAndPool, hp]

theorem feeAndPool_fits {total : I128} (h0 : 0 ≤ total.val) (h : FitsI128 (total.val * 500)) :
    ∃ fee pool, feeAndPool total = .ok (fee, pool) := by
  have ht := total.le_hi
  obtain ⟨p, hp, hpv⟩ : ∃ p : I128, total.checkedMul platformFeeBps = some p ∧
      p.val = total.val * 500 := Bounded.ofInt?_of_mem h
  have hq : (I128.quot p bpsDenominator).val = total.val * 500 / 10000 := by
    rw [I128.val_quot, hpv]
    exact Int.tdiv_eq_ediv_of_nonneg (by omega)
  obtain ⟨q, hq', -⟩ : ∃ q : I128, total.checkedSub (I128.quot p bpsDenominator) = some q ∧
      q.val = total.val - (I128.quot p bpsDenominator).val := Bounded.ofInt?_of_mem (by omega)
  exact ⟨I128.quot p bpsDenominator, q, by simp only [feeAndPool, hp, hq']⟩

theorem feeAndPool_complete {total : I128} (h0 : 0 ≤ total.val) (hT : total.val ≤ maxTotal) :
    ∃ fee pool, feeAndPool total = .ok (fee, pool) := by
  unfold maxTotal at hT
  exact feeAndPool_fits h0 ⟨by omega, by omega⟩

/-- The loop completes exactly when everything it computes fits. -/
theorem isSome_calculateFrom {pool : I128} : ∀ {d : I128} {rs : List (Recipient A)},
    (calculateFrom pool d rs).isSome ↔
      ∀ x ∈ valuesFrom pool.val 10000 d.val (rs.map (·.shareBps.val)), FitsI128 x
  | _, [] => by simp [calculateFrom, valuesFrom]
  | d, [r] => by
    simp only [List.map_cons, List.map_nil, valuesFrom, List.forall_mem_singleton]
    cases hx : pool.checkedSub d with
    | none =>
      have hfit : ¬ FitsI128 (pool.val - d.val) := Bounded.ofInt?_eq_none.1 hx
      simp [calculateFrom, hx, hfit]
    | some x =>
      have hfit : FitsI128 (pool.val - d.val) :=
        Bounded.checkedSub_eq_some.1 hx ▸ ⟨x.lo_le, x.le_hi⟩
      simp [calculateFrom, hx, hfit]
  | d, r :: r' :: rs => by
    simp only [List.map_cons, valuesFrom, List.forall_mem_cons]
    cases hp : pool.checkedMul r.shareBps with
    | none =>
      have hfit : ¬ FitsI128 (pool.val * r.shareBps.val) := Bounded.ofInt?_eq_none.1 hp
      simp [calculateFrom, hp, hfit]
    | some p =>
      have hpv := Bounded.checkedMul_eq_some.1 hp
      have hpfit : FitsI128 (pool.val * r.shareBps.val) := hpv ▸ ⟨p.lo_le, p.le_hi⟩
      have hq : (I128.quot p bpsDenominator).val = (pool.val * r.shareBps.val).tdiv 10000 := by
        rw [I128.val_quot, hpv]
        rfl
      cases hd : d.checkedAdd (I128.quot p bpsDenominator) with
      | none =>
        have hfit := Bounded.ofInt?_eq_none.1 hd
        rw [hq] at hfit
        have hfit : ¬ FitsI128 (d.val + (pool.val * r.shareBps.val).tdiv 10000) := hfit
        simp [calculateFrom, hp, hd, hfit]
      | some d' =>
        have hdv := Bounded.checkedAdd_eq_some.1 hd
        rw [hq] at hdv
        have hdfit : FitsI128 (d.val + (pool.val * r.shareBps.val).tdiv 10000) :=
          hdv ▸ ⟨d'.lo_le, d'.le_hi⟩
        have ih : (calculateFrom pool d' (r' :: rs)).isSome ↔ ∀ x ∈ valuesFrom pool.val 10000
            d'.val ((r' :: rs).map (·.shareBps.val)), FitsI128 x := isSome_calculateFrom
        rw [hdv, List.map_cons] at ih
        rw [← ih]
        cases has : calculateFrom pool d' (r' :: rs) with
        | none => simp [calculateFrom, hp, hd, has]
        | some as => simp [calculateFrom, hp, hd, has, hpfit, hdfit]

/-- For valid recipients only the product of the pool and a share can overflow, of any share
but the last. -/
theorem valuesFrom_fit {rs : List (Recipient A)} {P : ℤ} (h : Valid rs) (h0 : 0 ≤ P)
    (hP : FitsI128 P) : (∀ x ∈ valuesFrom P 10000 0 (rs.map (·.shareBps.val)), FitsI128 x) ↔
      ∀ r ∈ rs.dropLast, FitsI128 (P * r.shareBps.val) := by
  have hpos : ∀ s ∈ rs.map (·.shareBps.val), 0 ≤ s := by
    simpa using fun r hr => (h.pos r hr).le
  constructor
  · intro hfit r hr
    refine hfit _ (mul_mem_valuesFrom ?_)
    rw [← List.map_dropLast]
    exact List.mem_map_of_mem hr
  · intro hfit x hx
    have hle : 10000 * (0 : ℤ) + P * (rs.map (·.shareBps.val)).sum ≤ 10000 * P := by
      rw [h.sum]
      omega
    obtain ⟨hx0, hx⟩ := valuesFrom_le h0 (by decide) hpos le_rfl hle hx
    rcases hx with hx | ⟨s, hs, rfl⟩
    · exact ⟨by omega, hx.trans hP.2⟩
    · rw [← List.map_dropLast] at hs
      obtain ⟨r, hr, rfl⟩ := List.mem_map.1 hs
      exact hfit r hr

theorem isSome_calculateCreatorAmounts {rs : List (Recipient A)} {pool : I128} (h : Valid rs)
    (h0 : 0 ≤ pool.val) : (calculateCreatorAmounts rs pool).isSome ↔
      ∀ r ∈ rs.dropLast, FitsI128 (pool.val * r.shareBps.val) :=
  isSome_calculateFrom.trans (valuesFrom_fit h h0 ⟨pool.lo_le, pool.le_hi⟩)

/-- The amounts of valid recipients are computed without overflow. -/
theorem calculateCreatorAmounts_complete {rs : List (Recipient A)} {pool : I128} (h : Valid rs)
    (h0 : 0 ≤ pool.val) (hP : pool.val ≤ maxTotal) :
    ∃ amounts, calculateCreatorAmounts rs pool = some amounts := by
  refine Option.isSome_iff_exists.1 ((isSome_calculateCreatorAmounts h h0).2 fun r hr => ?_)
  unfold maxTotal at hP
  have hpos := h.pos r (List.mem_of_mem_dropLast hr)
  have hle : pool.val * r.shareBps.val ≤ pool.val * 10000 :=
    mul_le_mul_of_nonneg_left (h.share_le (List.mem_of_mem_dropLast hr)) h0
  exact ⟨by have := mul_nonneg h0 hpos.le; omega, by omega⟩

/-! ## Exactness -/

theorem calculateCreatorAmounts_nonneg {rs : List (Recipient A)} {pool : I128}
    {amounts : List I128} (h : calculateCreatorAmounts rs pool = some amounts) (hv : Valid rs)
    (h0 : 0 ≤ pool.val) : ∀ a ∈ amounts, 0 ≤ a.val := by
  intro a ha
  refine apportion_nonneg h0 (by omega) ?_ hv.sum a.val ?_
  · intro s hs
    obtain ⟨r, hr, rfl⟩ := List.mem_map.1 hs
    exact (hv.pos r hr).le
  · rw [← calculateCreatorAmounts_val h]
    exact List.mem_map_of_mem ha

theorem sum_calculateCreatorAmounts {rs : List (Recipient A)} {pool : I128}
    {amounts : List I128} (h : calculateCreatorAmounts rs pool = some amounts) (hne : rs ≠ []) :
    (amounts.map (·.val)).sum = pool.val := by
  rw [calculateCreatorAmounts_val h, sum_apportion (by simpa using hne)]

/-- The split of an accepted settlement : the floor of 5% is the fee, every recipient but
the last gets the floor of its share, nothing is lost, and the last recipient absorbs less
than one base unit for each of the others. -/
theorem settle_split (recipients : List (Recipient A)) (totalAmount platformFee creatorPool
    allocationSum : I128) (amounts : List I128) (htotal : 0 < totalAmount.val)
    (hvalid : validateRecipients recipients = .ok allocationSum)
    (hfee : feeAndPool totalAmount = .ok (platformFee, creatorPool))
    (hamounts : calculateCreatorAmounts recipients creatorPool = some amounts) :
    platformFee.val = totalAmount.val * 500 / 10000 ∧
      creatorPool.val = totalAmount.val - platformFee.val ∧
      amounts.length = recipients.length ∧
      (∀ a ∈ amounts, 0 ≤ a.val) ∧
      (∀ i r a, i + 1 < recipients.length → recipients[i]? = some r → amounts[i]? = some a →
        a.val = creatorPool.val * r.shareBps.val / 10000) ∧
      (amounts.map (·.val)).sum = creatorPool.val ∧
      ∃ r last, recipients.getLast? = some r ∧ amounts.getLast? = some last ∧
        0 ≤ 10000 * last.val - creatorPool.val * r.shareBps.val ∧
        10000 * last.val - creatorPool.val * r.shareBps.val ≤
          9999 * ((recipients.length : ℤ) - 1) := by
  have hv := validateRecipients_eq_ok.1 ⟨_, hvalid⟩
  obtain ⟨hf, hp0, -⟩ := feeAndPool_bounds hfee htotal.le
  have hval := calculateCreatorAmounts_val hamounts
  have hlen := length_calculateCreatorAmounts hamounts
  refine ⟨hf, (feeAndPool_eq_ok hfee).2, hlen, calculateCreatorAmounts_nonneg hamounts hv hp0,
    ?_, sum_calculateCreatorAmounts hamounts hv.ne_nil, ?_⟩
  · intro i r a hi hr ha
    have hai : (amounts.map (·.val))[i]? = some a.val := by simp [ha]
    have hri : (recipients.map (·.shareBps.val))[i]? = some r.shareBps.val := by simp [hr]
    obtain ⟨hlt, hri⟩ := List.getElem?_eq_some_iff.1 hri
    rw [hval] at hai
    obtain ⟨hlt', hai⟩ := List.getElem?_eq_some_iff.1 hai
    rw [← hai, getElem_apportion (by simpa using hi), hri]
    refine Int.tdiv_eq_ediv_of_nonneg (mul_nonneg hp0 (hv.pos r ?_).le)
    exact List.mem_of_getElem? hr
  · have hne : amounts ≠ [] := by
      rw [← List.length_pos_iff, hlen]
      exact List.length_pos_iff.2 hv.ne_nil
    refine ⟨recipients.getLast hv.ne_nil, amounts.getLast hne, List.getLast?_eq_some_getLast _,
      List.getLast?_eq_some_getLast _, ?_⟩
    have hshares : recipients.map (·.shareBps.val) ≠ [] := by simpa using hv.ne_nil
    have hlast := apportion_last hp0 (by omega : (0 : ℤ) < 10000) hshares
      (fun s hs => by
        obtain ⟨r, hr, rfl⟩ := List.mem_map.1 hs
        exact (hv.pos r hr).le) hv.sum
    have hgl : (apportion creatorPool.val 10000 (recipients.map (·.shareBps.val))).getLast
        (apportion_ne_nil hshares) = (amounts.getLast hne).val := by
      simp only [← hval, List.getLast_map]
    rw [hgl, List.getLast_map, List.length_map] at hlast
    omega

/-- Three recipients of 101 base units : the pool of 96 splits into 31, 31 and 34. -/
theorem settle_split_thirds :
    0 ≤ 10000 * (34 : ℤ) - 96 * 3334 ∧ 10000 * (34 : ℤ) - 96 * 3334 ≤ 9999 * ((3 : ℤ) - 1) := by
  obtain ⟨-, -, -, -, -, -, r, last, hr, hl, hdust⟩ := settle_split
    [⟨"a", i128 3333⟩, ⟨"b", i128 3333⟩, ⟨"c", i128 3334⟩] (i128 101) (i128 5) (i128 96)
    (i128 10000) [i128 31, i128 31, i128 34] (by decide) (by decide) (by decide) (by decide)
  obtain rfl : (⟨"c", i128 3334⟩ : Recipient String) = r := by simpa using hr
  obtain rfl : i128 34 = last := by simpa using hl
  exact hdust

end Kreav
