import Kreav.ContractRuns

/-!
# The errors of the contract

`accepted_or_defect` : `validateRecipients` accepts the lists of the contract's rules, and
every error it returns names a defect of the list (`Defect`). The single pass goes by the
recipients scanned so far (`Scanned`), so an overflow of the running sum is found in a
prefix, before the shares behind it are looked at.

`arithmetic_reported` : the arithmetic of `settle` is reported as an error, and not by a
trap, exactly when no product of the creator pool and a share overflows after the fee's
product did not.
-/

set_option linter.unusedSectionVars false

open CheckedInt Apportion

namespace Kreav

variable {A : Type} [DecidableEq A]

/-! ## The recipients -/

/-- The largest `i128`. -/
def i128Max : ℤ :=
  170141183460469231731687303715884105727

/-- What an error of `validate_recipients` says about the list. -/
def Defect (rs : List (Recipient A)) : ContractError → Prop
  | .emptyRecipients => rs.length = 0
  | .tooManyRecipients => 10 < rs.length
  | .zeroAllocation => ∃ r ∈ rs, r.shareBps.val ≤ 0
  | .duplicateRecipient => ¬ (rs.map (·.address)).Nodup
  -- the running sum : of the recipients up to one of them
  | .arithmeticOverflow => ∃ scanned, scanned <+: rs ∧ (∀ r ∈ scanned, 0 < r.shareBps.val) ∧
      i128Max < (scanned.map (·.shareBps.val)).sum
  | .invalidAllocationSum => (∀ r ∈ rs, 0 < r.shareBps.val) ∧ (rs.map (·.address)).Nodup ∧
      (rs.map (·.shareBps.val)).sum ≠ 10000
  | _ => False

/-- The loop has passed the recipients `scanned`, with `rest` before it. -/
structure Scanned (scanned rest : List (Recipient A)) (allocationSum : I128) : Prop where
  sum : allocationSum.val = (scanned.map (·.shareBps.val)).sum
  pos : ∀ r ∈ scanned, 0 < r.shareBps.val
  nodup : (scanned.map (·.address)).Nodup
  apart : ∀ r ∈ scanned, r.address ∉ rest.map (·.address)

theorem scanned_nil (rs : List (Recipient A)) : Scanned [] rs (i128 0) :=
  ⟨rfl, by simp, by simp, by simp⟩

/-- One turn of the loop. -/
theorem Scanned.next {scanned rest : List (Recipient A)} {r : Recipient A} {a b : I128}
    (h : Scanned scanned (r :: rest) a) (hpos : 0 < r.shareBps.val)
    (hadd : a.checkedAdd r.shareBps = some b) (hnew : r.address ∉ rest.map (·.address)) :
    Scanned (scanned ++ [r]) rest b where
  sum := by
    rw [Bounded.checkedAdd_eq_some.1 hadd, h.sum]
    simp
  pos x hx := by
    rcases List.mem_append.1 hx with hx | hx
    · exact h.pos x hx
    · rw [List.mem_singleton.1 hx]
      exact hpos
  nodup := by
    rw [List.map_append, List.nodup_append]
    refine ⟨h.nodup, by simp, fun x hx y hy => ?_⟩
    obtain ⟨r', hr', rfl⟩ := List.mem_map.1 hx
    obtain rfl : y = r.address := by simpa using hy
    have hap := h.apart r' hr'
    rw [List.map_cons, List.mem_cons, not_or] at hap
    exact hap.1
  apart x hx := by
    rcases List.mem_append.1 hx with hx | hx
    · have hap := h.apart x hx
      rw [List.map_cons, List.mem_cons, not_or] at hap
      exact hap.2
    · rw [List.mem_singleton.1 hx]
      exact hnew

/-- An error of the loop names a defect of the whole list. -/
theorem validateFrom_defect {e : ContractError} : ∀ {scanned rest : List (Recipient A)} {a : I128},
    Scanned scanned rest a → validateFrom a rest = .error e → Defect (scanned ++ rest) e
  | scanned, [], a, hs, h => by
    rw [List.append_nil]
    by_cases ha : a.val = bpsDenominator
    · simp [validateFrom, ha] at h
    · obtain rfl : .invalidAllocationSum = e := by simpa [validateFrom, ha] using h
      exact ⟨hs.pos, hs.nodup, by rw [← hs.sum]; exact ha⟩
  | scanned, r :: rest, a, hs, h => by
    unfold validateFrom at h
    by_cases hpos : r.shareBps.val ≤ 0
    · rw [if_pos hpos] at h
      obtain rfl : .zeroAllocation = e := by simpa using h
      exact ⟨r, by simp, hpos⟩
    rw [if_neg hpos] at h
    have hr : 0 < r.shareBps.val := by omega
    cases hadd : a.checkedAdd r.shareBps with
    | none =>
      obtain rfl : .arithmeticOverflow = e := by simpa [hadd] using h
      have hover := Bounded.ofInt?_eq_none.1 hadd
      have ha := a.lo_le
      refine ⟨scanned ++ [r], ⟨rest, by simp⟩, ?_, ?_⟩
      · simpa [or_imp, forall_and] using ⟨hs.pos, hr⟩
      · unfold i128Max
        rw [List.map_append, List.sum_append, ← hs.sum]
        simp only [List.map_singleton, List.sum_singleton]
        omega
    | some b =>
      simp only [hadd] at h
      by_cases hany : r.address ∈ rest.map (·.address)
      · rw [if_pos (any_address.2 hany)] at h
        obtain rfl : .duplicateRecipient = e := by simpa using h
        show ¬ ((scanned ++ r :: rest).map (·.address)).Nodup
        rw [List.map_append, List.map_cons, List.nodup_append, List.nodup_cons]
        rintro ⟨-, ⟨hn, -⟩, -⟩
        exact hn hany
      · rw [if_neg (mt any_address.1 hany)] at h
        have hd := validateFrom_defect (hs.next hr hadd hany) h
        rwa [List.append_assoc] at hd

theorem validateRecipients_defect {rs : List (Recipient A)} {e : ContractError}
    (h : validateRecipients rs = .error e) : Defect rs e := by
  unfold validateRecipients at h
  by_cases h0 : rs.length = 0
  · rw [if_pos h0] at h
    obtain rfl : .emptyRecipients = e := by simpa using h
    exact h0
  rw [if_neg h0] at h
  by_cases h10 : maxRecipients < rs.length
  · rw [if_pos h10] at h
    obtain rfl : .tooManyRecipients = e := by simpa using h
    exact h10
  rw [if_neg h10] at h
  exact validateFrom_defect (scanned_nil rs) h

theorem validateRecipients_val {rs : List (Recipient A)} {s : I128}
    (h : validateRecipients rs = .ok s) : s = i128 10000 := by
  obtain ⟨-, -, h⟩ := validateFrom_of_ok h
  exact Bounded.ext (validateFrom_sound h).1

/-- `validate_recipients` returns `Ok(10000)` for 1 to 10 recipients with different
addresses and positive shares that sum to 10000, and for no others. It returns no other
value, and an error names a defect that the list has. -/
theorem accepted_or_defect (rs : List (Recipient A)) :
    (validateRecipients rs = .ok (i128 10000) ↔
      (1 ≤ rs.length ∧ rs.length ≤ 10) ∧ (rs.map (·.address)).Nodup ∧
        (∀ r ∈ rs, 0 < r.shareBps.val) ∧ (rs.map (·.shareBps.val)).sum = 10000) ∧
      (∀ s, validateRecipients rs = .ok s → s = i128 10000) ∧
      ∀ e, validateRecipients rs = .error e → Defect rs e := by
  refine ⟨⟨fun h => ?_, ?_⟩, fun _ => validateRecipients_val, fun _ => validateRecipients_defect⟩
  · have hv := validateRecipients_eq_ok.1 ⟨_, h⟩
    exact ⟨⟨List.length_pos_iff.2 hv.ne_nil, hv.length_le⟩, hv.nodup, hv.pos, hv.sum⟩
  · rintro ⟨⟨h0, h10⟩, hnd, hpos, hsum⟩
    have hne : rs ≠ [] := List.length_pos_iff.1 h0
    obtain ⟨s, hs⟩ := validateRecipients_eq_ok.2 ⟨hne, h10, hpos, hnd, hsum⟩
    rw [hs, validateRecipients_val hs]

/-- The running sum overflows at the second recipient, the sum of all shares does not. -/
theorem running_sum_overflow :
    validateRecipients [⟨"a", i128 170141183460469231731687303715884105727⟩, ⟨"b", i128 1⟩,
        ⟨"c", i128 (-5)⟩] = .error .arithmeticOverflow ∧
      ¬ i128Max < (([⟨"a", i128 170141183460469231731687303715884105727⟩, ⟨"b", i128 1⟩,
        ⟨"c", i128 (-5)⟩] : List (Recipient String)).map (·.shareBps.val)).sum := by
  decide

/-! ## The split -/

/-- The exact results of the checked operations of the split of `total`. -/
def splitValues (total : ℤ) (shares : List ℤ) : List ℤ :=
  total * 500 :: (total - (total * 500).tdiv 10000) ::
    valuesFrom (total - (total * 500).tdiv 10000) 10000 0 shares

/-- A call of `settle` does not trap on arithmetic : it is refused for another reason, it
returns the error of the recipients, it returns `ArithmeticOverflow` when a value of the
split does not fit in an `i128`, and it goes on to the transfers when all fit. -/
structure ArithmeticReported (sac : Sac A) (auth : A → Bool) (orderRef : String) (total : I128)
    (recipients : List (Recipient A)) (s : ContractState A) : Prop where
  refused : (∀ w u, ¬ Entered auth orderRef total s w u) →
    ∃ halt, settle sac auth orderRef total recipients s = .error halt ∧
      (halt = .trap → ∃ w, s.platformWallet = some w ∧ auth w = false)
  invalid : ∀ w u e, Entered auth orderRef total s w u →
    validateRecipients recipients = .error e →
      settle sac auth orderRef total recipients s = .error (.err e)
  overflow : ∀ w u, Entered auth orderRef total s w u → Valid recipients →
    (∃ x ∈ splitValues total.val (recipients.map (·.shareBps.val)), ¬ FitsI128 x) →
      settle sac auth orderRef total recipients s = .error (.err .arithmeticOverflow)
  transfers : ∀ w u, Entered auth orderRef total s w u → Valid recipients →
    (∀ x ∈ splitValues total.val (recipients.map (·.shareBps.val)), FitsI128 x) →
      ∃ split : Split total recipients, settle sac auth orderRef total recipients s =
        (payRecipients sac u w orderRef (recipients.zip split.amounts) s).map
          (split.record orderRef)

/-- The values of a split fit when the products do : the fee's, and those of the pool with
every share but the last. -/
theorem splitValues_fit {total : I128} {rs : List (Recipient A)} (ht : 0 < total.val)
    (hv : Valid rs) : (∀ x ∈ splitValues total.val (rs.map (·.shareBps.val)), FitsI128 x) ↔
      FitsI128 (total.val * 500) ∧ ∀ r ∈ rs.dropLast,
        FitsI128 ((total.val - total.val * 500 / 10000) * r.shareBps.val) := by
  have hmax := total.le_hi
  have hpool : FitsI128 (total.val - total.val * 500 / 10000) := ⟨by omega, by omega⟩
  have hvalues := valuesFrom_fit hv (by omega) hpool
  rw [splitValues, Int.tdiv_eq_ediv_of_nonneg (by omega), List.forall_mem_cons,
    List.forall_mem_cons, hvalues]
  exact ⟨fun h => ⟨h.1, h.2.2⟩, fun h => ⟨h.1, hpool, h.2⟩⟩

theorem settleChecked_overflow {sac : Sac A} {w u : A} {orderRef : String} {total : I128}
    {rs : List (Recipient A)} {s : ContractState A} (h : ¬ FitsI128 (total.val * 500)) :
    settleChecked sac w u orderRef total rs s = .error (.err .arithmeticOverflow) := by
  simp only [settleChecked, feeAndPool_overflow h]

/-- A product of the pool that does not fit panics. -/
theorem settleChecked_trap {sac : Sac A} {w u : A} {orderRef : String} {total : I128}
    {rs : List (Recipient A)} {s : ContractState A} (ht : 0 < total.val) (hv : Valid rs)
    (hfee : FitsI128 (total.val * 500)) (h : ¬ ∀ r ∈ rs.dropLast,
      FitsI128 ((total.val - total.val * 500 / 10000) * r.shareBps.val)) :
    settleChecked sac w u orderRef total rs s = .error .trap := by
  obtain ⟨fee, pool, hf⟩ := feeAndPool_fits ht.le hfee
  obtain ⟨hfv, h0, -⟩ := feeAndPool_bounds hf ht.le
  have hpool := (feeAndPool_eq_ok hf).2
  rw [hfv] at hpool
  rw [← hpool, ← isSome_calculateCreatorAmounts hv h0, Option.not_isSome_iff_eq_none] at h
  simp only [settleChecked, hf, h]

theorem split_of_fits {total : I128} {rs : List (Recipient A)} (ht : 0 < total.val)
    (hv : Valid rs) (h : ∀ x ∈ splitValues total.val (rs.map (·.shareBps.val)), FitsI128 x) :
    Nonempty (Split total rs) := by
  obtain ⟨hfee, hprod⟩ := (splitValues_fit ht hv).1 h
  obtain ⟨fee, pool, hf⟩ := feeAndPool_fits ht.le hfee
  obtain ⟨hfv, h0, -⟩ := feeAndPool_bounds hf ht.le
  have hpool := (feeAndPool_eq_ok hf).2
  rw [hfv] at hpool
  rw [← hpool] at hprod
  obtain ⟨amounts, hc⟩ := Option.isSome_iff_exists.1
    ((isSome_calculateCreatorAmounts hv h0).2 hprod)
  exact ⟨⟨fee, pool, amounts, hf, hc⟩⟩

/-- The arithmetic of a call is reported exactly when it stops before the amounts, or the
product of the creator pool and the share of every recipient but the last fits. -/
theorem arithmetic_reported (sac : Sac A) (auth : A → Bool) (orderRef : String) (total : I128)
    (recipients : List (Recipient A)) (s : ContractState A) :
    ArithmeticReported sac auth orderRef total recipients s ↔
      ∀ w u, Entered auth orderRef total s w u → Valid recipients →
        FitsI128 (total.val * 500) → ∀ r ∈ recipients.dropLast,
          FitsI128 ((total.val - total.val * 500 / 10000) * r.shareBps.val) := by
  constructor
  · intro h w u he hv hfee
    by_contra hprod
    have htrap : settleChecked sac w u orderRef total recipients s = .error .trap :=
      settleChecked_trap he.pos hv hfee hprod
    have hover : ∃ x ∈ splitValues total.val (recipients.map (·.shareBps.val)), ¬ FitsI128 x := by
      by_contra hall
      push Not at hall
      exact hprod ((splitValues_fit he.pos hv).1 hall).2
    have herr := h.overflow w u he hv hover
    rw [he.settle_valid hv, htrap] at herr
    cases herr
  · intro h
    refine ⟨settle_refused, fun w u e he => he.settle_invalid, fun w u he hv hover => ?_,
      fun w u he hv hfit => ?_⟩
    · rw [he.settle_valid hv]
      refine settleChecked_overflow fun hfee => ?_
      obtain ⟨x, hx, hn⟩ := hover
      exact hn ((splitValues_fit he.pos hv).2 ⟨hfee, h w u he hv hfee⟩ x hx)
    · obtain ⟨split⟩ := split_of_fits he.pos hv hfit
      exact ⟨split, by rw [he.settle_valid hv, split.settleChecked_eq]⟩

/-- `2 ^ 127 / 500` base units for two recipients. The fee's product fits and the call traps
on the product for the first recipient. -/
theorem arithmetic_trap :
    ¬ ArithmeticReported ⟨fun _ _ _ _ _ => true⟩ (fun _ => true) "order"
      (i128 340282366920938463463374607431768211) [⟨"a", i128 5000⟩, ⟨"b", i128 5000⟩]
      ⟨some "w", some "u", ∅, fun _ => .single "w" 0, []⟩ := by
  intro h
  have hv : Valid [(⟨"a", i128 5000⟩ : Recipient String), ⟨"b", i128 5000⟩] :=
    ⟨by decide, by decide, by decide, by decide, by decide⟩
  have herr := h.overflow "w" "u" ⟨rfl, rfl, rfl, by decide, by decide⟩ hv
    ⟨323268248574891540290205877060179801 * 5000, by decide, by decide⟩
  cases herr

end Kreav
