import Kreav.ContractRuns

/-!
# The payouts of a settlement

`settle_events` : the events of a `settle` that returns `Ok` are one payment for each
recipient in order and the summary, and they determine the balances after it. A payment of
zero and one to the platform wallet move nothing.

`amounts_perm` : the order of the recipients decides only who absorbs the rounding dust. An
address gets at most one base unit for each other recipient more or less, and either order
hands out the whole pool.
-/

set_option linter.unusedSectionVars false

open CheckedInt TokenLedger Apportion

namespace Kreav

variable {A : Type} [DecidableEq A] {recipients : List (Recipient A)}

/-! ## Events and balances -/

/-- The addresses and amounts of the pairs, as the events carry them. -/
def payouts (pairs : List (Recipient A × I128)) : List (A × I128) :=
  pairs.map fun p => (p.1.address, p.2)

/-- The loop publishes one event for each pair, also where it transfers nothing. -/
theorem payRecipients_events {sac : Sac A} {token source : A} {orderRef : String} :
    ∀ {pairs : List (Recipient A × I128)} {s s' : ContractState A},
      payRecipients sac token source orderRef pairs s = .ok s' →
        s'.events = s.events ++ (payouts pairs).map fun p => .recipientPaid orderRef p.1 p.2
  | [], s, s', h => by
    obtain rfl := Except.ok.inj h
    simp [payouts]
  | (r, a) :: rest, s, s', h => by
    simp only [payRecipients] at h
    cases h1 : (if 0 < a.val then s.transfer sac token source r.address a.val else .ok s) with
    | error e =>
      rw [h1] at h
      cases h
    | ok s₁ =>
      rw [h1] at h
      have hrest := payRecipients_events h
      have hs : s₁.events = s.events := by
        split at h1
        · rw [transfer_eq_ok h1]
        · rw [← Except.ok.inj h1]
      rw [hrest]
      simp [payouts, ContractState.publish, hs]

theorem map_fst_payouts {amounts : List I128} (h : amounts.length = recipients.length) :
    (payouts (recipients.zip amounts)).map Prod.fst = recipients.map (·.address) := by
  have hfst : (recipients.zip amounts).map Prod.fst = recipients := List.map_fst_zip h.ge
  rw [payouts, List.map_map]
  conv_rhs => rw [← hfst, List.map_map]
  rfl

theorem sum_payouts (pairs : List (Recipient A × I128)) :
    ((payouts pairs).map (·.2.val)).sum = allottedSum pairs := by
  simp [payouts, allottedSum, Function.comp_def]

/-- Nothing is allotted to an address that is not paid. -/
theorem allotted_of_not_mem {x : A} : ∀ {pairs : List (Recipient A × I128)},
    x ∉ (payouts pairs).map Prod.fst → allotted x pairs = 0
  | [], _ => rfl
  | p :: rest, h => by
    simp only [payouts, List.map_cons, List.mem_cons, not_or] at h
    have hrest : allotted x rest = 0 := allotted_of_not_mem h.2
    simp only [allotted, List.map_cons, List.sum_cons, if_neg (Ne.symm h.1)] at hrest ⊢
    omega

/-- With different addresses, an address is allotted the amount of its event. -/
theorem allotted_of_mem : ∀ {pairs : List (Recipient A × I128)} {p : A × I128},
    ((payouts pairs).map Prod.fst).Nodup → p ∈ payouts pairs → allotted p.1 pairs = p.2.val
  | [], _, _, h => by simp [payouts] at h
  | (r, a) :: rest, p, hnd, h => by
    obtain ⟨hn, hnd⟩ : r.address ∉ (payouts rest).map Prod.fst ∧
        ((payouts rest).map Prod.fst).Nodup := List.nodup_cons.1 hnd
    have hcons : allotted p.1 ((r, a) :: rest) =
        (if r.address = p.1 then a.val else 0) + allotted p.1 rest := by
      simp [allotted]
    rw [hcons]
    rcases List.mem_cons.1 h with rfl | h
    · rw [if_pos rfl, allotted_of_not_mem hn, add_zero]
    · have hne : r.address ≠ p.1 := fun he => hn (he ▸ List.mem_map_of_mem h)
      rw [if_neg hne, zero_add, allotted_of_mem hnd h]

/-- What is allotted to one address and to all others. -/
theorem allotted_add_others (w : A) : ∀ pairs : List (Recipient A × I128),
    allotted w pairs + (((payouts pairs).filter (·.1 ≠ w)).map (·.2.val)).sum =
      allottedSum pairs
  | [] => rfl
  | (r, a) :: rest => by
    have ih := allotted_add_others w rest
    simp only [allotted, allottedSum, payouts, List.map_cons, List.sum_cons] at ih ⊢
    by_cases hr : r.address = w
    · rw [if_pos hr, List.filter_cons_of_neg (by simpa using hr)]
      omega
    · rw [if_neg hr, List.filter_cons_of_pos (by simpa using hr), List.map_cons, List.sum_cons]
      dsimp only
      omega

theorem invoke_settle_eq_ok {sac : Sac A} {auth : A → Bool} {orderRef : String} {total : I128}
    {s s' : ContractState A} (h : invoke sac (.settle auth orderRef total recipients) s =
      (.ok, s')) : settle sac auth orderRef total recipients s = .ok s' := by
  simp only [invoke] at h
  cases hs : settle sac auth orderRef total recipients s with
  | error e => simp [hs, commit] at h
  | ok s₁ => simpa [hs, commit] using h

/-- The events of a successful `settle` : one payment for each recipient in order, then the
summary with the number of the payments. The payments sum to the creator pool, which is the
total without the fee. Every paid address but the platform wallet receives its amount, the
platform wallet gives what the others receive, and no other balance changes. -/
theorem settle_events (sac : Sac A) (auth : A → Bool) (orderRef : String) (totalAmount : I128)
    (recipients : List (Recipient A)) (s s' : ContractState A)
    (h : invoke sac (.settle auth orderRef totalAmount recipients) s = (.ok, s')) :
    ∃ (platformWallet usdcSac : A) (paid : List (A × I128)) (platformFee creatorPool : I128),
      s.platformWallet = some platformWallet ∧ s.usdcSac = some usdcSac ∧
      s'.events = s.events ++ (paid.map fun p => .recipientPaid orderRef p.1 p.2) ++
        [.settlementExecuted orderRef totalAmount platformFee creatorPool paid.length] ∧
      paid.map Prod.fst = recipients.map (·.address) ∧
      (paid.map (·.2.val)).sum = creatorPool.val ∧
      platformFee.val + creatorPool.val = totalAmount.val ∧
      (∀ p ∈ paid, p.1 ≠ platformWallet → (s'.ledger usdcSac).balance p.1 =
        (s.ledger usdcSac).balance p.1 + p.2.val) ∧
      (s'.ledger usdcSac).balance platformWallet = (s.ledger usdcSac).balance platformWallet -
        ((paid.filter (·.1 ≠ platformWallet)).map (·.2.val)).sum ∧
      (∀ x, x ≠ platformWallet → x ∉ paid.map Prod.fst →
        (s'.ledger usdcSac).balance x = (s.ledger usdcSac).balance x) ∧
      ∀ token, token ≠ usdcSac → s'.ledger token = s.ledger token := by
  obtain ⟨w, u, he, hv, h⟩ := settle_entered (invoke_settle_eq_ok h)
  obtain ⟨split, s₁, hp, rfl⟩ := settleChecked_eq_ok h
  have hpaid := payRecipients_eq_ok (split.nonneg hv he.pos) hp
  have hlen := length_calculateCreatorAmounts split.amounts_eq
  have hfst := map_fst_payouts hlen
  have hcount : (payouts (recipients.zip split.amounts)).length = recipients.length := by
    simpa using congrArg List.length hfst
  have hbalance := hpaid.balance
  refine ⟨w, u, payouts (recipients.zip split.amounts), split.platformFee, split.creatorPool,
    he.wallet_eq, he.sac_eq, ?_, hfst, ?_, ?_, fun p hp hne => ?_, ?_, fun x hne hx => ?_,
    hpaid.other⟩
  · rw [hcount, ← payRecipients_events hp]
    rfl
  · rw [sum_payouts, split.allottedSum_eq hv]
  · have hpool := (feeAndPool_eq_ok split.fee_eq).2
    omega
  · show (s₁.ledger u).balance p.1 = (s.ledger u).balance p.1 + p.2.val
    rw [hbalance p.1, if_neg hne, allotted_of_mem (by rw [hfst]; exact hv.nodup) hp]
    omega
  · show (s₁.ledger u).balance w = (s.ledger u).balance w -
      (((payouts (recipients.zip split.amounts)).filter (·.1 ≠ w)).map (·.2.val)).sum
    rw [hbalance w, if_pos rfl, ← allotted_add_others w]
    omega
  · show (s₁.ledger u).balance x = (s.ledger u).balance x
    rw [hbalance x, if_neg hne, allotted_of_not_mem hx]
    omega

/-- The wallet `w` holds 1000 units and settles 2 units for `a`, `w` and `b`. -/
def dustSettle : Outcome × ContractState String :=
  invoke ⟨fun _ l p _ n => n ≤ l.balance p⟩ (.settle (· = "w") "o" (i128 2)
      [⟨"a", i128 3333⟩, ⟨"w", i128 3333⟩, ⟨"b", i128 3334⟩])
    ⟨some "w", some "u", ∅, fun _ => Ledger.single "w" 1000, []⟩

/-- The payments of nothing are published, and move nothing. -/
theorem settle_events_dust :
    dustSettle.2.events = [.recipientPaid "o" "a" (i128 0), .recipientPaid "o" "w" (i128 0),
      .recipientPaid "o" "b" (i128 2),
      .settlementExecuted "o" (i128 2) (i128 0) (i128 2) 3] ∧
    (dustSettle.2.ledger "u").balance "c" = 0 := by
  obtain ⟨w, u, paid, -, -, hw, hu, -, hfst, -, -, -, -, hother, -⟩ := settle_events
    ⟨fun _ l p _ n => n ≤ l.balance p⟩ (· = "w") "o" (i128 2)
    [⟨"a", i128 3333⟩, ⟨"w", i128 3333⟩, ⟨"b", i128 3334⟩]
    ⟨some "w", some "u", ∅, fun _ => Ledger.single "w" 1000, []⟩ dustSettle.2
    (Prod.ext (by decide) rfl)
  obtain rfl : "w" = w := Option.some.inj hw
  obtain rfl : "u" = u := Option.some.inj hu
  exact ⟨by decide, hother "c" (by decide) (by rw [hfst]; decide)⟩

/-! ## The order of the recipients -/

theorem Valid.perm {rs rs' : List (Recipient A)} (h : Valid rs) (hperm : rs'.Perm rs) :
    Valid rs' where
  ne_nil := by
    rintro rfl
    exact h.ne_nil (List.nil_perm.1 hperm)
  length_le := hperm.length_eq.trans_le h.length_le
  pos r hr := h.pos r (hperm.mem_iff.1 hr)
  nodup := (hperm.map _).nodup_iff.2 h.nodup
  sum := (hperm.map _).sum_eq.trans h.sum

/-- The amount at a position is the part of its share. -/
theorem getElem_zip_amounts {pool : I128} {amounts : List I128} {p : Recipient A × I128}
    (h : calculateCreatorAmounts recipients pool = some amounts)
    (hp : p ∈ recipients.zip amounts) :
    ∃ (i : ℕ) (hi : i < (recipients.map (·.shareBps.val)).length)
      (hi' : i < (apportion pool.val 10000 (recipients.map (·.shareBps.val))).length),
      (recipients.map (·.shareBps.val))[i] = p.1.shareBps.val ∧
        (apportion pool.val 10000 (recipients.map (·.shareBps.val)))[i] = p.2.val := by
  obtain ⟨i, hi, rfl⟩ := List.getElem_of_mem hp
  have hlen := length_calculateCreatorAmounts h
  have hi₀ : i < recipients.length := by
    rw [List.length_zip] at hi
    omega
  refine ⟨i, by simpa using hi₀, by simpa using hi₀, by simp, ?_⟩
  simp only [← calculateCreatorAmounts_val h, List.getElem_map, List.getElem_zip]

/-- For every accepted list and every order of it : an order of a pool that is not negative
completes exactly when the products of the pool and all shares but the last fit. When two
orders complete, both hand out the whole pool, and the amounts of one address differ by at
most one base unit for each other recipient. -/
theorem amounts_perm (creatorPool : I128) (recipients recipients' : List (Recipient A))
    (allocationSum : I128) (hvalid : validateRecipients recipients = .ok allocationSum)
    (hperm : recipients'.Perm recipients) :
    (0 ≤ creatorPool.val → ∀ rs ∈ [recipients, recipients'],
      ((calculateCreatorAmounts rs creatorPool).isSome ↔
        ∀ r ∈ rs.dropLast, FitsI128 (creatorPool.val * r.shareBps.val))) ∧
    ∀ amounts amounts', calculateCreatorAmounts recipients creatorPool = some amounts →
      calculateCreatorAmounts recipients' creatorPool = some amounts' →
        (∀ p ∈ recipients.zip amounts, ∀ p' ∈ recipients'.zip amounts',
          p.1.address = p'.1.address → |p.2.val - p'.2.val| ≤ recipients.length - 1) ∧
        (amounts.map (·.val)).sum = creatorPool.val ∧
        (amounts'.map (·.val)).sum = creatorPool.val := by
  have hv := validateRecipients_eq_ok.1 ⟨_, hvalid⟩
  have hv' := hv.perm hperm
  refine ⟨fun h0 rs hrs => ?_, fun amounts amounts' h h' => ⟨fun p hp p' hp' haddr => ?_,
    sum_calculateCreatorAmounts h hv.ne_nil, sum_calculateCreatorAmounts h' hv'.ne_nil⟩⟩
  · have hvrs : Valid rs := by
      rcases List.mem_cons.1 hrs with rfl | hrs
      · exact hv
      · rw [List.mem_singleton.1 hrs]
        exact hv'
    exact isSome_calculateCreatorAmounts hvrs h0
  · have hsame : p.1 = p'.1 := List.inj_on_of_nodup_map hv.nodup (List.of_mem_zip hp).1
      (hperm.mem_iff.1 (List.of_mem_zip hp').1) haddr
    obtain ⟨i, hi, hia, hshare, hamount⟩ := getElem_zip_amounts h hp
    obtain ⟨j, hj, hja, hshare', hamount'⟩ := getElem_zip_amounts h' hp'
    have hpos : ∀ s ∈ recipients.map (·.shareBps.val), 0 ≤ s := by
      simpa using fun r hr => (hv.pos r hr).le
    have hle := abs_apportion_sub_le (by decide) hpos hv.sum (hperm.map _) hi hj
      (by rw [hshare, hshare', hsame]) hia hja
    rwa [hamount, hamount', List.length_map] at hle

/-- 101 base units less the fee, for three recipients : the dust of 2 or 3 base units moves
from one to the other. -/
theorem amounts_perm_thirds : |(34 : ℤ) - 32| ≤ 2 := by
  have h := amounts_perm (i128 96)
    [⟨"a", i128 3333⟩, ⟨"b", i128 3333⟩, ⟨"c", i128 3334⟩]
    [⟨"c", i128 3334⟩, ⟨"b", i128 3333⟩, ⟨"a", i128 3333⟩] (i128 10000) (by decide) (by decide)
  have hle := (h.2 [i128 31, i128 31, i128 34] [i128 32, i128 31, i128 33] (by decide)
    (by decide)).1 (⟨"c", i128 3334⟩, i128 34) (by decide) (⟨"c", i128 3334⟩, i128 32) (by decide)
    rfl
  exact hle

/-- `10 ^ 35` base units : the contract hands them out in one order of two accepted
recipients, and panics in the other. -/
theorem amounts_order_overflows :
    validateRecipients [⟨"a", i128 1⟩, ⟨"b", i128 9999⟩] = .ok (i128 10000) ∧
      (calculateCreatorAmounts [⟨"a", i128 1⟩, ⟨"b", i128 9999⟩]
        (i128 100000000000000000000000000000000000)).isSome = true ∧
      calculateCreatorAmounts [⟨"b", i128 9999⟩, ⟨"a", i128 1⟩]
        (i128 100000000000000000000000000000000000) = none := by
  decide

end Kreav
