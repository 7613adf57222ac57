import Kreav.BackendSteps
import Kreav.ContractSplit
import Kreav.Lib.Apportion
import Kreav.Settlement

/-!
# The rows of a settlement

The backend's split of a total is the contract's (`splitBase_eq_settle`). The amounts of
`settlementRows` are the fee and the parts of `apportion`, in base units
(`settlementRows_amount`). Each is cut to 20 digits and then stored in cents.
`stored_amounts_sum` : the stored amounts add up to the settlement's total exactly when the
parts that are rounded up make up for the fractions of a cent of all parts (`RestsCarried`).
With one creator that is every amount but those of 10 cents more than a multiple of 20, where
the fee and the creator's part both end in half a cent. It is so, too, whenever every part is
a whole number of cents.
-/

open Async Prog Apportion Rounding

namespace Kreav

/-! ## The amounts in base units -/

theorem creatorAmountsFrom_eq (creatorPool : ℤ) : ∀ (d : ℤ) (rs : List RecipientInput),
    creatorAmountsFrom creatorPool d rs = apportionFrom creatorPool 10000 d (rs.map (·.shareBps))
  | _, [] => rfl
  | _, [_] => rfl
  | d, r :: next :: rest => by
    simp only [creatorAmountsFrom, List.map_cons, apportionFrom]
    rw [creatorAmountsFrom_eq creatorPool _ (next :: rest), List.map_cons]

/-- The backend splits the pool as the contract does. -/
theorem creatorAmountsBase_eq (total : ℤ) (rs : List RecipientInput) :
    creatorAmountsBase total rs =
      apportion (creatorPoolBase total) 10000 (rs.map (·.shareBps)) :=
  creatorAmountsFrom_eq _ 0 rs

/-- The same addresses with the same shares, in the same order. -/
def SameRecipients (inputs : List RecipientInput) (recipients : List (Recipient String)) : Prop :=
  inputs.map (fun r => (r.address, r.shareBps)) =
    recipients.map fun r => (r.address, r.shareBps.val)

instance (inputs : List RecipientInput) (recipients : List (Recipient String)) :
    Decidable (SameRecipients inputs recipients) :=
  inferInstanceAs (Decidable (_ = _))

theorem SameRecipients.address {inputs : List RecipientInput}
    {recipients : List (Recipient String)} (h : SameRecipients inputs recipients) :
    inputs.map (·.address) = recipients.map (·.address) := by
  have h' := congrArg (List.map Prod.fst) h
  rwa [List.map_map, List.map_map] at h'

theorem SameRecipients.shareBps {inputs : List RecipientInput}
    {recipients : List (Recipient String)} (h : SameRecipients inputs recipients) :
    inputs.map (·.shareBps) = recipients.map (·.shareBps.val) := by
  have h' := congrArg (List.map Prod.snd) h
  rwa [List.map_map, List.map_map] at h'

/-- The unbounded integers of the backend and the checked ones of the contract give the same
fee, the same creator pool and the same amount for every recipient, whenever the contract's
arithmetic completes. The total need not be positive, nor the recipients valid. -/
theorem splitBase_eq_settle (totalAmount platformFee creatorPool : I128)
    (recipients : List (Recipient String)) (inputs : List RecipientInput) (amounts : List I128)
    (hsame : SameRecipients inputs recipients)
    (hfee : feeAndPool totalAmount = .ok (platformFee, creatorPool))
    (hamounts : calculateCreatorAmounts recipients creatorPool = some amounts) :
    platformFeeBase totalAmount.val = platformFee.val ∧
      creatorPoolBase totalAmount.val = creatorPool.val ∧
      creatorAmountsBase totalAmount.val inputs = amounts.map (·.val) ∧
      (inputs.map (·.address)).zip (creatorAmountsBase totalAmount.val inputs) =
        (recipients.zip amounts).map fun p => (p.1.address, p.2.val) := by
  obtain ⟨hf, hp⟩ := feeAndPool_eq_ok hfee
  have hpool : creatorPoolBase totalAmount.val = creatorPool.val := by
    rw [creatorPoolBase, platformFeeBase, ← hf, hp]
  have hbase : creatorAmountsBase totalAmount.val inputs = amounts.map (·.val) := by
    rw [creatorAmountsBase_eq, hpool, hsame.shareBps]
    exact (calculateCreatorAmounts_val hamounts).symm
  refine ⟨hf.symm, hpool, hbase, ?_⟩
  rw [hbase, hsame.address, List.zip_map]
  rfl

/-- 101 base units among three recipients : the last one absorbs the dust. -/
theorem splitBase_eq_settle_thirds :
    creatorAmountsBase 101 [⟨"a", 3333⟩, ⟨"b", 3333⟩, ⟨"c", 3334⟩] = [31, 31, 34] :=
  (splitBase_eq_settle (i128 101) (i128 5) (i128 96)
    [⟨"a", i128 3333⟩, ⟨"b", i128 3333⟩, ⟨"c", i128 3334⟩]
    [⟨"a", 3333⟩, ⟨"b", 3333⟩, ⟨"c", 3334⟩] [i128 31, i128 31, i128 34] (by decide) (by decide)
    (by decide)).2.2.1

/-- Addresses and amounts of the creator rows, by position. -/
theorem creatorRows_pairs : ∀ (rs : List RecipientInput) (amounts : List ℤ)
    (cs : List Collaborator),
    (creatorRows rs amounts cs).map (fun r => (r.walletAddress, r.amount)) =
      (rs.map (·.address)).zip (amounts.map ofBase)
  | [], _, _ => rfl
  | _ :: _, [], _ => rfl
  | r :: rs, a :: amounts, cs => by
    simp only [creatorRows, List.map_cons, List.zip_cons_cons, creatorRows_pairs rs amounts cs.tail]

theorem creatorRows_type : ∀ (rs : List RecipientInput) (amounts : List ℤ)
    (cs : List Collaborator), ∀ r ∈ creatorRows rs amounts cs, r.recipientType = .creator
  | [], _, _, _, h => by cases h
  | _ :: _, [], _, _, h => by cases h
  | r :: rs, a :: amounts, cs, x, h => by
    rcases List.mem_cons.1 h with rfl | h
    · rfl
    · exact creatorRows_type rs amounts cs.tail x h

theorem creatorRows_amount {rs : List RecipientInput} {amounts : List ℤ}
    {cs : List Collaborator} (h : amounts.length = rs.length) :
    (creatorRows rs amounts cs).map (·.amount) = amounts.map ofBase := by
  have hp := congrArg (List.map Prod.snd) (creatorRows_pairs rs amounts cs)
  rw [List.map_map, List.map_snd_zip (by simp [h])] at hp
  exact hp

/-- The fee and the creators' parts of `c` cents, in base units. -/
def settlementParts (c : ℤ) (shares : List ℤ) : List ℤ :=
  5000 * c :: apportion (95000 * c) 10000 shares

theorem platformFeeBase_toBase (a : Usd) : platformFeeBase a.toBase = 5000 * a.cents := by
  rw [platformFeeBase, a.toBase_eq, show a.cents * 100000 * 500 = 5000 * a.cents * 10000 by ring]
  exact Int.mul_tdiv_cancel _ (by decide)

theorem creatorPoolBase_toBase (a : Usd) : creatorPoolBase a.toBase = 95000 * a.cents := by
  rw [creatorPoolBase, platformFeeBase_toBase, a.toBase_eq]
  ring

theorem creatorAmountsBase_toBase (a : Usd) (cs : List Collaborator) :
    creatorAmountsBase a.toBase (recipientInputs cs) =
      apportion (95000 * a.cents) 10000 (cs.map (·.revenuePercentage)) := by
  rw [creatorAmountsBase_eq, creatorPoolBase_toBase, recipientInputs_shareBps]

theorem settlementRows_amount (a : Usd) (cs : List Collaborator) :
    (settlementRows a.toBase (recipientInputs cs) cs).map (·.amount) =
      (settlementParts a.cents (cs.map (·.revenuePercentage))).map ofBase := by
  rw [settlementRows, creatorAmountsBase_toBase, List.map_cons, creatorRows_amount,
    platformFeeBase_toBase, settlementParts, List.map_cons]
  simp [recipientInputs]

/-! ## The amounts in cents -/

/-- The fractions of a cent of all parts add up to one cent for each part that is rounded
up : one whose fraction reaches half a cent once it is cut to 20 digits. -/
def RestsCarried (parts : List ℤ) : Prop :=
  (parts.map fun x => x.tmod 100000).sum =
    100000 * (parts.map fun x => carryAfter (unit precision x) 100000 x).sum

instance (parts : List ℤ) : Decidable (RestsCarried parts) :=
  inferInstanceAs (Decidable (_ = _))

section

variable (a : Usd) {shares : List ℤ} (hsum : shares.sum = 10000)

include hsum

theorem sum_settlementParts : (settlementParts a.cents shares).sum = 100000 * a.cents := by
  have hne : shares ≠ [] := by
    rintro rfl
    cases hsum
  rw [settlementParts, List.sum_cons, sum_apportion hne]
  ring

/-- A part has at most 24 digits, so a cent is an even multiple of its 20th. -/
theorem unit_settlementParts (hpos : ∀ s ∈ shares, 0 ≤ s) {x : ℤ}
    (hx : x ∈ settlementParts a.cents shares) : 2 * unit precision x ∣ 100000 := by
  have hlt := a.lt
  have h : x.natAbs < 10 ^ (precision + 4) := by
    rcases List.mem_cons.1 hx with rfl | hx
    · simp only [precision]
      omega
    · have hle := natAbs_le_of_mem_apportion (by decide) hpos hsum hx
      simp only [precision]
      omega
  exact (Nat.mul_dvd_mul_left 2 (unit_dvd (by decide) h)).trans (by decide)

theorem sum_toCents_settlementParts (hpos : ∀ s ∈ shares, 0 ≤ s) :
    ((settlementParts a.cents shares).map fun x => toCents (ofBase x)).sum = a.cents ↔
      RestsCarried (settlementParts a.cents shares) := by
  have h := sum_roundHalfAway (n := precision) (u := 100000) (by decide)
    (settlementParts a.cents shares) fun x => unit_settlementParts a hsum hpos
  rw [sum_settlementParts a hsum] at h
  simp only [RestsCarried, toCents, ofBase]
  push_cast at h
  constructor
  · intro he
    rw [he] at h
    linarith
  · intro he
    rw [he] at h
    linarith

end

/-- A whole number of cents is stored as it is. -/
theorem toCents_whole {k : ℤ} (hk : k.natAbs < 10 ^ 20) : toCents (ofBase (100000 * k)) = k := by
  have hexact : ofBase (100000 * k) = 100000 * k := by
    rw [mul_comm]
    exact roundSig_mul_pow (n := precision) 5 (by decide) hk
  have hcents := mul_roundHalfAway_of_dvd (u := 100000) (x := 100000 * k) (by decide) ⟨k, rfl⟩
  rw [hexact, toCents]
  push_cast at hcents
  omega

theorem sum_toCents_whole : ∀ {parts : List ℤ},
    (∀ x ∈ parts, 100000 ∣ x ∧ x.natAbs < 10 ^ 25) →
      100000 * (parts.map fun x => toCents (ofBase x)).sum = parts.sum
  | [], _ => rfl
  | x :: parts, h => by
    obtain ⟨⟨k, rfl⟩, hlt⟩ := h x List.mem_cons_self
    have ih := sum_toCents_whole fun y hy => h y (List.mem_cons_of_mem _ hy)
    rw [List.map_cons, List.sum_cons, List.sum_cons, mul_add, ih, toCents_whole (by omega)]

/-- Where every part is a whole number of cents, nothing is rounded. -/
theorem sum_toCents_of_dvd (a : Usd) {shares : List ℤ} (hsum : shares.sum = 10000)
    (hpos : ∀ s ∈ shares, 0 ≤ s) (hfee : 20 ∣ a.cents)
    (hshares : ∀ s ∈ shares, 200000 ∣ 19 * a.cents * s) :
    ((settlementParts a.cents shares).map fun x => toCents (ofBase x)).sum = a.cents := by
  have hlt := a.lt
  have hdvd : ∀ s ∈ shares, 10000 * 100000 ∣ 95000 * a.cents * s := fun s hs => by
    have h := Int.mul_dvd_mul_left 5000 (hshares s hs)
    rwa [show (5000 : ℤ) * 200000 = 10000 * 100000 by norm_num,
      show 5000 * (19 * a.cents * s) = 95000 * a.cents * s by ring] at h
  have hparts := apportion_of_dvd (P := 95000 * a.cents) (D := 10000) (by decide)
    (fun s hs => (Int.dvd_mul_right 10000 100000).trans (hdvd s hs)) hsum
  have hwhole : ∀ x ∈ settlementParts a.cents shares,
      100000 ∣ x ∧ x.natAbs < 10 ^ 25 := fun x hx => by
    rcases List.mem_cons.1 hx with rfl | hx
    · exact ⟨by omega, by omega⟩
    · have hle := natAbs_le_of_mem_apportion (by decide) hpos hsum hx
      refine ⟨?_, by omega⟩
      rw [hparts] at hx
      obtain ⟨s, hs, rfl⟩ := List.mem_map.1 hx
      exact Int.dvd_div_of_mul_dvd (hdvd s hs)
  have h := sum_toCents_whole hwhole
  rw [sum_settlementParts a hsum] at h
  omega

theorem sum_roundHalfAway_sole (c : ℤ) :
    roundHalfAway 100000 (5000 * c) + roundHalfAway 100000 (95000 * c) = c ↔ c % 20 ≠ 10 := by
  have hnat : ∀ n : ℕ, roundHalfAway 100000 (5000 * n) + roundHalfAway 100000 (95000 * n) = n ↔
      n % 20 ≠ 10 := fun n => by
    have hfee := roundHalfAway_natCast (u := 100000) (by decide) (5000 * n)
    have hpart := roundHalfAway_natCast (u := 100000) (by decide) (95000 * n)
    rw [Nat.cast_mul] at hfee hpart
    rw [show (5000 : ℤ) = (5000 : ℕ) from rfl, show (95000 : ℤ) = (95000 : ℕ) from rfl, hfee, hpart,
      ← Nat.cast_add, Nat.cast_inj]
    have hq : 5000 * n / 100000 = n / 20 := Nat.mul_div_mul_left n 20 (by decide : 0 < 5000)
    have hq' : 95000 * n / 100000 = 19 * n / 20 := by
      rw [show 95000 * n = 5000 * (19 * n) by ring]
      exact Nat.mul_div_mul_left (19 * n) 20 (by decide : 0 < 5000)
    rw [hq, hq']
    split <;> split <;> omega
  rcases Int.eq_nat_or_neg c with ⟨n, rfl | rfl⟩
  · rw [hnat]
    omega
  · rw [mul_neg, mul_neg, roundHalfAway_neg, roundHalfAway_neg, ← neg_add, neg_inj, hnat]
    omega

/-- The fee and the part of the only creator end in half a cent together. -/
theorem sum_toCents_sole (a : Usd) :
    ((settlementParts a.cents [10000]).map fun x => toCents (ofBase x)).sum = a.cents ↔
      a.cents % 20 ≠ 10 := by
  have hlt := a.lt
  have hfee : ofBase (5000 * a.cents) = 5000 * a.cents := by
    have h := roundSig_mul_pow (n := precision) (x := 5 * a.cents) 3 (by decide)
      (by unfold precision; omega)
    rwa [show 5 * a.cents * 10 ^ 3 = 5000 * a.cents by ring] at h
  have hpart : ofBase (95000 * a.cents - 0) = 95000 * a.cents := by
    have h := roundSig_mul_pow (n := precision) (x := 95 * a.cents) 3 (by decide)
      (by unfold precision; omega)
    rw [show 95 * a.cents * 10 ^ 3 = 95000 * a.cents by ring] at h
    rw [sub_zero]
    exact h
  simp only [settlementParts, apportion, apportionFrom, List.map_cons, List.map_nil,
    List.sum_cons, List.sum_nil, add_zero, hfee, hpart, toCents]
  exact sum_roundHalfAway_sole a.cents

/-! ## The rows that are stored -/

namespace Recording

/-- A call of `recordSettlementSuccess` with any faults, among any steps of the outside. -/
def discipline (cfg : StellarConfig) : Discipline (machine cfg) :=
  Discipline.solo (machine cfg) (fun _ => True)
    (fun w w' => w'.db.settlements = w.db.settlements) (fun _ _ _ => True) (fun _ _ => True)
    (fun _ _ => True) (fun _ => rfl) (fun h h' => h'.trans h)
    (fun {w e} _ _ => ⟨trivial, (env_keeps cfg e w).2.1⟩)

variable {cfg : StellarConfig}

theorem guar (w w' : World) : (discipline cfg).guar 0 w w' :=
  fun h => absurd rfl h

theorem assertion {P : Option Settlement → Prop} (orderId : String) :
    (discipline cfg).Assertion 0 fun w => P (w.db.settlements.lookup orderId) where
  inv _ := trivial
  rely {w w'} h hr _ := by
    have he : w'.db.settlements = w.db.settlements := hr rfl
    rw [he]
    exact h

/-- No row, or this one. -/
def Row (orderId : String) (s : Settlement) (w : World) : Prop :=
  w.db.settlements.lookup orderId = none ∨ w.db.settlements.lookup orderId = some s

/-- The row of an order without one : none, or the one that is recorded, whatever throws. -/
theorem triple (cfg : StellarConfig) (orderId : String) (amountUsd : Usd) (totalAmountBase : ℤ)
    (txHash : TxHash) (recipients : List RecipientInput) (collaborators : List Collaborator) :
    Triple (discipline cfg) 0 (fun w => w.db.settlements.lookup orderId = none)
      (recordSettlementSuccess orderId amountUsd totalAmountBase txHash recipients collaborators)
      (fun _ => Row orderId ⟨amountUsd, txHash,
        (settlementRows totalAmountBase recipients collaborators).map (·.stored)⟩)
      fun _ => Row orderId ⟨amountUsd, txHash,
        (settlementRows totalAmountBase recipients collaborators).map (·.stored)⟩ := by
  have hA : ∀ s, (discipline cfg).Assertion 0 (Row orderId s) := fun s =>
    assertion (P := fun x => x = none ∨ x = some s) orderId
  refine Triple.bind (R := fun _ => Row orderId ⟨amountUsd, txHash,
    (settlementRows totalAmountBase recipients collaborators).map (·.stored)⟩) ?_ fun _ =>
    Triple.bind ?_ fun _ => Triple.signal fun w h => ⟨guar _ _, h⟩
  · refine triple_settlementCreate (assertion (P := (· = none)) orderId) (fun _ _ => trivial)
      ?_ ?_
    · intro w c _ _ _
      exact ⟨guar _ _, fun _ => Or.inr (AList.lookup_insert _), fun _ =>
        Or.inr (AList.lookup_insert _)⟩
    · intro w c e h _ _
      exact ⟨guar _ _, Or.inl h⟩
  · refine triple_orderUpdate (hA _) (fun _ _ => trivial) ?_ ?_
    · intro w o c h _ _ _
      exact ⟨guar _ _, fun _ => h, fun _ => h⟩
    · intro w c e h _ _
      exact ⟨guar _ _, h⟩

end Recording

/-- The stored amounts of a settlement, the fee's and the creators', add up to its total
exactly when the fractions of a cent are carried. With one creator that is unless the cents
are 10 more than a multiple of 20, and it is so where every part is a whole number of cents. -/
theorem stored_amounts_sum (cfg : StellarConfig) (ch : ℕ → List Env × Choice) (w : World)
    (orderId : String) (amountUsd : Usd) (txHash : TxHash) (collaborators : List Collaborator)
    (s : Settlement) (hsum : (collaborators.map (·.revenuePercentage)).sum = 10000)
    (hpos : ∀ c ∈ collaborators, 0 ≤ c.revenuePercentage)
    (hn : w.db.settlements.lookup orderId = none)
    (hs : ((recordSettlementSuccess orderId amountUsd amountUsd.toBase txHash
      (recipientInputs collaborators) collaborators).eval (machine cfg).withSteps ch
        w).2.2.db.settlements.lookup orderId = some s) :
    ((s.recipients.map (·.amount)).sum = s.totalAmount.cents ↔
        RestsCarried (settlementParts amountUsd.cents
          (collaborators.map (·.revenuePercentage)))) ∧
      (collaborators.length = 1 →
        ((s.recipients.map (·.amount)).sum = s.totalAmount.cents ↔
          amountUsd.cents % 20 ≠ 10)) ∧
      (20 ∣ amountUsd.cents →
        (∀ c ∈ collaborators, 200000 ∣ 19 * amountUsd.cents * c.revenuePercentage) →
          (s.recipients.map (·.amount)).sum = s.totalAmount.cents) := by
  have hrow : s = ⟨amountUsd, txHash, (settlementRows amountUsd.toBase
      (recipientInputs collaborators) collaborators).map (·.stored)⟩ := by
    have h := (Recording.triple cfg orderId amountUsd amountUsd.toBase txHash
      (recipientInputs collaborators) collaborators).eval hn ch (fun _ _ _ => trivial)
        fun _ _ _ _ => trivial
    split at h
    all_goals
      next hx =>
        rw [hx] at hs
        simpa [Recording.Row, hs] using h
  subst hrow
  have hstored : ((settlementRows amountUsd.toBase (recipientInputs collaborators)
      collaborators).map (·.stored)).map (·.amount) =
        (settlementParts amountUsd.cents (collaborators.map (·.revenuePercentage))).map
          fun x => toCents (ofBase x) := by
    have h := congrArg (List.map toCents) (settlementRows_amount amountUsd collaborators)
    rw [List.map_map, List.map_map] at h
    rw [List.map_map]
    exact h
  rw [hstored]
  have hshares : ∀ s ∈ collaborators.map (·.revenuePercentage), 0 ≤ s := by simpa using hpos
  refine ⟨sum_toCents_settlementParts amountUsd hsum hshares, fun hone => ?_,
    fun hfee hwhole => sum_toCents_of_dvd amountUsd hsum hshares hfee (by simpa using hwhole)⟩
  obtain ⟨c, rfl⟩ := List.length_eq_one_iff.1 hone
  have hc : c.revenuePercentage = 10000 := by simpa using hsum
  rw [List.map_singleton, hc]
  exact sum_toCents_sole amountUsd

/-- $10.09 for one creator : the fee is rounded down and the creator's part up. -/
theorem stored_amounts_sum_carried :
    ∃ s, ((recordSettlementSuccess "order" (usd 1009) (usd 1009).toBase (.placeholder "hash")
        (recipientInputs [demoCollaborator "A" 10000]) [demoCollaborator "A" 10000]).eval
          (machine demoConfig).withSteps (fun _ => ([], {}))
          (demoWorld [] [("order", demoOrder .settlementPending)])).2.2.db.settlements.lookup
            "order" = some s ∧ (s.recipients.map (·.amount)).sum = s.totalAmount.cents :=
  ⟨⟨usd 1009, .placeholder "hash", [⟨"", .platform, "Platform Fee", 500, 50⟩,
      ⟨"A", .creator, "Author", 10000, 959⟩]⟩, by decide,
    (stored_amounts_sum demoConfig (fun _ => ([], {}))
      (demoWorld [] [("order", demoOrder .settlementPending)]) "order" (usd 1009)
      (.placeholder "hash") [demoCollaborator "A" 10000] _ (by decide) (by decide) (by decide)
      (by decide)).1.2 (by decide)⟩

/-- $0.10 for one creator : the halves of a cent of both rows are rounded up. -/
theorem stored_amounts_exceed_total :
    ∃ s, ((recordSettlementSuccess "order" (usd 10) (usd 10).toBase (.placeholder "hash")
        (recipientInputs [demoCollaborator "A" 10000]) [demoCollaborator "A" 10000]).eval
          (machine demoConfig).withSteps (fun _ => ([], {}))
          (demoWorld [] [("order", demoOrder .settlementPending)])).2.2.db.settlements.lookup
            "order" = some s ∧
      s.totalAmount = usd 10 ∧ (s.recipients.map (·.amount)).sum = 11 :=
  ⟨⟨usd 10, .placeholder "hash", [⟨"", .platform, "Platform Fee", 500, 1⟩,
      ⟨"A", .creator, "Author", 10000, 10⟩]⟩, by decide, rfl, by decide⟩

end Kreav
