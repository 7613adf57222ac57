import Kreav.ContractSplit

/-!
# Runs of the contract

Sequences of invocations from the deployed state. A call of `settle` is refused, or
`Entered` and goes on with its recipients and its `Split`. `settle_eq_ok` says all that a
`settle` that returns `Ok` does, and `invoke_cases` that an invocation does nothing, configures an
unconfigured contract, or settles a new order.

`settledCalls` collects the `settle` calls of a run that returned `Ok`. `RunInv` ties the
configuration, the markers and the token balances to them, and every invocation keeps it
(`RunInv.invoke`).
-/

set_option linter.unusedSectionVars false

open CheckedInt TokenLedger

namespace Kreav

variable {A : Type} [DecidableEq A]

/-! ## The transfer loop -/

/-- What the pairs allot to the account `x`. -/
def allotted (x : A) (pairs : List (Recipient A × I128)) : ℤ :=
  (pairs.map fun p => if p.1.address = x then p.2.val else 0).sum

/-- Everything the pairs allot. -/
def allottedSum (pairs : List (Recipient A × I128)) : ℤ :=
  (pairs.map fun p => p.2.val).sum

/-- What the transfer loop does : it moves the allotted amounts of `token` out of `source`
and publishes events. -/
structure Paid (token source : A) (pairs : List (Recipient A × I128))
    (s s' : ContractState A) : Prop where
  platformWallet : s'.platformWallet = s.platformWallet
  usdcSac : s'.usdcSac = s.usdcSac
  settlement : s'.settlement = s.settlement
  supply : ∀ t, (s'.ledger t).supply = (s.ledger t).supply
  other : ∀ t, t ≠ token → s'.ledger t = s.ledger t
  balance : ∀ x, (s'.ledger token).balance x = (s.ledger token).balance x -
    (if x = source then allottedSum pairs else 0) + allotted x pairs

variable {sac : Sac A} {token source : A} {orderRef : String}

theorem transfer_eq_ok {s s' : ContractState A} {q : A} {n : ℤ}
    (h : s.transfer sac token source q n = .ok s') :
    s' = { s with
      ledger := Function.update s.ledger token ((s.ledger token).transfer source q n) } := by
  unfold ContractState.transfer at h
  split at h
  · exact (Except.ok.inj h).symm
  · cases h

/-- One turn of the loop : zero amounts are skipped, others are transferred. -/
theorem paid_one {s s' : ContractState A} {p : Recipient A × I128} (h0 : 0 ≤ p.2.val)
    (h : (if 0 < p.2.val then s.transfer sac token source p.1.address p.2.val else .ok s) =
      .ok s') : Paid token source [p] s s' := by
  by_cases hp : 0 < p.2.val
  · rw [if_pos hp] at h
    obtain rfl := transfer_eq_ok h
    refine ⟨rfl, rfl, rfl, fun t => ?_, fun t ht => ?_, fun x => ?_⟩
    · by_cases ht : t = token
      · subst ht
        simp [Ledger.supply_transfer]
      · simp [ht]
    · simp [ht]
    · simp [Ledger.balance_transfer, allotted, allottedSum, eq_comm]
  · rw [if_neg hp] at h
    obtain rfl := Except.ok.inj h
    have hz : p.2.val = 0 := by omega
    refine ⟨rfl, rfl, rfl, fun _ => rfl, fun _ _ => rfl, fun x => ?_⟩
    simp [allotted, allottedSum, hz]

theorem Paid.cons {s s' s'' : ContractState A} {p : Recipient A × I128}
    {rest : List (Recipient A × I128)} (h1 : Paid token source [p] s s')
    (h2 : Paid token source rest s' s'') : Paid token source (p :: rest) s s'' where
  platformWallet := h2.platformWallet.trans h1.platformWallet
  usdcSac := h2.usdcSac.trans h1.usdcSac
  settlement := h2.settlement.trans h1.settlement
  supply t := (h2.supply t).trans (h1.supply t)
  other t ht := (h2.other t ht).trans (h1.other t ht)
  balance x := by
    rw [h2.balance x, h1.balance x]
    simp only [allotted, allottedSum, List.map_cons, List.map_nil, List.sum_cons, List.sum_nil]
    split <;> omega

theorem Paid.of_publish {s s' : ContractState A} {e : ContractEvent A}
    {pairs : List (Recipient A × I128)} (h : Paid token source pairs (s.publish e) s') :
    Paid token source pairs s s' :=
  ⟨h.platformWallet, h.usdcSac, h.settlement, h.supply, h.other, h.balance⟩

/-- The loop pays every recipient its amount. -/
theorem payRecipients_eq_ok : ∀ {pairs : List (Recipient A × I128)} {s s' : ContractState A},
    (∀ p ∈ pairs, 0 ≤ p.2.val) → payRecipients sac token source orderRef pairs s = .ok s' →
      Paid token source pairs s s'
  | [], s, s', _, h => by
    obtain rfl := Except.ok.inj h
    exact ⟨rfl, rfl, rfl, fun _ => rfl, fun _ _ => rfl, fun x => by simp [allotted, allottedSum]⟩
  | p :: rest, s, s', h0, h => by
    obtain ⟨r, a⟩ := p
    simp only [payRecipients] at h
    cases h1 : (if 0 < a.val then s.transfer sac token source r.address a.val else .ok s) with
    | error e =>
      rw [h1] at h
      cases h
    | ok s1 =>
      rw [h1] at h
      have hone := paid_one (p := (r, a)) (h0 (r, a) (by simp)) h1
      have hrest := payRecipients_eq_ok (fun p hp => h0 p (List.mem_cons_of_mem _ hp)) h
      exact hone.cons hrest.of_publish

/-! ## One invocation -/

/-- The amounts a settlement of `total` pays the recipients. -/
structure Split (total : I128) (recipients : List (Recipient A)) where
  platformFee : I128
  creatorPool : I128
  amounts : List I128
  fee_eq : feeAndPool total = .ok (platformFee, creatorPool)
  amounts_eq : calculateCreatorAmounts recipients creatorPool = some amounts

/-- What `settle` does when it returns `Ok`. -/
structure Settles (auth : A → Bool) (orderRef : String) (total : I128)
    (recipients : List (Recipient A)) (s s' : ContractState A) (platformWallet usdcSac : A)
    (split : Split total recipients) : Prop where
  wallet_eq : s.platformWallet = some platformWallet
  sac_eq : s.usdcSac = some usdcSac
  auth : auth platformWallet = true
  fresh : orderRef ∉ s.settlement
  pos : 0 < total.val
  valid : Valid recipients
  wallet_eq' : s'.platformWallet = some platformWallet
  sac_eq' : s'.usdcSac = some usdcSac
  settlement : s'.settlement = insert orderRef s.settlement
  supply : ∀ t, (s'.ledger t).supply = (s.ledger t).supply
  balance : ∀ x, (s'.ledger usdcSac).balance x = (s.ledger usdcSac).balance x -
    (if x = platformWallet then split.creatorPool.val else 0) +
      allotted x (recipients.zip split.amounts)

theorem allottedSum_zip {rs : List (Recipient A)} {amounts : List I128}
    (h : amounts.length = rs.length) :
    allottedSum (rs.zip amounts) = (amounts.map (·.val)).sum := by
  have hmap : (rs.zip amounts).map (fun p => p.2.val) =
      ((rs.zip amounts).map Prod.snd).map (·.val) := by simp
  rw [allottedSum, hmap, List.map_snd_zip h.le]

/-- A call of `settle` that passes every check before the one of its recipients. -/
structure Entered (auth : A → Bool) (orderRef : String) (total : I128) (s : ContractState A)
    (platformWallet usdcSac : A) : Prop where
  wallet_eq : s.platformWallet = some platformWallet
  sac_eq : s.usdcSac = some usdcSac
  auth : auth platformWallet = true
  fresh : orderRef ∉ s.settlement
  pos : 0 < total.val

variable {auth : A → Bool} {total : I128} {recipients : List (Recipient A)}

theorem Entered.settle_invalid {s : ContractState A} {w u : A} {e : ContractError}
    (h : Entered auth orderRef total s w u) (hv : validateRecipients recipients = .error e) :
    settle sac auth orderRef total recipients s = .error (.err e) := by
  have ht : ¬ total.val ≤ 0 := not_le.2 h.pos
  simp [settle, h.wallet_eq, h.sac_eq, h.auth, h.fresh, ht, hv]

theorem Entered.settle_valid {s : ContractState A} {w u : A}
    (h : Entered auth orderRef total s w u) (hv : Valid recipients) :
    settle sac auth orderRef total recipients s =
      settleChecked sac w u orderRef total recipients s := by
  have ht : ¬ total.val ≤ 0 := not_le.2 h.pos
  obtain ⟨sum, hsum⟩ := validateRecipients_eq_ok.2 hv
  simp [settle, h.wallet_eq, h.sac_eq, h.auth, h.fresh, ht, hsum]

/-- Any other call is refused : it returns an error, or lacks the authorization. -/
theorem settle_refused {s : ContractState A}
    (h : ∀ w u, ¬ Entered auth orderRef total s w u) :
    ∃ halt, settle sac auth orderRef total recipients s = .error halt ∧
      (halt = .trap → ∃ w, s.platformWallet = some w ∧ auth w = false) := by
  unfold settle
  cases hw : s.platformWallet with
  | none => exact ⟨_, rfl, by simp⟩
  | some w =>
  cases hu : s.usdcSac with
  | none => exact ⟨_, rfl, by simp⟩
  | some u =>
  by_cases ha : auth w = true
  swap
  · exact ⟨.trap, by simp [ha], fun _ => ⟨w, rfl, by simpa using ha⟩⟩
  by_cases hs : orderRef ∈ s.settlement
  · exact ⟨.err .orderAlreadySettled, by simp [ha, hs], by simp⟩
  by_cases ht : total.val ≤ 0
  · exact ⟨.err .invalidTotalAmount, by simp [ha, hs, ht], by simp⟩
  · exact absurd ⟨hw, hu, ha, hs, by omega⟩ (h w u)

/-- The state that `settle` leaves once its transfers are made. -/
def Split.record (split : Split total recipients) (orderRef : String) (s : ContractState A) :
    ContractState A :=
  { s with settlement := insert orderRef s.settlement }.publish (.settlementExecuted orderRef
    total split.platformFee split.creatorPool recipients.length)

/-- After the split, only the transfers remain. -/
theorem Split.settleChecked_eq (split : Split total recipients) (w u : A)
    (s : ContractState A) : settleChecked sac w u orderRef total recipients s =
      (payRecipients sac u w orderRef (recipients.zip split.amounts) s).map
        (split.record orderRef) := by
  simp only [settleChecked, split.fee_eq, split.amounts_eq]
  cases payRecipients sac u w orderRef (recipients.zip split.amounts) s <;> rfl

theorem settleChecked_eq_ok {w u : A} {s s' : ContractState A}
    (h : settleChecked sac w u orderRef total recipients s = .ok s') :
    ∃ (split : Split total recipients) (s₁ : ContractState A),
      payRecipients sac u w orderRef (recipients.zip split.amounts) s = .ok s₁ ∧
        s' = split.record orderRef s₁ := by
  have h' := h
  unfold settleChecked at h
  cases hf : feeAndPool total with
  | error e => simp [hf] at h
  | ok fp =>
  obtain ⟨fee, pool⟩ := fp
  cases hc : calculateCreatorAmounts recipients pool with
  | none => simp [hf, hc] at h
  | some amounts =>
  refine ⟨⟨fee, pool, amounts, hf, hc⟩, ?_⟩
  rw [Split.settleChecked_eq ⟨fee, pool, amounts, hf, hc⟩] at h'
  cases hp : payRecipients sac u w orderRef (recipients.zip amounts) s with
  | error e => simp [hp, Except.map] at h'
  | ok s₁ =>
    simp only [hp, Except.map, Except.ok.injEq] at h'
    exact ⟨s₁, rfl, h'.symm⟩

/-- A `settle` that returns `Ok` was entered with valid recipients. -/
theorem settle_entered {s s' : ContractState A}
    (h : settle sac auth orderRef total recipients s = .ok s') :
    ∃ w u, Entered auth orderRef total s w u ∧ Valid recipients ∧
      settleChecked sac w u orderRef total recipients s = .ok s' := by
  by_cases he : ∃ w u, Entered auth orderRef total s w u
  · obtain ⟨w, u, he⟩ := he
    cases hv : validateRecipients recipients with
    | error e =>
      rw [he.settle_invalid hv] at h
      cases h
    | ok sum =>
      have hv := validateRecipients_eq_ok.1 ⟨sum, hv⟩
      rw [he.settle_valid hv] at h
      exact ⟨w, u, he, hv, h⟩
  · push Not at he
    obtain ⟨halt, hh, -⟩ : ∃ halt, settle sac auth orderRef total recipients s = .error halt ∧
        (halt = .trap → ∃ w, s.platformWallet = some w ∧ auth w = false) := settle_refused he
    rw [hh] at h
    cases h

/-- The arithmetic of a valid settlement completes. -/
theorem nonempty_split (h0 : 0 ≤ total.val) (hle : total.val ≤ maxTotal)
    (hv : Valid recipients) : Nonempty (Split total recipients) := by
  obtain ⟨fee, pool, hf⟩ := feeAndPool_complete h0 hle
  obtain ⟨-, hp0, hp1⟩ := feeAndPool_bounds hf h0
  obtain ⟨amounts, hc⟩ := calculateCreatorAmounts_complete hv hp0 (by omega)
  exact ⟨⟨fee, pool, amounts, hf, hc⟩⟩

theorem Split.nonneg (split : Split total recipients) (hv : Valid recipients)
    (ht : 0 < total.val) : ∀ p ∈ recipients.zip split.amounts, 0 ≤ p.2.val := fun p hp =>
  calculateCreatorAmounts_nonneg split.amounts_eq hv (feeAndPool_bounds split.fee_eq ht.le).2.1
    p.2 (List.of_mem_zip hp).2

theorem Split.allottedSum_eq (split : Split total recipients) (hv : Valid recipients) :
    allottedSum (recipients.zip split.amounts) = split.creatorPool.val := by
  rw [allottedSum_zip (length_calculateCreatorAmounts split.amounts_eq),
    sum_calculateCreatorAmounts split.amounts_eq hv.ne_nil]

/-- All that a successful `settle` does. -/
theorem settle_eq_ok {s s' : ContractState A}
    (h : settle sac auth orderRef total recipients s = .ok s') :
    ∃ platformWallet usdcSac split,
      Settles auth orderRef total recipients s s' platformWallet usdcSac split := by
  obtain ⟨w, u, he, hv, h⟩ := settle_entered h
  obtain ⟨split, s₁, hp, rfl⟩ := settleChecked_eq_ok h
  have hpaid := payRecipients_eq_ok (split.nonneg hv he.pos) hp
  refine ⟨w, u, split, ⟨he.wallet_eq, he.sac_eq, he.auth, he.fresh, he.pos, hv,
    hpaid.platformWallet.trans he.wallet_eq, hpaid.usdcSac.trans he.sac_eq, ?_, hpaid.supply,
    fun x => ?_⟩⟩
  · show insert orderRef s₁.settlement = insert orderRef s.settlement
    rw [hpaid.settlement]
  · rw [← split.allottedSum_eq hv]
    exact hpaid.balance x

/-! ## A settlement that the wallet covers -/

section Covered

variable (trusts : A → Prop)

/-- The loop completes when the source holds what it gives out, every recipient can receive
it, and the token contract accepts such transfers. -/
theorem payRecipients_complete (haccepts : ∀ (l : Ledger A) (q : A) (n : ℤ), 0 < n →
      n ≤ l.balance source → trusts q → sac.accepts token l source q n = true) :
    ∀ {pairs : List (Recipient A × I128)} {s : ContractState A},
      (∀ p ∈ pairs, 0 ≤ p.2.val ∧ trusts p.1.address) →
      allottedSum pairs ≤ (s.ledger token).balance source →
      ∃ s', payRecipients sac token source orderRef pairs s = .ok s'
  | [], s, _, _ => ⟨s, rfl⟩
  | p :: rest, s, h0, hbal => by
    obtain ⟨r, a⟩ := p
    obtain ⟨ha, hr⟩ : 0 ≤ a.val ∧ trusts r.address := h0 (r, a) (by simp)
    have hrest : ∀ p ∈ rest, 0 ≤ p.2.val ∧ trusts p.1.address := fun p hp =>
      h0 p (List.mem_cons_of_mem _ hp)
    have hsum : allottedSum ((r, a) :: rest) = a.val + allottedSum rest := by
      simp [allottedSum]
    have hnn : 0 ≤ allottedSum rest := by
      refine List.sum_nonneg fun x hx => ?_
      obtain ⟨p, hp, rfl⟩ := List.mem_map.1 hx
      exact (hrest p hp).1
    obtain ⟨s1, h1⟩ : ∃ s1, (if 0 < a.val then s.transfer sac token source r.address a.val
        else .ok s) = .ok s1 := by
      split
      · next hpos =>
        have hacc := haccepts (s.ledger token) r.address a.val hpos (by omega) hr
        exact ⟨_, by rw [ContractState.transfer, if_pos hacc]⟩
      · exact ⟨s, rfl⟩
    have hpaid := paid_one (p := (r, a)) ha h1
    have hbal1 : (s.ledger token).balance source - a.val ≤
        (s1.ledger token).balance source := by
      rw [hpaid.balance source]
      simp only [allotted, allottedSum, List.map_cons, List.map_nil, List.sum_cons, List.sum_nil]
      split <;> omega
    obtain ⟨s2, h2⟩ := payRecipients_complete haccepts
      (s := s1.publish (.recipientPaid orderRef r.address a)) hrest
        (by show allottedSum rest ≤ (s1.ledger token).balance source; omega)
    refine ⟨s2, ?_⟩
    simp only [payRecipients, h1]
    exact h2

/-- A valid settlement of a fresh order completes when the wallet holds the total. -/
theorem settle_complete {auth : A → Bool} {total : I128} {recipients : List (Recipient A)}
    {s : ContractState A} (hw : s.platformWallet = some source) (hu : s.usdcSac = some token)
    (hauth : auth source = true) (hfresh : orderRef ∉ s.settlement) (hpos : 0 < total.val)
    (hle : total.val ≤ maxTotal) (hvalid : Valid recipients)
    (htrusts : ∀ r ∈ recipients, trusts r.address)
    (haccepts : ∀ (l : Ledger A) (q : A) (n : ℤ), 0 < n → n ≤ l.balance source → trusts q →
      sac.accepts token l source q n = true)
    (hbal : total.val ≤ (s.ledger token).balance source) :
    ∃ s', settle sac auth orderRef total recipients s = .ok s' := by
  obtain ⟨split⟩ := nonempty_split hpos.le hle hvalid
  obtain ⟨s₁, h₁⟩ : ∃ s₁,
      payRecipients sac token source orderRef (recipients.zip split.amounts) s = .ok s₁ :=
    payRecipients_complete trusts haccepts
      (fun p hp => ⟨split.nonneg hvalid hpos p hp, htrusts p.1 (List.of_mem_zip hp).1⟩)
      (by
        have hpool := (feeAndPool_bounds split.fee_eq hpos.le).2.2
        rw [split.allottedSum_eq hvalid]
        exact hpool.trans hbal)
  have hentered : Entered auth orderRef total s source token := ⟨hw, hu, hauth, hfresh, hpos⟩
  exact ⟨_, by rw [hentered.settle_valid hvalid, split.settleChecked_eq, h₁]; rfl⟩

end Covered

/-- All that a successful `initialize` does. -/
theorem initializeContract_eq_ok {auth : A → Bool} {w u : A} {s s' : ContractState A}
    (h : initializeContract auth w u s = .ok s') :
    s.platformWallet = none ∧ s' = { s with platformWallet := some w, usdcSac := some u } := by
  unfold initializeContract at h
  cases hw : s.platformWallet with
  | some w' => simp [hw] at h
  | none =>
    by_cases hwu : w = u
    · simp [hw, hwu] at h
    · by_cases ha : auth w = true
      · simp only [hw, hwu, ha, Option.isSome_none, Bool.false_eq_true, if_false,
          Bool.not_true] at h
        exact ⟨rfl, (Except.ok.inj h).symm⟩
      · simp [hw, hwu, ha] at h

/-- An invocation leaves the state as it was, configures the contract, or settles. -/
theorem invoke_cases (sac : Sac A) (i : Invocation A) (s : ContractState A) :
    ((invoke sac i s).1 ≠ .ok ∧ (invoke sac i s).2 = s) ∨
    (∃ auth w u, i = .initializeContract auth w u ∧ (invoke sac i s).1 = .ok ∧
      s.platformWallet = none ∧
      (invoke sac i s).2 = { s with platformWallet := some w, usdcSac := some u }) ∨
    ∃ auth ref total recipients w u split, i = .settle auth ref total recipients ∧
      (invoke sac i s).1 = .ok ∧
      Settles auth ref total recipients s (invoke sac i s).2 w u split := by
  cases i with
  | initializeContract auth w u =>
    cases h : initializeContract auth w u s with
    | error e => simp [invoke, h, commit]
    | ok s' =>
      obtain ⟨hn, rfl⟩ := initializeContract_eq_ok h
      exact Or.inr (Or.inl ⟨auth, w, u, rfl, by simp [invoke, h, commit], hn,
        by simp [invoke, h, commit]⟩)
  | settle auth ref total recipients =>
    cases h : settle sac auth ref total recipients s with
    | error e => simp [invoke, h, commit]
    | ok s' =>
      obtain ⟨w, u, split, hset⟩ := settle_eq_ok h
      refine Or.inr (Or.inr ⟨auth, ref, total, recipients, w, u, split, rfl, ?_, ?_⟩)
      · simp [invoke, h, commit]
      · simpa [invoke, h, commit] using hset
  | isSettled ref => exact Or.inl ⟨by simp [invoke], rfl⟩

/-! ## Many invocations -/

/-- The arguments of a `settle` that returned `Ok`. -/
structure SettleCall (A : Type) where
  orderRef : String
  totalAmount : I128
  recipients : List (Recipient A)

/-- The creator pool of a settlement, less what is allotted to the platform wallet. -/
def SettleCall.outflow (platformWallet : A) (c : SettleCall A) : ℤ :=
  match feeAndPool c.totalAmount with
  | .error _ => 0
  | .ok (_, creatorPool) =>
    match calculateCreatorAmounts c.recipients creatorPool with
    | none => 0
    | some amounts => creatorPool.val - allotted platformWallet (c.recipients.zip amounts)

theorem Split.outflow_eq {total : I128} {rs : List (Recipient A)} (split : Split total rs)
    (ref : String) (w : A) : SettleCall.outflow w ⟨ref, total, rs⟩ =
      split.creatorPool.val - allotted w (rs.zip split.amounts) := by
  simp only [SettleCall.outflow, split.fee_eq, split.amounts_eq]

/-- The call an invocation adds to the settled ones. -/
def okSettle : Invocation A → Outcome → List (SettleCall A)
  | .settle _ orderRef totalAmount recipients, .ok => [⟨orderRef, totalAmount, recipients⟩]
  | _, _ => []

/-- The state after a list of invocations, each with the token contracts as it finds them. -/
def runAll : List (Sac A × Invocation A) → ContractState A → ContractState A
  | [], s => s
  | (sac, i) :: is, s => runAll is (invoke sac i s).2

/-- The `settle` calls of a list of invocations that returned `Ok`. -/
def settledCalls : List (Sac A × Invocation A) → ContractState A → List (SettleCall A)
  | [], _ => []
  | (sac, i) :: is, s => okSettle i (invoke sac i s).1 ++ settledCalls is (invoke sac i s).2

/-- How a state relates to the `done` settlements since the ledgers were `ledger`. -/
structure RunInv (ledger : A → Ledger A) (done : List (SettleCall A)) (s : ContractState A) :
    Prop where
  nodup : (done.map (·.orderRef)).Nodup
  marker : ∀ ref, ref ∈ s.settlement ↔ ref ∈ done.map (·.orderRef)
  unconfigured : s.platformWallet = none → done = [] ∧ s.ledger = ledger
  supply : ∀ token, (s.ledger token).supply = (ledger token).supply
  balance : ∀ w u, s.platformWallet = some w → s.usdcSac = some u →
    (ledger u).balance w - (s.ledger u).balance w = (done.map (·.outflow w)).sum

theorem runInv_deployed (ledger : A → Ledger A) : RunInv ledger [] (deployed ledger) :=
  ⟨List.nodup_nil, by simp [deployed], fun _ => ⟨rfl, rfl⟩, fun _ => rfl, by simp [deployed]⟩

theorem okSettle_of_ne {i : Invocation A} {o : Outcome} (h : o ≠ .ok) : okSettle i o = [] := by
  cases i <;> cases o <;> simp_all [okSettle]

/-- Every invocation keeps the invariant. -/
theorem RunInv.invoke {ledger : A → Ledger A} {done : List (SettleCall A)} {s : ContractState A}
    (h : RunInv ledger done s) (i : Invocation A) :
    RunInv ledger (done ++ okSettle i (invoke sac i s).1) (invoke sac i s).2 := by
  rcases invoke_cases sac i s with ⟨hne, hs⟩ | ⟨auth, w, u, rfl, -, hw, hs⟩ |
    ⟨auth, ref, total, rs, w, u, split, rfl, ho, hs⟩
  · rw [okSettle_of_ne hne, List.append_nil, hs]
    exact h
  · obtain ⟨rfl, hl⟩ := h.unconfigured hw
    rw [hs]
    refine ⟨h.nodup, h.marker, by simp, h.supply, fun w' u' _ _ => ?_⟩
    simp [okSettle, hl]
  · rw [ho]
    simp only [okSettle]
    refine ⟨?_, fun ref' => ?_, fun hn => ?_, fun t => ?_, fun w' u' hw' hu' => ?_⟩
    · rw [List.map_append, List.map_singleton, List.nodup_append]
      refine ⟨h.nodup, List.nodup_singleton _, fun x hx y hy => ?_⟩
      rw [List.mem_singleton.1 hy]
      rintro rfl
      exact hs.fresh ((h.marker _).2 hx)
    · rw [hs.settlement, Finset.mem_insert, h.marker ref']
      simp only [List.map_append, List.map_singleton, List.mem_append, List.mem_singleton]
      exact or_comm
    · rw [hs.wallet_eq'] at hn
      cases hn
    · rw [hs.supply t, h.supply t]
    · obtain rfl : w = w' := Option.some.inj (hs.wallet_eq'.symm.trans hw')
      obtain rfl : u = u' := Option.some.inj (hs.sac_eq'.symm.trans hu')
      have hb := h.balance w u hs.wallet_eq hs.sac_eq
      rw [List.map_append, List.sum_append, ← hb, hs.balance w, List.map_singleton,
        List.sum_singleton, split.outflow_eq, if_pos rfl]
      omega

/-- Any sequence of invocations keeps the invariant. -/
theorem RunInv.runAll {ledger : A → Ledger A} : ∀ (is : List (Sac A × Invocation A))
    {done : List (SettleCall A)} {s : ContractState A}, RunInv ledger done s →
      RunInv ledger (done ++ settledCalls is s) (runAll is s)
  | [], done, s, h => by simpa [settledCalls, Kreav.runAll] using h
  | (sac, i) :: is, done, s, h => by
    rw [settledCalls, ← List.append_assoc, Kreav.runAll]
    exact RunInv.runAll is (h.invoke i)

/-- A configured contract keeps its configuration. -/
theorem config_invoke {s : ContractState A} {w u : A} (hw : s.platformWallet = some w)
    (hu : s.usdcSac = some u) (i : Invocation A) :
    (invoke sac i s).2.platformWallet = some w ∧ (invoke sac i s).2.usdcSac = some u := by
  rcases invoke_cases sac i s with ⟨-, hs⟩ | ⟨_, _, _, -, -, hn, -⟩ |
    ⟨_, _, _, _, w', u', _, -, -, hs⟩
  · rw [hs]
    exact ⟨hw, hu⟩
  · rw [hn] at hw
    cases hw
  · obtain rfl : w' = w := Option.some.inj (hs.wallet_eq.symm.trans hw)
    obtain rfl : u' = u := Option.some.inj (hs.sac_eq.symm.trans hu)
    exact ⟨hs.wallet_eq', hs.sac_eq'⟩

theorem config_runAll : ∀ (is : List (Sac A × Invocation A)) {s : ContractState A} {w u : A},
    s.platformWallet = some w → s.usdcSac = some u →
      (runAll is s).platformWallet = some w ∧ (runAll is s).usdcSac = some u
  | [], _, _, _, hw, hu => ⟨hw, hu⟩
  | (_, i) :: is, _, _, _, hw, hu => by
    obtain ⟨hw', hu'⟩ := config_invoke hw hu i
    exact config_runAll is hw' hu'

theorem runAll_append (is js : List (Sac A × Invocation A)) (s : ContractState A) :
    runAll (is ++ js) s = runAll js (runAll is s) := by
  induction is generalizing s with
  | nil => rfl
  | cons i is ih => exact ih _

theorem config_initializeContract {auth : A → Bool} {s : ContractState A} {w u : A}
    (h : (invoke sac (.initializeContract auth w u) s).1 = .ok) :
    (invoke sac (.initializeContract auth w u) s).2.platformWallet = some w ∧
      (invoke sac (.initializeContract auth w u) s).2.usdcSac = some u := by
  rcases invoke_cases sac (.initializeContract auth w u) s with ⟨hne, -⟩ |
    ⟨_, _, _, hi, -, -, hs⟩ | ⟨_, _, _, _, _, _, _, hi, -⟩
  · exact absurd h hne
  · cases hi
    rw [hs]
    exact ⟨rfl, rfl⟩
  · cases hi

/-- Every run of the deployed contract : no order is settled twice, the marker of an order
says whether it is settled, the first configuration stays, no token is made or lost, and
the platform wallet is short of exactly the creator pools it paid to others. -/
theorem contract_runs (ledger : A → Ledger A) (is : List (Sac A × Invocation A)) :
    ((settledCalls is (deployed ledger)).map (·.orderRef)).Nodup ∧
      (∀ sac ref, (invoke sac (.isSettled ref) (runAll is (deployed ledger))).1 =
        .answer (ref ∈ (settledCalls is (deployed ledger)).map (·.orderRef))) ∧
      (∀ sac auth w u more,
        (invoke sac (.initializeContract auth w u) (runAll is (deployed ledger))).1 = .ok →
        (runAll (is ++ (sac, .initializeContract auth w u) :: more)
          (deployed ledger)).platformWallet = some w ∧
        (runAll (is ++ (sac, .initializeContract auth w u) :: more)
          (deployed ledger)).usdcSac = some u) ∧
      (∀ token, ((runAll is (deployed ledger)).ledger token).supply = (ledger token).supply) ∧
      ∀ w u, (runAll is (deployed ledger)).platformWallet = some w →
        (runAll is (deployed ledger)).usdcSac = some u →
        (ledger u).balance w - ((runAll is (deployed ledger)).ledger u).balance w =
          ((settledCalls is (deployed ledger)).map (·.outflow w)).sum := by
  have h := (runInv_deployed ledger).runAll is
  rw [List.nil_append] at h
  refine ⟨h.nodup, fun sac ref => ?_, fun sac auth w u more hok => ?_, h.supply, h.balance⟩
  · simp only [invoke, isSettled, h.marker ref]
  · rw [runAll_append]
    obtain ⟨hw, hu⟩ := config_initializeContract hok
    exact config_runAll more hw hu

/-- The wallet `w` holds 1000 units of the token `u`. It settles an order of 101 units, tries
it again, and settles another that allots it a third : it is short of `96 + (96 - 31)`. -/
theorem contract_runs_twice :
    (Ledger.single "w" 1000).balance "w" - ((runAll
      ([.initializeContract (· = "w") "w" "u",
        .settle (· = "w") "o" (i128 101) [⟨"a", i128 3333⟩, ⟨"b", i128 6667⟩],
        .settle (· = "w") "o" (i128 101) [⟨"a", i128 3333⟩, ⟨"b", i128 6667⟩],
        .settle (· = "w") "p" (i128 101) [⟨"w", i128 3333⟩, ⟨"b", i128 6667⟩]].map
          fun i => (⟨fun _ l p _ n => n ≤ l.balance p⟩, i))
      (deployed fun _ => Ledger.single "w" 1000)).ledger "u").balance "w" = 161 := by
  obtain ⟨-, -, -, -, h⟩ := contract_runs (fun _ => Ledger.single "w" 1000)
    ([.initializeContract (· = "w") "w" "u",
      .settle (· = "w") "o" (i128 101) [⟨"a", i128 3333⟩, ⟨"b", i128 6667⟩],
      .settle (· = "w") "o" (i128 101) [⟨"a", i128 3333⟩, ⟨"b", i128 6667⟩],
      .settle (· = "w") "p" (i128 101) [⟨"w", i128 3333⟩, ⟨"b", i128 6667⟩]].map
        fun i => (⟨fun _ l p _ n => n ≤ l.balance p⟩, i))
  exact (h "w" "u" (by decide) (by decide)).trans (by decide)

end Kreav
