import Kreav.Lib.Triples
import Kreav.Withdrawals

/-!
# The steps of the withdrawal endpoints

A property of programs that sequencing keeps and that holds of the queries of the endpoints
(`OfQueries`) holds of every method whose writes have it. `withdrawalExec_changes` says what
the answer to a request may leave of a world.
-/

open Async Prog

namespace Kreav

/-! ## Methods -/

/-- The request changes rows of `withdrawals`. -/
def WithdrawalRequest.writes : WithdrawalRequest → Bool
  | .withdrawalCreate _ => true
  | .withdrawalUpdate _ _ => true
  | .withdrawalUpdateMany _ _ _ => true
  | _ => false

/-- A property of programs that the queries have. -/
structure OfQueries (K : ∀ α : Type, WithdrawalMethod α → Prop) : Prop extends
    Compositional K where
  query : ∀ {r : WithdrawalRequest}, r.writes = false → K _ (awaitW r)

namespace OfQueries

variable {K : ∀ α : Type, WithdrawalMethod α → Prop} {cfg : WithdrawalConfig}

theorem getWithdrawableBalance (h : OfQueries K) (walletAddress : String) :
    K _ (getWithdrawableBalance walletAddress) := by
  refine h.bind (h.query rfl) fun creatorId => ?_
  cases creatorId with
  | none => exact h.ret _
  | some creatorId =>
    exact h.bind (h.query (r := .settledTotal walletAddress) rfl) fun _ =>
      h.bind (h.query (r := .completedTotal creatorId) rfl) fun _ => h.ret _

theorem generateReference (h : OfQueries K) : K _ (generateReference cfg) := by
  refine h.bind (h.query rfl) fun now => h.bind (h.query rfl) fun last => ?_
  rcases last with - | - | -
  · exact h.ret _
  · exact h.ret _
  · exact h.ret _

theorem findRecentSettlementTxHash (h : OfQueries K) (walletAddress : String) :
    K _ (findRecentSettlementTxHash walletAddress) :=
  h.bind (h.query rfl) fun _ => h.ret _

theorem receiptOf (h : OfQueries K) (withdrawal : Withdrawal) (status : WithdrawalStatus)
    (completedAt : Option ℕ) : K _ (receiptOf withdrawal status completedAt) := by
  refine h.bind (h.bind (h.query rfl) fun walletAddress => ?_) fun _ => h.ret _
  cases walletAddress with
  | none => exact h.ret _
  | some walletAddress => exact h.bind (h.getWithdrawableBalance _) fun _ => h.ret _

theorem assertEnabled (h : OfQueries K) : K _ (assertEnabled cfg) := by
  unfold Kreav.assertEnabled
  split
  · exact h.ret _
  · exact h.raise _

theorem requireToken (h : OfQueries K) (token : Option String) : K _ (requireToken token) := by
  cases token with
  | none => exact h.raise _
  | some token =>
    simp only [Kreav.requireToken]
    split
    · exact h.raise _
    · exact h.ret _

theorem getAddressForCreator (h : OfQueries K) (creatorId : String) :
    K _ (getAddressForCreator creatorId) := by
  refine h.bind (h.query rfl) fun walletAddress => ?_
  cases walletAddress with
  | none => exact h.raise _
  | some walletAddress => exact h.ret _

theorem requestWithdrawal (h : OfQueries K)
    (hcreate : ∀ data : WithdrawalCreate, data.status = .requested →
      K _ (awaitW (.withdrawalCreate data)))
    (hupdate : ∀ id, K _ (awaitW (.withdrawalUpdate id { status := some .processing })))
    (walletAddress : String) (amount : ℤ) (destinationType destinationAccount : String) :
    K _ (requestWithdrawal cfg walletAddress amount destinationType destinationAccount) := by
  refine h.bind (h.query rfl) fun creatorId => ?_
  cases creatorId with
  | none => exact h.raise _
  | some creatorId =>
    refine h.bind (h.getWithdrawableBalance _) fun available => ?_
    split
    · exact h.raise _
    · exact h.bind h.generateReference fun _ => h.bind (h.findRecentSettlementTxHash _) fun _ =>
        h.bind (hcreate _ rfl) fun _ => h.bind (hupdate _) fun _ => h.ret _

theorem getWithdrawal (h : OfQueries K)
    (hupdate : ∀ id completedAt, K _ (awaitW (.withdrawalUpdate id
      { status := some .completed, completedAt := some (some completedAt) })))
    (id : String) (requesterCreatorId : Option String) :
    K _ (getWithdrawal id requesterCreatorId) := by
  refine h.bind (h.query rfl) fun withdrawal => ?_
  cases withdrawal with
  | none => exact h.raise _
  | some withdrawal =>
    dsimp only
    split
    · exact h.raise _
    split
    · refine h.bind (h.query (r := .now) rfl) fun now => ?_
      split
      · exact h.bind (h.query rfl) fun _ => h.bind (hupdate _ _) fun _ => h.receiptOf _ _ _
      · exact h.receiptOf _ _ _
    · exact h.receiptOf _ _ _

theorem interactive (h : OfQueries K) {userId : String}
    (hcreate : ∀ data : WithdrawalCreate, data.status = .processing → data.creatorId = userId →
      K _ (awaitW (.withdrawalCreate data)))
    (amount : ℤ) (token : Option String) : K _ (interactive cfg userId amount token) := by
  refine h.bind h.assertEnabled fun _ => h.bind (h.requireToken token) fun anchorToken =>
    h.bind (h.getAddressForCreator userId) fun address =>
      h.bind (h.getWithdrawableBalance address) fun available => ?_
  split
  · exact h.raise _
  · exact h.bind (h.query rfl) fun _ => h.bind (h.query rfl) fun _ =>
      h.bind (hcreate _ rfl rfl) fun _ => h.ret _

theorem submitPayment (h : OfQueries K) {userId id : String}
    (hupdate : ∀ txHash, K _ (awaitW (.withdrawalUpdateMany id userId { txHash := some txHash })))
    (signedXdr : String) : K _ (submitPayment cfg userId signedXdr id) :=
  h.bind h.assertEnabled fun _ => h.bind (h.getAddressForCreator userId) fun _ =>
    h.bind (h.query rfl) fun _ => h.bind (hupdate _) fun _ => h.ret _

theorem transaction (h : OfQueries K) {userId id : String}
    (hupdate : ∀ tx completedAt data, pollUpdate tx completedAt = some data →
      K _ (awaitW (.withdrawalUpdateMany id userId data)))
    (token : Option String) : K _ (transaction cfg userId id token) := by
  refine h.bind h.assertEnabled fun _ => h.bind (h.requireToken token) fun anchorToken =>
    h.bind (h.query (r := .getTransaction anchorToken id) rfl) fun tx =>
      h.bind ?_ fun completedAt => ?_
  · split
    · exact h.bind (h.query rfl) fun _ => h.ret _
    · exact h.ret _
  · split
    · exact h.raise _
    · next data hdata => exact h.bind (hupdate tx completedAt data hdata) fun _ => h.ret _

end OfQueries

/-! ## Polls -/

theorem mapStatus_ne_requested (s : String) : mapStatus s ≠ .requested := by
  unfold mapStatus
  split
  · decide
  · split <;> decide

/-- A status of the anchor that completes a withdrawal is `completed`. -/
theorem mapStatus_eq_completed {s : String} (h : mapStatus s = .completed) :
    s = "completed" := by
  unfold mapStatus at h
  split at h
  · assumption
  · split at h <;> cases h

theorem pollUpdate_status {tx : AnchorTransaction} {completedAt : Option ℕ}
    {data : WithdrawalUpdate} (h : pollUpdate tx completedAt = some data) :
    data.status = some (mapStatus tx.status) := by
  unfold pollUpdate at h
  cases ha : tx.amountIn with
  | none =>
    rw [ha] at h
    exact (Option.some.inj h) ▸ rfl
  | some amount =>
    rw [ha] at h
    cases amount with
    | invalid => cases h
    | decimal digits scale => exact (Option.some.inj h) ▸ rfl

/-! ## Requests -/

theorem withdrawalMethod_suspended {α : Type} (p : WithdrawalMethod α) : p.Suspended := by
  cases p with
  | emit v p => exact v.elim
  | _ => trivial

theorem withdrawalMethod_flush {α : Type} (p : WithdrawalMethod α) (w : WithdrawalWorld) :
    (p.flush withdrawalMachine w).2 = w := by
  cases p with
  | emit v p => exact v.elim
  | _ => rfl

namespace WithdrawalTable

/-- The row of an id. -/
theorem eq_of_id {t : WithdrawalTable} {r r' : Withdrawal} (hr : r ∈ t.rows)
    (hr' : r' ∈ t.rows) (h : r.id = r'.id) : r = r' :=
  List.inj_on_of_nodup_map t.ids hr hr' h

/-- The row `r` for `data`, added last. -/
structure Created (data : WithdrawalCreate) (t : WithdrawalTable) (r : Withdrawal)
    (t' : WithdrawalTable) : Prop where
  creatorId : r.creatorId = data.creatorId
  amount : Usd.ofCents? data.amount = some r.amount
  status : r.status = data.status
  anchorTransactionId : r.anchorTransactionId = data.anchorTransactionId
  fresh : r.id ∉ t.rows.map (·.id)
  rows : t'.rows = t.rows ++ [r]

theorem created {id : String} {createdAt : ℕ} {data : WithdrawalCreate} {t t' : WithdrawalTable}
    {r : Withdrawal} (h : t.create id createdAt data = .ok (r, t')) : Created data t r t' := by
  unfold create at h
  cases ha : Usd.ofCents? data.amount with
  | none => simp [ha] at h
  | some amount =>
    simp only [ha, add] at h
    split at h
    · next hfresh =>
      simp only [Except.map, Except.ok.injEq, Prod.mk.injEq] at h
      obtain ⟨rfl, rfl⟩ := h
      exact ⟨rfl, ha, rfl, rfl, hfresh.1, List.concat_eq_append⟩
    · simp [Except.map] at h

theorem mem_modify {t : WithdrawalTable} {p : Withdrawal → Bool} {data : WithdrawalUpdate}
    {amount : Option Usd} {r' : Withdrawal} : r' ∈ (t.modify p data amount).rows ↔
      ∃ r ∈ t.rows, (if p r then data.applyTo amount r else r) = r' :=
  List.mem_map

end WithdrawalTable

/-- What the answer to a request may leave of a world. A fault loses the effect of a request
or leaves it as it is. -/
inductive WithdrawalChanges (c : WithdrawalChoice) (w : WithdrawalWorld) :
    WithdrawalRequest → WithdrawalWorld → Prop
  | nothing {r} : WithdrawalChanges c w r w
  | create {data r t} (hf : c.fault ≠ .lost) (h : w.withdrawals.Created data r t) :
    WithdrawalChanges c w (.withdrawalCreate data) { w with withdrawals := t }
  | update {id data amount r} (hf : c.fault ≠ .lost) (ha : data.stored = some amount)
    (hr : r ∈ w.withdrawals.rows) (hid : r.id = id) :
    WithdrawalChanges c w (.withdrawalUpdate id data)
      { w with withdrawals := w.withdrawals.modify (·.id = id) data amount }
  | updateMany {t creatorId data amount} (hf : c.fault ≠ .lost)
    (ha : data.stored = some amount) :
    WithdrawalChanges c w (.withdrawalUpdateMany t creatorId data)
      { w with withdrawals := w.withdrawals.modify (fun r =>
          r.anchorTransactionId = some t ∧ r.creatorId = creatorId) data amount }

theorem withdrawalEffect_changes (r : WithdrawalRequest) {c : WithdrawalChoice}
    (w : WithdrawalWorld) (hf : c.fault ≠ .lost) :
    WithdrawalChanges c w r (withdrawalEffect r c w).2 := by
  cases r with
  | withdrawalCreate data =>
    simp only [withdrawalEffect]
    cases hc : w.withdrawals.create c.uuid c.now data with
    | error e => exact .nothing
    | ok rt => exact .create hf (WithdrawalTable.created hc)
  | withdrawalUpdate id data =>
    simp only [withdrawalEffect, WithdrawalTable.update]
    split
    · next hany =>
      obtain ⟨r, hr, hid⟩ := List.any_eq_true.1 hany
      unfold WithdrawalTable.updateMany
      cases ha : data.stored with
      | some amount => exact .update hf ha hr (by simpa using hid)
      | none =>
        dsimp only
        split <;> exact .nothing
    · exact .nothing
  | withdrawalUpdateMany t creatorId data =>
    simp only [withdrawalEffect, WithdrawalTable.updateMany]
    cases ha : data.stored with
    | some amount => exact .updateMany hf ha
    | none =>
      dsimp only
      split <;> exact .nothing
  | _ => exact .nothing

theorem withdrawalExec_changes (r : WithdrawalRequest) (c : WithdrawalChoice)
    (w : WithdrawalWorld) : WithdrawalChanges c w r (withdrawalExec r c w).2 := by
  unfold withdrawalExec
  split
  · next hl =>
    cases r with
    | now => exact .nothing
    | randomDigits => exact .nothing
    | _ => cases hl
  · cases hf : c.fault with
    | none => exact withdrawalEffect_changes r w (by simp [hf])
    | lost => exact .nothing
    | unacked => exact withdrawalEffect_changes r w (by simp [hf])

/-- A request that no fault hits. -/
theorem withdrawalExec_none {c : WithdrawalChoice} (hc : c.fault = .none) (r : WithdrawalRequest)
    (w : WithdrawalWorld) : withdrawalExec r c w = withdrawalEffect r c w := by
  simp only [withdrawalExec, hc, ite_self]

/-- A request that is answered has its effect. -/
theorem withdrawalEffect_of_ok {r : WithdrawalRequest} {c : WithdrawalChoice}
    {w w' : WithdrawalWorld} {a : r.Ans} (h : withdrawalExec r c w = (.ok a, w')) :
    withdrawalEffect r c w = (.ok a, w') := by
  unfold withdrawalExec at h
  split at h
  · exact h
  split at h
  · exact h
  · cases h
  · cases h

/-- A query changes nothing. -/
theorem withdrawalExec_query {r : WithdrawalRequest} (hr : r.writes = false)
    (c : WithdrawalChoice) (w : WithdrawalWorld) : (withdrawalExec r c w).2 = w := by
  have hchanges := withdrawalExec_changes r c w
  generalize (withdrawalExec r c w).2 = w' at hchanges
  cases hchanges with
  | nothing => rfl
  | create hf h => cases hr
  | update hf ha hr' hid => cases hr
  | updateMany hf ha => cases hr

/-- The row that an answer to `withdrawal.create` brings. -/
theorem withdrawalExec_create_ok {data : WithdrawalCreate} {c : WithdrawalChoice}
    {w w' : WithdrawalWorld} {r : Withdrawal}
    (h : withdrawalExec (.withdrawalCreate data) c w = (.ok r, w')) :
    ∃ t, w.withdrawals.Created data r t ∧ w' = { w with withdrawals := t } := by
  have heffect : withdrawalEffect (.withdrawalCreate data) c w = (.ok r, w') :=
    withdrawalEffect_of_ok h
  simp only [withdrawalEffect] at heffect
  cases hc : w.withdrawals.create c.uuid c.now data with
  | error e => simp [hc] at heffect
  | ok rt =>
    obtain ⟨r', t⟩ := rt
    simp only [hc, Prod.mk.injEq] at heffect
    obtain ⟨hr, rfl⟩ := heffect
    obtain rfl : r' = r := Except.ok.inj hr
    exact ⟨t, WithdrawalTable.created hc, rfl⟩

/-- An update of a row that is there. -/
theorem withdrawalEffect_update {id : String} {data : WithdrawalUpdate} {amount : Option Usd}
    {w : WithdrawalWorld} {r : Withdrawal} (c : WithdrawalChoice) (hr : r ∈ w.withdrawals.rows)
    (hid : r.id = id) (ha : data.stored = some amount) :
    withdrawalEffect (.withdrawalUpdate id data) c w =
      (.ok (), { w with withdrawals := w.withdrawals.modify (·.id = id) data amount }) := by
  have hany : w.withdrawals.rows.any (·.id = id) = true :=
    List.any_eq_true.2 ⟨r, hr, decide_eq_true hid⟩
  simp only [withdrawalEffect, WithdrawalTable.update, hany, if_true, WithdrawalTable.updateMany,
    ha]
  rfl

/-- What an answer to `withdrawal.update` leaves. -/
theorem withdrawalExec_update_ok {id : String} {data : WithdrawalUpdate} {c : WithdrawalChoice}
    {w w' : WithdrawalWorld}
    (h : withdrawalExec (.withdrawalUpdate id data) c w = (.ok (), w')) :
    ∃ amount, data.stored = some amount ∧
      w' = { w with withdrawals := w.withdrawals.modify (·.id = id) data amount } := by
  have heffect : withdrawalEffect (.withdrawalUpdate id data) c w = (.ok (), w') :=
    withdrawalEffect_of_ok h
  simp only [withdrawalEffect, WithdrawalTable.update, WithdrawalTable.updateMany] at heffect
  split at heffect
  · cases ha : data.stored with
    | none =>
      simp only [ha] at heffect
      cases (Prod.mk.inj heffect).1
    | some amount =>
      rw [ha] at heffect
      exact ⟨amount, rfl, (Prod.mk.inj heffect).2.symm⟩
  · cases (Prod.mk.inj heffect).1

/-- The row that an answer to `withdrawal.findUnique` brings. -/
theorem withdrawalExec_find_ok {id : String} {c : WithdrawalChoice} {w w' : WithdrawalWorld}
    {r : Withdrawal} (h : withdrawalExec (.withdrawalFindUnique id) c w = (.ok (some r), w')) :
    r ∈ w.withdrawals.rows ∧ w' = w := by
  have heffect : withdrawalEffect (.withdrawalFindUnique id) c w = (.ok (some r), w') :=
    withdrawalEffect_of_ok h
  obtain ⟨hfind, rfl⟩ := Prod.mk.inj heffect
  exact ⟨List.mem_of_find?_eq_some (Except.ok.inj hfind), rfl⟩

end Kreav
