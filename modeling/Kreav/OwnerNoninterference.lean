import Kreav.OwnerReads
import Kreav.Receipts

/-!
# A creator learns nothing of the rows of others

Two databases that agree on what concerns the creator `A` give it the same answers
(`responses_agree`), to `GET /withdrawals/:id` and to `GET /orders/:id`, at every id : the same
receipt or order, or the same 404. A row of another creator is found by the query and then
refused with the answer for no row at all.

The receipt of an own withdrawal reads on, the wallet of `A`, its credits and the completed
withdrawals of `A`, each of which is the same in both databases (`SameFor`), also after the read
has completed the withdrawal. The unique address of a wallet leads back to `A`.
-/

open Async Prog

namespace Kreav

namespace Noninterference

/-! ## Queries by a unique column -/

section Lists

variable {α κ : Type} [DecidableEq κ] {key : α → κ} {k : κ} {rows : List α} {q : α → Bool}

theorem find?_key_iff (hkeys : (rows.map key).Nodup) {r : α} :
    rows.find? (key · = k) = some r ↔ r ∈ rows ∧ key r = k := by
  constructor
  · intro hfind
    exact ⟨List.mem_of_find?_eq_some hfind, by simpa using List.find?_some hfind⟩
  · rintro ⟨hr, hk⟩
    cases hfind : rows.find? (key · = k) with
    | none => exact absurd (decide_eq_true hk) (List.find?_eq_none.1 hfind r hr)
    | some r' =>
      have hk' : key r' = k := by
        simpa using List.find?_some hfind
      rw [List.inj_on_of_nodup_map hkeys (List.mem_of_find?_eq_some hfind) hr (hk'.trans hk.symm)]

/-- What is found among the rows of a kind is what is found at all, if it is of the kind. -/
theorem find?_filter_key (hkeys : (rows.map key).Nodup) :
    (rows.filter q).find? (key · = k) = (rows.find? (key · = k)).filter q := by
  ext r
  have hkeys' : ((rows.filter q).map key).Nodup := hkeys.sublist (List.filter_sublist.map _)
  rw [find?_key_iff hkeys', List.mem_filter, Option.filter_eq_some_iff, find?_key_iff hkeys,
    and_right_comm]

/-- A query for rows of a kind only. -/
theorem filter_of_imp {p : α → Bool} (h : ∀ r ∈ rows, p r = true → q r = true) :
    (rows.filter q).filter p = rows.filter p := by
  rw [List.filter_filter]
  refine List.filter_congr fun r hr => ?_
  by_cases hp : p r = true
  · rw [hp, h r hr hp, Bool.and_self]
  · simp [hp]

theorem find?_of_imp {p : α → Bool} (h : ∀ r ∈ rows, p r = true → q r = true) :
    (rows.filter q).find? p = rows.find? p := by
  rw [← List.head?_filter, ← List.head?_filter, filter_of_imp h]

end Lists

/-! ## Orders -/

section Orders

variable {A : String} {t t' : OwnerTables}

theorem sells_iff {o : OrderRow} : t.sells A o = true ↔
    ∃ p, t.products.find? (·.id = o.productId) = some p ∧ p.creatorId = A := by
  simp only [OwnerTables.sells, List.any_eq_true, decide_eq_true_eq, find?_key_iff t.productIds]
  exact exists_congr fun p => by tauto

/-- The product of an own order. -/
theorem product_of_sells {o : OrderRow} (h : t.visible A = t'.visible A) (ho : t.sells A o = true) :
    ∃ p, p.creatorId = A ∧ t.products.find? (·.id = o.productId) = some p ∧
      t'.products.find? (·.id = o.productId) = some p := by
  obtain ⟨p, hp, hA⟩ := sells_iff.1 ho
  obtain ⟨hmem, hid⟩ := (find?_key_iff t.productIds).1 hp
  have hproducts : t.products.filter (·.creatorId = A) = t'.products.filter (·.creatorId = A) :=
    congrArg OwnerView.products h
  have hmem' : p ∈ t'.products.filter (·.creatorId = A) :=
    hproducts ▸ List.mem_filter.2 ⟨hmem, decide_eq_true hA⟩
  exact ⟨p, hA, hp, (find?_key_iff t'.productIds).2 ⟨(List.mem_filter.1 hmem').1, hid⟩⟩

/-- The settlement of an own order, with its recipients. -/
theorem settlementOf_agree {o : OrderRow} (h : t.visible A = t'.visible A) (ho : o ∈ t.orders)
    (hs : t.sells A o = true) (ho' : o ∈ t'.orders) (hs' : t'.sells A o = true) (n : ℕ) :
    t.settlementOf n o.id = t'.settlementOf n o.id := by
  have hsettles : ∀ {t : OwnerTables}, o ∈ t.orders → t.sells A o = true →
      ∀ s ∈ t.settlements, decide (s.orderId = o.id) = true → t.settles A s = true := by
    intro t ho hs s _ hid
    exact List.any_eq_true.2 ⟨o, ho, decide_eq_true ⟨hs, (of_decide_eq_true hid).symm⟩⟩
  have hfind : t.settlements.find? (·.orderId = o.id) =
      t'.settlements.find? (·.orderId = o.id) := by
    have hsettlements : t.settlements.filter (t.settles A) =
        t'.settlements.filter (t'.settles A) := congrArg OwnerView.settlements h
    rw [← find?_of_imp (hsettles ho hs), hsettlements, find?_of_imp (hsettles ho' hs')]
  unfold OwnerTables.settlementOf
  rw [← hfind]
  cases hx : t.settlements.find? (·.orderId = o.id) with
  | none => rfl
  | some s =>
    have hrows : ∀ {t : OwnerTables}, t.settlements.find? (·.orderId = o.id) = some s →
        o ∈ t.orders → t.sells A o = true →
        t.recipients.filter (·.settlementId = s.id) =
          (t.visible A).recipients.filter (·.settlementId = s.id) := by
      intro t hx ho hs
      obtain ⟨hmem, hid⟩ := (find?_key_iff t.settlementOrders).1 hx
      have hown := hsettles ho hs s hmem (decide_eq_true hid)
      refine (filter_of_imp fun r _ hr => ?_).symm
      exact List.any_eq_true.2 ⟨s, hmem, decide_eq_true ⟨hown, (of_decide_eq_true hr).symm⟩⟩
    rw [Option.map_some, Option.map_some, hrows hx ho hs, hrows (hfind ▸ hx) ho' hs', h]

/-- The order of a product of `A`, found or not. -/
def ownOrder (A : String) (t : OwnerTables) (n : ℕ) (id : String) : Option OrderWithDetails :=
  (t.orderWithDetails n id).filter (·.product.creatorId = A)

/-- The query finds an own order just if it is among the visible ones. -/
theorem ownOrder_eq (A : String) (t : OwnerTables) (n : ℕ) (id : String) :
    ownOrder A t n id = ((t.visible A).orders.find? (·.id = id)).bind fun o =>
      (t.products.find? (·.id = o.productId)).map fun p => ⟨o, p, t.settlementOf n o.id⟩ := by
  have hfind : (t.visible A).orders.find? (·.id = id) =
      (t.orders.find? (·.id = id)).filter (t.sells A) := find?_filter_key t.orderIds
  rw [hfind, ownOrder, OwnerTables.orderWithDetails]
  cases ho : t.orders.find? (·.id = id) with
  | none => rfl
  | some o =>
    rw [Option.bind_some, Option.filter_some]
    cases hp : t.products.find? (·.id = o.productId) with
    | none =>
      split
      · rw [Option.bind_some, hp]
        rfl
      · rfl
    | some p =>
      have hsells : t.sells A o = true ↔ p.creatorId = A := by
        rw [sells_iff, hp]
        simp
      by_cases hA : p.creatorId = A
      · rw [if_pos (hsells.2 hA), Option.bind_some, hp]
        simp [hA]
      · rw [if_neg (hsells.not.2 hA)]
        simp [hA]

/-- Both databases find the same own order, or none. -/
theorem ownOrder_agree (h : t.visible A = t'.visible A) (n : ℕ) (id : String) :
    ownOrder A t n id = ownOrder A t' n id := by
  rw [ownOrder_eq, ownOrder_eq, ← h]
  cases ho : (t.visible A).orders.find? (·.id = id) with
  | none => rfl
  | some o =>
    have hmem := List.mem_of_find?_eq_some ho
    have hmem' := hmem
    rw [h] at hmem'
    obtain ⟨hmem, hs⟩ := List.mem_filter.1 hmem
    obtain ⟨hmem', hs'⟩ := List.mem_filter.1 hmem'
    obtain ⟨p, -, hp, hp'⟩ := product_of_sells h hs
    rw [Option.bind_some, Option.bind_some, hp, hp', settlementOf_agree h hmem hs hmem' hs']

/-- The answer is that of the own order, or that there is none. -/
theorem eval_findOne (hne : A ≠ "") (explorerUrl id : String) (ch : ℕ → WithdrawalChoice) :
    ((OrdersService.findOne explorerUrl id (some A)).eval orderMachine ch t).1 =
      if (ch 0).fault ≠ .none then .error .database
      else match ownOrder A t (ch 0).order id with
        | none => .error (.notFound "Order not found")
        | some o => .ok (OrdersService.orderDetail explorerUrl o) := by
  by_cases hf : (ch 0).fault ≠ .none
  · have hexec : orderMachine.exec (.orderFindUnique id) (ch 0) t = (.error .database, t) :=
      Prod.ext (if_pos hf) rfl
    rw [if_pos hf, OrdersService.findOne, bind_eq, eval_ask_error _ hexec]
  · have hexec : orderMachine.exec (.orderFindUnique id) (ch 0) t =
        (.ok (t.orderWithDetails (ch 0).order id), t) := Prod.ext (if_neg hf) rfl
    rw [if_neg hf, OrdersService.findOne, bind_eq, eval_ask _ hexec, ownOrder]
    cases t.orderWithDetails (ch 0).order id with
    | none => rfl
    | some o =>
      by_cases hA : o.product.creatorId = A
      · rw [Option.filter_some, if_pos (decide_eq_true hA)]
        simp [hA, eval]
      · rw [Option.filter_some, if_neg (by simpa using hA)]
        simp only [Option.any_some, hne, hA, ne_eq, not_false_eq_true, and_self, decide_true,
          if_true]
        rfl

theorem findOne_agree (hne : A ≠ "") (h : t.visible A = t'.visible A) (explorerUrl id : String)
    (ch : ℕ → WithdrawalChoice) :
    ((OrdersService.findOne explorerUrl id (some A)).eval orderMachine ch t).1 =
      ((OrdersService.findOne explorerUrl id (some A)).eval orderMachine ch t').1 := by
  rw [eval_findOne hne, eval_findOne hne, ownOrder_agree h]

end Orders

/-! ## Withdrawals -/

/-- The worlds agree on what a receipt of `A` reads. -/
structure SameFor (A : String) (w w' : WithdrawalWorld) : Prop where
  withdrawals : w.withdrawals.rows.filter (·.creatorId = A) =
    w'.withdrawals.rows.filter (·.creatorId = A)
  wallets : w.db.wallets.filter (·.creatorId = A) = w'.db.wallets.filter (·.creatorId = A)
  credits : ∀ x ∈ w.db.wallets, x.creatorId = A →
    w.db.credits x.walletAddress = w'.db.credits x.walletAddress
  addresses : (w.db.wallets.map (·.walletAddress)).Nodup
  addresses' : (w'.db.wallets.map (·.walletAddress)).Nodup

section Withdrawals

variable {A : String} {w w' : WithdrawalWorld}

theorem total_agree {t t' : WithdrawalTable}
    (h : t.rows.filter (·.creatorId = A) = t'.rows.filter (·.creatorId = A))
    (counts : WithdrawalStatus → Bool) : t.total counts A = t'.total counts A := by
  have himp : ∀ r : Withdrawal, decide (r.creatorId = A ∧ counts r.status) = true →
      decide (r.creatorId = A) = true := fun r hr => decide_eq_true (of_decide_eq_true hr).1
  rw [WithdrawalTable.total, WithdrawalTable.total, ← filter_of_imp fun r _ => himp r, h,
    filter_of_imp fun r _ => himp r]

/-- An update keeps the creators of the rows. -/
theorem filter_modify (t : WithdrawalTable) (p : Withdrawal → Bool) (data : WithdrawalUpdate)
    (amount : Option Usd) : (t.modify p data amount).rows.filter (·.creatorId = A) =
      (t.rows.filter (·.creatorId = A)).map fun r =>
        if p r then data.applyTo amount r else r := by
  have hcreator : ((fun r : Withdrawal => decide (r.creatorId = A)) ∘ fun r =>
      if p r then data.applyTo amount r else r) = fun r => decide (r.creatorId = A) := by
    funext r
    simp only [Function.comp_apply]
    split <;> rfl
  rw [WithdrawalTable.modify, List.filter_map, hcreator]

/-- A fault throws the same in both worlds. -/
theorem exec_agree {r : WithdrawalRequest} {c : WithdrawalChoice}
    (h : (withdrawalEffect r c w).1 = (withdrawalEffect r c w').1) :
    (withdrawalExec r c w).1 = (withdrawalExec r c w').1 := by
  unfold withdrawalExec
  split
  · exact h
  split
  · exact h
  · rfl
  · rfl

/-- A query with the same answer in both worlds. -/
theorem agrees_query {r : WithdrawalRequest} (hr : r.writes = false)
    (heffect : ∀ c, (withdrawalEffect r c w).1 = (withdrawalEffect r c w').1) :
    Agrees withdrawalMachine (awaitW r) (awaitW r) w w' fun a v v' =>
      v = w ∧ v' = w' ∧ ∃ c, (withdrawalEffect r c w).1 = .ok a := by
  refine Agrees.ask fun c => ⟨exec_agree (heffect c), fun a ha => ?_⟩
  exact ⟨withdrawalExec_query hr c w, withdrawalExec_query hr c w', c,
    congrArg Prod.fst (withdrawalEffect_of_ok (Prod.ext ha rfl))⟩

/-- The balance of a wallet of `A`. -/
theorem agrees_balance (h : SameFor A w w') {x : Wallet} (hx : x ∈ w.db.wallets)
    (hA : x.creatorId = A) :
    Agrees withdrawalMachine (getWithdrawableBalance x.walletAddress)
      (getWithdrawableBalance x.walletAddress) w w' fun _ v v' => v = w ∧ v' = w' := by
  have hx' : x ∈ w'.db.wallets := by
    have hmem : x ∈ w'.db.wallets.filter (·.creatorId = A) :=
      h.wallets ▸ List.mem_filter.2 ⟨hx, decide_eq_true hA⟩
    exact (List.mem_filter.1 hmem).1
  refine Agrees.bind (agrees_query (r := .walletCreator x.walletAddress) rfl fun c => ?_) ?_
  · rw [Receipts.effect_walletCreator h.addresses hx,
      Receipts.effect_walletCreator h.addresses' hx']
  rintro found v v' ⟨rfl, rfl, c, hfound⟩
  rw [Receipts.effect_walletCreator h.addresses hx, hA] at hfound
  obtain rfl := Except.ok.inj hfound
  refine Agrees.bind (agrees_query (r := .settledTotal x.walletAddress) rfl fun c =>
    congrArg Except.ok (h.credits x hx hA)) ?_
  rintro totalSettled _ _ ⟨rfl, rfl, -⟩
  refine Agrees.bind (agrees_query (r := .completedTotal A) rfl fun c =>
    congrArg Except.ok (total_agree h.withdrawals _)) ?_
  rintro totalWithdrawn _ _ ⟨rfl, rfl, -⟩
  exact Agrees.ret ⟨rfl, rfl⟩

/-- The receipt of a withdrawal of `A`. -/
theorem agrees_receiptOf (h : SameFor A w w') {row : Withdrawal} (hA : row.creatorId = A)
    (status : WithdrawalStatus) (completedAt : Option ℕ) :
    Agrees withdrawalMachine (receiptOf row status completedAt) (receiptOf row status completedAt)
      w w' fun _ v v' => v = w ∧ v' = w' := by
  refine Agrees.bind (R := fun _ v v' => v = w ∧ v' = w') ?_ fun _ _ _ hv => Agrees.ret hv
  refine Agrees.bind (agrees_query (r := .walletOf row.creatorId) rfl fun c => ?_) ?_
  · simp only [withdrawalEffect, hA, h.wallets]
  rintro found v v' ⟨rfl, rfl, c, hfound⟩
  cases found with
  | none => exact Agrees.ret ⟨rfl, rfl⟩
  | some address =>
    obtain ⟨x, hx, rfl⟩ := Option.map_eq_some_iff.1 (Except.ok.inj hfound)
    have hmem := (reorder_perm _ _).mem_iff.1 (List.mem_of_mem_head? hx)
    obtain ⟨hmem, hcreator⟩ := List.mem_filter.1 hmem
    refine Agrees.bind (agrees_balance h hmem ((of_decide_eq_true hcreator).trans hA)) ?_
    rintro currentAvailable _ _ ⟨rfl, rfl⟩
    exact Agrees.ret ⟨rfl, rfl⟩

/-- An update of a withdrawal that both worlds have keeps them alike. -/
theorem agrees_update (h : SameFor A w w') {row : Withdrawal} (hrow : row ∈ w.withdrawals.rows)
    (hrow' : row ∈ w'.withdrawals.rows) {data : WithdrawalUpdate} {amount : Option Usd}
    (hdata : data.stored = some amount) :
    Agrees withdrawalMachine (awaitW (.withdrawalUpdate row.id data))
      (awaitW (.withdrawalUpdate row.id data)) w w' fun _ => SameFor A := by
  refine Agrees.ask fun c => ?_
  have heffect : ∀ {v}, row ∈ v.withdrawals.rows →
      (withdrawalEffect (.withdrawalUpdate row.id data) c v).1 = .ok () :=
    fun hv => congrArg Prod.fst (withdrawalEffect_update c hv rfl hdata)
  have hexec := exec_agree ((heffect hrow).trans (heffect hrow').symm)
  refine ⟨hexec, fun u hu => ?_⟩
  have hleft : ∀ {v}, (withdrawalExec (.withdrawalUpdate row.id data) c v).1 = .ok () →
      (withdrawalExec (.withdrawalUpdate row.id data) c v).2 =
        { v with withdrawals := v.withdrawals.modify (·.id = row.id) data amount } := by
    intro v hv
    obtain ⟨stored, hstored, hleft⟩ := withdrawalExec_update_ok (Prod.ext hv rfl)
    obtain rfl : amount = stored := Option.some.inj (hdata.symm.trans hstored)
    exact hleft
  have hw := hleft (v := w) hu
  have hw' := hleft (v := w') (hexec.symm.trans hu)
  change SameFor A (withdrawalExec _ c w).2 (withdrawalExec _ c w').2
  rw [hw, hw']
  refine { h with withdrawals := ?_ }
  rw [filter_modify, filter_modify, h.withdrawals]

/-- `getWithdrawal`, once it has a withdrawal of the requester. -/
def readOwn (withdrawal : Withdrawal) : WithdrawalMethod Receipt :=
  if withdrawal.status = .processing then do
    let now : ℕ ← awaitW .now
    if withdrawal.createdAt + simulationDelayMs ≤ now then
      let completedAt ← awaitW .now
      awaitW (.withdrawalUpdate withdrawal.id
        { status := some .completed, completedAt := some (some completedAt) })
      receiptOf withdrawal .completed (some completedAt)
    else receiptOf withdrawal withdrawal.status withdrawal.completedAt
  else receiptOf withdrawal withdrawal.status withdrawal.completedAt

/-- A withdrawal that is not one of `A` is answered as none. -/
theorem getWithdrawal_eq (hne : A ≠ "") (id : String) :
    getWithdrawal id (some A) = (awaitW (.withdrawalFindUnique id)).bind fun found =>
      (Option.filter (·.creatorId = A) found).elim
        (.raise (.notFound "Withdrawal not found")) readOwn := by
  refine congrArg (Prog.bind _) (funext fun found => ?_)
  cases found with
  | none => rfl
  | some row =>
    by_cases hA : row.creatorId = A
    · rw [Option.filter_some, if_pos (decide_eq_true hA)]
      simp only [Option.any_some, hA, ne_eq, not_true_eq_false, and_false, decide_false,
        Bool.false_eq_true, if_false]
      rfl
    · rw [Option.filter_some, if_neg (by simpa using hA)]
      simp only [Option.any_some, hne, hA, ne_eq, not_false_eq_true, and_self, decide_true,
        if_true]
      rfl

theorem agrees_readOwn (h : SameFor A w w') {row : Withdrawal} (hA : row.creatorId = A)
    (hrow : row ∈ w.withdrawals.rows) (hrow' : row ∈ w'.withdrawals.rows) :
    Agrees withdrawalMachine (readOwn row) (readOwn row) w w' fun _ => SameFor A := by
  have hreceipt : ∀ {v v'} status completedAt, SameFor A v v' →
      Agrees withdrawalMachine (receiptOf row status completedAt)
        (receiptOf row status completedAt) v v' fun _ => SameFor A := by
    intro v v' status completedAt hv
    refine (agrees_receiptOf hv hA status completedAt).mono ?_
    rintro receipt u u' ⟨rfl, rfl⟩
    exact hv
  unfold readOwn
  split
  · refine Agrees.bind (agrees_query (r := .now) rfl fun c => rfl) ?_
    rintro now v v' ⟨rfl, rfl, -⟩
    split
    · refine Agrees.bind (agrees_query (r := .now) rfl fun c => rfl) ?_
      rintro completedAt v v' ⟨rfl, rfl, -⟩
      exact Agrees.bind (agrees_update h hrow hrow' rfl) fun _ v v' hv => hreceipt _ _ hv
    · exact hreceipt _ _ h
  · exact hreceipt _ _ h

theorem agrees_getWithdrawal (hne : A ≠ "") (h : SameFor A w w') (id : String) :
    Agrees withdrawalMachine (getWithdrawal id (some A)) (getWithdrawal id (some A)) w w'
      fun _ => SameFor A := by
  have hfilter : ∀ {v : WithdrawalWorld}, (v.withdrawals.rows.filter (·.creatorId = A)).find?
      (·.id = id) = (v.withdrawals.rows.find? (·.id = id)).filter (·.creatorId = A) :=
    fun {v} => find?_filter_key v.withdrawals.ids
  have hown : (w.withdrawals.rows.find? (·.id = id)).filter (·.creatorId = A) =
      (w'.withdrawals.rows.find? (·.id = id)).filter (·.creatorId = A) := by
    rw [← hfilter, h.withdrawals, hfilter]
  rw [getWithdrawal_eq hne]
  refine Agrees.call fun c => ?_
  by_cases hf : c.fault = .none
  · have hexec : ∀ v, withdrawalMachine.exec (.withdrawalFindUnique id) c v =
        (.ok (v.withdrawals.rows.find? (·.id = id)), v) := fun v =>
      withdrawalExec_none hf (.withdrawalFindUnique id) v
    refine .inr ⟨_, _, congrArg Prod.fst (hexec w), congrArg Prod.fst (hexec w'), ?_⟩
    rw [hexec, hexec, ← hown]
    cases hrow : (w.withdrawals.rows.find? (·.id = id)).filter (·.creatorId = A) with
    | none => exact Agrees.raise _
    | some row =>
      have hrow' := hown.symm.trans hrow
      rw [Option.filter_eq_some_iff] at hrow hrow'
      exact agrees_readOwn h (of_decide_eq_true hrow.2) (List.mem_of_find?_eq_some hrow.1)
        (List.mem_of_find?_eq_some hrow'.1)
  · have hexec : ∀ v, (withdrawalExec (.withdrawalFindUnique id) c v).1 = .error .database := by
      intro v
      unfold withdrawalExec
      rw [if_neg (by simp [WithdrawalRequest.isLocal])]
      split
      · next hnone => exact absurd hnone hf
      · rfl
      · rfl
    exact .inl ⟨.database, hexec w, hexec w'⟩

end Withdrawals

/-! ## The tables -/

section Tables

variable {A : String} {t t' : OwnerTables}

/-- The creator rows of one wallet, as the withdrawal endpoints see them and as credits. -/
theorem credited_rows (walletAddress : String) (settlementId : String)
    (recipients : List RecipientDetail) :
    ((((recipients.filter (·.settlementId = settlementId)).filterMap (·.stored)).filter fun r =>
      r.walletAddress = walletAddress ∧ r.recipientType = .creator).map (·.amount)) =
    ((((recipients.filter fun r =>
      r.settlementId = settlementId ∧ r.recipientType = .creator).map fun r =>
        (r.walletAddress, r.amount.cents)).filter (·.1 = walletAddress)).map (·.2)) := by
  simp only [← List.filterMap_eq_map, ← List.filterMap_eq_filter, List.filterMap_filterMap]
  refine List.filterMap_congr fun r _ => ?_
  by_cases hid : r.settlementId = settlementId
  · cases htype : r.recipientType <;> by_cases hwallet : r.walletAddress = walletAddress <;>
      simp [hid, htype, hwallet, RecipientDetail.stored, RecipientTypeColumn.stored, Option.guard]
  · simp [hid, Option.guard]

/-- The balance query adds up the credits. -/
theorem credits_withdrawalWorld (t : OwnerTables) (walletAddress : String) :
    t.withdrawalWorld.db.credits walletAddress =
      ((t.credits.filter (·.1 = walletAddress)).map (·.2)).sum := by
  simp only [Database.credits, OwnerTables.withdrawalWorld, OwnerTables.completed,
    OwnerTables.credits, List.map_map, List.filter_flatMap, List.map_flatMap]
  induction t.settlements.filter (·.status = .completed) with
  | nil => rfl
  | cons s rest ih =>
    rw [List.map_cons, List.sum_cons, List.flatMap_cons, List.sum_append, ih]
    congr 1
    simp only [Function.comp_apply]
    rw [← credited_rows]

theorem holds_of_mem {x : Wallet} (hx : x ∈ t.wallets) (hA : x.creatorId = A) :
    t.holds A x.walletAddress = true :=
  List.any_eq_true.2 ⟨x, hx, decide_eq_true ⟨hA, rfl⟩⟩

/-- The balance of a wallet of `A` is of credits to `A` only. -/
theorem credits_visible {x : Wallet} (hx : x ∈ t.wallets) (hA : x.creatorId = A) :
    t.withdrawalWorld.db.credits x.walletAddress =
      (((t.visible A).credits.filter (·.1 = x.walletAddress)).map (·.2)).sum := by
  have hheld : ∀ c ∈ t.credits, decide (c.1 = x.walletAddress) = true → t.holds A c.1 = true := by
    intro c _ hc
    rw [of_decide_eq_true hc]
    exact holds_of_mem hx hA
  rw [credits_withdrawalWorld, OwnerTables.visible, filter_of_imp hheld]

theorem sameFor_of_visible (h : t.visible A = t'.visible A) :
    SameFor A t.withdrawalWorld t'.withdrawalWorld where
  withdrawals := congrArg OwnerView.withdrawals h
  wallets := congrArg OwnerView.wallets h
  credits := by
    intro x hx hA
    have hwallets : t.wallets.filter (·.creatorId = A) = t'.wallets.filter (·.creatorId = A) :=
      congrArg OwnerView.wallets h
    have hx' : x ∈ t'.wallets.filter (·.creatorId = A) :=
      hwallets ▸ List.mem_filter.2 ⟨hx, decide_eq_true hA⟩
    rw [credits_visible hx hA, h, credits_visible (List.mem_filter.1 hx').1 hA]
  addresses := t.walletAddresses
  addresses' := t'.walletAddresses

/-- What `A` is answered tells nothing of the rows of others. -/
theorem responses_agree (A : String) (hne : A ≠ "") (t t' : OwnerTables)
    (h : t.visible A = t'.visible A) (explorerUrl id : String) (ch : ℕ → WithdrawalChoice) :
    ((getWithdrawal id (some A)).eval withdrawalMachine ch t.withdrawalWorld).1 =
        ((getWithdrawal id (some A)).eval withdrawalMachine ch t'.withdrawalWorld).1 ∧
      ((OrdersService.findOne explorerUrl id (some A)).eval orderMachine ch t).1 =
        ((OrdersService.findOne explorerUrl id (some A)).eval orderMachine ch t').1 :=
  ⟨(agrees_getWithdrawal hne (sameFor_of_visible h) id).result ch,
    findOne_agree hne h explorerUrl id ch⟩

/-- `alice` asks for the withdrawal and the order of `bob`, where they are and where not. -/
theorem responses_agree_demo :
    ((getWithdrawal "bob" (some "alice")).eval withdrawalMachine (fun _ => {})
        (demoOwners ["alice", "bob"] demoCreators_nodup).withdrawalWorld).1 =
      ((getWithdrawal "bob" (some "alice")).eval withdrawalMachine (fun _ => {})
        (demoOwners ["alice"] (List.nodup_singleton _)).withdrawalWorld).1 ∧
    ((OrdersService.findOne "" "bob" (some "alice")).eval orderMachine (fun _ => {})
        (demoOwners ["alice", "bob"] demoCreators_nodup)).1 =
      ((OrdersService.findOne "" "bob" (some "alice")).eval orderMachine (fun _ => {})
        (demoOwners ["alice"] (List.nodup_singleton _))).1 :=
  responses_agree "alice" (by decide) (demoOwners ["alice", "bob"] demoCreators_nodup)
    (demoOwners ["alice"] (List.nodup_singleton _)) rfl "" "bob" fun _ => {}

end Tables

end Noninterference

end Kreav
