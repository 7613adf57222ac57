import Kreav.SettlementRows
import Kreav.WithdrawalSteps

/-!
# What may be withdrawn

`Solvent` : the withdrawals of a creator that did not fail are covered by what the creator's
wallets were credited with. Then no balance is negative of a wallet whose creator has no
other (`Solvent.balance`). With several wallets each has its own credits and all share the
creator's withdrawals.

New settlements keep a state solvent (`Solvent.env`), and so does an update that raises no
amount and leaves `FAILED` rows alone (`Calm`, `Solvent.modify`), and a new row for which
there is room (`Solvent.created`).
-/

open Async Prog Apportion Rounding

namespace Kreav

/-- What the wallets of a creator were credited with. -/
def Database.earned (db : Database) (creatorId : String) : ℤ :=
  ((db.wallets.filter (·.creatorId = creatorId)).map fun x => db.credits x.walletAddress).sum

/-- The credits cover the withdrawals that did not fail. -/
structure Solvent (w : WithdrawalWorld) : Prop where
  opened : ∀ creatorId,
    w.withdrawals.total WithdrawalStatus.isOpen creatorId ≤ w.db.earned creatorId
  amounts : ∀ r ∈ w.withdrawals.rows, 0 ≤ r.amount.cents
  credits : ∀ x ∈ w.db.wallets, 0 ≤ w.db.credits x.walletAddress
  /-- `@@unique([walletAddress])`. -/
  addresses : (w.db.wallets.map (·.walletAddress)).Nodup

/-- The amount of a withdrawal of the creator, if its status counts. -/
def Withdrawal.counted (counts : WithdrawalStatus → Bool) (creatorId : String)
    (r : Withdrawal) : ℤ :=
  if r.creatorId = creatorId ∧ counts r.status then r.amount.cents else 0

/-- What an update adds to the withdrawals of a creator that count. -/
def WithdrawalTable.gain (counts : WithdrawalStatus → Bool) (creatorId : String)
    (p : Withdrawal → Bool) (data : WithdrawalUpdate) (amount : Option Usd)
    (t : WithdrawalTable) : ℤ :=
  ((t.rows.filter p).map fun r =>
    (data.applyTo amount r).counted counts creatorId - r.counted counts creatorId).sum

/-- The update does not take the row out of `FAILED` and stores no negative amount and none
that is larger than the row's. -/
structure Calm (data : WithdrawalUpdate) (r : Withdrawal) : Prop where
  failed : r.status = .failed → data.status.getD r.status = .failed
  amount : ∀ cents ∈ data.amount, 0 ≤ cents ∧ cents ≤ r.amount.cents

instance (data : WithdrawalUpdate) (r : Withdrawal) : Decidable (Calm data r) :=
  decidable_of_iff ((r.status = .failed → data.status.getD r.status = .failed) ∧
    ∀ cents ∈ data.amount, 0 ≤ cents ∧ cents ≤ r.amount.cents)
    ⟨fun h => ⟨h.1, h.2⟩, fun h => ⟨h.failed, h.amount⟩⟩

/-- A settlement of a payment to collaborators who add up to 100%. -/
def Settles100 (_ : WithdrawalWorld) : WithdrawalEnv → Prop
  | .recordSettlement _ amountUsd _ collaborators =>
    0 ≤ amountUsd.cents ∧ (∀ c ∈ collaborators, 0 ≤ c.revenuePercentage) ∧
      (collaborators.map (·.revenuePercentage)).sum = 10000

instance (w : WithdrawalWorld) : (e : WithdrawalEnv) → Decidable (Settles100 w e)
  | .recordSettlement _ _ _ _ => inferInstanceAs (Decidable (_ ∧ _ ∧ _))

/-! ## Totals after a write -/

namespace WithdrawalTable

variable (counts : WithdrawalStatus → Bool) (creatorId : String)

theorem total_eq (t : WithdrawalTable) :
    t.total counts creatorId = (t.rows.map (·.counted counts creatorId)).sum := by
  unfold total
  induction t.rows with
  | nil => rfl
  | cons r rest ih =>
    rw [List.map_cons, List.sum_cons, ← ih, List.filter_cons]
    by_cases h : r.creatorId = creatorId ∧ counts r.status = true
    · simp [Withdrawal.counted, h]
    · simp [Withdrawal.counted, h]

theorem sum_map_modify (f : Withdrawal → Withdrawal) (g : Withdrawal → ℤ)
    (p : Withdrawal → Bool) : ∀ rows : List Withdrawal,
      ((rows.map fun r => if p r then f r else r).map g).sum =
        (rows.map g).sum + ((rows.filter p).map fun r => g (f r) - g r).sum
  | [] => rfl
  | r :: rest => by
    have ih := sum_map_modify f g p rest
    by_cases h : p r = true
    · simp only [List.map_cons, List.sum_cons, if_pos h, List.filter_cons_of_pos h, ih]
      ring
    · simp only [List.map_cons, List.sum_cons, if_neg h, List.filter_cons_of_neg h, ih]
      ring

theorem total_modify (t : WithdrawalTable) (p : Withdrawal → Bool) (data : WithdrawalUpdate)
    (amount : Option Usd) : (t.modify p data amount).total counts creatorId =
      t.total counts creatorId + t.gain counts creatorId p data amount := by
  rw [total_eq, total_eq]
  exact sum_map_modify _ _ p t.rows

variable {counts creatorId}

theorem total_created {data : WithdrawalCreate} {t t' : WithdrawalTable} {r : Withdrawal}
    (h : Created data t r t') :
    t'.total counts creatorId = t.total counts creatorId + r.counted counts creatorId := by
  rw [total_eq, total_eq, h.rows, List.map_append, List.sum_append]
  simp

/-- An update that adds nothing to any row adds nothing to a total. -/
theorem total_modify_le {t : WithdrawalTable} {p : Withdrawal → Bool} {data : WithdrawalUpdate}
    {amount : Option Usd} (h : ∀ r ∈ t.rows, p r = true →
      (data.applyTo amount r).counted counts creatorId ≤ r.counted counts creatorId) :
    (t.modify p data amount).total counts creatorId ≤ t.total counts creatorId := by
  have hgain : t.gain counts creatorId p data amount ≤ 0 := by
    refine List.sum_le_card_nsmul _ 0 (fun x hx => ?_) |>.trans_eq (nsmul_zero _)
    obtain ⟨r, hr, rfl⟩ := List.mem_map.1 hx
    obtain ⟨hr, hp⟩ := List.mem_filter.1 hr
    exact sub_nonpos.2 (h r hr hp)
  rw [total_modify]
  omega

/-- Statuses that count less count for less, where no amount is negative. -/
theorem total_mono {counts' : WithdrawalStatus → Bool} {t : WithdrawalTable}
    (hamounts : ∀ r ∈ t.rows, 0 ≤ r.amount.cents)
    (h : ∀ r ∈ t.rows, r.creatorId = creatorId → counts r.status = true →
      counts' r.status = true) : t.total counts creatorId ≤ t.total counts' creatorId := by
  rw [total_eq, total_eq]
  refine List.sum_le_sum fun r hr => ?_
  have hpos := hamounts r hr
  by_cases hc : r.creatorId = creatorId ∧ counts r.status = true
  · simp [Withdrawal.counted, hc, h r hr hc.1 hc.2]
  · rw [Withdrawal.counted, if_neg hc, Withdrawal.counted]
    split
    · exact hpos
    · exact le_rfl

end WithdrawalTable

/-! ## Writes -/

namespace Calm

variable {data : WithdrawalUpdate} {r : Withdrawal} {amount : Option Usd}

theorem stored (h : Calm data r) (ha : data.stored = some amount) (hr : 0 ≤ r.amount.cents) :
    0 ≤ (data.applyTo amount r).amount.cents ∧
      (data.applyTo amount r).amount.cents ≤ r.amount.cents := by
  unfold WithdrawalUpdate.stored at ha
  cases hd : data.amount with
  | none =>
    rw [hd] at ha
    rw [← Option.some.inj ha]
    exact ⟨hr, le_rfl⟩
  | some cents =>
    obtain ⟨hpos, hle⟩ := h.amount cents hd
    rw [hd] at ha
    obtain ⟨x, hx, rfl⟩ := Option.map_eq_some_iff.1 ha
    unfold Usd.ofCents? at hx
    split at hx
    · obtain rfl := Option.some.inj hx
      exact ⟨hpos, hle⟩
    · cases hx

/-- A row counts for no more after an update if its status counts only where it counted. -/
theorem counted_le (h : Calm data r) (ha : data.stored = some amount) (hr : 0 ≤ r.amount.cents)
    {counts : WithdrawalStatus → Bool} {creatorId : String}
    (hcounts : r.creatorId = creatorId → counts (data.status.getD r.status) = true →
      counts r.status = true) :
    (data.applyTo amount r).counted counts creatorId ≤ r.counted counts creatorId := by
  have hstored := h.stored ha hr
  by_cases hc : r.creatorId = creatorId ∧ counts (data.status.getD r.status) = true
  · have hc' : r.creatorId = creatorId ∧ counts r.status = true := ⟨hc.1, hcounts hc.1 hc.2⟩
    have hnew : (data.applyTo amount r).creatorId = creatorId ∧
        counts (data.applyTo amount r).status = true := hc
    rw [Withdrawal.counted, if_pos hnew, Withdrawal.counted, if_pos hc']
    exact hstored.2
  · have hnew : ¬((data.applyTo amount r).creatorId = creatorId ∧
        counts (data.applyTo amount r).status = true) := hc
    rw [Withdrawal.counted, if_neg hnew, Withdrawal.counted]
    split
    · exact hr
    · exact le_rfl

/-- A row that did not fail before is one that may count. -/
theorem isOpen (h : Calm data r)
    (hopen : (data.status.getD r.status).isOpen = true) : r.status.isOpen = true := by
  simp only [WithdrawalStatus.isOpen, ne_eq, decide_eq_true_eq] at hopen ⊢
  exact fun hf => hopen (h.failed hf)

end Calm

namespace Solvent

variable {w : WithdrawalWorld}

/-- The credits of one wallet are among those of its creator. -/
theorem credits_le_earned (h : Solvent w) {x : Wallet} (hx : x ∈ w.db.wallets) :
    w.db.credits x.walletAddress ≤ w.db.earned x.creatorId := by
  refine List.single_le_sum (fun c hc => ?_) _
    (List.mem_map.2 ⟨x, List.mem_filter.2 ⟨hx, by simp⟩, rfl⟩)
  obtain ⟨y, hy, rfl⟩ := List.mem_map.1 hc
  exact h.credits y (List.mem_filter.1 hy).1

/-- The wallet of an address. -/
theorem wallet_eq (h : Solvent w) {x y : Wallet} (hx : x ∈ w.db.wallets) (hy : y ∈ w.db.wallets)
    (he : x.walletAddress = y.walletAddress) : x = y :=
  List.inj_on_of_nodup_map h.addresses hx hy he

/-- A calm update of the rows it matches. -/
theorem modify (h : Solvent w) {p : Withdrawal → Bool} {data : WithdrawalUpdate}
    {amount : Option Usd} (ha : data.stored = some amount)
    (hcalm : ∀ r ∈ w.withdrawals.rows, p r = true → Calm data r) :
    Solvent { w with withdrawals := w.withdrawals.modify p data amount } where
  opened creatorId := (WithdrawalTable.total_modify_le fun r hr hp =>
    (hcalm r hr hp).counted_le ha (h.amounts r hr) fun _ => (hcalm r hr hp).isOpen).trans
      (h.opened creatorId)
  amounts r' hr' := by
    obtain ⟨r, hr, rfl⟩ := WithdrawalTable.mem_modify.1 hr'
    split
    · next hp => exact ((hcalm r hr hp).stored ha (h.amounts r hr)).1
    · exact h.amounts r hr
  credits := h.credits
  addresses := h.addresses

/-- A new row that there is room for. -/
theorem created (h : Solvent w) {data : WithdrawalCreate} {r : Withdrawal} {t : WithdrawalTable}
    (ht : w.withdrawals.Created data r t) (hpos : 0 ≤ data.amount)
    (hroom : w.withdrawals.total WithdrawalStatus.isOpen data.creatorId + data.amount ≤
      w.db.earned data.creatorId) : Solvent { w with withdrawals := t } := by
  have hamount : r.amount.cents = data.amount := by
    have ha := ht.amount
    unfold Usd.ofCents? at ha
    split at ha
    · exact congrArg Usd.cents (Option.some.inj ha).symm
    · cases ha
  refine ⟨fun creatorId => ?_, fun r' hr' => ?_, h.credits, h.addresses⟩
  · show t.total _ creatorId ≤ w.db.earned creatorId
    have hold := h.opened creatorId
    rw [WithdrawalTable.total_created ht, Withdrawal.counted]
    split
    · next hc =>
      rw [← hc.1, ht.creatorId, hamount]
      exact hroom
    · omega
  · have hr' : r' ∈ t.rows := hr'
    rw [ht.rows] at hr'
    rcases List.mem_append.1 hr' with hr' | hr'
    · exact h.amounts r' hr'
    · obtain rfl := List.mem_singleton.1 hr'
      omega

end Solvent

/-! ## New settlements -/

/-- The rows of a split that adds up credit no negative amounts. -/
theorem settlementRows_nonneg {a : Usd} {cs : List Collaborator} (ha : 0 ≤ a.cents)
    (hpos : ∀ c ∈ cs, 0 ≤ c.revenuePercentage)
    (hsum : (cs.map (·.revenuePercentage)).sum = 10000) :
    ∀ r ∈ settlementRows a.toBase (recipientInputs cs) cs, 0 ≤ r.stored.amount := by
  intro r hr
  have hmem : r.amount ∈ (settlementRows a.toBase (recipientInputs cs) cs).map (·.amount) :=
    List.mem_map_of_mem hr
  rw [settlementRows_amount] at hmem
  obtain ⟨x, hx, he⟩ := List.mem_map.1 hmem
  have hx0 : 0 ≤ x := by
    rcases List.mem_cons.1 hx with rfl | hx
    · omega
    · refine apportion_nonneg (by omega) (by decide) (fun s hs => ?_) hsum x hx
      obtain ⟨c, hc, rfl⟩ := List.mem_map.1 hs
      exact hpos c hc
  show 0 ≤ toCents r.amount
  rw [← he]
  exact roundHalfAway_nonneg _ (roundSig_nonneg _ hx0)

/-- A settlement without negative amounts takes no credits away. -/
theorem credits_le_createSettlement {db db' : Database} {data : SettlementCreate}
    (h : db.createSettlement data = .ok db') (hpos : ∀ r ∈ data.recipients, 0 ≤ r.stored.amount)
    (walletAddress : String) : db.credits walletAddress ≤ db'.credits walletAddress := by
  unfold Database.createSettlement at h
  split at h
  · cases h
  · next hnone =>
    obtain rfl := Except.ok.inj h
    have hmem : data.orderId ∉ db.settlements := by
      rw [← AList.lookup_eq_none]
      simpa using hnone
    unfold Database.credits
    rw [AList.entries_insert_of_notMem hmem, List.map_cons, List.sum_cons]
    refine le_add_of_nonneg_left (List.sum_nonneg fun x hx => ?_)
    obtain ⟨r, hr, rfl⟩ := List.mem_map.1 hx
    obtain ⟨r', hr', rfl⟩ := List.mem_map.1 (List.mem_filter.1 hr).1
    exact hpos r' hr'

theorem wallets_createSettlement {db db' : Database} {data : SettlementCreate}
    (h : db.createSettlement data = .ok db') : db'.wallets = db.wallets := by
  unfold Database.createSettlement at h
  split at h
  · cases h
  · exact (Except.ok.inj h) ▸ rfl

theorem earned_mono {db db' : Database} (hwallets : db'.wallets = db.wallets)
    (h : ∀ walletAddress, db.credits walletAddress ≤ db'.credits walletAddress)
    (creatorId : String) : db.earned creatorId ≤ db'.earned creatorId := by
  rw [Database.earned, Database.earned, hwallets]
  exact List.sum_le_sum fun x _ => h x.walletAddress

/-- What a new settlement leaves : the wallets and the withdrawals, and no less credits. -/
theorem withdrawalEnv_changes (w : WithdrawalWorld) {e : WithdrawalEnv} (he : Settles100 w e) :
    (withdrawalMachine.env e w).withdrawals = w.withdrawals ∧
      (withdrawalMachine.env e w).db.wallets = w.db.wallets ∧
        ∀ walletAddress, w.db.credits walletAddress ≤
          (withdrawalMachine.env e w).db.credits walletAddress := by
  obtain ⟨orderId, amountUsd, txHash, collaborators⟩ := e
  obtain ⟨ha, hpos, hsum⟩ := he
  simp only [withdrawalMachine]
  split
  · next db hdb => exact ⟨rfl, wallets_createSettlement hdb,
      credits_le_createSettlement hdb (settlementRows_nonneg ha hpos hsum)⟩
  · exact ⟨rfl, rfl, fun _ => le_rfl⟩

theorem Solvent.env {w : WithdrawalWorld} (h : Solvent w) {e : WithdrawalEnv}
    (he : Settles100 w e) : Solvent (withdrawalMachine.env e w) := by
  obtain ⟨hrows, hwallets, hle⟩ := withdrawalEnv_changes w he
  refine ⟨fun creatorId => ?_, fun r hr => ?_, fun x hx => ?_, ?_⟩
  · rw [hrows]
    exact (h.opened creatorId).trans (earned_mono hwallets hle creatorId)
  · rw [hrows] at hr
    exact h.amounts r hr
  · rw [hwallets] at hx
    exact (h.credits x hx).trans (hle x.walletAddress)
  · rw [hwallets]
    exact h.addresses

/-! ## The balance -/

/-- The balance of a connected wallet : its credits less the withdrawals of its creator. -/
theorem eval_getWithdrawableBalance (w : WithdrawalWorld) (walletAddress : String)
    (ch : ℕ → WithdrawalChoice) (hch : ∀ n, (ch n).fault = .none) :
    (∃ x ∈ w.db.wallets, x.walletAddress = walletAddress ∧
      (getWithdrawableBalance walletAddress).eval withdrawalMachine ch w =
        (.ok (decimalOf (w.db.credits walletAddress -
          w.withdrawals.total WithdrawalStatus.isCompleted x.creatorId)),
          fun n => ch (n + 3), w)) ∨
    (∀ x ∈ w.db.wallets, x.walletAddress ≠ walletAddress) ∧
      (getWithdrawableBalance walletAddress).eval withdrawalMachine ch w =
        (.ok 0, fun n => ch (n + 1), w) := by
  have hx : ∀ (n : ℕ) (r : WithdrawalRequest), withdrawalMachine.exec r (ch n) w =
      withdrawalEffect r (ch n) w :=
    fun n r => withdrawalExec_none (hch n) r w
  have h0 : withdrawalMachine.exec (.walletCreator walletAddress) (ch 0) w =
      (.ok ((reorder (ch 0).order (w.db.wallets.filter
        (·.walletAddress = walletAddress))).head?.map (·.creatorId)), w) := hx 0 _
  unfold getWithdrawableBalance
  rw [bind_eq, eval_ask withdrawalMachine h0]
  cases ho : (reorder (ch 0).order
    (w.db.wallets.filter (·.walletAddress = walletAddress))).head? with
  | none =>
    refine Or.inr ⟨fun x hmem haddr => ?_, rfl⟩
    have hnil := List.head?_eq_none_iff.1 ho
    have hmem : x ∈ reorder (ch 0).order
        (w.db.wallets.filter (·.walletAddress = walletAddress)) :=
      (reorder_perm _ _).mem_iff.2 (List.mem_filter.2 ⟨hmem, by simpa using haddr⟩)
    rw [hnil] at hmem
    cases hmem
  | some x =>
    obtain ⟨hmem, haddr⟩ : x ∈ w.db.wallets ∧ x.walletAddress = walletAddress := by
      have hmem := (reorder_perm _ _).mem_iff.1 (List.mem_of_head? ho)
      simpa using hmem
    have h1 : withdrawalMachine.exec (.settledTotal walletAddress) (ch 1) w =
        (.ok (w.db.credits walletAddress), w) := hx 1 _
    have h2 : withdrawalMachine.exec (.completedTotal x.creatorId) (ch 2) w =
        (.ok (w.withdrawals.total WithdrawalStatus.isCompleted x.creatorId), w) := hx 2 _
    exact Or.inl ⟨x, hmem, haddr,
      (eval_ask withdrawalMachine h1).trans (eval_ask withdrawalMachine h2)⟩

/-- In a solvent state the balance of a wallet whose creator has no other is not negative. -/
theorem Solvent.balance {w : WithdrawalWorld} (h : Solvent w) {walletAddress : String}
    (hsole : ∀ x ∈ w.db.wallets, x.walletAddress = walletAddress → ∀ y ∈ w.db.wallets,
      y.creatorId = x.creatorId → y = x)
    (ch : ℕ → WithdrawalChoice) (hch : ∀ n, (ch n).fault = .none) :
    ∃ b ch', (getWithdrawableBalance walletAddress).eval withdrawalMachine ch w =
      (.ok b, ch', w) ∧ 0 ≤ b := by
  rcases eval_getWithdrawableBalance w walletAddress ch hch with ⟨x, hmem, haddr, he⟩ | ⟨-, he⟩
  · refine ⟨_, _, he, roundSig_nonneg _ ?_⟩
    have hearned : w.db.earned x.creatorId = w.db.credits walletAddress := by
      have hfilter : w.db.wallets.filter (·.creatorId = x.creatorId) = [x] := by
        have hnodup : w.db.wallets.Nodup := List.Nodup.of_map _ h.addresses
        have hx : x ∈ w.db.wallets.filter (·.creatorId = x.creatorId) :=
          List.mem_filter.2 ⟨hmem, by simp⟩
        refine List.perm_singleton.1 ((List.perm_ext_iff_of_nodup (hnodup.filter _)
          (List.nodup_singleton x)).2 fun y => ⟨fun hy => ?_, fun hy => ?_⟩)
        · obtain ⟨hy, hc⟩ := List.mem_filter.1 hy
          exact List.mem_singleton.2 (hsole x hmem haddr y hy (by simpa using hc))
        · exact List.mem_singleton.1 hy ▸ hx
      rw [Database.earned, hfilter, List.map_singleton, List.sum_singleton, haddr]
    have hle : w.withdrawals.total WithdrawalStatus.isCompleted x.creatorId ≤
        w.withdrawals.total WithdrawalStatus.isOpen x.creatorId :=
      WithdrawalTable.total_mono h.amounts fun r _ _ hc => by
        simp only [WithdrawalStatus.isCompleted, decide_eq_true_eq] at hc
        simp [WithdrawalStatus.isOpen, hc]
    have hopened := h.opened x.creatorId
    omega
  · exact ⟨_, _, he, le_rfl⟩

/-- Without withdrawals every state is solvent whose credits are not negative. -/
theorem solvent_empty {db : Database} (h : ∀ x ∈ db.wallets, 0 ≤ db.credits x.walletAddress)
    (haddr : (db.wallets.map (·.walletAddress)).Nodup) : Solvent ⟨db, .empty⟩ where
  opened creatorId := by
    refine List.sum_nonneg fun c hc => ?_
    obtain ⟨x, hx, rfl⟩ := List.mem_map.1 hc
    exact h x (List.mem_filter.1 hx).1
  amounts r hr := nomatch hr
  credits := h
  addresses := haddr

end Kreav
