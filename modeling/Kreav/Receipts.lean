import Kreav.WalletBalances
import Kreav.WithdrawalStatuses

/-!
# The balances on receipts

`requestWithdrawal` writes the balance it has checked on its receipt. `getWithdrawal` takes the
balance of the moment and adds the amount of the withdrawal, as if the amount were out of
it. It is only once the withdrawal is completed. So the receipts of a withdrawal agree from
the read on that completes it (`receipts_agree_iff`), and before that a read reports the
amount twice. Receipts carry doubles, so above `2 ^ 46` dollars two balances may be one number.

In between any calls may run, as long as they leave the credits of the wallet and the other
withdrawals of the creator as they were. That they keep the row of the withdrawal follows from
the protocol of the endpoints (`Statuses.protocol`).
-/

open Async Prog Rounding

namespace Kreav

/-! ## Numbers on receipts -/

/-- `2 ^ 46` dollars, in cents. Doubles below it tell cents apart. -/
def centsOfDoubles : ℕ :=
  100 * 2 ^ 46

theorem toNumber_injOn {a b : ℤ} (ha : a.natAbs < centsOfDoubles) (hb : b.natAbs < centsOfDoubles)
    (h : toNumber a = toNumber b) : a = b := by
  have hlt {c : ℤ} (hc : c.natAbs < centsOfDoubles) : |(c / 100 : ℚ)| < 2 ^ (46 : ℤ) := by
    have hc' : |(c : ℚ)| < 100 * 2 ^ 46 := by
      rw [← Int.cast_abs, Int.abs_eq_natAbs]
      exact_mod_cast hc
    rw [abs_div, abs_of_pos (by norm_num : (0 : ℚ) < 100), div_lt_iff₀ (by norm_num)]
    norm_num at hc' ⊢
    exact hc'
  have hle : |(a / 100 - b / 100 : ℚ)| ≤ 2 ^ (46 - (53 : ℕ) : ℤ) :=
    Doubles.abs_sub_le_of_toPrecision_eq (hlt ha) (hlt hb) h
  -- a last place is less than a cent
  have hcent : |(a - b : ℚ)| < 1 := by
    rw [← sub_div, abs_div, abs_of_pos (by norm_num : (0 : ℚ) < 100)] at hle
    norm_num at hle
    linarith
  have hcent' : |a - b| < 1 := by exact_mod_cast hcent
  exact sub_eq_zero.1 (Int.abs_lt_one_iff.1 hcent')

/-- Halves of a dollar are doubles. -/
theorem toNumber_halves {c n : ℤ} (hc : c = 50 * n) (h : |n| < 2 ^ 53) : toNumber c = n / 2 := by
  have hn : (c / 100 : ℚ) = n * 2 ^ (-1 : ℤ) := by
    rw [hc]
    push_cast
    ring
  rw [toNumber, hn, Doubles.double, Doubles.toPrecision_of_digits _ h]
  ring

namespace Receipt

/-- The balances before and after a withdrawal, from the one before. -/
def Shows (receipt : Receipt) (before amount : ℤ) : Prop :=
  receipt.availableBalanceBefore = toNumber before ∧
    receipt.availableBalanceAfter = toNumber (decimalOf (before - amount))

/-- The receipts have the same balances. -/
def Agrees (read receipt : Receipt) : Prop :=
  read.availableBalanceBefore = receipt.availableBalanceBefore ∧
    read.availableBalanceAfter = receipt.availableBalanceAfter

end Receipt

/-- Receipts of a withdrawal are the same from either balance before it. -/
def SameNumbers (before before' amount : ℤ) : Prop :=
  toNumber before = toNumber before' ∧
    toNumber (decimalOf (before - amount)) = toNumber (decimalOf (before' - amount))

theorem Receipt.Shows.agrees_iff {read receipt : Receipt} {before before' amount : ℤ}
    (hread : read.Shows before amount) (h : receipt.Shows before' amount) :
    read.Agrees receipt ↔ SameNumbers before before' amount := by
  rw [Agrees, hread.1, hread.2, h.1, h.2, SameNumbers]

namespace WithdrawalTable

/-- The other withdrawals of a creator. -/
def others (creatorId id : String) (t : WithdrawalTable) : List Withdrawal :=
  t.rows.filter fun r => r.creatorId = creatorId ∧ r.id ≠ id

variable {creatorId id : String}

theorem others_modify (t : WithdrawalTable) (data : WithdrawalUpdate) (amount : Option Usd) :
    (t.modify (·.id = id) data amount).others creatorId id = t.others creatorId id := by
  unfold others
  simp only [modify]
  induction t.rows with
  | nil => rfl
  | cons r rest ih =>
    by_cases hid : r.id = id
    · have hid' : (data.applyTo amount r).id = id := hid
      simp only [List.map_cons, hid, decide_true, if_true, List.filter_cons, hid', ne_eq,
        not_true_eq_false, and_false, decide_false, Bool.false_eq_true, if_false]
      exact ih
    · simp only [List.map_cons, hid, decide_false, Bool.false_eq_true, if_false, List.filter_cons]
      rw [ih]

theorem others_created {data : WithdrawalCreate} {t t' : WithdrawalTable} {row : Withdrawal}
    (h : Created data t row t') : t'.others creatorId row.id = t.others creatorId row.id := by
  rw [others, h.rows, List.filter_append, List.filter_cons_of_neg (by simp), List.filter_nil,
    List.append_nil, others]

variable (counts : WithdrawalStatus → Bool)

/-- The withdrawals of a creator that count, among rows without the given id. -/
theorem sum_others {rows : List Withdrawal} (h : ∀ r ∈ rows, r.id ≠ id) :
    ((rows.filter fun r => r.creatorId = creatorId ∧ r.id ≠ id).map
      (·.counted counts creatorId)).sum = (rows.map (·.counted counts creatorId)).sum := by
  induction rows with
  | nil => rfl
  | cons r rest ih =>
    have ih := ih fun r' hr' => h r' (List.mem_cons_of_mem r hr')
    have hid := h r List.mem_cons_self
    by_cases hc : r.creatorId = creatorId
    · simp [hc, hid, ← ih]
    · have hzero : r.counted counts creatorId = 0 := by simp [Withdrawal.counted, hc]
      rw [List.map_cons, List.sum_cons, ← ih, hzero, zero_add,
        List.filter_cons_of_neg (by simp [hc])]

/-- One withdrawal and the others of its creator. -/
theorem total_eq_others {t : WithdrawalTable} {row : Withdrawal} (hrow : row ∈ t.rows) :
    t.total counts creatorId =
      ((t.others creatorId row.id).map (·.counted counts creatorId)).sum +
        row.counted counts creatorId := by
  obtain ⟨before, after, hsplit⟩ := List.append_of_mem hrow
  have hids := t.ids
  rw [hsplit, List.map_append, List.map_cons, List.nodup_middle, List.nodup_cons] at hids
  have hne : ∀ r ∈ before ++ after, r.id ≠ row.id := fun r hr he =>
    hids.1 (by rw [← List.map_append, ← he]; exact List.mem_map_of_mem hr)
  have hothers : t.others creatorId row.id =
      (before ++ after).filter fun r => r.creatorId = creatorId ∧ r.id ≠ row.id := by
    rw [others, hsplit, List.filter_append, List.filter_append, List.filter_cons_of_neg (by simp)]
  rw [total_eq, hothers, sum_others counts hne, hsplit]
  simp only [List.map_append, List.map_cons, List.sum_append, List.sum_cons]
  ring

end WithdrawalTable

namespace Receipts

variable {w : WithdrawalWorld} {x : Wallet} {cfg : WithdrawalConfig}

/-! ## The request -/

/-- Queries leave the world. -/
theorem returns_queries {α : Type} {p : WithdrawalMethod α}
    (h : OfQueries (fun _ p => p.Relates withdrawalMachine fun w w' => w = w') →
      p.Relates withdrawalMachine fun w w' => w = w')
    {ch ch' : ℕ → WithdrawalChoice} {w w' : WithdrawalWorld} {a : α}
    (hp : p.eval withdrawalMachine ch w = (.ok a, ch', w')) : w = w' := by
  have hrel := h
    { toCompositional := Relates.compositional _ (fun _ => rfl) Eq.trans
      query := fun hr => Relates.ask fun c w => (withdrawalExec_query hr c w).symm }
  have hw := hrel ch w
  rwa [hp] at hw

/-- The row that a request makes, and its receipt. -/
structure Requested (w : WithdrawalWorld) (x : Wallet) (amount : ℤ) (row : Withdrawal)
    (receipt : Receipt) (w' : WithdrawalWorld) : Prop where
  fresh : ∀ r ∈ w.withdrawals.rows, r.id ≠ row.id
  creatorId : row.creatorId = x.creatorId
  amount : row.amount.cents = amount
  status : row.status = .processing
  anchorTransactionId : row.anchorTransactionId = none
  db : w'.db = w.db
  mem : row ∈ w'.withdrawals.rows
  others : w'.withdrawals.others x.creatorId row.id = w.withdrawals.others x.creatorId row.id
  withdrawalId : receipt.withdrawalId = row.id
  shown : receipt.Shows (decimalOf (w.remainder x)) row.amount.cents

/-- A wallet is found by its address. -/
theorem effect_walletCreator (haddr : (w.db.wallets.map (·.walletAddress)).Nodup)
    (hx : x ∈ w.db.wallets) (c : WithdrawalChoice) :
    withdrawalEffect (.walletCreator x.walletAddress) c w = (.ok (some x.creatorId), w) := by
  have hmem : x ∈ reorder c.order (w.db.wallets.filter (·.walletAddress = x.walletAddress)) :=
    (reorder_perm _ _).mem_iff.2 (List.mem_filter.2 ⟨hx, decide_eq_true rfl⟩)
  have hall : ∀ y ∈ reorder c.order (w.db.wallets.filter (·.walletAddress = x.walletAddress)),
      y = x := by
    intro y hy
    obtain ⟨hy, he⟩ := List.mem_filter.1 ((reorder_perm _ _).mem_iff.1 hy)
    exact List.inj_on_of_nodup_map haddr hy hx (by simpa using he)
  simp only [withdrawalEffect]
  generalize reorder c.order (w.db.wallets.filter (·.walletAddress = x.walletAddress)) = l at *
  cases l with
  | nil => cases hmem
  | cons y rest => rw [hall y List.mem_cons_self]; rfl

theorem cents_of_ofCents? {cents : ℤ} {a : Usd} (h : Usd.ofCents? cents = some a) :
    a.cents = cents := by
  unfold Usd.ofCents? at h
  split at h
  · rw [← Option.some.inj h]
  · cases h

theorem requested_of_eval (haddr : (w.db.wallets.map (·.walletAddress)).Nodup)
    (hx : x ∈ w.db.wallets) {amount : ℤ} {destinationType destinationAccount : String}
    {ch ch' : ℕ → WithdrawalChoice} (hch : ∀ n, (ch n).fault = .none) {receipt : Receipt}
    {w' : WithdrawalWorld}
    (h : (requestWithdrawal cfg x.walletAddress amount destinationType destinationAccount).eval
      withdrawalMachine ch w = (.ok receipt, ch', w')) :
    ∃ row, Requested w x amount row receipt w' := by
  unfold requestWithdrawal at h
  have hwallet : withdrawalMachine.exec (.walletCreator x.walletAddress) (ch 0) w =
      (.ok (some x.creatorId), w) :=
    (withdrawalExec_none (hch 0) _ w).trans (effect_walletCreator haddr hx _)
  rw [bind_eq, eval_ask withdrawalMachine hwallet] at h
  dsimp only at h
  rw [bind_eq, eval_bind_ok (eval_balance haddr hx _ fun n => hch (n + 1))] at h
  split at h
  · cases h
  obtain ⟨reference, ch₁, w₁, hreference, h⟩ := eval_bind_eq_ok h
  obtain rfl := returns_queries (fun h => h.generateReference) hreference
  obtain ⟨hash, ch₂, w₂, hhash, h⟩ := eval_bind_eq_ok h
  obtain rfl := returns_queries (fun h => h.findRecentSettlementTxHash x.walletAddress) hhash
  obtain ⟨row, w₃, hcreate, h⟩ := eval_ask_eq_ok h
  obtain ⟨_, w₄, hupdate, h⟩ := eval_ask_eq_ok h
  obtain ⟨t, ht, rfl⟩ := withdrawalExec_create_ok hcreate
  obtain ⟨stored, hstored, rfl⟩ := withdrawalExec_update_ok hupdate
  obtain rfl : none = stored := Option.some.inj hstored
  simp only [pure_eq, eval, Prod.mk.injEq, Except.ok.injEq] at h
  obtain ⟨rfl, -, rfl⟩ := h
  have hfresh : ∀ r ∈ w.withdrawals.rows, r.id ≠ row.id := fun r hr he =>
    ht.fresh (he ▸ List.mem_map_of_mem hr)
  have hamount : row.amount.cents = amount := cents_of_ofCents? ht.amount
  have hmem : row ∈ t.rows := ht.rows ▸ List.mem_append_right _ (List.mem_singleton.2 rfl)
  have hothers : (t.modify (·.id = row.id) { status := some .processing } none).others x.creatorId
      row.id = w.withdrawals.others x.creatorId row.id := by
    rw [WithdrawalTable.others_modify, WithdrawalTable.others_created ht]
  exact ⟨{ row with status := .processing },
    { fresh := hfresh
      creatorId := ht.creatorId
      amount := hamount
      status := rfl
      anchorTransactionId := ht.anchorTransactionId
      db := rfl
      mem := WithdrawalTable.mem_modify.2 ⟨row, hmem, if_pos (decide_eq_true rfl)⟩
      others := hothers
      withdrawalId := rfl
      shown := ⟨rfl, by rw [hamount]⟩ }⟩

/-! ## In between -/

/-- The wallets are as they were, and so is the row, but for its status and the time of its
completion. -/
structure Kept (wallets : List Wallet) (row : Withdrawal) (w : WithdrawalWorld) : Prop where
  wallets : w.db.wallets = wallets
  row : ∃ r ∈ w.withdrawals.rows,
    r = { row with status := r.status, completedAt := r.completedAt }

namespace Kept

variable {wallets : List Wallet} {row : Withdrawal}

/-- An update that leaves the row, or its other columns. -/
theorem modify (h : Kept wallets row w) {p : Withdrawal → Bool} {data : WithdrawalUpdate}
    {amount : Option Usd} (hp : ∀ r ∈ w.withdrawals.rows, p r = true →
      r.anchorTransactionId = row.anchorTransactionId → data.txHash = none ∧ amount = none) :
    Kept wallets row { w with withdrawals := w.withdrawals.modify p data amount } := by
  obtain ⟨r, hr, he⟩ := h.row
  refine ⟨h.wallets, _, WithdrawalTable.mem_modify.2 ⟨r, hr, rfl⟩, ?_⟩
  split
  · next hpr =>
    obtain ⟨htx, rfl⟩ := hp r hr hpr (by rw [he])
    rw [he]
    simp only [WithdrawalUpdate.applyTo, htx, Option.getD_none, Option.none_or]
  · exact he

theorem exec (hanchor : row.anchorTransactionId = none) (h : Kept wallets row w)
    {φ φ' : Statuses.Phase} {r : WithdrawalRequest} {c : WithdrawalChoice}
    (hr : Statuses.Reply φ r (withdrawalExec r c w).1 φ') :
    Kept wallets row (withdrawalExec r c w).2 := by
  have hchanges := withdrawalExec_changes r c w
  generalize (withdrawalExec r c w).1 = x at hr
  generalize (withdrawalExec r c w).2 = w' at hchanges ⊢
  cases hchanges with
  | nothing => exact h
  | create _ ht =>
    obtain ⟨r, hr, he⟩ := h.row
    exact ⟨h.wallets, r, ht.rows ▸ List.mem_append_left _ hr, he⟩
  | update _ ha =>
    -- the updates by id write the status and the time of completion only
    cases hr with
    | plain hplain => exact hplain.elim
    | start => exact h.modify fun _ _ _ _ => ⟨rfl, (Option.some.inj ha).symm⟩
    | complete => exact h.modify fun _ _ _ _ => ⟨rfl, (Option.some.inj ha).symm⟩
  | updateMany _ ha =>
    refine h.modify fun r _ hp he => ?_
    have ht := (by simpa using hp : _ ∧ _).1
    rw [he, hanchor] at ht
    cases ht

theorem invariant (hanchor : row.anchorTransactionId = none) :
    Statuses.protocol.Invariant withdrawalMachine
      (fun (_ : Config withdrawals WithdrawalWorld Unit) _ => True)
      fun w _ => Kept wallets row w where
  reply hI _ _ _ := ⟨trivial, fun _ hr hk => Protocol.Advances.update hk (hI.exec hanchor hr)⟩
  event {w φ i v φ'} _ _ := nomatch v
  ended hI _ := hI
  outside {s φ e} hI _ := by
    obtain ⟨orderId, amountUsd, txHash, collaborators⟩ := e
    simp only [withdrawalMachine]
    split
    · next db hdb => exact ⟨(wallets_createSettlement hdb).trans hI.wallets, hI.row⟩
    · exact hI
  final_rest := trivial

/-- Any calls keep the row. -/
theorem run (hanchor : row.anchorTransactionId = none) (h : Kept wallets row w)
    (calls : List WithdrawalCall) (as : List (Action WithdrawalChoice WithdrawalEnv)) :
    Kept wallets row
      (Config.run withdrawalMachine as ⟨calls.map (·.method cfg), w⟩).world := by
  have htracks : Config.Tracks Statuses.protocol (⟨calls.map fun call => call.method cfg, w⟩ :
      Config withdrawals WithdrawalWorld Unit) fun _ => Statuses.protocol.rest :=
    Config.tracks_map Statuses.conforms_method calls w
  obtain ⟨_, -, hkept⟩ := (invariant hanchor).run as htracks h
    (Config.along_of_forall (fun _ _ => trivial) as _)
  exact hkept

end Kept

/-! ## The read -/

/-- A creator's only wallet. -/
theorem effect_walletOf (hx : w.db.walletsOf x.creatorId = [x]) (c : WithdrawalChoice) :
    withdrawalEffect (.walletOf x.creatorId) c w = (.ok (some x.walletAddress), w) := by
  have hone : reorder c.order (w.db.wallets.filter (·.creatorId = x.creatorId)) = [x] :=
    List.perm_singleton.1 (hx ▸ reorder_perm c.order _)
  simp only [withdrawalEffect, hone]
  rfl

theorem eval_receiptOf (haddr : (w.db.wallets.map (·.walletAddress)).Nodup)
    (hx : w.db.walletsOf x.creatorId = [x]) {row : Withdrawal} (hrow : row.creatorId = x.creatorId)
    (status : WithdrawalStatus) (completedAt : Option ℕ) {ch : ℕ → WithdrawalChoice}
    (hch : ∀ n, (ch n).fault = .none) :
    ∃ receipt ch', (receiptOf row status completedAt).eval withdrawalMachine ch w =
        (.ok receipt, ch', w) ∧
      receipt.Shows (decimalOf (decimalOf (w.remainder x) + row.amount.cents))
        row.amount.cents := by
  have hmem : x ∈ w.db.wallets := by
    have hx' : x ∈ w.db.walletsOf x.creatorId := hx ▸ List.mem_singleton_self x
    exact (List.mem_filter.1 hx').1
  have hwallet : withdrawalMachine.exec (.walletOf row.creatorId) (ch 0) w =
      (.ok (some x.walletAddress), w) := by
    rw [hrow]
    exact (withdrawalExec_none (hch 0) _ w).trans (effect_walletOf hx _)
  have hbalance := eval_balance haddr hmem (fun n => ch (n + 1)) fun n => hch (n + 1)
  exact ⟨_, _, eval_bind_ok ((eval_ask withdrawalMachine hwallet).trans (eval_bind_ok hbalance)),
    ⟨rfl, rfl⟩⟩

/-- A read at the time `now` finds the withdrawal completed, or completes it. -/
def Completes (row : Withdrawal) (now : ℕ) : Prop :=
  row.status = .completed ∨
    row.status = .processing ∧ row.createdAt + simulationDelayMs ≤ now

instance (row : Withdrawal) (now : ℕ) : Decidable (Completes row now) :=
  inferInstanceAs (Decidable (_ ∨ _))

/-- The completed withdrawals of the creator besides the row. -/
def restCompleted (w : WithdrawalWorld) (row : Withdrawal) : ℤ :=
  ((w.withdrawals.others row.creatorId row.id).map
    (·.counted WithdrawalStatus.isCompleted row.creatorId)).sum

/-- The balance that a read at the time `now` starts from. -/
def readBalance (w : WithdrawalWorld) (x : Wallet) (row : Withdrawal) (now : ℕ) : ℤ :=
  w.db.credits x.walletAddress -
    (restCompleted w row + if Completes row now then row.amount.cents else 0)

theorem remainder_eq {row : Withdrawal} (hrow : row ∈ w.withdrawals.rows)
    (hc : row.creatorId = x.creatorId) : w.remainder x = w.db.credits x.walletAddress -
      (restCompleted w row + if row.status = .completed then row.amount.cents else 0) := by
  rw [WithdrawalWorld.remainder, WithdrawalTable.total_eq_others _ hrow, restCompleted, hc]
  simp only [Withdrawal.counted, hc, true_and, WithdrawalStatus.isCompleted, decide_eq_true_eq]

/-- The world after the update that completes a row. -/
def completed (w : WithdrawalWorld) (row : Withdrawal) (completedAt : ℕ) : WithdrawalWorld :=
  let data : WithdrawalUpdate :=
    { status := some .completed, completedAt := some (some completedAt) }
  { w with withdrawals := w.withdrawals.modify (·.id = row.id) data none }

theorem remainder_completed {row : Withdrawal} (hrow : row ∈ w.withdrawals.rows)
    (hc : row.creatorId = x.creatorId) (completedAt : ℕ) :
    (completed w row completedAt).remainder x =
      w.db.credits x.walletAddress - (restCompleted w row + row.amount.cents) := by
  have hmem : { row with status := .completed, completedAt := some completedAt } ∈
      (completed w row completedAt).withdrawals.rows :=
    WithdrawalTable.mem_modify.2 ⟨row, hrow, if_pos (decide_eq_true rfl)⟩
  rw [remainder_eq hmem hc, restCompleted, restCompleted, if_pos rfl]
  simp only [completed, WithdrawalTable.others_modify]

/-- A read goes on to the receipt, in a world with the balance of the read. -/
theorem eval_getWithdrawal_eq {row : Withdrawal} (hrow : row ∈ w.withdrawals.rows)
    (hc : row.creatorId = x.creatorId) {requester : Option String}
    (hrequester : ∀ r ∈ requester, r = "" ∨ r = x.creatorId) {ch : ℕ → WithdrawalChoice}
    (hch : ∀ n, (ch n).fault = .none) :
    ∃ status completedAt n v, (getWithdrawal row.id requester).eval withdrawalMachine ch w =
        (receiptOf row status completedAt).eval withdrawalMachine (fun k => ch (k + n)) v ∧
      v.db = w.db ∧ v.remainder x = readBalance w x row (ch 1).now := by
  have hfind : withdrawalMachine.exec (.withdrawalFindUnique row.id) (ch 0) w =
      (.ok (some row), w) := by
    have hsome : (w.withdrawals.rows.find? (·.id = row.id)).isSome :=
      List.find?_isSome.2 ⟨row, hrow, decide_eq_true rfl⟩
    obtain ⟨r, hr⟩ := Option.isSome_iff_exists.1 hsome
    have hid : r.id = row.id := by simpa using List.find?_some hr
    obtain rfl := WithdrawalTable.eq_of_id (List.mem_of_find?_eq_some hr) hrow hid
    refine (withdrawalExec_none (hch 0) (.withdrawalFindUnique r.id) w).trans ?_
    rw [withdrawalEffect, hr]
  have hnow (n : ℕ) : withdrawalMachine.exec .now (ch n) w = (.ok (ch n).now, w) :=
    withdrawalExec_none (hch n) _ w
  have hupdate (n completedAt : ℕ) : withdrawalMachine.exec (.withdrawalUpdate row.id
      { status := some .completed, completedAt := some (some completedAt) }) (ch n) w =
      (.ok (), completed w row completedAt) :=
    (withdrawalExec_none (hch n) _ w).trans (withdrawalEffect_update _ hrow rfl rfl)
  have hallowed : requester.any (fun requester => requester ≠ "" ∧ row.creatorId ≠ requester) =
      false := by
    cases requester with
    | none => rfl
    | some r => rcases hrequester r rfl with rfl | rfl <;> simp [hc]
  have hstart : (getWithdrawal row.id requester).eval withdrawalMachine ch w =
      (if row.status = .processing then
        (awaitW .now).bind fun now : ℕ =>
          if row.createdAt + simulationDelayMs ≤ now then
            (awaitW .now).bind fun completedAt : ℕ =>
              (awaitW (.withdrawalUpdate row.id
                { status := some .completed, completedAt := some (some completedAt) })).bind
                fun _ => receiptOf row .completed (some completedAt)
          else receiptOf row row.status row.completedAt
      else receiptOf row row.status row.completedAt).eval withdrawalMachine
        (fun k => ch (k + 1)) w := by
    refine (eval_ask withdrawalMachine hfind).trans ?_
    simp only [hallowed]
    rfl
  by_cases hs : row.status = .processing
  · rw [if_pos hs] at hstart
    have hclock := hstart.trans (eval_ask withdrawalMachine (hnow 1))
    by_cases ht : row.createdAt + simulationDelayMs ≤ (ch 1).now
    · rw [if_pos ht] at hclock
      refine ⟨_, _, 4, _, (hclock.trans (eval_ask withdrawalMachine (hnow 2))).trans
        (eval_ask withdrawalMachine (hupdate 3 _)), rfl, ?_⟩
      have hcompletes : Completes row (ch 1).now := Or.inr ⟨hs, ht⟩
      rw [remainder_completed hrow hc, readBalance, if_pos hcompletes]
    · rw [if_neg ht] at hclock
      refine ⟨_, _, 2, w, hclock, rfl, ?_⟩
      rw [remainder_eq hrow hc, readBalance]
      simp [Completes, hs, ht]
  · rw [if_neg hs] at hstart
    refine ⟨_, _, 1, w, hstart, rfl, ?_⟩
    rw [remainder_eq hrow hc, readBalance]
    simp [Completes, hs]

/-- A read reports the balance it finds and the amount. -/
theorem eval_getWithdrawal (haddr : (w.db.wallets.map (·.walletAddress)).Nodup)
    (hx : w.db.walletsOf x.creatorId = [x]) {row : Withdrawal} (hrow : row ∈ w.withdrawals.rows)
    (hc : row.creatorId = x.creatorId) {requester : Option String}
    (hrequester : ∀ r ∈ requester, r = "" ∨ r = x.creatorId) {ch : ℕ → WithdrawalChoice}
    (hch : ∀ n, (ch n).fault = .none) :
    ∃ receipt ch' w', (getWithdrawal row.id requester).eval withdrawalMachine ch w =
        (.ok receipt, ch', w') ∧
      receipt.Shows (decimalOf (decimalOf (readBalance w x row (ch 1).now) + row.amount.cents))
        row.amount.cents := by
  obtain ⟨status, completedAt, n, v, heval, hdb, hremainder⟩ :=
    eval_getWithdrawal_eq hrow hc hrequester hch
  have hanswered (k : ℕ) : ((fun k => ch (k + n)) k).fault = .none := hch (k + n)
  obtain ⟨receipt, ch', hreceipt, hshown⟩ := eval_receiptOf (w := v) (hdb ▸ haddr)
    (hdb ▸ hx) hc status completedAt hanswered
  rw [hremainder] at hshown
  exact ⟨receipt, ch', v, heval.trans hreceipt, hshown⟩

/-- Where 20 digits are enough, a read has the numbers of the request exactly when the amount is
out of the balance, or too small to be seen in it. -/
theorem sameNumbers_iff {b amount : ℤ} (hfit : b.natAbs + amount.natAbs < 10 ^ precision)
    (P : Prop) [Decidable P] :
    SameNumbers (decimalOf (decimalOf (b - if P then amount else 0) + amount)) (decimalOf b)
        amount ↔ P ∨ SameNumbers (b + amount) b amount := by
  have hexact : ∀ y : ℤ, y.natAbs < 10 ^ precision → decimalOf y = y := fun y hy =>
    roundSig_of_lt (by decide) hy
  rw [hexact b (by omega)]
  by_cases hP : P
  · rw [if_pos hP, hexact (b - amount) (by omega), sub_add_cancel, hexact b (by omega)]
    exact iff_of_true ⟨rfl, rfl⟩ (.inl hP)
  · rw [if_neg hP, sub_zero, hexact b (by omega), hexact (b + amount) (by omega)]
    exact (or_iff_right hP).symm

theorem not_sameNumbers {b amount : ℤ} (hamount : amount ≠ 0)
    (hfit : b.natAbs + amount.natAbs < centsOfDoubles) : ¬ SameNumbers (b + amount) b amount := by
  rintro ⟨h, -⟩
  have heq : b + amount = b := toNumber_injOn (by omega) (by omega) h
  omega

end Receipts

open Receipts in
/-- A creator with one wallet requests a withdrawal, and then any calls run that leave the
credits of the wallet and the other withdrawals of the creator as they were. A read returns
the balances of the first receipt exactly when it finds the withdrawal completed or completes
it, as long as doubles tell the cents of the balance apart. For larger ones it may return them
also when the amount is not seen in the balance. -/
theorem receipts_agree_iff (cfg : WithdrawalConfig) {w w₁ w₂ : WithdrawalWorld} {x : Wallet}
    {amount : ℤ} {destinationType destinationAccount : String} {ch ch' : ℕ → WithdrawalChoice}
    {receipt : Receipt} (haddr : (w.db.wallets.map (·.walletAddress)).Nodup)
    (hx : w.db.walletsOf x.creatorId = [x]) (hch : ∀ n, (ch n).fault = .none)
    (hrequest : (requestWithdrawal cfg x.walletAddress amount destinationType
      destinationAccount).eval withdrawalMachine ch w = (.ok receipt, ch', w₁))
    (calls : List WithdrawalCall) (as : List (Action WithdrawalChoice WithdrawalEnv))
    (hrun : w₂ = (Config.run withdrawalMachine as ⟨calls.map (·.method cfg), w₁⟩).world)
    (hcredits : w₂.db.credits x.walletAddress = w.db.credits x.walletAddress)
    (hothers : w₂.withdrawals.others x.creatorId receipt.withdrawalId =
      w.withdrawals.others x.creatorId receipt.withdrawalId)
    {requester : Option String} (hrequester : ∀ r ∈ requester, r = "" ∨ r = x.creatorId)
    {ch₂ : ℕ → WithdrawalChoice} (hch₂ : ∀ n, (ch₂ n).fault = .none) :
    ∃ read, ((getWithdrawal receipt.withdrawalId requester).eval withdrawalMachine ch₂ w₂).1 =
        .ok read ∧
      ∃ row ∈ w₂.withdrawals.rows, row.id = receipt.withdrawalId ∧ row.amount.cents = amount ∧
        (read.Agrees receipt ↔
          SameNumbers (decimalOf (decimalOf (w.remainder x -
            if Completes row (ch₂ 1).now then amount else 0) + amount))
            (decimalOf (w.remainder x)) amount) ∧
        ((w.remainder x).natAbs + amount.natAbs < 10 ^ precision →
          (read.Agrees receipt ↔ Completes row (ch₂ 1).now ∨
            SameNumbers (w.remainder x + amount) (w.remainder x) amount)) ∧
        (amount ≠ 0 → (w.remainder x).natAbs + amount.natAbs < centsOfDoubles →
          (read.Agrees receipt ↔ Completes row (ch₂ 1).now)) := by
  have hmem : x ∈ w.db.wallets := by
    have hx' : x ∈ w.db.walletsOf x.creatorId := hx ▸ List.mem_singleton_self x
    exact (List.mem_filter.1 hx').1
  obtain ⟨row₁, h⟩ := requested_of_eval haddr hmem hch hrequest
  have hkept : Kept w.db.wallets row₁ w₂ := by
    rw [hrun]
    exact Kept.run h.anchorTransactionId ⟨congrArg Database.wallets h.db, row₁, h.mem, rfl⟩ calls as
  obtain ⟨row, hrow, he⟩ := hkept.row
  have hid : row.id = receipt.withdrawalId := by rw [he, h.withdrawalId]
  have hcreator : row.creatorId = x.creatorId := by rw [he, h.creatorId]
  have hamount : row.amount.cents = amount := by rw [he, h.amount]
  obtain ⟨read, ch'', w₃, hread, hshown⟩ := eval_getWithdrawal (hkept.wallets ▸ haddr)
    (by rw [Database.walletsOf, hkept.wallets]; exact hx) hrow hcreator hrequester hch₂
  have hrest : restCompleted w₂ row =
      w.withdrawals.total WithdrawalStatus.isCompleted x.creatorId := by
    have hfresh : ∀ r ∈ w.withdrawals.rows, r.id ≠ receipt.withdrawalId := fun r hr =>
      h.withdrawalId ▸ h.fresh r hr
    rw [restCompleted, hcreator, hid, hothers, WithdrawalTable.total_eq]
    exact WithdrawalTable.sum_others _ hfresh
  have hbalance : readBalance w₂ x row (ch₂ 1).now =
      w.remainder x - if Completes row (ch₂ 1).now then amount else 0 := by
    rw [readBalance, hrest, hcredits, hamount, WithdrawalWorld.remainder, sub_sub]
  have hiff : read.Agrees receipt ↔
      SameNumbers (decimalOf (decimalOf (w.remainder x -
        if Completes row (ch₂ 1).now then amount else 0) + amount))
        (decimalOf (w.remainder x)) amount := by
    rw [hbalance, hamount] at hshown
    exact hshown.agrees_iff (h.amount ▸ h.shown)
  have hdigits (hfit : (w.remainder x).natAbs + amount.natAbs < 10 ^ precision) :
      read.Agrees receipt ↔ Completes row (ch₂ 1).now ∨
        SameNumbers (w.remainder x + amount) (w.remainder x) amount :=
    hiff.trans (sameNumbers_iff hfit _)
  refine ⟨read, by rw [← hid, hread], row, hrow, hid, hamount, hiff, hdigits, ?_⟩
  intro hne hfit
  have hsmall : centsOfDoubles < 10 ^ precision := by decide
  exact (hdigits (hfit.trans hsmall)).trans (or_iff_left (not_sameNumbers hne hfit))

/-- The wallet `A` of `alice`. -/
def demoWallet : Wallet :=
  ⟨"alice", "A", .freighter, 0⟩

/-- The receipt for the withdrawal of the $9.50. -/
def demoReceipt : Receipt :=
  ⟨"1", .numbered 0 1, .processing, toNumber 950, toNumber 950, toNumber 0, "BANK", "1",
    some (.placeholder "tx"), 0, none⟩

/-- The world after the request. -/
def demoRequested : WithdrawalWorld :=
  ((requestWithdrawal demoWithdrawalConfig "A" 950 "BANK" "1").eval withdrawalMachine
    (fun _ => { uuid := "1" }) demoCredited).2.2

/-- The read that completes the withdrawal returns the balances of the request. -/
theorem receipts_agree_completed :
    ∃ read, ((getWithdrawal "1" (some "alice")).eval withdrawalMachine
        (fun _ => { now := simulationDelayMs }) demoRequested).1 = .ok read ∧
      read.availableBalanceBefore = 19 / 2 ∧ read.availableBalanceAfter = 0 := by
  have hrequest : (requestWithdrawal demoWithdrawalConfig demoWallet.walletAddress 950 "BANK"
      "1").eval withdrawalMachine (fun _ => { uuid := "1" }) demoCredited =
        (.ok demoReceipt, fun _ => { uuid := "1" }, demoRequested) := rfl
  have hrequester : ∀ r ∈ some "alice", r = "" ∨ r = demoWallet.creatorId := by decide
  have hfault : ∀ n, ((fun _ => { now := simulationDelayMs } : ℕ → WithdrawalChoice) n).fault =
      .none := fun _ => rfl
  obtain ⟨read, hread, row, hrow, -, -, -, -, hiff⟩ := receipts_agree_iff demoWithdrawalConfig
    (by decide) (by decide) (fun _ => rfl) hrequest [] [] rfl rfl (by decide) hrequester hfault
  have hcompletes : ∀ row ∈ demoRequested.withdrawals.rows,
      Receipts.Completes row simulationDelayMs := by decide
  obtain ⟨hbefore, hafter⟩ := (hiff (by decide) (by decide)).2 (hcompletes row hrow)
  exact ⟨read, hread, hbefore.trans (toNumber_halves (n := 19) rfl (by decide)),
    hafter.trans ((toNumber_halves (n := 0) rfl (by decide)).trans (by simp))⟩

/-- A read before that reports the amount twice. -/
theorem receipts_disagree :
    ∃ receipt read, ((requestWithdrawal demoWithdrawalConfig "A" 950 "BANK" "1").eval
        withdrawalMachine (fun _ => { uuid := "1" }) demoCredited).1 = .ok receipt ∧
      ((getWithdrawal "1" (some "alice")).eval withdrawalMachine (fun _ => {}) demoRequested).1 =
        .ok read ∧
      (receipt.availableBalanceBefore = 19 / 2 ∧ receipt.availableBalanceAfter = 0) ∧
      read.availableBalanceBefore = 19 ∧ read.availableBalanceAfter = 19 / 2 := by
  refine ⟨demoReceipt, _, rfl, rfl, ⟨?_, ?_⟩, ?_, ?_⟩
  · exact toNumber_halves (n := 19) rfl (by decide)
  · exact (toNumber_halves (n := 0) rfl (by decide)).trans (by simp)
  · exact (toNumber_halves (n := 38) rfl (by decide)).trans (by norm_num)
  · exact toNumber_halves (n := 19) rfl (by decide)

end Kreav
