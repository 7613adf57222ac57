import Kreav.WithdrawalTotals

/-!
# The balances of a creator's wallets

Credits belong to a wallet address and withdrawals to a creator, and the balance of each
wallet is short of all completed withdrawals of its creator. `balances_sum` : the balances of
the wallets add up to the credits less the completed withdrawals exactly when what the
wallets but one are short of is made up by the rounding of the balances to 20 digits. Without
rounding that is a creator with one wallet, or without a completed withdrawal.
-/

open Async Prog Rounding

namespace Kreav

/-- The wallets that a creator has connected. -/
def Database.walletsOf (db : Database) (creatorId : String) : List Wallet :=
  db.wallets.filter (·.creatorId = creatorId)

/-- What reading the balance of each wallet of a creator returns. -/
def balancesOf (creatorId : String) (ch : ℕ → WithdrawalChoice) (w : WithdrawalWorld) :
    List (Except WithdrawalError ℤ) :=
  (w.db.walletsOf creatorId).map fun x =>
    ((getWithdrawableBalance x.walletAddress).eval withdrawalMachine ch w).1

/-- The credits of a wallet less its creator's completed withdrawals. -/
def WithdrawalWorld.remainder (w : WithdrawalWorld) (x : Wallet) : ℤ :=
  w.db.credits x.walletAddress - w.withdrawals.total WithdrawalStatus.isCompleted x.creatorId

variable {w : WithdrawalWorld} {creatorId : String}

theorem sum_remainder (w : WithdrawalWorld) (creatorId : String) :
    ((w.db.walletsOf creatorId).map w.remainder).sum = w.db.earned creatorId -
      (w.db.walletsOf creatorId).length *
        w.withdrawals.total WithdrawalStatus.isCompleted creatorId := by
  have hof : ∀ x ∈ w.db.walletsOf creatorId, x.creatorId = creatorId := fun x hx => by
    simpa using (List.mem_filter.1 hx).2
  rw [Database.earned, ← Database.walletsOf]
  generalize w.db.walletsOf creatorId = xs at hof
  induction xs with
  | nil => simp
  | cons x xs ih =>
    have hx : x.creatorId = creatorId := hof x (by simp)
    have ih := ih fun y hy => hof y (List.mem_cons_of_mem x hy)
    simp only [List.map_cons, List.sum_cons, List.length_cons, ih, WithdrawalWorld.remainder, hx]
    push_cast
    ring

theorem sum_map_sub {α : Type} (f g : α → ℤ) (l : List α) :
    (l.map fun x => f x - g x).sum = (l.map f).sum - (l.map g).sum := by
  simpa using Multiset.sum_map_sub (m := (l : Multiset α)) (f := f) (g := g)

/-- The balance of a connected wallet. -/
theorem eval_balance (haddr : (w.db.wallets.map (·.walletAddress)).Nodup) {x : Wallet}
    (hx : x ∈ w.db.wallets) (ch : ℕ → WithdrawalChoice) (hch : ∀ n, (ch n).fault = .none) :
    (getWithdrawableBalance x.walletAddress).eval withdrawalMachine ch w =
      (.ok (decimalOf (w.remainder x)), fun n => ch (n + 3), w) := by
  rcases eval_getWithdrawableBalance w x.walletAddress ch hch with ⟨y, hy, hyx, he⟩ | ⟨hn, -⟩
  · obtain rfl : y = x := List.inj_on_of_nodup_map haddr hy hx hyx
    exact he
  · exact absurd rfl (hn x hx)

/-- Every wallet has its balance. -/
theorem balancesOf_eq (haddr : (w.db.wallets.map (·.walletAddress)).Nodup)
    (ch : ℕ → WithdrawalChoice) (hch : ∀ n, (ch n).fault = .none) :
    balancesOf creatorId ch w =
      ((w.db.walletsOf creatorId).map fun x => decimalOf (w.remainder x)).map .ok := by
  rw [List.map_map]
  refine List.map_congr_left fun x hx => ?_
  rw [eval_balance haddr (List.mem_filter.1 hx).1 ch hch]
  rfl

/-- The balances of the wallets of a creator add up to the credits of the wallets less the
completed withdrawals of the creator exactly when the roundings of the balances make up for
the withdrawals that all wallets but one are short of. -/
theorem balances_sum (w : WithdrawalWorld) (creatorId : String) (ch : ℕ → WithdrawalChoice)
    (haddr : (w.db.wallets.map (·.walletAddress)).Nodup) (hch : ∀ n, (ch n).fault = .none) :
    ∃ balances : List ℤ, balancesOf creatorId ch w = balances.map .ok ∧
      (balances.sum = w.db.earned creatorId -
          w.withdrawals.total WithdrawalStatus.isCompleted creatorId ↔
        ((w.db.walletsOf creatorId).map fun x => decimalOf (w.remainder x) - w.remainder x).sum =
          ((w.db.walletsOf creatorId).length - 1) *
            w.withdrawals.total WithdrawalStatus.isCompleted creatorId) ∧
      ((∀ x ∈ w.db.walletsOf creatorId, (w.remainder x).natAbs < 10 ^ 20) →
        (balances.sum = w.db.earned creatorId -
            w.withdrawals.total WithdrawalStatus.isCompleted creatorId ↔
          (w.db.walletsOf creatorId).length = 1 ∨
            w.withdrawals.total WithdrawalStatus.isCompleted creatorId = 0)) := by
  have hsum := sum_remainder w creatorId
  have hiff : ((w.db.walletsOf creatorId).map fun x => decimalOf (w.remainder x)).sum =
        w.db.earned creatorId - w.withdrawals.total WithdrawalStatus.isCompleted creatorId ↔
      ((w.db.walletsOf creatorId).map fun x => decimalOf (w.remainder x) - w.remainder x).sum =
        ((w.db.walletsOf creatorId).length - 1) *
          w.withdrawals.total WithdrawalStatus.isCompleted creatorId := by
    rw [sum_map_sub, hsum, sub_one_mul]
    constructor
    · intro h
      linarith
    · intro h
      linarith
  refine ⟨_, balancesOf_eq haddr ch hch, hiff, fun hfit => hiff.trans ?_⟩
  have hexact : ((w.db.walletsOf creatorId).map fun x =>
      decimalOf (w.remainder x) - w.remainder x).sum = 0 := by
    refine List.sum_eq_zero fun d hd => ?_
    obtain ⟨x, hx, rfl⟩ := List.mem_map.1 hd
    rw [decimalOf, roundSig_of_lt (n := precision) (by decide) (hfit x hx), sub_self]
  rw [hexact, eq_comm, mul_eq_zero, sub_eq_zero]
  exact or_congr_left Nat.cast_eq_one

/-- The creator `alice` has withdrawn the $9.50 and connected the wallets `A` and `B`. -/
def demoTwoWallets : WithdrawalWorld where
  db := { demoCredited.db with
    wallets := [⟨"alice", "A", .freighter, 0⟩, ⟨"alice", "B", .freighter, 1⟩] }
  withdrawals :=
    { rows := [⟨"1", "alice", demoEarned, "BANK", "1", .numbered 0 1, .completed, none, none, none,
        0, some 0⟩]
      ids := List.nodup_singleton _
      references := List.nodup_singleton _ }

/-- With the wallet `A` alone, the $9.50 are debited once. -/
theorem balances_sum_single :
    ∃ balances : List ℤ, balancesOf "alice" (fun _ => {}) { demoTwoWallets with
      db := demoCredited.db } = balances.map .ok ∧ balances.sum = 0 := by
  obtain ⟨balances, h, -, hiff⟩ := balances_sum { demoTwoWallets with db := demoCredited.db }
    "alice" (fun _ => {}) (by decide) (fun _ => rfl)
  exact ⟨balances, h, (hiff (by decide)).2 (Or.inl (by decide))⟩

/-- With both wallets, they are debited twice. -/
theorem balances_sum_twice :
    balancesOf "alice" (fun _ => {}) demoTwoWallets = [.ok 0, .ok (-950)] ∧
      demoTwoWallets.db.earned "alice" -
        demoTwoWallets.withdrawals.total WithdrawalStatus.isCompleted "alice" = 0 :=
  ⟨by decide, by decide⟩

end Kreav
