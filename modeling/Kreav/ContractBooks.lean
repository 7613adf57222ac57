import Kreav.ContractRuns
import Kreav.Lib.Journal

/-!
# The books of the contract

Each settlement that returned `Ok` is an entry of a journal : the transfers from the platform
wallet to its recipients. A refused call and a query are none. The balances of the token after
a run are those before it and what the journal posts (`contract_books`), for every account, and
the entries are balanced and take from the platform wallet alone. So it does not matter in
which order the same settlements were made, and what else was tried (`settlements_commute`).
-/

set_option linter.unusedSectionVars false

open CheckedInt TokenLedger

namespace Kreav

variable {A : Type} [DecidableEq A]

/-! ## The entry of a settlement -/

/-- The transfers of a settlement. -/
noncomputable def payoutsEntry (platformWallet : A) (pairs : List (Recipient A × I128)) : A →₀ ℤ :=
  (pairs.map fun p => Journal.moved platformWallet p.1.address p.2.val).sum

/-- The entry of a `settle` that returned `Ok`. -/
noncomputable def SettleCall.entry (platformWallet : A) (c : SettleCall A) : A →₀ ℤ :=
  match feeAndPool c.totalAmount with
  | .error _ => 0
  | .ok (_, creatorPool) =>
    match calculateCreatorAmounts c.recipients creatorPool with
    | none => 0
    | some amounts => payoutsEntry platformWallet (c.recipients.zip amounts)

variable {w u : A} {pairs : List (Recipient A × I128)}

theorem payoutsEntry_apply (w : A) (pairs : List (Recipient A × I128)) (x : A) :
    payoutsEntry w pairs x = allotted x pairs - if x = w then allottedSum pairs else 0 := by
  induction pairs with
  | nil => simp [payoutsEntry, allotted, allottedSum]
  | cons p pairs ih =>
    have hcons : payoutsEntry w (p :: pairs) =
        Journal.moved w p.1.address p.2.val + payoutsEntry w pairs := by
      simp [payoutsEntry]
    rw [hcons, Finsupp.add_apply, ih, Journal.moved_apply]
    simp only [allotted, allottedSum, List.map_cons, List.sum_cons, eq_comm (a := x)]
    split <;> split <;> omega

theorem balanced_payoutsEntry (w : A) (pairs : List (Recipient A × I128)) :
    Journal.Balanced (payoutsEntry w pairs) := by
  refine Journal.balanced_sum fun e he => ?_
  obtain ⟨p, -, rfl⟩ := List.mem_map.1 he
  exact Journal.balanced_moved _ _ _

/-- Amounts that are not negative are taken from the platform wallet alone. -/
theorem payoutsEntry_nonneg (h : ∀ p ∈ pairs, 0 ≤ p.2.val) {x : A} (hx : x ≠ w) :
    0 ≤ payoutsEntry w pairs x := by
  refine Journal.posted_nonneg fun e he => ?_
  obtain ⟨p, hp, rfl⟩ := List.mem_map.1 he
  rw [Journal.moved_apply, if_neg hx, sub_zero]
  split
  · exact h p hp
  · exact le_refl 0

theorem Split.entry_eq {total : I128} {rs : List (Recipient A)} (split : Split total rs)
    (ref : String) (w : A) :
    SettleCall.entry w ⟨ref, total, rs⟩ = payoutsEntry w (rs.zip split.amounts) := by
  simp only [SettleCall.entry, split.fee_eq, split.amounts_eq]

theorem balanced_entry (w : A) (c : SettleCall A) : Journal.Balanced (c.entry w) := by
  unfold SettleCall.entry
  split
  · exact map_zero Journal.total
  split
  · exact map_zero Journal.total
  · exact balanced_payoutsEntry w _

section Settles

variable {auth : A → Bool} {ref : String} {total : I128} {rs : List (Recipient A)}
  {s s' : ContractState A} {split : Split total rs}

/-- A settlement posts its entry to the token. -/
theorem Settles.posted (h : Settles auth ref total rs s s' w u split) (x : A) :
    (s'.ledger u).balance x =
      (s.ledger u).balance x + SettleCall.entry w ⟨ref, total, rs⟩ x := by
  rw [h.balance x, split.entry_eq, payoutsEntry_apply, split.allottedSum_eq h.valid]
  omega

theorem Settles.entry_nonneg (h : Settles auth ref total rs s s' w u split) {x : A}
    (hx : x ≠ w) : 0 ≤ SettleCall.entry w ⟨ref, total, rs⟩ x := by
  rw [split.entry_eq]
  exact payoutsEntry_nonneg (split.nonneg h.valid h.pos) hx

end Settles

/-! ## Runs -/

/-- The entries of the settlements. -/
noncomputable def journal (platformWallet : A) (done : List (SettleCall A)) : List (A →₀ ℤ) :=
  done.map (·.entry platformWallet)

/-- The books of a state : the configured token stands where the journal of the settlements
puts it, and no entry takes from another account than the wallet. -/
structure Books (ledger : A → Ledger A) (done : List (SettleCall A)) (s : ContractState A) :
    Prop where
  run : RunInv ledger done s
  posted : ∀ w u, s.platformWallet = some w → s.usdcSac = some u → ∀ x,
    (s.ledger u).balance x = (ledger u).balance x + (journal w done).sum x
  credits : ∀ w, s.platformWallet = some w → ∀ c ∈ done, ∀ x, x ≠ w → 0 ≤ c.entry w x

theorem books_deployed (ledger : A → Ledger A) : Books ledger [] (deployed ledger) :=
  ⟨runInv_deployed ledger, by simp [deployed], by simp [deployed]⟩

variable {sac : Sac A} {ledger : A → Ledger A} {done : List (SettleCall A)}
  {s : ContractState A}

/-- Every invocation keeps the books. -/
theorem Books.invoke (h : Books ledger done s) (i : Invocation A) :
    Books ledger (done ++ okSettle i (invoke sac i s).1) (invoke sac i s).2 := by
  have hrun : RunInv ledger (done ++ okSettle i (Kreav.invoke sac i s).1)
      (Kreav.invoke sac i s).2 :=
    h.run.invoke i
  rcases invoke_cases sac i s with ⟨hne, hs⟩ | ⟨auth, w, u, rfl, -, hw, hs⟩ |
    ⟨auth, ref, total, rs, w, u, split, rfl, ho, hs⟩
  · rw [okSettle_of_ne hne, List.append_nil, hs]
    exact h
  · obtain ⟨rfl, hl⟩ := h.run.unconfigured hw
    refine ⟨hrun, fun w' u' _ _ x => ?_, fun w' _ c hc => ?_⟩
    · rw [hs]
      simp [okSettle, hl, journal]
    · simp [okSettle] at hc
  · refine ⟨hrun, fun w' u' hw' hu' x => ?_, fun w' hw' c hc x hx => ?_⟩
    · obtain rfl : w = w' := Option.some.inj (hs.wallet_eq'.symm.trans hw')
      obtain rfl : u = u' := Option.some.inj (hs.sac_eq'.symm.trans hu')
      rw [hs.posted x, h.posted w u hs.wallet_eq hs.sac_eq x, ho]
      simp only [okSettle, journal, List.map_append, List.sum_append, List.map_singleton,
        List.sum_singleton, Finsupp.add_apply, add_assoc]
    · obtain rfl : w = w' := Option.some.inj (hs.wallet_eq'.symm.trans hw')
      rw [ho] at hc
      rcases List.mem_append.1 hc with hc | hc
      · exact h.credits w hs.wallet_eq c hc x hx
      · rw [List.mem_singleton.1 hc]
        exact hs.entry_nonneg hx

theorem Books.runAll : ∀ (is : List (Sac A × Invocation A)) {done : List (SettleCall A)}
    {s : ContractState A}, Books ledger done s →
      Books ledger (done ++ settledCalls is s) (Kreav.runAll is s)
  | [], done, s, h => by simpa [settledCalls, Kreav.runAll] using h
  | (sac, i) :: is, done, s, h => by
    rw [settledCalls, ← List.append_assoc, Kreav.runAll]
    exact Books.runAll is (h.invoke i)

theorem books_runAll (ledger : A → Ledger A) (is : List (Sac A × Invocation A)) :
    Books ledger (settledCalls is (deployed ledger)) (Kreav.runAll is (deployed ledger)) := by
  have h := (books_deployed ledger).runAll is
  rwa [List.nil_append] at h

/-- Every run of the deployed contract, with the calls of anybody and any answers of the token
contracts : each account holds what it held before and what the settlements that returned `Ok`
post to it. Each of them is balanced, and gives to everybody but the platform wallet. -/
theorem contract_books (ledger : A → Ledger A) (is : List (Sac A × Invocation A)) (w u : A)
    (hw : (Kreav.runAll is (deployed ledger)).platformWallet = some w)
    (hu : (Kreav.runAll is (deployed ledger)).usdcSac = some u) :
    (∀ x, ((Kreav.runAll is (deployed ledger)).ledger u).balance x = (ledger u).balance x +
      (journal w (settledCalls is (deployed ledger))).sum x) ∧
    (∀ e ∈ journal w (settledCalls is (deployed ledger)), Journal.Balanced e) ∧
    ∀ x, x ≠ w →
      (ledger u).balance x ≤ ((Kreav.runAll is (deployed ledger)).ledger u).balance x := by
  have h := books_runAll ledger is
  refine ⟨h.posted w u hw hu, fun e he => ?_, fun x hx => ?_⟩
  · obtain ⟨c, -, rfl⟩ := List.mem_map.1 he
    exact balanced_entry w c
  · rw [h.posted w u hw hu x]
    refine le_add_of_nonneg_right (Journal.posted_nonneg fun e he => ?_)
    obtain ⟨c, hc, rfl⟩ := List.mem_map.1 he
    exact h.credits w hw c hc x hx

/-- The calls of the platform wallet `w`, which holds 1000 units of the token `u` : it
configures the contract and settles an order of 102 units under each reference. -/
def settleInTurn (refs : List String) : List (Sac String × Invocation String) :=
  (.initializeContract (· = "w") "w" "u" :: refs.map fun ref =>
    .settle (· = "w") ref (i128 102) [⟨"a", i128 2500⟩, ⟨"b", i128 7500⟩]).map
      fun i => (⟨fun _ l p _ n => n ≤ l.balance p⟩, i)

theorem contract_books_pair :
    (Ledger.single "w" 1000).balance "a" ≤
      ((Kreav.runAll (settleInTurn ["o", "p", "o"])
        (deployed fun _ => Ledger.single "w" 1000)).ledger "u").balance "a" :=
  (contract_books (fun _ => Ledger.single "w" 1000) (settleInTurn ["o", "p", "o"]) "w" "u"
    (by decide) (by decide)).2.2 "a" (by decide)

/-- Two runs of contracts deployed over the same balances and with the same configuration, in
which the same settlements returned `Ok` in any order, whatever else was tried : they leave the
same balances and the same markers. -/
theorem settlements_commute (ledger : A → Ledger A) (is is' : List (Sac A × Invocation A))
    (w u : A) (hw : (Kreav.runAll is (deployed ledger)).platformWallet = some w)
    (hu : (Kreav.runAll is (deployed ledger)).usdcSac = some u)
    (hw' : (Kreav.runAll is' (deployed ledger)).platformWallet = some w)
    (hu' : (Kreav.runAll is' (deployed ledger)).usdcSac = some u)
    (hperm : (settledCalls is (deployed ledger)).Perm (settledCalls is' (deployed ledger))) :
    (∀ x, ((Kreav.runAll is (deployed ledger)).ledger u).balance x =
      ((Kreav.runAll is' (deployed ledger)).ledger u).balance x) ∧
    (Kreav.runAll is (deployed ledger)).settlement =
      (Kreav.runAll is' (deployed ledger)).settlement := by
  have h := books_runAll ledger is
  have h' := books_runAll ledger is'
  refine ⟨fun x => ?_, ?_⟩
  · have hsum := Journal.posted_perm (hperm.map (·.entry w))
    rw [h.posted w u hw hu x, h'.posted w u hw' hu' x, journal, journal, hsum]
  · ext ref
    rw [h.run.marker ref, h'.run.marker ref, (hperm.map (·.orderRef)).mem_iff]

/-- The orders `o` and `p` in either order, once with a second try of the first. -/
theorem settlements_commute_pair :
    ((Kreav.runAll (settleInTurn ["o", "p"])
        (deployed fun _ => Ledger.single "w" 1000)).ledger "u").balance "a" =
      ((Kreav.runAll (settleInTurn ["p", "p", "o"])
        (deployed fun _ => Ledger.single "w" 1000)).ledger "u").balance "a" :=
  (settlements_commute (fun _ => Ledger.single "w" 1000) (settleInTurn ["o", "p"])
    (settleInTurn ["p", "p", "o"]) "w" "u" (by decide) (by decide) (by decide) (by decide)
    (List.Perm.swap _ _ [])).1 "a"

end Kreav
