import Kreav.Sponsorship

/-!
# Sponsored trustlines that are relayed

A transaction relayed by `submitSponsoredTrustline` should be one that
`prepareSponsoredTrustline` builds for the creator (`Prepared`), and each of these should be
relayed.

The check reads the source, whether there is an end, and the first operation of each of two
types (`Recognized`). It does not count the operations, so that both hold exactly if what it
does not read is as it was prepared (`UnreadAsPrepared`, `relays_prepared`).
-/

open Async Prog

namespace Kreav

/-- What `prepareSponsoredTrustline` builds for a creator. -/
def Prepared (cfg : SponsorshipConfig) (creatorAddress : String) (tx : Transaction) : Prop :=
  tx.source = some cfg.platform ∧
    ∃ createsAccount, tx.operations = sponsoredOperations cfg creatorAddress createsAccount

/-- What the check reads. -/
structure Recognized (cfg : SponsorshipConfig) (creatorAddress : String) (tx : Transaction) :
    Prop where
  source : tx.source = some cfg.platform
  sponsored : tx.operations.findSome? (·.sponsoredId) = some creatorAddress
  ended : tx.operations.any (·.isEnd) = true
  trustline : tx.operations.findSome? (·.trustline) = some (cfg.usdcAsset, some creatorAddress)

/-- The number and the order of the operations, their sources but for that of the trustline,
the new account and the limit are as prepared. -/
def UnreadAsPrepared (creatorAddress : String) (tx : Transaction) : Prop :=
  ∃ sponsoredId createsAccount line source, tx.operations =
    [{ body := .beginSponsoringFutureReserves sponsoredId }] ++
      (if createsAccount = true then [{ body := .createAccount creatorAddress 0 }] else []) ++
      [{ body := .changeTrust line maxLimit, source := source },
        { body := .endSponsoringFutureReserves, source := some creatorAddress }]

/-! ## Preparing -/

/-- A transaction that is handed to the creator is prepared for it, and signed. -/
theorem prepareSponsoredTrustline_ok {cfg : SponsorshipConfig} {creatorAddress : String}
    {ch : ℕ → SponsorshipChoice} {relayed : List Transaction} {p : PreparedSponsoredTx}
    (h : ((prepareSponsoredTrustline cfg creatorAddress).eval relayMachine ch relayed).1 =
      .ok p) :
    ∃ tx, p.xdr = cfg.toXDR tx ∧ Prepared cfg creatorAddress tx ∧
      tx.signatures = [cfg.platform] := by
  obtain ⟨state, w, -, h⟩ := eval_ask_ok h
  split at h
  · cases h
  · obtain ⟨sequence, w', -, h⟩ := eval_ask_ok h
    split at h
    · cases h
    · obtain ⟨now, w'', -, h⟩ := eval_ask_ok h
      obtain rfl := Except.ok.inj h
      exact ⟨_, rfl, ⟨rfl, !state.accountExists, rfl⟩, rfl⟩

/-- Both kinds are built. -/
theorem exists_prepareSponsoredTrustline (cfg : SponsorshipConfig) {creatorAddress : String}
    (haddr : cfg.isAddress creatorAddress = true) (createsAccount : Bool) :
    ∃ ch tx, tx.operations = sponsoredOperations cfg creatorAddress createsAccount ∧
      ((prepareSponsoredTrustline cfg creatorAddress).eval relayMachine ch []).1 =
        .ok ⟨cfg.toXDR tx, cfg.networkPassphrase, createsAccount⟩ := by
  let tx := buildTransaction cfg.platform 0 (baseFee * (if createsAccount then 4 else 3)) 0
    (sponsoredOperations cfg creatorAddress createsAccount) .none
  refine ⟨fun _ => { state := ⟨false, !createsAccount⟩ },
    { tx with signatures := [cfg.platform] }, rfl, ?_⟩
  unfold prepareSponsoredTrustline
  simp only [haddr]
  cases createsAccount <;> rfl

/-! ## The check -/

theorem assertIsOurSponsoredTrustline_eq_ok {cfg : SponsorshipConfig} {tx : Transaction}
    {expectedCreator : String} :
    assertIsOurSponsoredTrustline cfg tx expectedCreator = .ok () ↔
      Recognized cfg expectedCreator tx := by
  constructor
  · intro h
    unfold assertIsOurSponsoredTrustline at h
    split at h
    · cases h
    rename_i hsource
    split at h
    · rename_i sponsoredId line source hbegin hend htrust
      split at h
      · cases h
      rename_i hid
      split at h
      · cases h
      rename_i hline
      split at h
      · cases h
      rename_i howner
      simp only [not_or, not_not] at hsource hid hline howner
      refine ⟨hsource, hid ▸ hbegin, hend, ?_⟩
      rw [htrust, Asset.eq_usdcAsset cfg hline.1 hline.2, howner]
    · cases h
  · rintro ⟨hsource, hbegin, hend, htrust⟩
    unfold assertIsOurSponsoredTrustline
    rw [if_neg (not_not.2 hsource), hbegin, hend, htrust]
    simp [SponsorshipConfig.usdcAsset, Asset.getCode, Asset.getIssuer, pure, Except.pure]

/-- The check accepts what was prepared. -/
theorem Prepared.recognized {cfg : SponsorshipConfig} {creatorAddress : String}
    {tx : Transaction} (h : Prepared cfg creatorAddress tx) :
    Recognized cfg creatorAddress tx := by
  obtain ⟨hsource, createsAccount, hops⟩ := h
  refine ⟨hsource, ?_, ?_, ?_⟩ <;> rw [hops, sponsoredOperations] <;> cases createsAccount <;> rfl

/-- What the check reads and what it does not read are all of it. -/
theorem prepared_iff {cfg : SponsorshipConfig} {creatorAddress : String} {tx : Transaction} :
    Prepared cfg creatorAddress tx ↔
      Recognized cfg creatorAddress tx ∧ UnreadAsPrepared creatorAddress tx := by
  constructor
  · intro h
    obtain ⟨createsAccount, hops⟩ := h.2
    exact ⟨h.recognized, creatorAddress, createsAccount, cfg.usdcAsset, some creatorAddress, hops⟩
  · rintro ⟨hread, sponsoredId, createsAccount, line, source, hops⟩
    refine ⟨hread.source, createsAccount, ?_⟩
    have hbegin := hread.sponsored
    have htrust := hread.trustline
    rw [hops] at hbegin htrust
    obtain rfl : sponsoredId = creatorAddress := Option.some.inj hbegin
    have hline : (line, source) = (cfg.usdcAsset, some sponsoredId) := by
      cases createsAccount <;> exact Option.some.inj htrust
    obtain ⟨rfl, rfl⟩ := Prod.mk.inj hline
    exact hops

/-! ## Relaying -/

section Attempts

variable {tx : Transaction} {attempt left : ℕ} {ch : ℕ → SponsorshipChoice}
  {relayed : List Transaction}

theorem eval_submitAttempts_ok {hash : String} (h : (ch 0).answer (ch 0).hash = .ok hash) :
    (submitAttempts tx attempt (left + 1)).eval relayMachine ch relayed =
      (.ok hash, fun n => ch (n + 1), relayed ++ [tx]) :=
  eval_submitTransaction_ok h

/-- `tx_bad_seq` is tried again after a delay. -/
theorem eval_submitAttempts_retry {err : SponsorshipError}
    (h : (ch 0).answer (ch 0).hash = .error err)
    (hretry : isBadSeqError err.caught = true ∧ attempt < 2) :
    (submitAttempts tx attempt (left + 1)).eval relayMachine ch relayed =
      (submitAttempts tx (attempt + 1) left).eval relayMachine (fun n => ch (n + 2))
        (relayed ++ [tx]) := by
  refine (eval_submitTransaction_error h).trans ?_
  rw [if_pos hretry]
  rfl

theorem eval_submitAttempts_error {err : SponsorshipError}
    (h : (ch 0).answer (ch 0).hash = .error err)
    (hretry : ¬ (isBadSeqError err.caught = true ∧ attempt < 2)) :
    (submitAttempts tx attempt (left + 1)).eval relayMachine ch relayed =
      (.error (.badRequest ("Trustline submission failed: " ++ extractHorizonError err.caught)),
        fun n => ch (n + 1), relayed ++ [tx]) := by
  refine (eval_submitTransaction_error h).trans ?_
  rw [if_neg hretry]
  rfl

end Attempts

/-- The attempts relay the same transaction, once at least. -/
theorem relayed_submitAttempts (tx : Transaction) (left : ℕ) : ∀ (attempt : ℕ)
    (ch : ℕ → SponsorshipChoice) (relayed : List Transaction), ∃ n ≤ left, (left ≠ 0 → n ≠ 0) ∧
      ((submitAttempts tx attempt left).eval relayMachine ch relayed).2.2 =
        relayed ++ List.replicate n tx := by
  induction left with
  | zero => exact fun _ _ _ => ⟨0, le_rfl, id, (List.append_nil _).symm⟩
  | succ left ih =>
    intro attempt ch relayed
    cases hanswer : (ch 0).answer (ch 0).hash with
    | ok hash =>
      refine ⟨1, by omega, fun _ => one_ne_zero, ?_⟩
      rw [eval_submitAttempts_ok hanswer]
      rfl
    | error err =>
      by_cases hretry : isBadSeqError err.caught = true ∧ attempt < 2
      · obtain ⟨n, hn, -, hrun⟩ := ih (attempt + 1) (fun n => ch (n + 2)) (relayed ++ [tx])
        refine ⟨n + 1, by omega, fun _ => n.succ_ne_zero, ?_⟩
        rw [eval_submitAttempts_retry hanswer hretry, hrun, List.replicate_succ,
          List.append_assoc, List.singleton_append]
      · refine ⟨1, by omega, fun _ => one_ne_zero, ?_⟩
        rw [eval_submitAttempts_error hanswer hretry]
        rfl

/-- A call relays the transaction exactly if the check finds what it reads, and no other. -/
theorem mem_relayedBy_submitSponsoredTrustline {cfg : SponsorshipConfig} {signedXdr : String}
    {tx : Transaction} (hparse : cfg.fromXDR signedXdr = some tx) (expectedCreator : String)
    (ch : ℕ → SponsorshipChoice) (tx' : Transaction) :
    tx' ∈ relayedBy (submitSponsoredTrustline cfg signedXdr expectedCreator) ch ↔
      tx' = tx ∧ Recognized cfg expectedCreator tx := by
  rw [← assertIsOurSponsoredTrustline_eq_ok]
  cases hcheck : assertIsOurSponsoredTrustline cfg tx expectedCreator with
  | error e =>
    have hrun : relayedBy (submitSponsoredTrustline cfg signedXdr expectedCreator) ch = [] := by
      simp only [submitSponsoredTrustline, hparse, hcheck]
      rfl
    simp [hrun]
  | ok =>
    obtain ⟨n, -, hn, hrun⟩ := relayed_submitAttempts tx 3 0 ch []
    have hn' : n ≠ 0 := hn three_ne_zero
    simp only [relayedBy, submitSponsoredTrustline, hparse, hcheck, hrun, List.nil_append,
      List.mem_replicate]
    tauto

/-- What is relayed is prepared for the creator and what is prepared is relayed, exactly if
whatever the check recognizes is as prepared where it does not read. -/
theorem relays_prepared {cfg : SponsorshipConfig} {signedXdr : String} {tx : Transaction}
    (hparse : cfg.fromXDR signedXdr = some tx) (creatorAddress : String)
    (ch : ℕ → SponsorshipChoice) :
    ((∀ tx' ∈ relayedBy (submitSponsoredTrustline cfg signedXdr creatorAddress) ch,
        Prepared cfg creatorAddress tx') ∧
      (Prepared cfg creatorAddress tx →
        tx ∈ relayedBy (submitSponsoredTrustline cfg signedXdr creatorAddress) ch)) ↔
      (Recognized cfg creatorAddress tx → UnreadAsPrepared creatorAddress tx) := by
  simp only [mem_relayedBy_submitSponsoredTrustline hparse creatorAddress ch]
  constructor
  · rintro ⟨honly, -⟩ hread
    exact (prepared_iff.1 (honly tx ⟨rfl, hread⟩)).2
  · intro hunread
    refine ⟨?_, fun h => ⟨trivial, h.recognized⟩⟩
    rintro tx' ⟨rfl, hread⟩
    exact prepared_iff.2 ⟨hread, hunread hread⟩

/-- The transaction as it is prepared for a new account, before it is signed. -/
def demoPreparedTx : Transaction where
  source := some "GAAQCAIBAEAQCAIBAEAQCAIBAEAQCAIBAEAQCAIBAEAQCAIBAEAQDZ7H"
  sequence := 42
  fee := 1600
  operations :=
    [{ body := .beginSponsoringFutureReserves demoCreator },
      { body := .createAccount demoCreator 0 },
      { body := .changeTrust demoUsdc maxLimit, source := some demoCreator },
      { body := .endSponsoringFutureReserves, source := some demoCreator }]
  memo := .none
  maxTime := 1700000300
  signatures := []

/-- A transaction that `prepare` returns. -/
def demoPreparedXdr : String :=
  "AAAAAgAAAAABAQEBAQEBAQEBAQEBAQEBAQEBAQEBAQEBAQEBAQEBAQAABkAAAAAAAAAAKgAAAAEAAAAA" ++
  "AAAAAAAAAABlU/IsAAAAAAAAAAQAAAAAAAAAEAAAAAACAgICAgICAgICAgICAgICAgICAgICAgICAgIC" ++
  "AgICAgAAAAAAAAAAAAAAAAICAgICAgICAgICAgICAgICAgICAgICAgICAgICAgICAAAAAAAAAAAAAAAB" ++
  "AAAAAAICAgICAgICAgICAgICAgICAgICAgICAgICAgICAgICAAAABgAAAAFVU0RDAAAAAEI+fQXy7K+/" ++
  "7BkrIVo/G+lq7bjY5wJUq+NBPgIH3layf/////////8AAAABAAAAAAICAgICAgICAgICAgICAgICAgIC" ++
  "AgICAgICAgICAgICAAAAEQAAAAAAAAAA"

theorem relays_prepared_new :
    demoPreparedTx ∈ relayedBy (submitSponsoredTrustline
      (demoSponsorship demoPreparedXdr demoPreparedTx) demoPreparedXdr demoCreator)
      fun _ => {} :=
  ((relays_prepared (demoSponsorship_fromXDR demoPreparedXdr demoPreparedTx) demoCreator
    fun _ => {}).2 fun _ => ⟨demoCreator, true, _, _, rfl⟩).2 ⟨rfl, true, rfl⟩

/-- A prepared transaction of an existing account, with a payment of the platform after it. -/
def demoExtendedTx : Transaction where
  source := some "GAAQCAIBAEAQCAIBAEAQCAIBAEAQCAIBAEAQCAIBAEAQCAIBAEAQDZ7H"
  sequence := 42
  fee := 1200
  operations :=
    [{ body := .beginSponsoringFutureReserves demoCreator },
      { body := .changeTrust demoUsdc maxLimit, source := some demoCreator },
      { body := .endSponsoringFutureReserves, source := some demoCreator },
      { body := .payment "GABQGAYDAMBQGAYDAMBQGAYDAMBQGAYDAMBQGAYDAMBQGAYDAMBQHGPC" demoUsdc
          10000000 }]
  memo := .none
  maxTime := 1700000300
  signatures := []

/-- The same with one more operation, a payment. -/
def demoExtendedXdr : String :=
  "AAAAAgAAAAABAQEBAQEBAQEBAQEBAQEBAQEBAQEBAQEBAQEBAQEBAQAABLAAAAAAAAAAKgAAAAEAAAAA" ++
  "AAAAAAAAAABlU/IsAAAAAAAAAAQAAAAAAAAAEAAAAAACAgICAgICAgICAgICAgICAgICAgICAgICAgIC" ++
  "AgICAgAAAAEAAAAAAgICAgICAgICAgICAgICAgICAgICAgICAgICAgICAgIAAAAGAAAAAVVTREMAAAAA" ++
  "Qj59BfLsr7/sGSshWj8b6WrtuNjnAlSr40E+AgfeVrJ//////////wAAAAEAAAAAAgICAgICAgICAgIC" ++
  "AgICAgICAgICAgICAgICAgICAgIAAAARAAAAAAAAAAEAAAAAAwMDAwMDAwMDAwMDAwMDAwMDAwMDAwMD" ++
  "AwMDAwMDAwMAAAABVVNEQwAAAABCPn0F8uyvv+wZKyFaPxvpau242OcCVKvjQT4CB95WsgAAAAAAmJaA" ++
  "AAAAAAAAAAA="

theorem relays_extended :
    ∃ tx ∈ relayedBy (submitSponsoredTrustline
        (demoSponsorship demoExtendedXdr demoExtendedTx) demoExtendedXdr demoCreator)
        fun _ => {},
      ¬ Prepared (demoSponsorship demoExtendedXdr demoExtendedTx) demoCreator tx := by
  have hread : Recognized (demoSponsorship demoExtendedXdr demoExtendedTx) demoCreator
      demoExtendedTx := ⟨rfl, rfl, rfl, rfl⟩
  refine ⟨demoExtendedTx, (mem_relayedBy_submitSponsoredTrustline
    (demoSponsorship_fromXDR demoExtendedXdr demoExtendedTx) _ _ _).2 ⟨rfl, hread⟩, ?_⟩
  rintro ⟨-, createsAccount, hops⟩
  cases createsAccount <;> cases hops

end Kreav
