import Kreav.Sponsorship
import Kreav.WithdrawalSteps

/-!
# Payments to the anchor that are relayed

The endpoints `buildPayment` and `submitPayment` with the sponsorship service behind them. A
creator's wallet signs the payment in between, and hands any transaction back.

What `submitPayment` relays and records should be the payment that `buildPayment` prescribes
for the anchor's transaction (`Prescribed`). The check reads the source of the transaction and
the number, the type and the asset of its operations (`IsUsdcPayment`), so that this holds
exactly if the rest of what passes is as prescribed (`RestPrescribed`, `submits_prescribed`).
-/

open Async Prog

namespace Kreav

/-! ## The endpoints with the service -/

/-- The world of the endpoints, and the transactions relayed to Horizon. -/
structure PaymentWorld where
  base : WithdrawalWorld
  relayed : List Transaction

/-- The outcome of a request, and the answers of Horizon when it calls the service. -/
structure PaymentChoice where
  choice : WithdrawalChoice := {}
  horizon : ℕ → SponsorshipChoice := fun _ => {}

/-- To the endpoint every exception of the service is one. -/
def ofService {α : Type} : Except SponsorshipError α → Except WithdrawalError α
  | .ok a => .ok a
  | .error _ => .error .remote

/-- The requests of the endpoints. `submitWithdrawPayment` runs the method of the service. -/
def paymentExec (cfg : SponsorshipConfig) : (r : WithdrawalRequest) → PaymentChoice →
    PaymentWorld → Except WithdrawalError r.Ans × PaymentWorld
  | .submitWithdrawPayment signedXdr expectedFrom, c, w =>
    let result := (submitWithdrawPayment cfg signedXdr expectedFrom).eval relayMachine c.horizon
      w.relayed
    (ofService result.1, { w with relayed := result.2.2 })
  | r, c, w =>
    ((withdrawalExec r c.choice w.base).1, { w with base := (withdrawalExec r c.choice w.base).2 })

/-- The endpoints with the network that they send payments to. -/
def paymentMachine (cfg : SponsorshipConfig) :
    Machine withdrawals PaymentWorld PaymentChoice WithdrawalEnv where
  exec := paymentExec cfg
  log e _ := nomatch e
  env e w := { w with base := withdrawalMachine.env e w.base }

/-- To the rows an answer is one that the service behind a request may give. -/
theorem exists_withdrawalExec (cfg : SponsorshipConfig) (r : WithdrawalRequest)
    (c : PaymentChoice) (w : PaymentWorld) : ∃ c', withdrawalMachine.exec r c' w.base =
      (((paymentMachine cfg).exec r c w).1, ((paymentMachine cfg).exec r c w).2.base) := by
  cases r with
  | submitWithdrawPayment signedXdr expectedFrom =>
    cases h : ((submitWithdrawPayment cfg signedXdr expectedFrom).eval relayMachine c.horizon
      w.relayed).1 with
    | ok hash =>
      refine ⟨{ uuid := hash }, Prod.ext ?_ rfl⟩
      show Except.ok hash = ofService _
      rw [h]
      rfl
    | error e =>
      refine ⟨{ fault := .lost }, Prod.ext ?_ rfl⟩
      show Except.error WithdrawalError.remote = ofService _
      rw [h]
      rfl
  | _ => exact ⟨c.choice, rfl⟩

/-- The anchor has not said yet where the payment goes. -/
def anchorNotReady : WithdrawalError :=
  .forbidden ("Anchor is not ready for the transfer yet (no destination/amount) — poll until " ++
    "pending_user_transfer_start.")

/-- Build the unsigned payment to the anchor : what the endpoint has the service do. -/
def buildPayment (cfg : WithdrawalConfig) (sponsorship : SponsorshipConfig) (userId id : String)
    (token : Option String) : WithdrawalMethod (SponsorshipMethod WithdrawPayment) := do
  assertEnabled cfg
  let anchorToken ← requireToken token
  let address ← getAddressForCreator userId
  let tx ← awaitW (.getTransaction anchorToken id)
  match tx.withdrawAnchorAccount, tx.amountIn with
  | some toAddress, some amount =>
    if toAddress = "" then throw anchorNotReady
    else
      return buildWithdrawPayment sponsorship address toAddress amount
        tx.withdrawMemo tx.withdrawMemoType
  | _, _ => throw anchorNotReady

/-! ## The law -/

/-- The payment that `buildPayment` prescribes for a transaction of the anchor. The account
that is debited is the operation's own source, or that of the transaction. -/
def Prescribed (cfg : SponsorshipConfig) (anchor : AnchorTransaction) (address : String)
    (tx : Transaction) : Prop :=
  ∃ op toAddress text amount, tx.operations = [op] ∧
    op.source.or tx.source = some address ∧
    op.body = .payment toAddress cfg.usdcAsset amount ∧
    anchor.withdrawAnchorAccount = some toAddress ∧
    anchor.amountIn = some text ∧ paymentAmount text = some amount ∧
    withdrawMemo cfg anchor.withdrawMemo anchor.withdrawMemoType = some tx.memo

/-- What the check reads. -/
def IsUsdcPayment (cfg : SponsorshipConfig) (address : String) (tx : Transaction) : Prop :=
  tx.source = some address ∧ tx.operations.length = 1 ∧
    tx.operations.findSome? (·.paymentAsset) = some cfg.usdcAsset

/-- The source of the operation, the destination, the amount and the memo are as prescribed. -/
structure RestPrescribed (cfg : SponsorshipConfig) (anchor : AnchorTransaction)
    (address : String) (tx : Transaction) : Prop where
  source : ∀ op ∈ tx.operations, op.source = none ∨ op.source = some address
  payment : ∀ op ∈ tx.operations, ∀ toAddress asset amount,
    op.body = .payment toAddress asset amount → anchor.withdrawAnchorAccount = some toAddress ∧
      anchor.amountIn.bind paymentAmount = some amount
  memo : withdrawMemo cfg anchor.withdrawMemo anchor.withdrawMemoType = some tx.memo

/-- What the check reads and the rest are all of it. -/
theorem prescribed_iff {cfg : SponsorshipConfig} {anchor : AnchorTransaction} {address : String}
    {tx : Transaction} (hread : IsUsdcPayment cfg address tx) :
    Prescribed cfg anchor address tx ↔ RestPrescribed cfg anchor address tx := by
  obtain ⟨hsource, hlength, hasset⟩ := hread
  obtain ⟨op, hops⟩ := List.length_eq_one_iff.1 hlength
  have hdebited : op.source.or tx.source = some address ↔
      op.source = none ∨ op.source = some address := by
    cases op.source <;> simp [hsource]
  constructor
  · rintro ⟨op', toAddress, text, amount, hops', hop, hbody, hto, htext, hamount, hmemo⟩
    obtain rfl : op = op' := (List.cons.inj (hops.symm.trans hops')).1
    refine ⟨?_, ?_, hmemo⟩
    · rw [hops, List.forall_mem_singleton]
      exact hdebited.1 hop
    · rw [hops, List.forall_mem_singleton]
      intro toAddress' asset amount' hbody'
      obtain ⟨rfl, -, rfl⟩ := OperationBody.payment.inj (hbody.symm.trans hbody')
      exact ⟨hto, by rw [htext, Option.bind_some, hamount]⟩
  · rintro ⟨hown, hpays, hmemo⟩
    rw [hops, List.forall_mem_singleton] at hown hpays
    obtain ⟨toAddress, amount, hbody⟩ :
        ∃ toAddress amount, op.body = .payment toAddress cfg.usdcAsset amount := by
      rw [hops] at hasset
      obtain ⟨source, body⟩ := op
      cases body with
      | payment toAddress asset amount =>
        obtain rfl : asset = cfg.usdcAsset := Option.some.inj hasset
        exact ⟨toAddress, amount, rfl⟩
      | _ => cases hasset
    obtain ⟨hto, hamount⟩ := hpays _ _ _ hbody
    obtain ⟨text, htext, hamount⟩ := Option.bind_eq_some_iff.1 hamount
    exact ⟨op, toAddress, text, amount, hops, hdebited.2 hown, hbody, hto, htext, hamount, hmemo⟩

/-! ## The steps of the endpoints -/

section Steps

variable {cfg : SponsorshipConfig} {wcfg : WithdrawalConfig} {ch : ℕ → PaymentChoice}
  {w : PaymentWorld}

/-- The wallet that the database answers with. -/
def walletAnswer (userId : String) (c : PaymentChoice) (w : PaymentWorld) :
    Except WithdrawalError (Option String) :=
  (withdrawalExec (.walletOf userId) c.choice w.base).1

/-- It is the address of a wallet of the creator. -/
theorem mem_wallets_of_walletAnswer {userId address : String} {c : PaymentChoice}
    (h : walletAnswer userId c w = .ok (some address)) :
    ∃ wallet ∈ w.base.db.wallets, wallet.creatorId = userId ∧ wallet.walletAddress = address := by
  have hexec : withdrawalExec (.walletOf userId) c.choice w.base =
      (.ok (some address), (withdrawalExec (.walletOf userId) c.choice w.base).2) := Prod.ext h rfl
  have heffect := congrArg Prod.fst (withdrawalEffect_of_ok hexec)
  obtain ⟨wallet, hhead, rfl⟩ := Option.map_eq_some_iff.1 (Except.ok.inj heffect)
  have hmem := (reorder_perm _ _).mem_iff.1 (List.mem_of_mem_head? hhead)
  obtain ⟨hmem, hcreator⟩ := List.mem_filter.1 hmem
  exact ⟨wallet, hmem, of_decide_eq_true hcreator, rfl⟩

theorem walletOf_exec (userId : String) (c : PaymentChoice) (w : PaymentWorld) :
    (paymentMachine cfg).exec (.walletOf userId) c w = (walletAnswer userId c w, w) :=
  Prod.ext rfl (congrArg (fun base => { w with base }) (withdrawalExec_query rfl _ _))

theorem eval_assertEnabled (henabled : wcfg.anchorEnabled = true) :
    (assertEnabled wcfg).eval (paymentMachine cfg) ch w = (.ok (), ch, w) := by
  rw [assertEnabled, if_pos henabled]
  rfl

theorem eval_getAddressForCreator {userId address : String}
    (haddress : walletAnswer userId (ch 0) w = .ok (some address)) :
    (getAddressForCreator userId).eval (paymentMachine cfg) ch w =
      (.ok address, fun n => ch (n + 1), w) :=
  (eval_ask _ ((walletOf_exec userId (ch 0) w).trans (congrArg (·, w) haddress))).trans rfl

theorem eval_assertEnabled_error (hdisabled : ¬ wcfg.anchorEnabled = true) :
    ∃ e, (assertEnabled wcfg).eval (paymentMachine cfg) ch w = (.error e, ch, w) := by
  rw [assertEnabled, if_neg hdisabled]
  exact ⟨_, rfl⟩

theorem eval_assertEnabled_ok {ch' : ℕ → PaymentChoice} {w' : PaymentWorld} {u : Unit}
    (h : (assertEnabled wcfg).eval (paymentMachine cfg) ch w = (.ok u, ch', w')) :
    wcfg.anchorEnabled = true ∧ ch = ch' ∧ w = w' := by
  by_cases henabled : wcfg.anchorEnabled = true
  · rw [eval_assertEnabled henabled] at h
    simp only [Prod.mk.injEq] at h
    exact ⟨henabled, h.2⟩
  · obtain ⟨e, herror⟩ : ∃ e, (assertEnabled wcfg).eval (paymentMachine cfg) ch w =
        (.error e, ch, w) := eval_assertEnabled_error henabled
    cases congrArg Prod.fst (herror.symm.trans h)

theorem eval_requireToken_ok {token : Option String} {anchorToken : String}
    {ch' : ℕ → PaymentChoice} {w' : PaymentWorld}
    (h : (requireToken token).eval (paymentMachine cfg) ch w = (.ok anchorToken, ch', w')) :
    token = some anchorToken ∧ ch = ch' ∧ w = w' := by
  unfold requireToken at h
  split at h
  · cases congrArg Prod.fst h
  · split at h
    · cases congrArg Prod.fst h
    · cases h
      exact ⟨rfl, rfl, rfl⟩

/-- Without an answer there is no address. -/
theorem eval_getAddressForCreator_error {userId : String}
    (hnone : ∀ address, walletAnswer userId (ch 0) w ≠ .ok (some address)) :
    ∃ e ch', (getAddressForCreator userId).eval (paymentMachine cfg) ch w =
      (.error e, ch', w) := by
  cases h : walletAnswer userId (ch 0) w with
  | error e =>
    exact ⟨e, _, eval_ask_error _ ((walletOf_exec userId (ch 0) w).trans (congrArg (·, w) h))⟩
  | ok address =>
    cases address with
    | none =>
      exact ⟨_, _, (eval_ask _ ((walletOf_exec userId (ch 0) w).trans
        (congrArg (·, w) h))).trans rfl⟩
    | some address => exact absurd h (hnone address)

end Steps

/-! ## Building -/

section Building

variable {cfg : SponsorshipConfig} {anchor : AnchorTransaction} {address toAddress : String}
  {amount : DecimalText}

/-- A payment that is built for a transaction of the anchor is the prescribed one, and its
source is the wallet. -/
theorem buildWithdrawPayment_ok {ch : ℕ → SponsorshipChoice} {relayed : List Transaction}
    {p : WithdrawPayment} (hto : anchor.withdrawAnchorAccount = some toAddress)
    (hamount : anchor.amountIn = some amount)
    (h : ((buildWithdrawPayment cfg address toAddress amount anchor.withdrawMemo
      anchor.withdrawMemoType).eval relayMachine ch relayed).1 = .ok p) :
    ∃ tx, p.xdr = cfg.toXDR tx ∧ Prescribed cfg anchor address tx ∧
      IsUsdcPayment cfg address tx := by
  obtain ⟨sequence, w, -, h⟩ := eval_ask_ok h
  split at h
  · cases h
  rename_i units hunits
  split at h
  · cases h
  split at h
  · cases h
  rename_i memo hmemo
  obtain ⟨now, w', -, h⟩ := eval_ask_ok h
  obtain rfl := Except.ok.inj h
  exact ⟨_, rfl, ⟨_, toAddress, amount, units, rfl, rfl, rfl, hto, hamount, hunits, hmemo⟩, rfl,
    rfl, rfl⟩

/-- What `buildPayment` has the service build is the payment that the answer of the anchor
prescribes. -/
theorem buildPayment_ok {wcfg : WithdrawalConfig} {userId id : String} {token : Option String}
    {ch : ℕ → PaymentChoice} {w : PaymentWorld} {p : SponsorshipMethod WithdrawPayment}
    (h : ((buildPayment wcfg cfg userId id token).eval (paymentMachine cfg) ch w).1 = .ok p) :
    ∃ address, walletAnswer userId (ch 0) w = .ok (some address) ∧
      ∃ (anchor : AnchorTransaction) (toAddress : String) (amount : DecimalText),
        anchor.withdrawAnchorAccount = some toAddress ∧ anchor.amountIn = some amount ∧
        p = buildWithdrawPayment cfg address toAddress amount anchor.withdrawMemo
          anchor.withdrawMemoType := by
  obtain ⟨_, ch', w', henabled, hrest⟩ := eval_bind_returns h
  obtain ⟨-, rfl, rfl⟩ := eval_assertEnabled_ok henabled
  obtain ⟨anchorToken, ch', w', htoken, hrest⟩ := eval_bind_returns hrest
  obtain ⟨-, rfl, rfl⟩ := eval_requireToken_ok htoken
  obtain ⟨address, ch', w', haddress, hrest⟩ := eval_bind_returns hrest
  refine ⟨address, ?_, ?_⟩
  · by_cases hwallet : ∃ address, walletAnswer userId (ch 0) w = .ok (some address)
    · obtain ⟨address', hwallet⟩ := hwallet
      rw [eval_getAddressForCreator hwallet] at haddress
      rw [hwallet, Except.ok.inj (congrArg Prod.fst haddress)]
    · obtain ⟨e, ch'', herror⟩ := eval_getAddressForCreator_error (not_exists.1 hwallet)
      rw [herror] at haddress
      cases congrArg Prod.fst haddress
  · obtain ⟨anchor, w'', -, hrest⟩ := eval_ask_ok hrest
    split at hrest
    · rename_i toAddress amount hto hamount
      split at hrest
      · cases hrest
      · exact ⟨anchor, toAddress, amount, hto, hamount, (Except.ok.inj hrest).symm⟩
    · cases hrest

end Building

/-! ## Submitting -/

theorem checkWithdrawPayment_eq_ok {cfg : SponsorshipConfig} {tx : Transaction}
    {expectedFrom : String} :
    checkWithdrawPayment cfg tx expectedFrom = .ok () ↔ IsUsdcPayment cfg expectedFrom tx := by
  constructor
  · intro h
    unfold checkWithdrawPayment at h
    split at h
    · cases h
    rename_i hsource
    split at h
    · rename_i asset hlength hasset
      split at h
      · cases h
      rename_i husdc
      simp only [not_or, not_not] at hsource husdc
      have husdc' := Asset.eq_usdcAsset cfg husdc.1 husdc.2
      exact ⟨hsource, hlength, hasset.trans (congrArg some husdc')⟩
    · cases h
  · rintro ⟨hsource, hlength, hasset⟩
    unfold checkWithdrawPayment
    rw [if_neg (not_not.2 hsource), hlength, hasset]
    simp [SponsorshipConfig.usdcAsset, Asset.getCode, Asset.getIssuer, pure, Except.pure]

section Submitting

variable {cfg : SponsorshipConfig} {signedXdr address : String} {tx : Transaction}

/-- What is not such a payment is not relayed. -/
theorem eval_submitWithdrawPayment_error (hparse : cfg.fromXDR signedXdr = some tx)
    (hread : ¬ IsUsdcPayment cfg address tx) (ch : ℕ → SponsorshipChoice)
    (relayed : List Transaction) :
    ∃ e, (submitWithdrawPayment cfg signedXdr address).eval relayMachine ch relayed =
      (.error e, ch, relayed) := by
  cases hcheck : checkWithdrawPayment cfg tx address with
  | ok => exact absurd (checkWithdrawPayment_eq_ok.1 hcheck) hread
  | error e =>
    refine ⟨e, ?_⟩
    simp only [submitWithdrawPayment, hparse, hcheck]
    rfl

theorem eval_submitWithdrawPayment_ok (hparse : cfg.fromXDR signedXdr = some tx)
    (hread : IsUsdcPayment cfg address tx) {ch : ℕ → SponsorshipChoice}
    (relayed : List Transaction) {hash : String}
    (hanswer : (ch 0).answer (ch 0).hash = .ok hash) :
    (submitWithdrawPayment cfg signedXdr address).eval relayMachine ch relayed =
      (.ok hash, fun n => ch (n + 1), relayed ++ [tx]) := by
  simp only [submitWithdrawPayment, hparse, checkWithdrawPayment_eq_ok.2 hread]
  exact eval_submitTransaction_ok hanswer

/-- What is one is relayed once. -/
theorem relayed_submitWithdrawPayment (hparse : cfg.fromXDR signedXdr = some tx)
    (hread : IsUsdcPayment cfg address tx) (ch : ℕ → SponsorshipChoice)
    (relayed : List Transaction) :
    ((submitWithdrawPayment cfg signedXdr address).eval relayMachine ch relayed).2.2 =
      relayed ++ [tx] := by
  cases hanswer : (ch 0).answer (ch 0).hash with
  | ok hash => rw [eval_submitWithdrawPayment_ok hparse hread relayed hanswer]
  | error err =>
    simp only [submitWithdrawPayment, hparse, checkWithdrawPayment_eq_ok.2 hread]
    exact congrArg Prod.snd (congrArg Prod.snd (eval_submitTransaction_error hanswer))

end Submitting

/-- `submitPayment` from the address of the wallet on. -/
def relayAndRecord (userId signedXdr id address : String) : WithdrawalMethod String := do
  let txHash ← awaitW (.submitWithdrawPayment signedXdr address)
  awaitW (.withdrawalUpdateMany id userId { txHash := some txHash })
  return txHash

section Endpoint

variable {cfg : SponsorshipConfig} {wcfg : WithdrawalConfig} {userId signedXdr id : String}
  {tx : Transaction} {ch : ℕ → PaymentChoice} {w : PaymentWorld}

theorem eval_submitPayment (henabled : wcfg.anchorEnabled = true) :
    (submitPayment wcfg userId signedXdr id).eval (paymentMachine cfg) ch w =
      ((getAddressForCreator userId).bind (relayAndRecord userId signedXdr id)).eval
        (paymentMachine cfg) ch w :=
  eval_bind_ok (eval_assertEnabled henabled)

/-- The world after a call of `submitPayment`. -/
def afterSubmitPayment (cfg : SponsorshipConfig) (wcfg : WithdrawalConfig)
    (userId signedXdr id : String) (ch : ℕ → PaymentChoice) (w : PaymentWorld) : PaymentWorld :=
  ((submitPayment wcfg userId signedXdr id).eval (paymentMachine cfg) ch w).2.2

/-- A call whose check passes, made for the wallet `address`. -/
structure Passes (cfg : SponsorshipConfig) (wcfg : WithdrawalConfig) (userId : String)
    (tx : Transaction) (c : PaymentChoice) (w : PaymentWorld) (address : String) : Prop where
  enabled : wcfg.anchorEnabled = true
  wallet : walletAnswer userId c w = .ok (some address)
  read : IsUsdcPayment cfg address tx

theorem relayAndRecord_refused {address : String} (hparse : cfg.fromXDR signedXdr = some tx)
    (hread : ¬ IsUsdcPayment cfg address tx) :
    ((relayAndRecord userId signedXdr id address).eval (paymentMachine cfg) ch w).2.2 = w := by
  obtain ⟨e, hrun⟩ := eval_submitWithdrawPayment_error hparse hread (ch 0).horizon w.relayed
  have hexec : (paymentMachine cfg).exec (.submitWithdrawPayment signedXdr address) (ch 0) w =
      (.error .remote, w) := by
    simp only [paymentMachine, paymentExec, hrun, ofService]
  exact congrArg Prod.snd (congrArg Prod.snd (eval_ask_error _ hexec))

theorem relayAndRecord_relayed {address : String} (hparse : cfg.fromXDR signedXdr = some tx)
    (hread : IsUsdcPayment cfg address tx) :
    ((relayAndRecord userId signedXdr id address).eval (paymentMachine cfg) ch w).2.2.relayed =
      w.relayed ++ [tx] := by
  have hrelayed : ((paymentMachine cfg).exec (.submitWithdrawPayment signedXdr address) (ch 0)
      w).2.relayed = w.relayed ++ [tx] :=
    relayed_submitWithdrawPayment hparse hread (ch 0).horizon w.relayed
  rcases hexec : (paymentMachine cfg).exec (.submitWithdrawPayment signedXdr address) (ch 0) w
    with ⟨e | txHash, w'⟩
  · rw [hexec] at hrelayed
    exact (congrArg PaymentWorld.relayed (congrArg Prod.snd (congrArg Prod.snd
      (eval_ask_error _ hexec)))).trans hrelayed
  · rw [hexec] at hrelayed
    -- the update of the row relays nothing
    have hupdate := eval_ask_last (paymentMachine cfg)
      (.withdrawalUpdateMany id userId { txHash := some txHash }) txHash (fun n => ch (n + 1)) w'
    refine Eq.trans ?_ ((congrArg PaymentWorld.relayed hupdate).trans hrelayed)
    exact congrArg PaymentWorld.relayed (congrArg Prod.snd (congrArg Prod.snd (eval_ask _ hexec)))

/-- A call whose check does not pass changes nothing. -/
theorem afterSubmitPayment_refused (hparse : cfg.fromXDR signedXdr = some tx)
    (hpasses : ∀ address, ¬ Passes cfg wcfg userId tx (ch 0) w address) :
    afterSubmitPayment cfg wcfg userId signedXdr id ch w = w := by
  unfold afterSubmitPayment
  by_cases henabled : wcfg.anchorEnabled = true
  · rw [eval_submitPayment henabled]
    by_cases hwallet : ∃ address, walletAnswer userId (ch 0) w = .ok (some address)
    · obtain ⟨address, haddress⟩ := hwallet
      rw [eval_bind_ok (eval_getAddressForCreator haddress)]
      exact relayAndRecord_refused hparse fun h => hpasses address ⟨henabled, haddress, h⟩
    · obtain ⟨e, ch', herror⟩ := eval_getAddressForCreator_error (not_exists.1 hwallet)
      rw [eval_bind_error herror]
  · obtain ⟨e, herror⟩ := eval_assertEnabled_error henabled
    exact congrArg Prod.snd (congrArg Prod.snd (eval_bind_error herror))

/-- A call whose check passes relays its transaction. -/
theorem afterSubmitPayment_relayed (hparse : cfg.fromXDR signedXdr = some tx) {address : String}
    (h : Passes cfg wcfg userId tx (ch 0) w address) :
    (afterSubmitPayment cfg wcfg userId signedXdr id ch w).relayed = w.relayed ++ [tx] := by
  rw [afterSubmitPayment, eval_submitPayment h.enabled,
    eval_bind_ok (eval_getAddressForCreator h.wallet)]
  exact relayAndRecord_relayed hparse h.read

/-- Once Horizon has answered, the hash is written to the creator's rows. -/
theorem afterSubmitPayment_recorded (hparse : cfg.fromXDR signedXdr = some tx) {address : String}
    (h : Passes cfg wcfg userId tx (ch 0) w address) {hash : String}
    (hanswer : ((ch 1).horizon 0).answer ((ch 1).horizon 0).hash = .ok hash) :
    (afterSubmitPayment cfg wcfg userId signedXdr id ch w).base =
      (withdrawalExec (.withdrawalUpdateMany id userId { txHash := some hash }) (ch 2).choice
        w.base).2 := by
  have hexec : (paymentMachine cfg).exec (.submitWithdrawPayment signedXdr address) (ch 1) w =
      (.ok hash, { w with relayed := w.relayed ++ [tx] }) := by
    have hrun := eval_submitWithdrawPayment_ok hparse h.read w.relayed hanswer
    simp only [paymentMachine, paymentExec, hrun, ofService]
  rw [afterSubmitPayment, eval_submitPayment h.enabled,
    eval_bind_ok (eval_getAddressForCreator h.wallet)]
  have hupdate := eval_ask_last (paymentMachine cfg)
    (.withdrawalUpdateMany id userId { txHash := some hash }) hash (fun n => ch (n + 2))
    { w with relayed := w.relayed ++ [tx] }
  refine Eq.trans ?_ (congrArg PaymentWorld.base hupdate)
  exact congrArg PaymentWorld.base (congrArg Prod.snd (congrArg Prod.snd (eval_ask _ hexec)))

/-- A call relays and records what is prescribed for the transaction of the anchor, exactly if
the rest of a transaction that passes is as prescribed. -/
theorem submits_prescribed {cfg : SponsorshipConfig} {signedXdr : String} {tx : Transaction}
    (hparse : cfg.fromXDR signedXdr = some tx) (wcfg : WithdrawalConfig) (userId id : String)
    (anchor : AnchorTransaction) (ch : ℕ → PaymentChoice) (w : PaymentWorld) :
    ((afterSubmitPayment cfg wcfg userId signedXdr id ch w).relayed ≠ w.relayed ∨
        (afterSubmitPayment cfg wcfg userId signedXdr id ch w).base.withdrawals.rows ≠
          w.base.withdrawals.rows →
      ∃ address, walletAnswer userId (ch 0) w = .ok (some address) ∧
        Prescribed cfg anchor address tx) ↔
      ∀ address, Passes cfg wcfg userId tx (ch 0) w address →
        RestPrescribed cfg anchor address tx := by
  constructor
  · intro hlaw address hpasses
    obtain ⟨address', haddress, hprescribed⟩ := hlaw (.inl (by
      rw [afterSubmitPayment_relayed hparse hpasses]
      simp))
    obtain rfl : address = address' :=
      Option.some.inj (Except.ok.inj (hpasses.wallet.symm.trans haddress))
    exact (prescribed_iff hpasses.read).1 hprescribed
  · intro hrest hacted
    by_cases hpasses : ∃ address, Passes cfg wcfg userId tx (ch 0) w address
    · obtain ⟨address, hpasses⟩ := hpasses
      exact ⟨address, hpasses.wallet, (prescribed_iff hpasses.read).2 (hrest address hpasses)⟩
    · rw [afterSubmitPayment_refused hparse (not_exists.1 hpasses)] at hacted
      exact absurd hacted (by simp)

end Endpoint

/-! ## A deployment to run on -/

/-- The creator `alice` with an anchored withdrawal of $9.50. -/
def demoAnchored : PaymentWorld where
  base :=
    { db := { demoCredited.db with wallets := [⟨"alice", demoCreator, .freighter, 0⟩] }
      withdrawals :=
        { rows := [⟨"w", "alice", demoEarned, "ANCHOR", "anchor", .anchor "0", .processing,
            none, some "t", none, 0, none⟩]
          ids := List.nodup_singleton _
          references := List.nodup_singleton _ } }
  relayed := []

/-- The anchor waits for the $9.50. -/
def demoAnchorTransaction : AnchorTransaction where
  status := "pending_user_transfer_start"
  withdrawAnchorAccount := some "GACAIBAEAQCAIBAEAQCAIBAEAQCAIBAEAQCAIBAEAQCAIBAEAQCAJJHP"
  withdrawMemo := some "KRV-42"
  withdrawMemoType := some "text"
  amountIn := some (.decimal 950 2)

/-- A payment of $9.50 by the creator. -/
def demoPaymentTx (toAddress : String) : Transaction where
  source := some demoCreator
  sequence := 7
  fee := 100
  operations := [{ body := .payment toAddress demoUsdc 95000000 }]
  memo := .text "KRV-42"
  maxTime := 1700000300
  signatures := []

/-- The prescribed payment. -/
def demoAnchorTx : Transaction :=
  demoPaymentTx "GACAIBAEAQCAIBAEAQCAIBAEAQCAIBAEAQCAIBAEAQCAIBAEAQCAJJHP"

/-- A payment to the anchor. -/
def demoAnchorXdr : String :=
  "AAAAAgAAAAACAgICAgICAgICAgICAgICAgICAgICAgICAgICAgICAgAAAGQAAAAAAAAABwAAAAEAAAAA" ++
  "AAAAAAAAAABlU/IsAAAAAQAAAAZLUlYtNDIAAAAAAAEAAAAAAAAAAQAAAAAEBAQEBAQEBAQEBAQEBAQE" ++
  "BAQEBAQEBAQEBAQEBAQEBAAAAAFVU0RDAAAAAEI+fQXy7K+/7BkrIVo/G+lq7bjY5wJUq+NBPgIH3lay" ++
  "AAAAAAWplcAAAAAAAAAAAA=="

theorem submits_prescribed_anchor :
    ∃ address, walletAnswer "alice" {} demoAnchored = .ok (some address) ∧
      Prescribed (demoSponsorship demoAnchorXdr demoAnchorTx) demoAnchorTransaction address
        demoAnchorTx := by
  have hparse := demoSponsorship_fromXDR demoAnchorXdr demoAnchorTx
  have hpasses : Passes (demoSponsorship demoAnchorXdr demoAnchorTx) demoWithdrawalConfig "alice"
      demoAnchorTx {} demoAnchored demoCreator := ⟨rfl, rfl, rfl, rfl, rfl⟩
  refine (submits_prescribed hparse demoWithdrawalConfig "alice" "t" demoAnchorTransaction
    (fun _ => {}) demoAnchored).2 ?_ (.inl ?_)
  · intro address h
    obtain rfl : demoCreator = address :=
      Option.some.inj (Except.ok.inj (hpasses.wallet.symm.trans h.wallet))
    exact (prescribed_iff h.read).1 ⟨_, _, _, _, rfl, rfl, rfl, rfl, rfl, rfl, rfl⟩
  · rw [afterSubmitPayment_relayed hparse hpasses]
    simp

/-- A payment of the same amount to another account. -/
def demoForeignTx : Transaction :=
  demoPaymentTx "GABQGAYDAMBQGAYDAMBQGAYDAMBQGAYDAMBQGAYDAMBQGAYDAMBQHGPC"

/-- A payment to another account. -/
def demoForeignXdr : String :=
  "AAAAAgAAAAACAgICAgICAgICAgICAgICAgICAgICAgICAgICAgICAgAAAGQAAAAAAAAABwAAAAEAAAAA" ++
  "AAAAAAAAAABlU/IsAAAAAQAAAAZLUlYtNDIAAAAAAAEAAAAAAAAAAQAAAAADAwMDAwMDAwMDAwMDAwMD" ++
  "AwMDAwMDAwMDAwMDAwMDAwAAAAFVU0RDAAAAAEI+fQXy7K+/7BkrIVo/G+lq7bjY5wJUq+NBPgIH3lay" ++
  "AAAAAAWplcAAAAAAAAAAAA=="

/-- Horizon accepts a transaction. -/
def demoAnswered : PaymentChoice where
  horizon _ := { hash := "hash" }

/-- The world after the creator has handed it back. -/
def demoForeign : PaymentWorld :=
  afterSubmitPayment (demoSponsorship demoForeignXdr demoForeignTx) demoWithdrawalConfig "alice"
    demoForeignXdr "t" (fun _ => demoAnswered) demoAnchored

theorem submits_foreign :
    demoForeign.relayed = [demoForeignTx] ∧
      demoForeign.base.withdrawals.rows.map (·.txHash) = [some "hash"] ∧
      ∀ address, ¬ Prescribed (demoSponsorship demoForeignXdr demoForeignTx)
        demoAnchorTransaction address demoForeignTx := by
  have hparse := demoSponsorship_fromXDR demoForeignXdr demoForeignTx
  have hpasses : Passes (demoSponsorship demoForeignXdr demoForeignTx) demoWithdrawalConfig
      "alice" demoForeignTx demoAnswered demoAnchored demoCreator := ⟨rfl, rfl, rfl, rfl, rfl⟩
  have hanswer : (demoAnswered.horizon 0).answer (demoAnswered.horizon 0).hash = .ok "hash" := rfl
  refine ⟨afterSubmitPayment_relayed hparse hpasses, ?_, ?_⟩
  · rw [demoForeign, afterSubmitPayment_recorded hparse hpasses hanswer]
    rfl
  · rintro address ⟨op, toAddress, text, amount, hops, -, hbody, hto, -⟩
    obtain rfl := (List.cons.inj hops).1
    obtain rfl := (OperationBody.payment.inj hbody).1
    simp [demoAnchorTransaction] at hto

end Kreav
