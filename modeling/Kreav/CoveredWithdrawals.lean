import Kreav.Lib.Protocols
import Kreav.WithdrawalTotals

/-!
# Withdrawals that are covered

`requestWithdrawal` and `interactive` compare the amount with the credits of the wallet less
the creator's completed withdrawals, and create the row some statements later. The check is
about other numbers than the row needs : a withdrawal that is under way was not subtracted,
and one may be completed in between. A poll checks nothing.

`Permitted` leaves these steps out : a row is created while no other of the creator is under
way, no row is completed between a check and its row, and an update is calm. In such runs the
check does the rest (`withdrawals_covered`). `protocol` says what a thread knows : whose
wallet it has found, what it has read, and what room the two totals leave.
-/

open Async Prog Rounding

namespace Kreav

/-- `REQUESTED` or `PROCESSING`. -/
def WithdrawalStatus.isPending (s : WithdrawalStatus) : Bool :=
  s = .requested ∨ s = .processing

/-- `@Min(0.01)` of the amount. -/
def WithdrawalCall.Valid : WithdrawalCall → Prop
  | .requestWithdrawal _ amount _ _ => 0 < amount
  | .interactive _ amount _ => 0 < amount
  | _ => True

instance : (call : WithdrawalCall) → Decidable call.Valid
  | .requestWithdrawal _ amount _ _ => inferInstanceAs (Decidable (0 < amount))
  | .interactive _ amount _ => inferInstanceAs (Decidable (0 < amount))
  | .getWithdrawal _ _ | .transaction _ _ _ | .submitPayment _ _ _ => isTrue trivial

/-- The call withdraws from the balance of the creator. -/
def WithdrawalCall.Withdraws (db : Database) (creatorId : String) : WithdrawalCall → Prop
  | .requestWithdrawal walletAddress _ _ _ =>
    ∃ x ∈ db.wallets, x.walletAddress = walletAddress ∧ x.creatorId = creatorId
  | .interactive userId _ _ => userId = creatorId
  | _ => False

instance (db : Database) (creatorId : String) :
    (call : WithdrawalCall) → Decidable (call.Withdraws db creatorId)
  | .requestWithdrawal _ _ _ _ => inferInstanceAs (Decidable (∃ x ∈ db.wallets, _))
  | .interactive userId _ _ => inferInstanceAs (Decidable (userId = creatorId))
  | .getWithdrawal _ _ | .transaction _ _ _ | .submitPayment _ _ _ => isFalse id

/-- The requests from the check of a balance to the new row. -/
def WithdrawalRequest.isChecked : WithdrawalRequest → Bool
  | .now => true
  | .lastReference _ => true
  | .recentSettlement _ => true
  | .withdrawInteractive _ _ _ => true
  | .randomDigits => true
  | .withdrawalCreate _ => true
  | _ => false

namespace Coverage

/-- Thread `j` has checked the creator's balance and has not created its row. -/
def Checked (calls : List WithdrawalCall) (s : Config withdrawals WithdrawalWorld Unit)
    (creatorId : String) (j : ℕ) : Prop :=
  (∃ call ∈ calls[j]?, call.Withdraws s.world.db creatorId) ∧
    ∃ r ∈ s.threads[j]?.bind Prog.request, r.isChecked = true

instance (calls : List WithdrawalCall) (s : Config withdrawals WithdrawalWorld Unit)
    (creatorId : String) (j : ℕ) : Decidable (Checked calls s creatorId j) :=
  inferInstanceAs (Decidable (_ ∧ _))

/-- The condition on an update of the rows `p` : it is calm, and no thread stands between its
check and its row when a row of the creator turns `COMPLETED`. -/
def UpdatePermitted (calls : List WithdrawalCall) (s : Config withdrawals WithdrawalWorld Unit)
    (p : Withdrawal → Bool) (data : WithdrawalUpdate) : Prop :=
  data.stored ≠ none → ∀ r ∈ s.world.withdrawals.rows, p r = true → Calm data r ∧
    (data.status = some .completed → r.status ≠ .completed →
      ∀ j < calls.length, ¬ Checked calls s r.creatorId j)

instance (calls : List WithdrawalCall) (s : Config withdrawals WithdrawalWorld Unit)
    (p : Withdrawal → Bool) (data : WithdrawalUpdate) :
    Decidable (UpdatePermitted calls s p data) :=
  inferInstanceAs (Decidable (_ → ∀ r ∈ s.world.withdrawals.rows, _))

/-- The condition on a write : a row is created while no other of the creator is under way,
and an update is permitted. -/
def WritePermitted (calls : List WithdrawalCall) (s : Config withdrawals WithdrawalWorld Unit) :
    WithdrawalRequest → Prop
  | .withdrawalCreate data => ∀ r ∈ s.world.withdrawals.rows, r.creatorId = data.creatorId →
    r.status.isPending = false
  | .withdrawalUpdate id data => UpdatePermitted calls s (·.id = id) data
  | .withdrawalUpdateMany anchorTransactionId creatorId data => UpdatePermitted calls s (fun r =>
      r.anchorTransactionId = some anchorTransactionId ∧ r.creatorId = creatorId) data
  | _ => True

instance (calls : List WithdrawalCall) (s : Config withdrawals WithdrawalWorld Unit) :
    (r : WithdrawalRequest) → Decidable (WritePermitted calls s r)
  | .withdrawalCreate _ => inferInstanceAs (Decidable (∀ r ∈ s.world.withdrawals.rows, _))
  | .withdrawalUpdate _ data => inferInstanceAs (Decidable (UpdatePermitted calls s _ data))
  | .withdrawalUpdateMany _ _ data => inferInstanceAs (Decidable (UpdatePermitted calls s _ data))
  | .walletCreator _ | .walletOf _ | .settledTotal _ | .completedTotal _ | .lastReference _
  | .recentSettlement _ | .withdrawalFindUnique _ | .now | .randomDigits
  | .withdrawInteractive _ _ _ | .getTransaction _ _ | .submitWithdrawPayment _ _ =>
    isTrue trivial

/-- The condition on the steps of a run. A write that is lost has no effect. -/
def Permitted (calls : List WithdrawalCall) (s : Config withdrawals WithdrawalWorld Unit) :
    Action WithdrawalChoice WithdrawalEnv → Prop
  | .run i c => c.fault ≠ .lost → ∀ r ∈ s.threads[i]?.bind Prog.request, WritePermitted calls s r
  | .env e => Settles100 s.world e

instance (calls : List WithdrawalCall) (s : Config withdrawals WithdrawalWorld Unit) :
    (a : Action WithdrawalChoice WithdrawalEnv) → Decidable (Permitted calls s a)
  | .run i _ => inferInstanceAs (Decidable (_ → ∀ r ∈ s.threads[i]?.bind Prog.request, _))
  | .env e => inferInstanceAs (Decidable (Settles100 s.world e))

/-! ## What a thread knows -/

/-- Where a withdrawal stands before its row is created. -/
inductive Phase
  | idle
  /-- A request that has not looked up the owner of the wallet. -/
  | request (walletAddress : String)
  /-- A request through the anchor that has not looked up the creator's wallet. -/
  | interactive (userId : String)
  /-- The wallet is the creator's. -/
  | wallet (walletAddress creatorId : String)
  /-- The balance of the wallet is that of `owner`. -/
  | scope (walletAddress creatorId owner : String)
  | credited (creatorId owner : String) (totalSettled : ℤ)
  /-- The credits that were read less the completed withdrawals. -/
  | room (creatorId : String) (rest : ℤ)

/-- The requests of a phase. -/
def Phase.Asks : Phase → WithdrawalRequest → Prop
  | .idle, .withdrawalCreate _ => False
  | .idle, _ => True
  | .request walletAddress, r => r = .walletCreator walletAddress
  | .interactive userId, r => r = .walletOf userId
  | .wallet walletAddress _, r => r = .walletCreator walletAddress
  | .scope walletAddress _ _, r => r = .settledTotal walletAddress
  | .credited _ owner _, r => r = .completedTotal owner
  | .room _ _, r => r.isChecked = true

/-- The phases that an answer leads to. -/
inductive Reply : Phase → (r : WithdrawalRequest) → Except WithdrawalError r.Ans → Phase → Prop
  | idle {r x} (h : Phase.idle.Asks r) : Reply .idle r x .idle
  | leaves {φ r x} (h : φ.Asks r) (hr : r.writes = false) : Reply φ r x .idle
  | owner {a creatorId} :
    Reply (.request a) (.walletCreator a) (.ok (some creatorId)) (.wallet a creatorId)
  | address {userId a} :
    Reply (.interactive userId) (.walletOf userId) (.ok (some a)) (.wallet a userId)
  | scope {a creatorId owner} : Reply (.wallet a creatorId) (.walletCreator a) (.ok (some owner))
      (.scope a creatorId owner)
  | settled {a creatorId owner} {total : ℤ} : Reply (.scope a creatorId owner) (.settledTotal a)
      (.ok total) (.credited creatorId owner total)
  | completed {creatorId owner} {total withdrawn : ℤ} : Reply (.credited creatorId owner total)
      (.completedTotal owner) (.ok withdrawn) (.room creatorId (total - withdrawn))
  | checked {creatorId rest r x} (h : r.isChecked = true) (hr : r.writes = false) :
    Reply (.room creatorId rest) r x (.room creatorId rest)
  | create {creatorId rest data x} (hcreator : data.creatorId = creatorId)
      (hpos : 0 < data.amount) (hcheck : data.amount ≤ decimalOf rest)
      (hstatus : data.status.isCompleted = false) :
    Reply (.room creatorId rest) (.withdrawalCreate data) x .idle

theorem Reply.asks {φ φ' : Phase} {r : WithdrawalRequest} {x : Except WithdrawalError r.Ans}
    (h : Reply φ r x φ') : φ.Asks r := by
  cases h with
  | idle h => exact h
  | leaves h hr => exact h
  | checked h hr => exact h
  | _ => rfl

/-- The protocol of the endpoints. -/
def protocol : Protocol withdrawals Phase where
  answers _ _ := True
  reply := Reply
  event φ _ φ' := φ' = φ
  final _ := True
  rest := .idle

theorem stays_idle {r : WithdrawalRequest} (h : Phase.idle.Asks r) :
    (awaitW r).Stays protocol .idle :=
  Stays.ask fun _ _ => .idle h

theorem ofQueries : OfQueries fun _ p => p.Stays protocol .idle where
  toCompositional := Stays.compositional protocol .idle
  query {r} hr := stays_idle <| by
    cases r with
    | withdrawalCreate data => cases hr
    | _ => trivial

theorem conforms_of_stays {α : Type} {p : WithdrawalMethod α}
    (h : p.Stays protocol .idle) : p.Conforms protocol .idle :=
  h.follows (fun _ => trivial) fun _ => trivial

/-- The program returns in the phase it starts in. An error may end it in any. -/
def Keeps {α : Type} (φ : Phase) (p : WithdrawalMethod α) : Prop :=
  p.Follows protocol (fun _ φ' => φ' = φ) (fun _ _ => True) φ

theorem Keeps.bind {α β : Type} {p : WithdrawalMethod α} {f : α → WithdrawalMethod β}
    {φ : Phase} {Q : β → Phase → Prop} (hp : Keeps φ p)
    (hf : ∀ a, (f a).Follows protocol Q (fun _ _ => True) φ) :
    (p.bind f).Follows protocol Q (fun _ _ => True) φ :=
  Follows.bind hp fun a φ' he => by
    subst he
    exact hf a

/-- A query whose answer leads to the next phase. -/
theorem follows_query {r : WithdrawalRequest} {Q : r.Ans → Phase → Prop} {φ : Phase}
    (h : φ.Asks r) (hr : r.writes = false) (hQ : ∀ a, ∃ φ', Reply φ r (.ok a) φ' ∧ Q a φ') :
    (awaitW r).Follows protocol Q (fun _ _ => True) φ :=
  Follows.ask (fun a _ => hQ a) fun _ _ => ⟨_, .leaves h hr, trivial⟩

/-- A query between the check and the row. -/
theorem keeps_checked {r : WithdrawalRequest} (h : r.isChecked = true) (hr : r.writes = false)
    (creatorId : String) (rest : ℤ) : Keeps (.room creatorId rest) (awaitW r) :=
  follows_query h hr fun _ => ⟨_, .checked h hr, rfl⟩

variable {cfg : WithdrawalConfig}

theorem keeps_generateReference (creatorId : String) (rest : ℤ) :
    Keeps (.room creatorId rest) (generateReference cfg) :=
  (keeps_checked (r := .now) rfl rfl _ _).bind fun now =>
    (keeps_checked (r := .lastReference (cfg.localDay now)) rfl rfl _ _).bind fun last => by
      rcases last with - | - | -
      · rfl
      · rfl
      · rfl

theorem keeps_findRecentSettlementTxHash (walletAddress creatorId : String) (rest : ℤ) :
    Keeps (.room creatorId rest) (findRecentSettlementTxHash walletAddress) :=
  (keeps_checked (r := .recentSettlement walletAddress) rfl rfl _ _).bind fun _ => rfl

theorem keeps_assertEnabled (φ : Phase) : Keeps φ (assertEnabled cfg) := by
  unfold assertEnabled
  split
  · rfl
  · trivial

theorem keeps_requireToken (token : Option String) (φ : Phase) :
    Keeps φ (requireToken token) := by
  cases token with
  | none => trivial
  | some token =>
    simp only [requireToken]
    split
    · trivial
    · rfl

/-- What a thread knows once it has the balance. -/
def Balance (creatorId : String) (balance : ℤ) (φ : Phase) : Prop :=
  balance = 0 ∧ φ = .idle ∨ ∃ rest, balance = decimalOf rest ∧ φ = .room creatorId rest

theorem follows_getWithdrawableBalance (walletAddress creatorId : String) :
    (getWithdrawableBalance walletAddress).Follows protocol (Balance creatorId)
      (fun _ _ => True) (.wallet walletAddress creatorId) := by
  refine Follows.bind (R := fun owner φ => (owner = none ∧ φ = .idle) ∨
      ∃ id, owner = some id ∧ φ = .scope walletAddress creatorId id)
    (follows_query rfl rfl fun owner => ?_) fun owner φ h => ?_
  · cases owner with
    | none => exact ⟨_, .leaves rfl rfl, Or.inl ⟨rfl, rfl⟩⟩
    | some id => exact ⟨_, .scope, Or.inr ⟨id, rfl, rfl⟩⟩
  · rcases h with ⟨rfl, rfl⟩ | ⟨id, rfl, rfl⟩
    · exact Or.inl ⟨rfl, rfl⟩
    · refine Follows.bind (R := fun total φ => φ = .credited creatorId id total)
        (follows_query rfl rfl fun _ => ⟨_, .settled, rfl⟩) fun total φ h => ?_
      subst h
      exact Follows.bind (follows_query rfl rfl fun _ => ⟨_, .completed, rfl⟩)
        (R := fun (withdrawn : ℤ) φ => φ = .room creatorId (total - withdrawn))
          fun withdrawn φ h => Or.inr ⟨_, rfl, h⟩

/-- The new row of an amount that the check has let through. -/
theorem conforms_create {α : Type} {data : WithdrawalCreate} {creatorId : String} {rest : ℤ}
    (hcreator : data.creatorId = creatorId) (hpos : 0 < data.amount)
    (hcheck : data.amount ≤ decimalOf rest) (hstatus : data.status.isCompleted = false)
    {f : Withdrawal → WithdrawalMethod α} (hf : ∀ r, (f r).Conforms protocol .idle) :
    ((awaitW (.withdrawalCreate data)).bind f).Conforms protocol (.room creatorId rest) :=
  Follows.bind (R := fun _ φ => φ = .idle)
    (Follows.ask (fun _ _ => ⟨_, .create hcreator hpos hcheck hstatus, rfl⟩)
      fun _ _ => ⟨_, .create hcreator hpos hcheck hstatus, trivial⟩) fun r φ h => by
        subst h
        exact hf r

theorem conforms_requestWithdrawal {amount : ℤ} (hpos : 0 < amount)
    (walletAddress destinationType destinationAccount : String) :
    (requestWithdrawal cfg walletAddress amount destinationType destinationAccount).Conforms
      protocol (.request walletAddress) := by
  refine Follows.bind
    (R := fun (owner : Option String) φ => ∀ id ∈ owner, φ = .wallet walletAddress id)
    (follows_query rfl rfl fun owner => ?_) fun owner φ h => ?_
  · cases owner with
    | none => exact ⟨_, .leaves rfl rfl, by simp⟩
    | some id => exact ⟨_, .owner, by simp⟩
  cases owner with
  | none => trivial
  | some creatorId =>
    obtain rfl := h creatorId rfl
    refine Follows.bind (follows_getWithdrawableBalance walletAddress creatorId)
      fun balance φ hbalance => ?_
    split
    · trivial
    · next hle =>
      rcases hbalance with ⟨rfl, rfl⟩ | ⟨rest, rfl, rfl⟩
      · exact absurd hpos hle
      · exact (keeps_generateReference creatorId rest).bind fun reference =>
          (keeps_findRecentSettlementTxHash walletAddress creatorId rest).bind fun hash =>
            conforms_create rfl hpos (not_lt.1 hle) rfl fun r => conforms_of_stays
              (ofQueries.bind (stays_idle trivial) fun _ => ofQueries.ret _)

theorem conforms_interactive {amount : ℤ} (hpos : 0 < amount) (userId : String)
    (token : Option String) :
    (interactive cfg userId amount token).Conforms protocol (.interactive userId) := by
  refine (keeps_assertEnabled _).bind fun _ => (keeps_requireToken token _).bind
    fun anchorToken => ?_
  refine Follows.bind (R := fun address φ => φ = .wallet address userId) ?_ fun address φ h => ?_
  · refine Follows.bind
      (R := fun (address : Option String) φ => ∀ a ∈ address, φ = .wallet a userId)
      (follows_query rfl rfl fun address => ?_) fun address φ h => ?_
    · cases address with
      | none => exact ⟨_, .leaves rfl rfl, by simp⟩
      | some a => exact ⟨_, .address, by simp⟩
    · cases address with
      | none => trivial
      | some a => exact h a rfl
  subst h
  refine Follows.bind (follows_getWithdrawableBalance address userId) fun balance φ hbalance => ?_
  split
  · trivial
  · next hle =>
    rcases hbalance with ⟨rfl, rfl⟩ | ⟨rest, rfl, rfl⟩
    · exact absurd hpos hle
    · exact (keeps_checked (r := .withdrawInteractive anchorToken address amount) rfl rfl
        userId rest).bind fun id => (keeps_checked (r := .randomDigits) rfl rfl userId rest).bind
          fun digits => conforms_create rfl hpos (not_lt.1 hle) rfl fun r => trivial

/-- The phase that a call starts in. -/
def start : WithdrawalCall → Phase
  | .requestWithdrawal walletAddress _ _ _ => .request walletAddress
  | .interactive userId _ _ => .interactive userId
  | _ => .idle

theorem conforms_method {call : WithdrawalCall} (h : call.Valid) :
    (call.method cfg).Suspended ∧ (call.method cfg).Conforms protocol (start call) := by
  have hunit : ∀ {α : Type} {p : WithdrawalMethod α} {φ : Phase}, p.Conforms protocol φ →
      (p.bind fun _ => .ret ()).Conforms protocol φ := fun hp =>
    Follows.bind (R := fun _ _ => True) hp fun _ _ _ => trivial
  refine ⟨withdrawalMethod_suspended _, ?_⟩
  cases call with
  | requestWithdrawal walletAddress amount destinationType destinationAccount =>
    exact hunit (conforms_requestWithdrawal h _ _ _)
  | interactive userId amount token => exact hunit (conforms_interactive h _ _)
  | getWithdrawal id requesterCreatorId =>
    exact hunit (conforms_of_stays (ofQueries.getWithdrawal (fun _ _ => stays_idle trivial) _ _))
  | transaction userId id token =>
    exact hunit (conforms_of_stays (ofQueries.transaction
      (fun _ _ _ _ => stays_idle trivial) _))
  | submitPayment userId signedXdr id =>
    exact hunit (conforms_of_stays (ofQueries.submitPayment (fun _ => stays_idle trivial) _))

/-! ## What holds between requests -/

variable {calls : List WithdrawalCall} {w w' : WithdrawalWorld} {i : ℕ}

/-- What thread `i` knows in a phase is so. -/
def Phase.Holds (calls : List WithdrawalCall) (w : WithdrawalWorld) (i : ℕ) : Phase → Prop
  | .idle => True
  | .request walletAddress => ∀ x ∈ w.db.wallets, x.walletAddress = walletAddress →
    ∃ call ∈ calls[i]?, call.Withdraws w.db x.creatorId
  | .interactive userId => ∃ call ∈ calls[i]?, call.Withdraws w.db userId
  | .wallet walletAddress creatorId =>
    (∃ call ∈ calls[i]?, call.Withdraws w.db creatorId) ∧
      ∃ x ∈ w.db.wallets, x.walletAddress = walletAddress ∧ x.creatorId = creatorId
  | .scope walletAddress creatorId owner =>
    (∃ call ∈ calls[i]?, call.Withdraws w.db creatorId) ∧
      (∃ x ∈ w.db.wallets, x.walletAddress = walletAddress ∧ x.creatorId = creatorId) ∧
        owner = creatorId
  | .credited creatorId owner total =>
    (∃ call ∈ calls[i]?, call.Withdraws w.db creatorId) ∧ owner = creatorId ∧
      total ≤ w.db.earned creatorId
  | .room creatorId rest =>
    (∃ call ∈ calls[i]?, call.Withdraws w.db creatorId) ∧
      w.withdrawals.total WithdrawalStatus.isCompleted creatorId + rest ≤ w.db.earned creatorId

/-- The credits cover the withdrawals, and what the threads know is so. -/
structure Inv (calls : List WithdrawalCall) (w : WithdrawalWorld) (φ : ℕ → Phase) : Prop where
  solvent : Solvent w
  holds : ∀ j, (φ j).Holds calls w j

theorem withdraws_congr (h : w'.db.wallets = w.db.wallets) (creatorId : String) :
    WithdrawalCall.Withdraws w'.db creatorId = WithdrawalCall.Withdraws w.db creatorId := by
  ext call
  cases call with
  | requestWithdrawal walletAddress amount destinationType destinationAccount =>
    simp only [WithdrawalCall.Withdraws, h]
  | _ => rfl

/-- What a thread knows stays so while credits are added and no more is completed of the
creator it has checked. -/
theorem Phase.Holds.mono {φ : Phase} (h : φ.Holds calls w i)
    (hwallets : w'.db.wallets = w.db.wallets)
    (hearned : ∀ creatorId, w.db.earned creatorId ≤ w'.db.earned creatorId)
    (hcompleted : ∀ creatorId rest, φ = .room creatorId rest →
      w'.withdrawals.total WithdrawalStatus.isCompleted creatorId ≤
        w.withdrawals.total WithdrawalStatus.isCompleted creatorId) : φ.Holds calls w' i := by
  cases φ with
  | idle => trivial
  | request walletAddress =>
    simp only [Phase.Holds, hwallets, withdraws_congr hwallets]
    exact h
  | interactive userId =>
    simp only [Phase.Holds, withdraws_congr hwallets]
    exact h
  | wallet walletAddress creatorId =>
    simp only [Phase.Holds, hwallets, withdraws_congr hwallets]
    exact h
  | scope walletAddress creatorId owner =>
    simp only [Phase.Holds, hwallets, withdraws_congr hwallets]
    exact h
  | credited creatorId owner total =>
    obtain ⟨hcall, howner, hle⟩ := h
    refine ⟨?_, howner, hle.trans (hearned creatorId)⟩
    rw [withdraws_congr hwallets]
    exact hcall
  | room creatorId rest =>
    obtain ⟨hcall, hle⟩ := h
    have hc := hcompleted creatorId rest rfl
    have he := hearned creatorId
    refine ⟨?_, by omega⟩
    rw [withdraws_congr hwallets]
    exact hcall

/-- The owner that a lookup by address brings. -/
theorem withdrawalExec_walletCreator {a creatorId : String} {c : WithdrawalChoice}
    (h : (withdrawalExec (.walletCreator a) c w).1 = .ok (some creatorId)) :
    ∃ x ∈ w.db.wallets, x.walletAddress = a ∧ x.creatorId = creatorId := by
  have heffect := withdrawalEffect_of_ok (Prod.ext h rfl)
  have ho := Except.ok.inj (congrArg Prod.fst heffect)
  obtain ⟨x, hx, he⟩ := Option.map_eq_some_iff.1 ho
  have hmem := (reorder_perm _ _).mem_iff.1 (List.mem_of_head? hx)
  obtain ⟨hmem, ha⟩ := List.mem_filter.1 hmem
  exact ⟨x, hmem, by simpa using ha, he⟩

/-- The address that a lookup by creator brings. -/
theorem withdrawalExec_walletOf {userId a : String} {c : WithdrawalChoice}
    (h : (withdrawalExec (.walletOf userId) c w).1 = .ok (some a)) :
    ∃ x ∈ w.db.wallets, x.walletAddress = a ∧ x.creatorId = userId := by
  have heffect := withdrawalEffect_of_ok (Prod.ext h rfl)
  have ho := Except.ok.inj (congrArg Prod.fst heffect)
  obtain ⟨x, hx, he⟩ := Option.map_eq_some_iff.1 ho
  have hmem := (reorder_perm _ _).mem_iff.1 (List.mem_of_head? hx)
  obtain ⟨hmem, hc⟩ := List.mem_filter.1 hmem
  exact ⟨x, hmem, he, by simpa using hc⟩

/-- What a thread knows after the answer to a query. -/
theorem Reply.holds {φ φ' : Phase} {r : WithdrawalRequest} {c : WithdrawalChoice}
    (h : Reply φ r (withdrawalExec r c w).1 φ') (hr : r.writes = false) (hs : Solvent w)
    (hφ : φ.Holds calls w i) : φ'.Holds calls w i := by
  generalize hx : (withdrawalExec r c w).1 = x at h
  cases h with
  | idle => trivial
  | leaves => trivial
  | owner =>
    obtain ⟨y, hy, ha, rfl⟩ := withdrawalExec_walletCreator hx
    exact ⟨hφ y hy ha, y, hy, ha, rfl⟩
  | address => exact ⟨hφ, withdrawalExec_walletOf hx⟩
  | scope =>
    obtain ⟨hcall, y, hy, ha, rfl⟩ := hφ
    obtain ⟨z, hz, ha', rfl⟩ := withdrawalExec_walletCreator hx
    exact ⟨hcall, ⟨y, hy, ha, rfl⟩, congrArg _ (hs.wallet_eq hz hy (ha'.trans ha.symm))⟩
  | settled =>
    obtain ⟨hcall, ⟨y, hy, rfl, rfl⟩, howner⟩ := hφ
    have heffect := withdrawalEffect_of_ok (Prod.ext hx rfl)
    obtain rfl := Except.ok.inj (congrArg Prod.fst heffect)
    exact ⟨hcall, howner, hs.credits_le_earned hy⟩
  | completed =>
    obtain ⟨hcall, rfl, hle⟩ := hφ
    have heffect := withdrawalEffect_of_ok (Prod.ext hx rfl)
    obtain rfl := Except.ok.inj (congrArg Prod.fst heffect)
    refine ⟨hcall, ?_⟩
    rw [add_sub_cancel]
    exact hle
  | checked => exact hφ
  | create => cases hr

/-- A write ends what a thread knows. -/
theorem Reply.idle_of_writes {φ φ' : Phase} {r : WithdrawalRequest}
    {x : Except WithdrawalError r.Ans} (h : Reply φ r x φ') (hr : r.writes = true) :
    φ' = .idle := by
  cases h with
  | idle => rfl
  | leaves _ hq => rfl
  | create => rfl
  | checked _ hq =>
    rw [hr] at hq
    cases hq
  | _ => cases hr

/-! ## Writes -/

/-- A calm update that completes no row of the creator adds nothing to the completed. -/
theorem completed_modify_le {t : WithdrawalTable} {p : Withdrawal → Bool}
    {data : WithdrawalUpdate} {amount : Option Usd} (ha : data.stored = some amount)
    (hamounts : ∀ r ∈ t.rows, 0 ≤ r.amount.cents) (hcalm : ∀ r ∈ t.rows, p r = true → Calm data r)
    {creatorId : String} (h : ∀ r ∈ t.rows, p r = true → r.creatorId = creatorId →
      data.status = some .completed → r.status = .completed) :
    (t.modify p data amount).total WithdrawalStatus.isCompleted creatorId ≤
      t.total WithdrawalStatus.isCompleted creatorId := by
  refine WithdrawalTable.total_modify_le fun r hr hp =>
    (hcalm r hr hp).counted_le ha (hamounts r hr) fun hc hcompleted => ?_
  simp only [WithdrawalStatus.isCompleted, decide_eq_true_eq] at hcompleted ⊢
  cases hd : data.status with
  | none => simpa [hd] using hcompleted
  | some s =>
    rw [hd, Option.getD_some] at hcompleted
    exact h r hr hp hc (hd.trans (congrArg some hcompleted))

/-- While none of the creator's withdrawals is under way, the ones that did not fail are
completed. -/
theorem open_le_completed (hs : Solvent w) {creatorId : String}
    (h : ∀ r ∈ w.withdrawals.rows, r.creatorId = creatorId → r.status.isPending = false) :
    w.withdrawals.total WithdrawalStatus.isOpen creatorId ≤
      w.withdrawals.total WithdrawalStatus.isCompleted creatorId := by
  refine WithdrawalTable.total_mono hs.amounts fun r hr hc hopen => ?_
  have hpending := h r hr hc
  cases hstatus : r.status with
  | completed => rfl
  | _ => simp [hstatus, WithdrawalStatus.isOpen, WithdrawalStatus.isPending] at hopen hpending

/-- An amount of the column that the check lets through is at most what is left. -/
theorem amount_le_rest {amount rest : ℤ} {x : Usd} (hx : Usd.ofCents? amount = some x)
    (hpos : 0 < amount) (hcheck : amount ≤ decimalOf rest) : amount ≤ rest := by
  unfold Usd.ofCents? at hx
  split at hx
  · next hlt => exact le_of_le_roundSig (by decide) hpos (by unfold precision; omega) hcheck
  · cases hx

variable {φ : ℕ → Phase}

/-- The row of a thread that has checked. -/
theorem Inv.created (h : Inv calls w φ) {data : WithdrawalCreate} {r : Withdrawal}
    {t : WithdrawalTable} (ht : w.withdrawals.Created data r t) {rest : ℤ}
    (hφ : φ i = .room data.creatorId rest) (hpos : 0 < data.amount)
    (hcheck : data.amount ≤ decimalOf rest) (hstatus : data.status.isCompleted = false)
    (hpending : ∀ r ∈ w.withdrawals.rows, r.creatorId = data.creatorId →
      r.status.isPending = false) :
    Inv calls { w with withdrawals := t } (Function.update φ i .idle) where
  solvent := by
    have hroom : (φ i).Holds calls w i := h.holds i
    rw [hφ] at hroom
    have hopen := open_le_completed h.solvent hpending
    have hle := amount_le_rest ht.amount hpos hcheck
    have hrest := hroom.2
    exact h.solvent.created ht hpos.le (by omega)
  holds := by
    refine (Function.forall_update_iff φ fun j ψ => ψ.Holds calls _ j).2
      ⟨trivial, fun j _ => (h.holds j).mono rfl (fun _ => le_rfl) fun creatorId _ _ => ?_⟩
    rw [WithdrawalTable.total_created ht, Withdrawal.counted, ht.status, hstatus]
    simp

/-- A thread that has checked, and whose call goes on, stands between its check and its row. -/
theorem checked_of_room {s : Config withdrawals WithdrawalWorld Unit} (hs : s.Tracks protocol φ)
    {j : ℕ} {creatorId : String} {rest : ℤ} (hj : φ j = .room creatorId rest)
    (hcall : ∃ call ∈ calls[j]?, call.Withdraws s.world.db creatorId) {p : WithdrawalMethod Unit}
    (hp : s.threads[j]? = some p) (hend : ¬ p.Ended) : Checked calls s creatorId j := by
  obtain ⟨hsus, hconf⟩ := hs.thread hp
  cases p with
  | ret a => exact absurd trivial hend
  | raise e => exact absurd trivial hend
  | emit v p => exact v.elim
  | call r k =>
    obtain ⟨φ', hreply, -⟩ := hconf (.error .database) trivial
    have hasks := hreply.asks
    rw [hj] at hasks
    exact ⟨hcall, r, by simp [hp, Prog.request], hasks⟩

open Classical in
/-- A permitted update. A thread whose check it would undo has ended. -/
theorem Inv.modify {s : Config withdrawals WithdrawalWorld Unit} (h : Inv calls s.world φ)
    (hs : s.Tracks protocol φ) {p : Withdrawal → Bool} {data : WithdrawalUpdate}
    {amount : Option Usd} (ha : data.stored = some amount)
    (hpermitted : UpdatePermitted calls s p data) {q : WithdrawalMethod Unit}
    (hq : q.Conforms protocol .idle) : protocol.Advances s φ i q
      (Inv calls { s.world with withdrawals := s.world.withdrawals.modify p data amount }) := by
  have hrows := hpermitted (by rw [ha]; exact Option.some_ne_none _)
  set w' : WithdrawalWorld :=
    { s.world with withdrawals := s.world.withdrawals.modify p data amount } with hw'
  -- a thread keeps its phase where it still says what is so
  let ψ := Function.update (fun j => if (φ j).Holds calls w' j then φ j else .idle) i .idle
  refine ⟨ψ, by rwa [show ψ i = .idle from Function.update_self ..],
    ⟨h.solvent.modify ha fun r hr hp => (hrows r hr hp).1, ?_⟩, fun j hj => ?_⟩
  · refine (Function.forall_update_iff _ fun j (ε : Phase) => ε.Holds calls w' j).2
      ⟨trivial, fun j _ => ?_⟩
    split
    · next hholds => exact hholds
    · trivial
  · have hψ : ψ j = if (φ j).Holds calls w' j then φ j else .idle := Function.update_of_ne hj ..
    rw [hψ]
    split
    · exact Or.inl rfl
    · next hnot =>
      refine Or.inr ⟨rfl, fun p' hp' => Prog.Ended.conforms ?_ trivial⟩
      by_contra hend
      -- its creator has more completed withdrawals than before
      refine hnot ((h.holds j).mono rfl (fun _ => le_rfl) fun creatorId rest hj => ?_)
      have hroom : (φ j).Holds calls s.world j := h.holds j
      rw [hj] at hroom
      obtain ⟨call, hcall, -⟩ := hroom.1
      have hlt : j < calls.length := (List.getElem?_eq_some_iff.1 hcall).1
      refine completed_modify_le ha h.solvent.amounts (fun r hr hp => (hrows r hr hp).1)
        fun r hr hp hc hcompleted => ?_
      by_contra hstatus
      exact (hrows r hr hp).2 hcompleted hstatus j hlt
        (hc.symm ▸ checked_of_room hs hj hroom.1 hp' hend)

theorem Inv.query (h : Inv calls w φ) {r : WithdrawalRequest} {c : WithdrawalChoice} {φ' : Phase}
    (hreply : Reply (φ i) r (withdrawalExec r c w).1 φ') (hr : r.writes = false) :
    Inv calls (withdrawalExec r c w).2 (Function.update φ i φ') := by
  rw [withdrawalExec_query hr]
  exact ⟨h.solvent, (Function.forall_update_iff φ fun j ψ => ψ.Holds calls w j).2
    ⟨hreply.holds hr h.solvent (h.holds i), fun j _ => h.holds j⟩⟩

theorem Inv.idle (h : Inv calls w φ) : Inv calls w (Function.update φ i .idle) :=
  ⟨h.solvent, (Function.forall_update_iff φ fun j ψ => ψ.Holds calls w j).2
    ⟨trivial, fun j _ => h.holds j⟩⟩

/-- An answer keeps the invariant. -/
theorem Inv.reply {s : Config withdrawals WithdrawalWorld Unit} (h : Inv calls s.world φ)
    (hs : s.Tracks protocol φ) {r : WithdrawalRequest} {c : WithdrawalChoice} {φ' : Phase}
    (hpermitted : c.fault ≠ .lost → WritePermitted calls s r)
    (hreply : Reply (φ i) r (withdrawalExec r c s.world).1 φ') {q : WithdrawalMethod Unit}
    (hq : q.Conforms protocol φ') :
    protocol.Advances s φ i q (Inv calls (withdrawalExec r c s.world).2) := by
  cases hr : r.writes with
  | false => exact .update hq (h.query hreply hr)
  | true =>
    obtain rfl := hreply.idle_of_writes hr
    have hchanges := withdrawalExec_changes r c s.world
    generalize (withdrawalExec r c s.world).2 = w' at hchanges ⊢
    generalize (withdrawalExec r c s.world).1 = x at hreply
    cases hchanges with
    | nothing => exact .update hq h.idle
    | update hf ha => exact h.modify hs ha (hpermitted hf) hq
    | updateMany hf ha => exact h.modify hs ha (hpermitted hf) hq
    | create hf ht =>
      generalize hφ : φ i = ε at hreply
      cases hreply with
      | idle hasks => exact hasks.elim
      | leaves _ hq => cases hq
      | create hcreator hpos hcheck hstatus =>
        subst hcreator
        exact .update hq (h.created ht hφ hpos hcheck hstatus (hpermitted hf))

theorem invariant (calls : List WithdrawalCall) :
    protocol.Invariant withdrawalMachine (Permitted calls) (Inv calls) where
  reply {s φ i r k c} hI hs hget hP := ⟨trivial, fun φ' hreply hk =>
    hI.reply hs (fun hf => hP hf r (by simp [hget, Prog.request])) hreply hk⟩
  event {w φ i v φ'} _ _ := nomatch v
  ended hI _ := hI.idle
  outside {s φ e} hI he := by
    obtain ⟨hrows, hwallets, hle⟩ := withdrawalEnv_changes s.world he
    refine ⟨hI.solvent.env he, fun j => (hI.holds j).mono hwallets (earned_mono hwallets hle)
      fun creatorId _ _ => ?_⟩
    rw [hrows]
  final_rest := trivial

/-- Calls that have not begun know what they were called with. -/
theorem Inv.start {calls : List WithdrawalCall} (hw : Solvent w) :
    Inv calls w fun i => calls[i]?.elim .idle start where
  solvent := hw
  holds i := by
    cases hcall : calls[i]? with
    | none => trivial
    | some call =>
      cases call with
      | requestWithdrawal walletAddress amount destinationType destinationAccount =>
        exact fun x hx ha => ⟨_, hcall, x, hx, ha, rfl⟩
      | interactive userId amount token => exact ⟨_, hcall, rfl⟩
      | _ => trivial

end Coverage

open Coverage in
/-- Calls of the withdrawal endpoints in any order, interleaved in any way, among newly
recorded settlements. Where every step is permitted, the withdrawals that did not fail stay
within the credits of the creator's wallets, and no balance is negative of a wallet whose
creator has no other. -/
theorem withdrawals_covered (cfg : WithdrawalConfig) (calls : List WithdrawalCall)
    (hcalls : ∀ call ∈ calls, call.Valid) (w : WithdrawalWorld)
    (as : List (Action WithdrawalChoice WithdrawalEnv)) (hw : Solvent w)
    (hrun : Config.Along withdrawalMachine (Permitted calls) as ⟨calls.map (·.method cfg), w⟩) :
    ∃ w', w' = (Config.run withdrawalMachine as ⟨calls.map (·.method cfg), w⟩).world ∧
      (∀ creatorId, w'.withdrawals.total WithdrawalStatus.isOpen creatorId ≤
        w'.db.earned creatorId) ∧
      ∀ walletAddress, (∀ x ∈ w'.db.wallets, x.walletAddress = walletAddress →
        ∀ y ∈ w'.db.wallets, y.creatorId = x.creatorId → y = x) →
        ∀ ch : ℕ → WithdrawalChoice, (∀ n, (ch n).fault = .none) →
          ∃ b ch', (getWithdrawableBalance walletAddress).eval withdrawalMachine ch w' =
            (.ok b, ch', w') ∧ 0 ≤ b := by
  obtain ⟨ψ, -, h⟩ := (invariant calls).run as
    (Config.tracks_from (fun call hcall => conforms_method (hcalls call hcall)) w)
    (Inv.start hw) hrun
  exact ⟨_, rfl, h.solvent.opened, fun _ hsole ch hch => h.solvent.balance hsole ch hch⟩

/-- One withdrawal of everything that a later read completes. -/
theorem withdrawals_covered_once : ∃ w', w' = (Config.run withdrawalMachine
      (demoRequest 0 "1" ++ demoRead 1) ⟨[demoWithdrawal, .getWithdrawal "1" none].map
        (·.method demoWithdrawalConfig), demoCredited⟩).world ∧
    w'.withdrawals.total WithdrawalStatus.isOpen "alice" ≤ w'.db.earned "alice" := by
  obtain ⟨w', hw', h, -⟩ := withdrawals_covered demoWithdrawalConfig
    [demoWithdrawal, .getWithdrawal "1" none] (by decide) demoCredited
    (demoRequest 0 "1" ++ demoRead 1) (solvent_empty (by decide) (by decide)) (by decide)
  exact ⟨w', hw', h "alice"⟩

/-- Two calls, one after the other, withdraw everything twice : the first withdrawal is not
completed when the second is checked. Two reads complete both, and the balance is
negative. -/
theorem withdrawals_covered_twice : ∃ s, s = Config.run withdrawalMachine
      (demoRequest 0 "1" ++ demoRequest 1 "2" ++ demoRead 2 ++ demoRead 3)
      ⟨[demoWithdrawal, demoWithdrawal, .getWithdrawal "1" none, .getWithdrawal "2" none].map
        (·.method demoWithdrawalConfig), demoCredited⟩ ∧
    s.Ended ∧ s.world.db.earned "alice" = 950 ∧
      s.world.withdrawals.total WithdrawalStatus.isOpen "alice" = 1900 ∧
      ((getWithdrawableBalance "A").eval withdrawalMachine (fun _ => {}) s.world).1 =
        .ok (-950) :=
  ⟨_, rfl, by decide, by decide, by decide, by decide⟩

end Kreav
