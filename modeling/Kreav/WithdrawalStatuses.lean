import Kreav.AnchorWithdrawals
import Kreav.Lib.Protocols

/-!
# The statuses of withdrawals

A withdrawal starts as `REQUESTED` or, through the anchor, as `PROCESSING`, and it ends as
`COMPLETED` or `FAILED`. No writer looks at the status it replaces. A poll copies what the
anchor reports to rows that have ended too, and a read writes `COMPLETED` on a row that it
found in `PROCESSING` some time before.

As long as these two leave rows that have ended as they are (`Permitted`), each step moves a
status along one arrow, and a row that has ended keeps its status, its amount and its time
(`statuses_forward`). Why a row is `REQUESTED` until its request goes on is a matter of who
knows its id : `protocol` says which row a thread has made, or has found in `PROCESSING`.
-/

open Async Prog

namespace Kreav

/-- `COMPLETED` and `FAILED`. -/
def WithdrawalStatus.IsFinal (s : WithdrawalStatus) : Prop :=
  s = .completed ∨ s = .failed

instance (s : WithdrawalStatus) : Decidable s.IsFinal :=
  inferInstanceAs (Decidable (_ ∨ _))

/-- A status and the next one, or itself. -/
inductive WithdrawalStatus.Moves : WithdrawalStatus → WithdrawalStatus → Prop
  | stays {s} : Moves s s
  | starts : Moves .requested .processing
  | completes : Moves .processing .completed
  | fails : Moves .processing .failed

/-- The row is there, with its status, its amount and its time of completion. -/
def WithdrawalTable.Keeps (t : WithdrawalTable) (r : Withdrawal) : Prop :=
  ∃ r' ∈ t.rows, r'.id = r.id ∧ r'.status = r.status ∧ r'.amount = r.amount ∧
    r'.completedAt = r.completedAt

namespace Statuses

/-- What the update writes is what the row has. -/
structure Agrees (data : WithdrawalUpdate) (r : Withdrawal) : Prop where
  status : ∀ s ∈ data.status, s = r.status
  amount : ∀ cents ∈ data.amount, cents = r.amount.cents
  completedAt : ∀ t ∈ data.completedAt, t = r.completedAt

instance (data : WithdrawalUpdate) (r : Withdrawal) : Decidable (Agrees data r) :=
  decidable_of_iff ((∀ s ∈ data.status, s = r.status) ∧
    (∀ cents ∈ data.amount, cents = r.amount.cents) ∧
      ∀ t ∈ data.completedAt, t = r.completedAt)
    ⟨fun h => ⟨h.1, h.2.1, h.2.2⟩, fun h => ⟨h.status, h.amount, h.completedAt⟩⟩

namespace Agrees

variable {data : WithdrawalUpdate} {r : Withdrawal}

theorem getD_status (h : Agrees data r) : data.status.getD r.status = r.status := by
  cases hs : data.status with
  | none => rfl
  | some s => exact h.status s hs

theorem getD_completedAt (h : Agrees data r) :
    data.completedAt.getD r.completedAt = r.completedAt := by
  cases ht : data.completedAt with
  | none => rfl
  | some t => exact h.completedAt t ht

theorem getD_amount (h : Agrees data r) {amount : Option Usd}
    (ha : data.stored = some amount) : amount.getD r.amount = r.amount := by
  unfold WithdrawalUpdate.stored at ha
  cases hd : data.amount with
  | none =>
    rw [hd] at ha
    rw [← Option.some.inj ha]
    rfl
  | some cents =>
    rw [hd, h.amount cents hd] at ha
    simp only [Usd.ofCents?, dif_pos r.amount.lt, Option.map_some, Option.some.injEq] at ha
    rw [← ha]
    rfl

end Agrees

/-- The condition on the steps of a run : an update by id that completes a row, as a read
makes it, does not find it ended, and an update by transaction, as a poll makes it, agrees
with the rows that have. -/
def Permitted (w : WithdrawalWorld) : WithdrawalRequest → WithdrawalChoice → Prop
  | .withdrawalUpdate id data, c => data.status = some .completed → c.fault ≠ .lost →
    ∀ r ∈ w.withdrawals.rows, r.id = id → ¬ r.status.IsFinal
  | .withdrawalUpdateMany t creatorId data, c => c.fault ≠ .lost → data.stored ≠ none →
    ∀ r ∈ w.withdrawals.rows, r.anchorTransactionId = some t → r.creatorId = creatorId →
      r.status.IsFinal → Agrees data r
  | _, _ => True

instance (w : WithdrawalWorld) : (r : WithdrawalRequest) → (c : WithdrawalChoice) →
    Decidable (Permitted w r c)
  | .withdrawalUpdate _ _, _ => inferInstanceAs (Decidable (_ → _ → ∀ r ∈ _, _))
  | .withdrawalUpdateMany _ _ _, _ => inferInstanceAs (Decidable (_ → _ → ∀ r ∈ _, _))
  | .withdrawalCreate _, _ | .walletCreator _, _
  | .walletOf _, _ | .settledTotal _, _ | .completedTotal _, _ | .lastReference _, _
  | .recentSettlement _, _ | .withdrawalFindUnique _, _ | .now, _ | .randomDigits, _
  | .withdrawInteractive _ _ _, _ | .getTransaction _ _, _ | .submitWithdrawPayment _ _, _ =>
    isTrue trivial

/-! ## The protocol of the endpoints -/

/-- What a thread may do with a withdrawal. -/
inductive Phase
  | idle
  /-- The thread has made the row and will move it to `PROCESSING`. -/
  | made (id : String)
  /-- The thread has found the row in `PROCESSING` and may complete it. -/
  | found (id : String)

/-- Requests that no phase is needed for. -/
def Plain : WithdrawalRequest → Prop
  | .withdrawalCreate data => data.status = .processing
  | .withdrawalUpdate _ _ => False
  | .withdrawalUpdateMany _ _ data => data.status ≠ some .requested
  | _ => True

/-- A row that a request makes, for nobody else to update. -/
def Fresh (data : WithdrawalCreate) : Prop :=
  data.status = .requested ∧ data.anchorTransactionId = none

/-- How the answers change what it may do. -/
inductive Reply : Phase → (r : WithdrawalRequest) → Except WithdrawalError r.Ans → Phase → Prop
  | plain {φ r x} (h : Plain r) : Reply φ r x φ
  | create {data r} (h : Fresh data) : Reply .idle (.withdrawalCreate data) (.ok r) (.made r.id)
  | createFails {data e} (h : Fresh data) : Reply .idle (.withdrawalCreate data) (.error e) .idle
  | start {id x} :
    Reply (.made id) (.withdrawalUpdate id { status := some .processing }) x .idle
  | find {id r} (h : r.status = .processing) :
    Reply .idle (.withdrawalFindUnique id) (.ok (some r)) (.found r.id)
  | complete {id t x} : Reply (.found id)
      (.withdrawalUpdate id { status := some .completed, completedAt := some t }) x .idle

/-- The protocol of the endpoints. -/
def protocol : Protocol withdrawals Phase where
  answers _ _ := True
  reply := Reply
  event φ _ φ' := φ' = φ
  final _ := True
  rest := .idle

theorem ofQueries (φ : Phase) : OfQueries fun _ p => p.Stays protocol φ where
  toCompositional := Stays.compositional protocol φ
  query {r} hr := Stays.ask fun _ _ => .plain <| by
    cases r with
    | withdrawalCreate data => cases hr
    | withdrawalUpdate id data => cases hr
    | withdrawalUpdateMany t creatorId data => cases hr
    | _ => trivial

/-- The queries of a method leave its phase, and the rest of it goes on from there. -/
theorem conforms_bind {α β : Type} {p : WithdrawalMethod α} {f : α → WithdrawalMethod β}
    {φ : Phase} (hp : p.Stays protocol φ) (hf : ∀ a, (f a).Conforms protocol φ) :
    (p.bind f).Conforms protocol φ :=
  Follows.bind (Follows.mono hp (fun _ _ h => h) fun _ _ _ => trivial) fun a φ' he => by
    subst he
    exact hf a

theorem conforms_of_stays {α : Type} {p : WithdrawalMethod α} {φ : Phase}
    (h : p.Stays protocol φ) : p.Conforms protocol φ :=
  h.follows (fun _ => trivial) fun _ => trivial

variable {cfg : WithdrawalConfig}

theorem conforms_requestWithdrawal (walletAddress : String) (amount : ℤ)
    (destinationType destinationAccount : String) :
    (requestWithdrawal cfg walletAddress amount destinationType destinationAccount).Conforms
      protocol .idle := by
  refine conforms_bind ((ofQueries _).query rfl) fun creatorId => ?_
  cases creatorId with
  | none => trivial
  | some creatorId =>
    refine conforms_bind ((ofQueries _).getWithdrawableBalance _) fun available => ?_
    split
    · trivial
    refine conforms_bind (ofQueries _).generateReference fun reference => ?_
    refine conforms_bind ((ofQueries _).findRecentSettlementTxHash _) fun hash => ?_
    refine Follows.bind (R := fun r φ => φ = .made r.id)
      (Follows.ask (fun r _ => ⟨_, .create ⟨rfl, rfl⟩, rfl⟩)
        fun e _ => ⟨_, .createFails ⟨rfl, rfl⟩, trivial⟩) fun r φ he => ?_
    subst he
    exact Follows.bind (R := fun _ _ => True) (Follows.ask (fun _ _ => ⟨_, .start, trivial⟩)
      fun _ _ => ⟨_, .start, trivial⟩) fun _ _ _ => trivial

theorem conforms_getWithdrawal (id : String) (requesterCreatorId : Option String) :
    (getWithdrawal id requesterCreatorId).Conforms protocol .idle := by
  have hreceipt : ∀ (r : Withdrawal) (s : WithdrawalStatus) (t : Option ℕ) (φ : Phase),
      (receiptOf r s t).Conforms protocol φ := fun r s t φ =>
    conforms_of_stays ((ofQueries φ).receiptOf r s t)
  -- a row that was found in another status keeps the thread idle
  refine Follows.bind (R := fun (r : Option Withdrawal) φ =>
    ∀ r' ∈ r, r'.status = .processing → φ = .found r'.id) (Follows.ask (fun r _ => ?_)
      fun e _ => ⟨_, .plain trivial, trivial⟩) fun r φ he => ?_
  · by_cases hr : ∃ r', r = some r' ∧ r'.status = WithdrawalStatus.processing
    · obtain ⟨r', rfl, hs⟩ := hr
      refine ⟨_, .find hs, fun r'' hr'' _ => ?_⟩
      rw [Option.some.inj hr'']
    · exact ⟨.idle, .plain trivial, fun r' hr' hs => absurd ⟨r', hr', hs⟩ hr⟩
  · cases r with
    | none => trivial
    | some r =>
      dsimp only
      split
      · trivial
      split
      · next hs =>
        obtain rfl := he r rfl hs
        refine conforms_bind ((ofQueries _).query (r := .now) rfl) fun now => ?_
        split
        · refine conforms_bind ((ofQueries _).query rfl) fun completedAt => ?_
          exact Follows.bind (R := fun _ _ => True)
            (Follows.ask (fun _ _ => ⟨_, .complete, trivial⟩) fun _ _ => ⟨_, .complete, trivial⟩)
              fun _ φ _ => hreceipt _ _ _ _
        · exact hreceipt _ _ _ _
      · exact hreceipt _ _ _ _

theorem conforms_method (call : WithdrawalCall) :
    (call.method cfg).Suspended ∧ (call.method cfg).Conforms protocol .idle := by
  have hunit : ∀ {α : Type} {p : WithdrawalMethod α}, p.Conforms protocol .idle →
      (p.bind fun _ => .ret ()).Conforms protocol .idle := fun hp =>
    Follows.bind (Follows.mono hp (fun _ _ _ => trivial) fun _ _ _ => trivial)
      (R := fun _ _ => True) fun _ _ _ => trivial
  have hplain : ∀ {r : WithdrawalRequest}, Plain r → (awaitW r).Stays protocol .idle :=
    fun h => Stays.ask fun _ _ => .plain h
  refine ⟨withdrawalMethod_suspended _, ?_⟩
  cases call with
  | requestWithdrawal walletAddress amount destinationType destinationAccount =>
    exact hunit (conforms_requestWithdrawal _ _ _ _)
  | getWithdrawal id requesterCreatorId => exact hunit (conforms_getWithdrawal _ _)
  | interactive userId amount token =>
    exact hunit (conforms_of_stays ((ofQueries _).interactive (fun _ hs _ => hplain hs) _ _))
  | transaction userId id token =>
    refine hunit (conforms_of_stays ((ofQueries _).transaction (fun tx _ data hdata =>
      hplain ?_) _))
    simp [Plain, pollUpdate_status hdata, mapStatus_ne_requested]
  | submitPayment userId signedXdr id =>
    exact hunit (conforms_of_stays ((ofQueries _).submitPayment
      (fun _ => hplain (by simp [Plain])) _))

/-! ## What holds between requests -/

/-- A row in `REQUESTED` is its maker's alone, and a row that was found in `PROCESSING` is
never in `REQUESTED` again. -/
structure Inv (w : WithdrawalWorld) (φ : ℕ → Phase) : Prop where
  plain : ∀ r ∈ w.withdrawals.rows, r.status = .requested → r.anchorTransactionId = none
  made : ∀ {i id}, φ i = .made id → ∃ r ∈ w.withdrawals.rows, r.id = id ∧ r.status = .requested
  alone : ∀ {i j id}, φ i = .made id → φ j = .made id → i = j
  found : ∀ {i id}, φ i = .found id → ∃ r ∈ w.withdrawals.rows, r.id = id ∧ r.status ≠ .requested

namespace Inv

variable {w : WithdrawalWorld} {φ : ℕ → Phase} {i : ℕ}

theorem requested_of_made (h : Inv w φ) {id : String} (hi : φ i = .made id) {r : Withdrawal}
    (hr : r ∈ w.withdrawals.rows) (hid : r.id = id) : r.status = .requested := by
  obtain ⟨r', hr', hid', hs⟩ := h.made hi
  rwa [WithdrawalTable.eq_of_id hr hr' (hid.trans hid'.symm)]

theorem not_requested_of_found (h : Inv w φ) {id : String} (hi : φ i = .found id)
    {r : Withdrawal} (hr : r ∈ w.withdrawals.rows) (hid : r.id = id) : r.status ≠ .requested := by
  obtain ⟨r', hr', hid', hs⟩ := h.found hi
  rwa [WithdrawalTable.eq_of_id hr hr' (hid.trans hid'.symm)]

/-- A thread whose new phase claims nothing that is not so. -/
theorem update (h : Inv w φ) {ε : Phase}
    (hmade : ∀ id, ε = .made id → (∃ r ∈ w.withdrawals.rows, r.id = id ∧ r.status = .requested) ∧
      ∀ j, j ≠ i → φ j ≠ .made id)
    (hfound : ∀ id, ε = .found id → ∃ r ∈ w.withdrawals.rows, r.id = id ∧ r.status ≠ .requested) :
    Inv w (Function.update φ i ε) where
  plain := h.plain
  made {j id} hj := (Function.forall_update_iff φ fun _ ψ => ∀ id, ψ = .made id →
    ∃ r ∈ w.withdrawals.rows, r.id = id ∧ r.status = .requested).2
      ⟨fun id he => (hmade id he).1, fun _ _ _ => h.made⟩ j id hj
  alone {j k id} hj hk := by
    by_cases he : ε = .made id
    · have hi : ∀ l, Function.update φ i ε l = .made id → l = i :=
        Phases.eq_of_update (T := (· = Phase.made id)) (hmade id he).2
      exact (hi j hj).trans (hi k hk).symm
    · have hφ : ∀ l, Function.update φ i ε l = .made id → φ l = .made id :=
        Phases.of_update (T := (· = Phase.made id)) fun h => absurd h he
      exact h.alone (hφ j hj) (hφ k hk)
  found {j id} hj := (Function.forall_update_iff φ fun _ ψ => ∀ id, ψ = .found id →
    ∃ r ∈ w.withdrawals.rows, r.id = id ∧ r.status ≠ .requested).2
      ⟨hfound, fun _ _ _ => h.found⟩ j id hj

theorem made_of_idle {id : String} :
    ∀ j, Function.update φ i .idle j = .made id → φ j = .made id :=
  Phases.of_update (T := (· = Phase.made id)) fun he => nomatch he

theorem idle (h : Inv w φ) : Inv w (Function.update φ i .idle) :=
  h.update (fun _ he => nomatch he) fun _ he => nomatch he

/-- A row was added that only its maker may update while it is in `REQUESTED`. -/
theorem created (h : Inv w φ) {data : WithdrawalCreate} {r : Withdrawal} {t : WithdrawalTable}
    (ht : w.withdrawals.Created data r t)
    (hdata : data.status = .requested → data.anchorTransactionId = none) :
    Inv { w with withdrawals := t } φ where
  plain r' (hr' : r' ∈ t.rows) hs := by
    rw [ht.rows] at hr'
    rcases List.mem_append.1 hr' with hr' | hr'
    · exact h.plain r' hr' hs
    · obtain rfl := List.mem_singleton.1 hr'
      rw [ht.anchorTransactionId]
      exact hdata (ht.status.symm.trans hs)
  made hj := by
    obtain ⟨r', hr', hr⟩ := h.made hj
    exact ⟨r', ht.rows ▸ List.mem_append_left _ hr', hr⟩
  alone := h.alone
  found hj := by
    obtain ⟨r', hr', hr⟩ := h.found hj
    exact ⟨r', ht.rows ▸ List.mem_append_left _ hr', hr⟩

/-- An update that leaves alone the rows that were just made. -/
theorem modify (h : Inv w φ) {p : Withdrawal → Bool} {data : WithdrawalUpdate}
    {amount : Option Usd} (hs : data.status ≠ some .requested)
    (hp : ∀ r ∈ w.withdrawals.rows, p r = true → ∀ j, φ j ≠ .made r.id) :
    Inv { w with withdrawals := w.withdrawals.modify p data amount } φ := by
  have hstatus : ∀ r : Withdrawal, (data.applyTo amount r).status = .requested →
      r.status = .requested := by
    intro r hr
    cases hd : data.status with
    | none => simpa [WithdrawalUpdate.applyTo, hd] using hr
    | some s =>
      have he : s = .requested := by simpa [WithdrawalUpdate.applyTo, hd] using hr
      exact absurd (hd.trans (congrArg some he)) hs
  refine ⟨fun r' hr' hreq => ?_, fun {j id} hj => ?_, h.alone, fun {j id} hj => ?_⟩
  · obtain ⟨r, hr, rfl⟩ := WithdrawalTable.mem_modify.1 hr'
    split at hreq
    · rw [if_pos ‹_›]
      exact h.plain r hr (hstatus r hreq)
    · rw [if_neg ‹_›]
      exact h.plain r hr hreq
  · obtain ⟨r, hr, hid, hreq⟩ := h.made hj
    have hpr : p r ≠ true := fun hpr => hp r hr hpr j (hid ▸ hj)
    exact ⟨r, WithdrawalTable.mem_modify.2 ⟨r, hr, if_neg hpr⟩, hid, hreq⟩
  · obtain ⟨r, hr, hid, hreq⟩ := h.found hj
    refine ⟨_, WithdrawalTable.mem_modify.2 ⟨r, hr, rfl⟩, ?_⟩
    split
    · exact ⟨hid, fun he => hreq (hstatus r he)⟩
    · exact ⟨hid, hreq⟩

/-- The row that a thread has just made. -/
theorem make (h : Inv w φ) {data : WithdrawalCreate} {r : Withdrawal} {t : WithdrawalTable}
    (ht : w.withdrawals.Created data r t) (hdata : Fresh data) :
    Inv { w with withdrawals := t } (Function.update φ i (.made r.id)) := by
  refine (h.created ht fun _ => hdata.2).update (fun id he => ?_) fun _ he => nomatch he
  obtain rfl := Phase.made.inj he
  refine ⟨⟨r, ?_, rfl, ht.status.trans hdata.1⟩, fun j _ hj => ?_⟩
  · exact ht.rows ▸ List.mem_append_right _ (List.mem_singleton.2 rfl)
  · -- the id of a row that was there already is not given again
    obtain ⟨r', hr', hid, -⟩ := h.made hj
    exact ht.fresh (List.mem_map.2 ⟨r', hr', hid⟩)

/-- An answer keeps the invariant. -/
theorem exec (h : Inv w φ) {r : WithdrawalRequest} {c : WithdrawalChoice} {φ' : Phase}
    (hr : Reply (φ i) r (withdrawalExec r c w).1 φ') :
    Inv (withdrawalExec r c w).2 (Function.update φ i φ') := by
  have hchanges := withdrawalExec_changes r c w
  generalize hexec : withdrawalExec r c w = a at hr hchanges ⊢
  obtain ⟨x, w'⟩ := a
  generalize hφ : φ i = ε at hr
  cases hr with
  | plain hr =>
    rw [← hφ, Function.update_eq_self]
    cases hchanges with
    | nothing => exact h
    | create _ ht => exact h.created ht fun hs => absurd (hs.symm.trans hr) (by decide)
    | update => exact hr.elim
    | @updateMany t creatorId data =>
      refine h.modify hr fun r' hr' hp j hj => ?_
      obtain ⟨ht, -⟩ : r'.anchorTransactionId = some t ∧ r'.creatorId = creatorId := by
        simpa using hp
      rw [h.plain r' hr' (h.requested_of_made hj hr' rfl)] at ht
      cases ht
  | create hdata =>
    obtain ⟨t, ht, rfl⟩ := withdrawalExec_create_ok hexec
    exact h.make ht hdata
  | createFails hdata =>
    cases hchanges with
    | nothing => exact h.idle
    | create _ ht => exact (h.created ht fun _ => hdata.2).idle
  | @start id =>
    cases hchanges with
    | nothing => exact h.idle
    | update =>
      refine h.idle.modify (by simp) fun r' hr' hid j hj => ?_
      obtain rfl : r'.id = id := by simpa using hid
      obtain rfl := h.alone (made_of_idle j hj) hφ
      rw [Function.update_self] at hj
      cases hj
  | find hs =>
    obtain ⟨hr', rfl⟩ := withdrawalExec_find_ok hexec
    refine h.update (fun id he => nomatch he) fun id he => ⟨_, hr', Phase.found.inj he, ?_⟩
    simp [hs]
  | @complete id =>
    cases hchanges with
    | nothing => exact h.idle
    | update =>
      refine h.idle.modify (by simp) fun r' hr' hid j hj => ?_
      obtain rfl : r'.id = id := by simpa using hid
      exact h.not_requested_of_found hφ hr' rfl (h.requested_of_made (made_of_idle j hj) hr' rfl)

end Inv

theorem invariant {P : Config withdrawals WithdrawalWorld Unit →
    Action WithdrawalChoice WithdrawalEnv → Prop} :
    protocol.Invariant withdrawalMachine P Inv where
  reply {s φ i r k c} hI _ _ _ :=
    ⟨trivial, fun _ hr hk => Protocol.Advances.update hk (hI.exec hr)⟩
  event {w φ i v φ'} _ _ := nomatch v
  ended hI _ := hI.idle
  outside {s φ e} hI _ := by
    obtain ⟨orderId, amountUsd, txHash, collaborators⟩ := e
    simp only [withdrawalMachine]
    split
    · exact ⟨hI.plain, hI.made, hI.alone, hI.found⟩
    · exact hI
  final_rest := trivial

/-! ## The arrows -/

/-- Each row is there again, its status moved along one arrow at most, and one that has ended
as it was. -/
def Onward (t t' : WithdrawalTable) : Prop :=
  ∀ r ∈ t.rows, (∃ r' ∈ t'.rows, r'.id = r.id ∧ r.status.Moves r'.status) ∧
    (r.status.IsFinal → t'.Keeps r)

theorem Onward.of_subset {t t' : WithdrawalTable} (h : t.rows ⊆ t'.rows) : Onward t t' :=
  fun r hr => ⟨⟨r, h hr, rfl, .stays⟩, fun _ => ⟨r, h hr, rfl, rfl, rfl, rfl⟩⟩

theorem Onward.modify {t : WithdrawalTable} {p : Withdrawal → Bool} {data : WithdrawalUpdate}
    {amount : Option Usd} (hmoves : ∀ r ∈ t.rows, p r = true →
      r.status.Moves (data.status.getD r.status))
    (hagrees : ∀ r ∈ t.rows, p r = true → r.status.IsFinal → Agrees data r)
    (ha : data.stored = some amount) : Onward t (t.modify p data amount) := by
  intro r hr
  have hmem : (if p r then data.applyTo amount r else r) ∈ (t.modify p data amount).rows :=
    WithdrawalTable.mem_modify.2 ⟨r, hr, rfl⟩
  split at hmem
  · next hp =>
    refine ⟨⟨_, hmem, rfl, hmoves r hr hp⟩, fun hfinal => ⟨_, hmem, rfl, ?_⟩⟩
    have hagree := hagrees r hr hp hfinal
    exact ⟨hagree.getD_status, hagree.getD_amount ha, hagree.getD_completedAt⟩
  · exact ⟨⟨r, hmem, rfl, .stays⟩, fun _ => ⟨r, hmem, rfl, rfl, rfl, rfl⟩⟩

/-- A status in `PROCESSING` moves to every status but `REQUESTED`. -/
theorem moves_processing {s : WithdrawalStatus} (h : s ≠ .requested) :
    WithdrawalStatus.Moves .processing s := by
  cases s with
  | requested => exact absurd rfl h
  | processing => exact .stays
  | completed => exact .completes
  | failed => exact .fails

/-- A status that is not `REQUESTED` and has not ended. -/
theorem eq_processing {s : WithdrawalStatus} (h : s ≠ .requested) (hf : ¬ s.IsFinal) :
    s = .processing := by
  cases s with
  | requested => exact absurd rfl h
  | processing => rfl
  | completed => exact absurd (Or.inl rfl) hf
  | failed => exact absurd (Or.inr rfl) hf

theorem Inv.onward {w : WithdrawalWorld} {φ : ℕ → Phase} {i : ℕ} (h : Inv w φ)
    {r : WithdrawalRequest} {c : WithdrawalChoice} {φ' : Phase}
    (hr : Reply (φ i) r (withdrawalExec r c w).1 φ') (hc : Permitted w r c) :
    Onward w.withdrawals (withdrawalExec r c w).2.withdrawals := by
  have hchanges := withdrawalExec_changes r c w
  generalize (withdrawalExec r c w).1 = x at hr
  generalize (withdrawalExec r c w).2 = w' at hchanges ⊢
  generalize hφ : φ i = ε at hr
  cases hchanges with
  | nothing => exact .of_subset (List.Subset.refl _)
  | create _ ht => exact .of_subset (ht.rows ▸ List.subset_append_left _ _)
  | @update id data amount _ hf ha =>
    cases hr with
    | plain hplain => exact hplain.elim
    | start =>
      -- the row is in `REQUESTED`, as the thread made it
      have hreq : ∀ r' ∈ w.withdrawals.rows, (decide (r'.id = id)) = true →
          r'.status = .requested := fun r' hr' hid =>
        h.requested_of_made hφ hr' (by simpa using hid)
      refine .modify (fun r' hr' hid => ?_) (fun r' hr' hid hfinal => ?_) ha
      · rw [hreq r' hr' hid]
        exact .starts
      · rw [hreq r' hr' hid] at hfinal
        exact absurd hfinal (by decide)
    | complete =>
      -- the row was found in `PROCESSING`, and it has not ended since
      have hid' : ∀ r' : Withdrawal, decide (r'.id = id) = true → r'.id = id := fun r' hid => by
        simpa using hid
      refine .modify (fun r' hr' hid => ?_) (fun r' hr' hid hfinal => ?_) ha
      · rw [eq_processing (h.not_requested_of_found hφ hr' (hid' r' hid))
          (hc rfl hf r' hr' (hid' r' hid))]
        exact .completes
      · exact absurd hfinal (hc rfl hf r' hr' (hid' r' hid))
  | @updateMany t creatorId data amount hf ha =>
    cases hr with
    | plain hplain =>
      have hp' : ∀ r' : Withdrawal, decide (r'.anchorTransactionId = some t ∧
          r'.creatorId = creatorId) = true → r'.anchorTransactionId = some t ∧
            r'.creatorId = creatorId := fun r' hp => by simpa using hp
      have hagrees : ∀ r' ∈ w.withdrawals.rows, decide (r'.anchorTransactionId = some t ∧
          r'.creatorId = creatorId) = true → r'.status.IsFinal → Agrees data r' :=
        fun r' hr' hp => hc hf (by simp [ha]) r' hr' (hp' r' hp).1 (hp' r' hp).2
      refine .modify (fun r' hr' hp => ?_) hagrees ha
      by_cases hfinal : r'.status.IsFinal
      · rw [(hagrees r' hr' hp hfinal).getD_status]
        exact .stays
      · have hne : r'.status ≠ .requested := by
          intro hreq
          have ht := (hp' r' hp).1
          rw [h.plain r' hr' hreq] at ht
          cases ht
        rw [eq_processing hne hfinal]
        refine moves_processing ?_
        cases hs : data.status with
        | none => decide
        | some s =>
          intro he
          exact hplain (hs.trans (congrArg some he))

/-- What is known of a run between its actions. -/
def Reached (s : Config withdrawals WithdrawalWorld Unit) : Prop :=
  ∃ φ, s.Tracks protocol φ ∧ Inv s.world φ

/-- The requests of an action are permitted. -/
abbrev PermittedAction (s : Config withdrawals WithdrawalWorld Unit) :
    Action WithdrawalChoice WithdrawalEnv → Prop :=
  s.Meets Permitted fun _ _ => True

theorem Reached.act {s : Config withdrawals WithdrawalWorld Unit} (h : Reached s)
    (a : Action WithdrawalChoice WithdrawalEnv) : Reached (s.act withdrawalMachine a) := by
  obtain ⟨φ, hs, hI⟩ := h
  exact (invariant (P := fun _ _ => True)).act hs hI trivial

/-- One action moves each status along one arrow at most. -/
theorem Reached.onward {s : Config withdrawals WithdrawalWorld Unit} (h : Reached s)
    {a : Action WithdrawalChoice WithdrawalEnv} (ha : PermittedAction s a) :
    Onward s.world.withdrawals (s.act withdrawalMachine a).world.withdrawals := by
  obtain ⟨φ, hs, hI⟩ := h
  cases a with
  | env e =>
    obtain ⟨orderId, amountUsd, txHash, collaborators⟩ := e
    simp only [Config.act, withdrawalMachine]
    split <;> exact .of_subset (List.Subset.refl _)
  | run i c =>
    cases hp : s.threads[i]? with
    | none =>
      simp only [Config.act, hp]
      exact .of_subset (List.Subset.refl _)
    | some p =>
      rw [Config.act_run withdrawalMachine c hp]
      cases p with
      | call r k =>
        have hw : s.Waits i r := ⟨_, hp, rfl⟩
        obtain ⟨φ', hr⟩ := hs.reply hw (x := (withdrawalExec r c s.world).1) trivial
        simp only [Prog.resume, withdrawalMethod_flush]
        exact hI.onward hr (ha r hw)
      | _ => exact .of_subset (List.Subset.refl _)

/-- A row that has ended is kept to the end of the run. -/
theorem keeps_run {r : Withdrawal} (hr : r.status.IsFinal)
    (as : List (Action WithdrawalChoice WithdrawalEnv))
    {s : Config withdrawals WithdrawalWorld Unit} (hs : Reached s)
    (hrow : s.world.withdrawals.Keeps r)
    (ha : Config.Along withdrawalMachine PermittedAction as s) :
    (s.run withdrawalMachine as).world.withdrawals.Keeps r := by
  refine (Config.inv_run (I := fun s => Reached s ∧ s.world.withdrawals.Keeps r)
    (fun s a h ha => ⟨h.1.act a, ?_⟩) as s ⟨hs, hrow⟩ ha).2
  obtain ⟨r', hr', hid, hstatus, hamount, htime⟩ := h.2
  obtain ⟨r'', hr'', hid', hstatus', hamount', htime'⟩ :=
    (h.1.onward ha r' hr').2 (hstatus ▸ hr)
  exact ⟨r'', hr'', hid'.trans hid, hstatus'.trans hstatus, hamount'.trans hamount,
    htime'.trans htime⟩

end Statuses

/-- Calls of the withdrawal endpoints in any order, interleaved in any way, whose steps meet
`Permitted` : each action moves the status of each row along one arrow at most, and a row
that has ended keeps its status, its amount and its time to the end of the run. -/
theorem statuses_forward (cfg : WithdrawalConfig) (calls : List WithdrawalCall)
    (w : WithdrawalWorld) (as : List (Action WithdrawalChoice WithdrawalEnv))
    (hw : ∀ r ∈ w.withdrawals.rows, r.status = .requested → r.anchorTransactionId = none)
    (hrun : Config.Along withdrawalMachine (Config.Meets Statuses.Permitted fun _ _ => True) as
      ⟨calls.map (·.method cfg), w⟩)
    (as₁ as₂ : List (Action WithdrawalChoice WithdrawalEnv))
    (a : Action WithdrawalChoice WithdrawalEnv) (has : as = as₁ ++ a :: as₂) :
    ∀ r ∈ (Config.run withdrawalMachine as₁
        ⟨calls.map (·.method cfg), w⟩).world.withdrawals.rows,
      (∃ r' ∈ (Config.run withdrawalMachine (as₁ ++ [a])
          ⟨calls.map (·.method cfg), w⟩).world.withdrawals.rows,
        r'.id = r.id ∧ r.status.Moves r'.status) ∧
      (r.status.IsFinal → (Config.run withdrawalMachine as
        ⟨calls.map (·.method cfg), w⟩).world.withdrawals.Keeps r) := by
  subst has
  obtain ⟨has₁, ha, has₂⟩ := Config.along_append.1 hrun
  have hreached : Statuses.Reached
      (Config.run withdrawalMachine as₁ ⟨calls.map (·.method cfg), w⟩) := by
    have htracks : Config.Tracks Statuses.protocol
        (⟨calls.map fun call => call.method cfg, w⟩ :
          Config withdrawals WithdrawalWorld Unit) fun _ => Statuses.protocol.rest :=
      Config.tracks_map Statuses.conforms_method calls w
    refine Statuses.invariant.run as₁ htracks ⟨hw, ?_, ?_, ?_⟩ has₁
    · exact fun hj => nomatch hj
    · exact fun hj => nomatch hj
    · exact fun hj => nomatch hj
  intro r hr
  obtain ⟨hmoves, -⟩ := hreached.onward ha r hr
  refine ⟨?_, fun hfinal => ?_⟩
  · rw [Config.run_append]
    exact hmoves
  · rw [Config.run_append]
    exact Statuses.keeps_run hfinal (a :: as₂) hreached ⟨r, hr, rfl, rfl, rfl, rfl⟩ ⟨ha, has₂⟩

/-- The withdrawal of `alice` through the anchor, a read of it and a poll. -/
def demoCalls : List WithdrawalCall :=
  [demoInteractive, .getWithdrawal "t" (some "alice"), .transaction "alice" "t" (some "token")]

/-- The poll, which finds the status `anchorStatus`. -/
def demoPoll (anchorStatus : String) : List (Action WithdrawalChoice WithdrawalEnv) :=
  List.replicate 3 (.run 2 { transaction := { status := anchorStatus } })

/-- The poll completes the withdrawal, and the read finds it completed. -/
theorem statuses_forward_polled : ∃ r ∈ (Config.run withdrawalMachine
      (demoStart 0 ++ demoPoll "completed")
      ⟨demoCalls.map (·.method demoWithdrawalConfig), demoCredited⟩).world.withdrawals.rows,
    r.status = .completed ∧ (Config.run withdrawalMachine
      (demoStart 0 ++ demoPoll "completed" ++ demoRead 1)
      ⟨demoCalls.map (·.method demoWithdrawalConfig), demoCredited⟩).world.withdrawals.Keeps r := by
  refine ⟨_, List.mem_singleton.2 rfl, by decide, ?_⟩
  refine (statuses_forward demoWithdrawalConfig demoCalls demoCredited
    (demoStart 0 ++ demoPoll "completed" ++ demoRead 1) (by decide) (by decide)
    (demoStart 0 ++ demoPoll "completed") (List.replicate 7 (.run 1 { now := simulationDelayMs }))
    (.run 1 { now := simulationDelayMs }) rfl _ (List.mem_singleton.2 rfl)).2 (Or.inl ?_)
  decide

/-- A read completes the withdrawal after the delay. The poll that comes then finds the anchor
at work, and the withdrawal is in `PROCESSING` again. -/
theorem statuses_back : ∃ r ∈ (Config.run withdrawalMachine (demoStart 0 ++ demoRead 1)
      ⟨demoCalls.map (·.method demoWithdrawalConfig), demoCredited⟩).world.withdrawals.rows,
    r.status = .completed ∧ r.completedAt = some simulationDelayMs ∧
    ∃ r' ∈ (Config.run withdrawalMachine
        (demoStart 0 ++ demoRead 1 ++ demoPoll "pending_anchor")
        ⟨demoCalls.map (·.method demoWithdrawalConfig), demoCredited⟩).world.withdrawals.rows,
      r'.id = r.id ∧ r'.status = .processing ∧ r'.completedAt = none := by
  decide

end Kreav
