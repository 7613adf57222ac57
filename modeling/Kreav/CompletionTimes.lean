import Kreav.WithdrawalStatuses

/-!
# The completion times of withdrawals

`completedAt` and `status` are written by the same update : a read writes `COMPLETED` and the
time, a poll the mirrored status and the time or null. Only the second write of a request sets
a status alone, and it finds the row that the thread has made, in `REQUESTED` and without a
time, whatever the other threads do. `Writes` is this discipline of the requests. It restricts
the protocol of the endpoints, and the pairing is an invariant of the restricted one.

`completedAt_iff` : in every world that calls of the endpoints lead to from an empty table, a
withdrawal has a completion time if and only if it is `COMPLETED`.
-/

open Async Prog

namespace Kreav

/-- A time of completion goes with the status `COMPLETED`. -/
def Withdrawal.Timed (r : Withdrawal) : Prop :=
  r.completedAt ≠ none ↔ r.status = .completed

instance (r : Withdrawal) : Decidable r.Timed :=
  inferInstanceAs (Decidable (_ ↔ _))

/-- The worlds that calls of the endpoints lead to. They start together, at any time, and what
else the database holds may change before the next ones. -/
inductive WithdrawalWorld.Reachable : WithdrawalWorld → Prop
  | empty (db : Database) : Reachable ⟨db, .empty⟩
  | outside {w : WithdrawalWorld} (h : Reachable w) (db : Database) : Reachable { w with db }
  | run {w : WithdrawalWorld} (h : Reachable w) (cfg : WithdrawalConfig)
    (calls : List WithdrawalCall) (as : List (Action WithdrawalChoice WithdrawalEnv)) :
    Reachable (Config.run withdrawalMachine as ⟨calls.map (·.method cfg), w⟩).world

namespace CompletionTimes

open Statuses

/-- The update sets the status with its time, or neither. -/
def Pairs (data : WithdrawalUpdate) : Prop :=
  data.status = none ∧ data.completedAt = none ∨
    ∃ s t, data.status = some s ∧ data.completedAt = some t ∧ (t ≠ none ↔ s = .completed)

/-- The requests of the endpoints : the updates pair status and time, but for the one that
starts the processing. -/
def Writes : WithdrawalRequest → Prop
  | .withdrawalCreate data => data.status ≠ .completed
  | .withdrawalUpdate _ data => Pairs data ∨ data = { status := some .processing }
  | .withdrawalUpdateMany _ _ data => Pairs data
  | _ => True

/-! ## The requests of the endpoints -/

theorem pairs_pollUpdate {tx : AnchorTransaction} {completedAt : Option ℕ}
    {data : WithdrawalUpdate} (h : pollUpdate tx completedAt = some data)
    (ht : completedAt ≠ none ↔ mapStatus tx.status = .completed) : Pairs data := by
  refine .inr ⟨mapStatus tx.status, completedAt, pollUpdate_status h, ?_, ht⟩
  unfold pollUpdate at h
  split at h
  · exact (Option.some.inj h) ▸ rfl
  · cases h
  · exact (Option.some.inj h) ▸ rfl

theorem ofQueries : OfQueries fun _ p => p.Uses Writes where
  toCompositional := Uses.compositional (S := withdrawals) Writes
  query {r} hr := Uses.ask <| by
    cases r with
    | withdrawalCreate data => cases hr
    | withdrawalUpdate id data => cases hr
    | withdrawalUpdateMany t creatorId data => cases hr
    | _ => trivial

/-- The time of a poll is taken if and only if the anchor reports the status `completed`. -/
theorem uses_transaction (cfg : WithdrawalConfig) (userId id : String) (token : Option String) :
    (transaction cfg userId id token).Uses Writes := by
  refine Uses.bind ofQueries.assertEnabled fun _ => Uses.bind (ofQueries.requireToken token)
    fun anchorToken => Uses.bind (ofQueries.query rfl) fun tx => ?_
  by_cases hs : mapStatus tx.status = .completed
  · simp only [if_pos hs, bind_eq, bind_assoc, pure_eq, ret_bind]
    refine Uses.bind (ofQueries.query rfl) fun now => ?_
    split
    · exact Uses.raise _
    · next data hdata =>
      have hpairs : Pairs data := pairs_pollUpdate hdata (iff_of_true (Option.some_ne_none _) hs)
      exact Uses.bind (Uses.ask hpairs) fun _ => Uses.ret _
  · simp only [if_neg hs, bind_eq, pure_eq, ret_bind]
    split
    · exact Uses.raise _
    · next data hdata =>
      have hpairs : Pairs data := pairs_pollUpdate hdata (iff_of_false (fun h => h rfl) hs)
      exact Uses.bind (Uses.ask hpairs) fun _ => Uses.ret _

theorem uses_method (cfg : WithdrawalConfig) (call : WithdrawalCall) :
    (call.method cfg).Uses Writes := by
  have hunit : ∀ {α : Type} {p : WithdrawalMethod α}, p.Uses Writes →
      (p.bind fun _ => .ret ()).Uses Writes :=
    fun hp => Uses.bind hp fun _ => Uses.ret _
  cases call with
  | requestWithdrawal walletAddress amount destinationType destinationAccount =>
    exact hunit (ofQueries.requestWithdrawal
      (fun data hs => Uses.ask (by simp [Writes, hs])) (fun id => Uses.ask (.inr rfl)) ..)
  | getWithdrawal id requesterCreatorId =>
    refine hunit (ofQueries.getWithdrawal (fun id t => Uses.ask (.inl ?_)) ..)
    exact .inr ⟨.completed, some t, rfl, rfl, by simp⟩
  | interactive userId amount token =>
    exact hunit (ofQueries.interactive (fun data hs _ => Uses.ask (by simp [Writes, hs])) ..)
  | transaction userId id token => exact hunit (uses_transaction cfg userId id token)
  | submitPayment userId signedXdr id =>
    exact hunit (ofQueries.submitPayment (fun _ => Uses.ask (.inl ⟨rfl, rfl⟩)) ..)

/-- The protocol of the endpoints, with these requests alone. -/
abbrev protocol : Protocol withdrawals Phase :=
  Statuses.protocol.restrict Writes

theorem conforms_method (cfg : WithdrawalConfig) (call : WithdrawalCall) :
    (call.method cfg).Suspended ∧ (call.method cfg).Conforms protocol .idle :=
  ⟨withdrawalMethod_suspended _, (Statuses.conforms_method call).2.restrict (uses_method cfg call)⟩

/-! ## The pairing -/

section
variable {data : WithdrawalUpdate} {r : Withdrawal} {amount : Option Usd}

theorem timed_applyTo (h : Pairs data) (hr : r.Timed) : (data.applyTo amount r).Timed := by
  unfold Withdrawal.Timed WithdrawalUpdate.applyTo
  rcases h with ⟨hs, ht⟩ | ⟨s, t, hs, ht, hst⟩
  · rw [hs, ht]
    exact hr
  · rw [hs, ht]
    exact hst

/-- A row in `REQUESTED` has no time. -/
theorem timed_start (hr : r.Timed) (hs : r.status = .requested) :
    (({ status := some .processing } : WithdrawalUpdate).applyTo amount r).Timed := by
  have ht : r.completedAt = none := by
    by_contra hne
    rw [hr.1 hne] at hs
    cases hs
  simp [Withdrawal.Timed, WithdrawalUpdate.applyTo, ht]

/-- A row that was just created has no time. -/
theorem completedAt_created {id : String} {createdAt : ℕ} {data : WithdrawalCreate}
    {t t' : WithdrawalTable} (h : t.create id createdAt data = .ok (r, t')) :
    r.completedAt = none := by
  unfold WithdrawalTable.create at h
  cases ha : Usd.ofCents? data.amount with
  | none => simp [ha] at h
  | some amount =>
    simp only [ha, WithdrawalTable.add] at h
    split at h
    · simp only [Except.map, Except.ok.injEq, Prod.mk.injEq] at h
      rw [← h.1]
    · simp [Except.map] at h

end

variable {c : WithdrawalChoice} {w : WithdrawalWorld}

theorem timed_create {data : WithdrawalCreate} (hdata : data.status ≠ .completed)
    (h : ∀ r ∈ w.withdrawals.rows, r.Timed) :
    ∀ r ∈ (withdrawalExec (.withdrawalCreate data) c w).2.withdrawals.rows, r.Timed := by
  have heffect : ∀ r ∈ (withdrawalEffect (.withdrawalCreate data) c w).2.withdrawals.rows,
      r.Timed := by
    simp only [withdrawalEffect]
    cases hc : w.withdrawals.create c.uuid c.now data with
    | error e => exact h
    | ok rt =>
      obtain ⟨r, t⟩ := rt
      have ht := WithdrawalTable.created hc
      intro r' (hr' : r' ∈ t.rows)
      rw [ht.rows] at hr'
      rcases List.mem_append.1 hr' with hr' | hr'
      · exact h r' hr'
      · obtain rfl := List.mem_singleton.1 hr'
        exact iff_of_false (fun hne => hne (completedAt_created hc)) (ht.status ▸ hdata)
  unfold withdrawalExec
  split
  · exact heffect
  · split
    · exact heffect
    · exact h
    · exact heffect

theorem timed_modify {p : Withdrawal → Bool} {data : WithdrawalUpdate} {amount : Option Usd}
    (h : ∀ r ∈ w.withdrawals.rows, r.Timed)
    (hp : ∀ r ∈ w.withdrawals.rows, p r = true → (data.applyTo amount r).Timed) :
    ∀ r ∈ (w.withdrawals.modify p data amount).rows, r.Timed := by
  intro r' hr'
  obtain ⟨r, hr, rfl⟩ := WithdrawalTable.mem_modify.1 hr'
  split
  · next hpr => exact hp r hr hpr
  · exact h r hr

/-- Statuses and times are paired in all rows, and the phases of the threads are what the
protocol says. -/
structure Inv (w : WithdrawalWorld) (φ : ℕ → Phase) : Prop where
  statuses : Statuses.Inv w φ
  timed : ∀ r ∈ w.withdrawals.rows, r.Timed

/-- Each write keeps the pairing, the second one of a request for the phase of its thread. -/
theorem Inv.exec {φ : ℕ → Phase} {i : ℕ} (h : Inv w φ) {r : WithdrawalRequest} {φ' : Phase}
    (hw : Writes r) (hr : Reply (φ i) r (withdrawalExec r c w).1 φ') :
    Inv (withdrawalExec r c w).2 (Function.update φ i φ') := by
  refine ⟨h.statuses.exec hr, ?_⟩
  have hcreate : ∀ data, r = .withdrawalCreate data → data.status ≠ .completed →
      ∀ r' ∈ (withdrawalExec r c w).2.withdrawals.rows, r'.Timed := by
    rintro data rfl hdata
    exact timed_create hdata h.timed
  have hchanges := withdrawalExec_changes r c w
  generalize (withdrawalExec r c w).1 = x at hr
  generalize (withdrawalExec r c w).2 = w' at hchanges hcreate ⊢
  cases hchanges with
  | nothing => exact h.timed
  | @create data => exact hcreate data rfl hw
  | @update id data =>
    refine timed_modify h.timed fun r hmem hid => ?_
    rcases hw with hpairs | rfl
    · exact timed_applyTo hpairs (h.timed r hmem)
    · -- the thread has made the row, which nobody else has moved since
      generalize hφ : φ i = ε at hr
      cases hr with
      | plain hplain => exact hplain.elim
      | start =>
        have hid' : r.id = id := by simpa using hid
        exact timed_start (h.timed r hmem) (h.statuses.requested_of_made hφ hmem hid')
  | updateMany =>
    exact timed_modify h.timed fun r hmem _ => timed_applyTo hw (h.timed r hmem)

theorem invariant {P : Config withdrawals WithdrawalWorld Unit →
    Action WithdrawalChoice WithdrawalEnv → Prop} :
    protocol.Invariant withdrawalMachine P Inv where
  reply {s φ i r k c} hI _ _ _ :=
    ⟨trivial, fun _ hr hk => Protocol.Advances.update hk (hI.exec hr.1 hr.2)⟩
  event {w φ i v φ'} _ _ := nomatch v
  ended hI _ := ⟨hI.statuses.idle, hI.timed⟩
  outside {s φ e} hI _ := by
    refine ⟨Statuses.invariant.outside (P := fun _ _ => True) (e := e) hI.statuses trivial, ?_⟩
    obtain ⟨orderId, amountUsd, txHash, collaborators⟩ := e
    simp only [withdrawalMachine]
    split <;> exact hI.timed
  final_rest := trivial

/-- Nobody holds a row between the calls. -/
theorem inv_idle (hplain : ∀ r ∈ w.withdrawals.rows, r.status = .requested →
    r.anchorTransactionId = none) (htimed : ∀ r ∈ w.withdrawals.rows, r.Timed) :
    Inv w fun _ => .idle :=
  ⟨⟨hplain, by simp, by simp, by simp⟩, htimed⟩

theorem inv_of_reachable (h : w.Reachable) : Inv w fun _ => .idle := by
  induction h with
  | empty db => exact inv_idle (by simp [WithdrawalTable.empty]) (by simp [WithdrawalTable.empty])
  | outside _ db ih => exact inv_idle ih.statuses.plain ih.timed
  | @run w _ cfg calls as ih =>
    have htracks : Config.Tracks protocol
        (⟨calls.map fun call => call.method cfg, w⟩ :
          Config withdrawals WithdrawalWorld Unit) fun _ => .idle :=
      Config.tracks_map (conforms_method cfg) calls w
    obtain ⟨φ, -, hI⟩ := invariant.run (P := fun _ _ => True) as htracks ih
      (Config.along_of_forall (fun _ _ => trivial) as _)
    exact inv_idle hI.statuses.plain hI.timed

end CompletionTimes

/-- In every world that the endpoints lead to, whatever their calls, their interleaving and the
faults are, a withdrawal has a completion time if and only if it is `COMPLETED`. -/
theorem completedAt_iff {w : WithdrawalWorld} (h : w.Reachable) :
    ∀ r ∈ w.withdrawals.rows, r.completedAt ≠ none ↔ r.status = .completed :=
  (CompletionTimes.inv_of_reachable h).timed

/-- A poll completes the withdrawal and writes the time. -/
theorem completedAt_iff_polled : ∃ r ∈ (Config.run withdrawalMachine
      (demoStart 0 ++ demoPoll "completed")
      ⟨demoCalls.map (·.method demoWithdrawalConfig), demoCredited⟩).world.withdrawals.rows,
    r.status = .completed ∧ r.completedAt ≠ none := by
  have hreach : demoCredited.Reachable := .empty demoCredited.db
  have h := completedAt_iff
    (hreach.run demoWithdrawalConfig demoCalls (demoStart 0 ++ demoPoll "completed"))
  refine ⟨_, List.mem_singleton.2 rfl, by decide, (h _ (List.mem_singleton.2 rfl)).2 (by decide)⟩

end Kreav
