import Kreav.Lib.Ghost
import Kreav.Lib.Triples
import Kreav.WithdrawalSteps

/-!
# Withdrawals through the anchor

A withdrawal with an anchor transaction is the anchor's to complete : a poll copies the
status. A read of a withdrawal completes any row by the clock, the anchor's too. The polls
are recorded as they are answered (`polled`), and as long as a read completes no row whose
anchor transaction was not reported as completed (`Permitted`), every completed withdrawal of
the anchor was (`anchor_completed`).
-/

open Async Prog

namespace Kreav

namespace Anchor

/-- The anchor's transactions with the statuses that polls were answered with. -/
abbrev Polls :=
  List (String × String)

/-- What is recorded of an answer : the status in the answer to a poll. -/
def polled : (r : WithdrawalRequest) → Except WithdrawalError r.Ans → Polls
  | .getTransaction _ id, .ok (tx : AnchorTransaction) => [(id, tx.status)]
  | _, _ => []

/-- The endpoints, with a record of the polls. -/
abbrev recorded :
    Machine withdrawals (WithdrawalWorld × Polls) WithdrawalChoice WithdrawalEnv :=
  withdrawalMachine.record polled

/-- A poll of this transaction was answered with `completed`. -/
def Reported (polls : Polls) (anchorTransactionId : String) : Prop :=
  (anchorTransactionId, "completed") ∈ polls

instance (polls : Polls) (anchorTransactionId : String) :
    Decidable (Reported polls anchorTransactionId) :=
  inferInstanceAs (Decidable (_ ∈ _))

/-- The transaction of a completed withdrawal was reported as completed. -/
def Honest (polls : Polls) (r : Withdrawal) : Prop :=
  ∀ t ∈ r.anchorTransactionId, r.status = .completed → Reported polls t

/-- Every withdrawal is honest. -/
def Inv (w : WithdrawalWorld × Polls) : Prop :=
  ∀ r ∈ w.1.withdrawals.rows, Honest w.2 r

/-- The condition on the steps of a run : an update by id that completes a row, as a read
makes it, finds one without an anchor transaction or with one that was reported as
completed. -/
def Permitted (w : WithdrawalWorld × Polls) : WithdrawalRequest → WithdrawalChoice → Prop
  | .withdrawalUpdate id data, c => data.status = some .completed → c.fault ≠ .lost →
    ∀ r ∈ w.1.withdrawals.rows, r.id = id → ∀ t ∈ r.anchorTransactionId, Reported w.2 t
  | _, _ => True

instance (w : WithdrawalWorld × Polls) : (r : WithdrawalRequest) → (c : WithdrawalChoice) →
    Decidable (Permitted w r c)
  | .withdrawalUpdate _ _, _ => inferInstanceAs (Decidable (_ → _ → ∀ r ∈ _, _))
  | .withdrawalCreate _, _ | .withdrawalUpdateMany _ _ _, _ | .walletCreator _, _
  | .walletOf _, _ | .settledTotal _, _ | .completedTotal _, _ | .lastReference _, _
  | .recentSettlement _, _ | .withdrawalFindUnique _, _ | .now, _ | .randomDigits, _
  | .withdrawInteractive _ _ _, _ | .getTransaction _ _, _ | .submitWithdrawPayment _ _, _ =>
    isTrue trivial

/-- What the endpoints see to themselves : a new withdrawal is not completed, and a poll
completes rows only of a transaction that it found completed. -/
def Careful (polls : Polls) : WithdrawalRequest → Prop
  | .withdrawalCreate data => data.status ≠ .completed
  | .withdrawalUpdateMany t _ data => data.status = some .completed → Reported polls t
  | _ => True

/-! ## One request -/

variable {w : WithdrawalWorld × Polls}

theorem Honest.mono {polls polls' : Polls} {r : Withdrawal} (h : Honest polls r)
    (hp : polls ⊆ polls') : Honest polls' r :=
  fun t ht hs => hp (h t ht hs)

/-- An update of rows whose transactions are reported if it completes them. -/
theorem Inv.modify (h : Inv w) {p : Withdrawal → Bool} {data : WithdrawalUpdate}
    {amount : Option Usd} (hp : data.status = some .completed → ∀ r ∈ w.1.withdrawals.rows,
      p r = true → ∀ t ∈ r.anchorTransactionId, Reported w.2 t) :
    ∀ r ∈ (w.1.withdrawals.modify p data amount).rows, Honest w.2 r := by
  intro r hr
  obtain ⟨r, hmem, rfl⟩ := WithdrawalTable.mem_modify.1 hr
  split
  · next hpr =>
    intro t ht hs
    cases hd : data.status with
    | none =>
      refine h r hmem t ht ?_
      simpa [WithdrawalUpdate.applyTo, hd] using hs
    | some s =>
      obtain rfl : s = .completed := by simpa [WithdrawalUpdate.applyTo, hd] using hs
      exact hp hd r hmem hpr t ht
  · exact h r hmem

/-- A careful request keeps every withdrawal honest. -/
theorem Inv.exec (h : Inv w) {r : WithdrawalRequest} {c : WithdrawalChoice}
    (hr : Careful w.2 r) (hc : Permitted w r c) : Inv (recorded.exec r c w).2 := by
  have hworld : Inv ((withdrawalExec r c w.1).2, w.2) := by
    have hchanges := withdrawalExec_changes r c w.1
    generalize (withdrawalExec r c w.1).2 = w' at hchanges ⊢
    cases hchanges with
    | nothing => exact h
    | @create data r' t hf ht =>
      intro r'' (hmem : r'' ∈ t.rows)
      rw [ht.rows] at hmem
      rcases List.mem_append.1 hmem with hmem | hmem
      · exact h r'' hmem
      · obtain rfl := List.mem_singleton.1 hmem
        exact fun _ _ hs => absurd (ht.status.symm.trans hs) hr
    | @update id data amount _ hf =>
      refine h.modify fun hs r' hmem hid => hc hs hf r' hmem ?_
      simpa using hid
    | @updateMany t creatorId data =>
      refine h.modify fun hs r' _ hp t' ht' => ?_
      obtain ⟨ht, -⟩ : r'.anchorTransactionId = some t ∧ r'.creatorId = creatorId := by
        simpa using hp
      rw [ht] at ht'
      obtain rfl := Option.some.inj ht'
      exact hr hs
  exact fun r hmem => (hworld r hmem).mono (List.subset_append_left _ _)

/-! ## Calls -/

/-- Any calls of the endpoints. The record only grows. -/
def discipline : Discipline recorded :=
  Discipline.apart recorded Inv (fun _ w w' => w.2 ⊆ w'.2) Permitted (fun _ _ => True)
    (fun _ _ => List.Subset.refl _) (fun h h' => List.Subset.trans h h')
    fun {w e} h _ => by
      refine ⟨?_, fun _ => List.Subset.refl _⟩
      obtain ⟨orderId, amountUsd, txHash, collaborators⟩ := e
      simp only [Machine.record, withdrawalMachine]
      split <;> exact h

variable {i : ℕ}

theorem guar (r : WithdrawalRequest) (c : WithdrawalChoice) (w : WithdrawalWorld × Polls) :
    discipline.guar i w (recorded.exec r c w).2 :=
  fun _ _ => List.subset_append_left _ _

/-- The invariant, with something that the record has. -/
theorem assertion {P : Polls → Prop} (hP : ∀ {p p' : Polls}, P p → p ⊆ p' → P p') :
    discipline.Assertion i fun w => Inv w ∧ P w.2 where
  inv h := h.1
  rely h hr hi := ⟨hi, hP h.2 hr⟩

/-- The requests that are careful whatever was recorded. -/
def Plain (r : WithdrawalRequest) : Prop :=
  ∀ polls, Careful polls r

theorem frame : discipline.Frame i Inv Plain where
  assertion := ⟨fun h => h, fun _ _ h => h⟩
  duty _ _ := trivial
  exec {w r c} hr h hc := ⟨guar r c w, h.exec (hr w.2) hc⟩
  log {_ v} _ := nomatch v

theorem ofQueries : OfQueries fun _ p => p.Uses Plain where
  toCompositional := Uses.compositional (S := withdrawals) Plain
  query {r} hr := Uses.ask fun _ => by
    cases r with
    | withdrawalCreate data => cases hr
    | withdrawalUpdateMany t creatorId data => cases hr
    | _ => trivial

theorem uses_update (id : String) (data : WithdrawalUpdate) :
    (awaitW (.withdrawalUpdate id data)).Uses Plain :=
  Uses.ask fun _ => trivial

theorem uses_create {data : WithdrawalCreate} (h : data.status ≠ .completed) :
    (awaitW (.withdrawalCreate data)).Uses Plain :=
  Uses.ask fun _ => h

/-- A poll records the status before it copies it. -/
theorem triple_transaction (cfg : WithdrawalConfig) (userId id : String)
    (token : Option String) : Triple discipline i Inv (transaction cfg userId id token)
      (fun _ => Inv) fun _ => Inv := by
  refine Triple.bind (ofQueries.assertEnabled.triple frame) fun _ =>
    Triple.bind ((ofQueries.requireToken token).triple frame) fun anchorToken => ?_
  -- a status of `completed` was recorded when the poll was answered
  have hkeep : ∀ tx : AnchorTransaction, discipline.Assertion i fun w =>
      Inv w ∧ (tx.status = "completed" → Reported w.2 id) := fun tx =>
    assertion (P := fun p => tx.status = "completed" → Reported p id) fun h hp hs => hp (h hs)
  have hplain : ∀ (tx : AnchorTransaction) {β : Type} {p : WithdrawalMethod β},
      p.Uses Plain → Triple discipline i
        (fun w => Inv w ∧ (tx.status = "completed" → Reported w.2 id)) p
        (fun _ w => Inv w ∧ (tx.status = "completed" → Reported w.2 id)) fun _ => Inv := by
    intro tx β p hp
    refine (hp.triple (P := fun w => Inv w ∧ (tx.status = "completed" → Reported w.2 id))
      ⟨hkeep tx, fun _ _ => trivial, fun {w r c} hr h hc => ⟨guar r c w, h.1.exec (hr w.2) hc,
        fun hs => List.subset_append_left _ _ (h.2 hs)⟩, fun {_ v} _ => nomatch v⟩).mono
          (fun _ h => h) (fun _ _ h => h) fun _ _ h => h.1
  refine Triple.bind (R := fun (tx : AnchorTransaction) w =>
    Inv w ∧ (tx.status = "completed" → Reported w.2 id)) ?_ fun tx => ?_
  · refine Triple.ask frame.assertion (fun _ _ => trivial) (fun w c _ _ => guar _ c w) ?_ ?_
    · intro w c tx h hc ha
      refine ⟨h.exec (r := .getTransaction anchorToken id) trivial hc, fun hs => ?_⟩
      refine List.mem_append_right _ ?_
      rw [show (withdrawalMachine.exec (.getTransaction anchorToken id) c w.1).1 = .ok tx from ha]
      exact List.mem_singleton.2 (by rw [hs])
    · intro w c e h hc _
      exact h.exec (r := .getTransaction anchorToken id) trivial hc
  · refine Triple.bind (R := fun _ w => Inv w ∧ (tx.status = "completed" → Reported w.2 id))
      (hplain tx ?_) fun completedAt => ?_
    · split
      · exact Uses.bind (Uses.ask fun _ => trivial) fun _ => Uses.ret _
      · exact Uses.ret _
    · split
      · exact Triple.raise fun _ h => h.1
      · next data hdata =>
        have hcareful : ∀ w : WithdrawalWorld × Polls,
            (tx.status = "completed" → Reported w.2 id) →
              Careful w.2 (.withdrawalUpdateMany id userId data) := by
          intro w h hs
          rw [pollUpdate_status hdata] at hs
          exact h (mapStatus_eq_completed (Option.some.inj hs))
        refine Triple.bind (R := fun _ => Inv) (Triple.ask (hkeep tx) (fun _ _ => trivial)
          (fun w c _ _ => guar _ c w) ?_ ?_) fun _ => Triple.ret fun _ h => h
        · intro w c _ h hc _
          exact h.1.exec (hcareful w h.2) hc
        · intro w c _ h hc _
          exact h.1.exec (hcareful w h.2) hc

theorem triple_method (cfg : WithdrawalConfig) (call : WithdrawalCall) :
    Triple discipline i Inv (call.method cfg) (fun _ => Inv) fun _ => Inv := by
  have hunit : ∀ {α : Type} {p : WithdrawalMethod α}, p.Uses Plain →
      Triple discipline i Inv (p.bind fun _ => .ret ()) (fun _ => Inv) fun _ => Inv :=
    fun hp => (Uses.bind hp fun _ => Uses.ret _).triple frame
  cases call with
  | requestWithdrawal walletAddress amount destinationType destinationAccount =>
    refine hunit (ofQueries.requestWithdrawal (fun data hs => uses_create ?_)
      (fun id => uses_update id _) ..)
    simp [hs]
  | getWithdrawal id requesterCreatorId =>
    exact hunit (ofQueries.getWithdrawal (fun id _ => uses_update id _) ..)
  | interactive userId amount token =>
    refine hunit (ofQueries.interactive (fun data hs _ => uses_create ?_) ..)
    simp [hs]
  | transaction userId id token =>
    exact Triple.bind (triple_transaction cfg userId id token) fun _ => Triple.ret fun _ h => h
  | submitPayment userId signedXdr id =>
    exact hunit (ofQueries.submitPayment (fun _ => Uses.ask fun _ => by simp [Careful]) ..)

theorem stable : Stable discipline i (fun _ : Unit => Inv) fun _ => Inv where
  ret_inv h := h
  raise_inv h := h
  ret_rely _ _ h := h
  raise_rely _ _ h := h

/-- The polls that a run answers. -/
def pollsOf (as : List (Action WithdrawalChoice WithdrawalEnv))
    (s : Config withdrawals WithdrawalWorld Unit) : Polls :=
  (Config.run recorded as ⟨s.threads, (s.world, [])⟩).world.2

end Anchor

/-- Calls of the withdrawal endpoints in any order, interleaved in any way, whose steps meet
`Permitted` : in every state, a completed withdrawal of the anchor had its transaction
reported as completed by a poll. -/
theorem anchor_completed (cfg : WithdrawalConfig) (calls : List WithdrawalCall)
    (w : WithdrawalWorld) (as : List (Action WithdrawalChoice WithdrawalEnv))
    (hw : ∀ r ∈ w.withdrawals.rows, r.anchorTransactionId ≠ none → r.status ≠ .completed)
    (hrun : Config.Along Anchor.recorded (Config.Meets Anchor.Permitted fun _ _ => True) as
      ⟨calls.map (·.method cfg), (w, [])⟩) :
    ∀ r ∈ (Config.run withdrawalMachine as
        ⟨calls.map (·.method cfg), w⟩).world.withdrawals.rows,
      ∀ t, r.anchorTransactionId = some t → r.status = .completed →
        (t, "completed") ∈ Anchor.pollsOf as ⟨calls.map (·.method cfg), w⟩ := by
  have hstart : Config.Safe Anchor.discipline (fun _ _ => Anchor.Inv) (fun _ _ => Anchor.Inv)
      ⟨calls.map (·.method cfg), (w, [])⟩ := by
    have hinv : Anchor.Inv (w, []) := by
      intro r hr t ht hs
      refine absurd hs (hw r hr ?_)
      rw [Option.mem_def.1 ht]
      exact Option.some_ne_none t
    refine ⟨hinv, fun i p hp => ⟨withdrawalMethod_suspended p, ?_⟩⟩
    obtain ⟨call, -, rfl⟩ := List.mem_map.1 (List.mem_of_getElem? hp)
    exact Anchor.triple_method cfg call _ hinv
  have hend := (hstart.run (fun _ => Anchor.stable) as hrun).1
  have hworld := congrArg Config.world (Config.forget_run (M := withdrawalMachine)
    (f := Anchor.polled) as ⟨calls.map (·.method cfg), (w, [])⟩)
  intro r hr t ht hs
  have hr : r ∈ (Config.run Anchor.recorded as
      ⟨calls.map (·.method cfg), (w, [])⟩).world.1.withdrawals.rows := by
    rw [show (Config.run Anchor.recorded as ⟨calls.map (·.method cfg), (w, [])⟩).world.1 =
      (Config.run withdrawalMachine as ⟨calls.map (·.method cfg), w⟩).world from hworld]
    exact hr
  exact hend r hr t ht hs

/-- Thread `i` starts a withdrawal of the $9.50 of `alice` through the anchor. -/
def demoInteractive : WithdrawalCall :=
  .interactive "alice" 950 (some "token")

/-- The anchor's transaction gets the id `t` and the withdrawal the id `t`. -/
def demoStart (i : ℕ) : List (Action WithdrawalChoice WithdrawalEnv) :=
  List.replicate 7 (.run i { uuid := "t" })

/-- A poll that finds the transaction completed. -/
theorem anchor_completed_polled : ∃ r ∈ (Config.run withdrawalMachine
      (demoStart 0 ++ List.replicate 3 (.run 1 { transaction := { status := "completed" } }))
      ⟨[demoInteractive, .transaction "alice" "t" (some "token")].map
        (·.method demoWithdrawalConfig), demoCredited⟩).world.withdrawals.rows,
    r.status = .completed ∧ ("t", "completed") ∈ Anchor.pollsOf
      (demoStart 0 ++ List.replicate 3 (.run 1 { transaction := { status := "completed" } }))
      ⟨[demoInteractive, .transaction "alice" "t" (some "token")].map
        (·.method demoWithdrawalConfig), demoCredited⟩ := by
  have h := anchor_completed demoWithdrawalConfig
    [demoInteractive, .transaction "alice" "t" (some "token")] demoCredited
    (demoStart 0 ++ List.replicate 3 (.run 1 { transaction := { status := "completed" } }))
    (by decide) (by decide)
  refine ⟨_, List.mem_singleton.2 rfl, by decide, h _ (List.mem_singleton.2 rfl) "t" ?_ ?_⟩
  · decide
  · decide

/-- Nobody polls the anchor. A read after the delay completes the withdrawal. -/
theorem anchor_completed_unpolled : ∃ as s, s = Config.run withdrawalMachine as
      ⟨[demoInteractive, .getWithdrawal "t" (some "alice")].map
        (·.method demoWithdrawalConfig), demoCredited⟩ ∧
    Anchor.pollsOf as ⟨[demoInteractive, .getWithdrawal "t" (some "alice")].map
      (·.method demoWithdrawalConfig), demoCredited⟩ = [] ∧
    ∃ r ∈ s.world.withdrawals.rows,
      r.anchorTransactionId = some "t" ∧ r.status = .completed :=
  ⟨demoStart 0 ++ demoRead 1, _, rfl, by decide, by decide⟩

end Kreav
