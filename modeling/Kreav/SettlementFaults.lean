import Kreav.SettlementSteps

/-!
# One settlement run under faults

A run of `handlePaymentReceived` alone, with any faults. `Verdict` is the condition on its
steps : no accepted `sendTransaction` and no poll throws, and once a transaction is
accepted the writes that record it succeed. Under it the run never leaves the order in
`settlementFailed` while a transaction it sent is applied with success
(`verdict_keeps_sound`).

A run passes through `Unsent` (nothing accepted yet), `Pending` (and the order is in
`settlementPending`) and `Awaiting` (one transaction accepted), and ends in `Sound`.
-/

open Async Prog

namespace Kreav

namespace Faults

/-- The condition on the steps of a run. -/
def Verdict (w : World) : Request → Choice → Prop
  | .sendTransaction _, c => c.fault ≠ .unacked
  | .getTransaction _ _, c => c.fault = .none
  | .settlementCreate data, c => w.chain.sent ≠ [] →
    c.fault = .none ∧ w.db.settlements.lookup data.orderId = none
  | .orderUpdate _ data, c =>
    (data.status = .settled → w.chain.sent ≠ [] → c.fault = .none) ∧
      (data.status = .settlementFailed → c.fault ≠ .unacked)
  | _, _ => True

/-- No applied transaction of the run succeeded, or the order is not failed. -/
def Sound (id : String) (w : World) : Prop :=
  (∀ tx ∈ w.chain.sent, w.chain.result tx = some false) ∨
    statusOf w id = some .settlementPending ∨ statusOf w id = some .settled

/-- What the outside keeps while the run waits. -/
def Rel (w w' : World) : Prop :=
  w'.db.orders = w.db.orders ∧ w.chain.Extends w'.chain

theorem Rel.statusOf {w w' : World} (h : Rel w w') (id : String) :
    statusOf w' id = statusOf w id := by
  unfold Kreav.statusOf
  rw [h.1]

theorem Rel.failed {w w' : World} (h : Rel w w')
    (hf : ∀ tx ∈ w.chain.sent, w.chain.result tx = some false) :
    ∀ tx ∈ w'.chain.sent, w'.chain.result tx = some false := by
  intro tx htx
  rw [h.2.sent] at htx
  exact h.2.result (hf tx htx)

theorem Sound.rel {id : String} {w w' : World} (hs : Sound id w) (h : Rel w w') :
    Sound id w' := by
  rcases hs with hs | hs
  · exact Or.inl (h.failed hs)
  · rw [← h.statusOf id] at hs
    exact Or.inr hs

variable (cfg : StellarConfig) (id : String)

/-- One run under `Verdict`, with any steps of the network and of product owners. -/
def discipline : Discipline (machine cfg) :=
  Discipline.solo (machine cfg) (Sound id) Rel Verdict (fun _ _ => True) (fun _ _ => True)
    (fun _ => ⟨rfl, .refl _⟩)
    (fun h h' => ⟨h'.1.trans h.1, h.2.trans h'.2⟩)
    (fun {w e} hs _ => by
      obtain ⟨ho, -, -, hc⟩ := env_keeps cfg e w
      exact ⟨hs.rel ⟨ho, hc⟩, ho, hc⟩)

variable {cfg id}

theorem guar (w w' : World) : (discipline cfg id).guar 0 w w' :=
  fun h => absurd rfl h

/-! ## The states of a run -/

/-- The order is there and no transaction of the run is accepted. -/
def Unsent (id : String) (w : World) : Prop :=
  w.chain.sent = [] ∧ ∃ o, w.db.orders.lookup id = some o

/-- Nothing is accepted and the order waits for its settlement. -/
def Pending (id : String) (w : World) : Prop :=
  w.chain.sent = [] ∧ statusOf w id = some .settlementPending

/-- One transaction is accepted. -/
def Awaiting (id : String) (tx : Tx) (w : World) : Prop :=
  w.chain.sent = [tx] ∧ statusOf w id = some .settlementPending

/-- Whatever was accepted failed. -/
def Failed (id : String) (w : World) : Prop :=
  (∀ tx ∈ w.chain.sent, w.chain.result tx = some false) ∧ ∃ o, w.db.orders.lookup id = some o

theorem Unsent.failed {w : World} (h : Unsent id w) : Failed id w :=
  ⟨by simp [h.1], h.2⟩

theorem Pending.unsent {w : World} (h : Pending id w) : Unsent id w :=
  ⟨h.1, exists_order_of_statusOf h.2⟩

theorem Failed.sound {w : World} (h : Failed id w) : Sound id w :=
  Or.inl h.1

theorem assertion_unsent : (discipline cfg id).Assertion 0 (Unsent id) where
  inv h := h.failed.sound
  rely h hr _ := by
    obtain ⟨ho, hc⟩ := hr rfl
    exact ⟨hc.sent.trans h.1, by rw [ho]; exact h.2⟩

theorem assertion_pending : (discipline cfg id).Assertion 0 (Pending id) where
  inv h := h.unsent.failed.sound
  rely h hr _ := ⟨(hr rfl).2.sent.trans h.1, ((hr rfl).statusOf id).trans h.2⟩

theorem assertion_awaiting (tx : Tx) : (discipline cfg id).Assertion 0 (Awaiting id tx) where
  inv h := Or.inr (Or.inl h.2)
  rely h hr _ := ⟨(hr rfl).2.sent.trans h.1, ((hr rfl).statusOf id).trans h.2⟩

theorem assertion_failed : (discipline cfg id).Assertion 0 (Failed id) where
  inv h := h.sound
  rely h hr _ := ⟨(hr rfl).failed h.1, by rw [(hr rfl).1]; exact h.2⟩

theorem frame_pending : (discipline cfg id).Frame 0 (Pending id) Reads :=
  frame_reads assertion_pending (fun w => guar w w) (fun _ _ _ _ => trivial)
    fun w _ h => ⟨guar w _, h⟩

theorem read_pending {r : Request} (hr : Reads r) : Triple (discipline cfg id) 0 (Pending id)
    (await r) (fun _ => Pending id) fun _ => Pending id :=
  (Uses.ask (R := Reads) hr).triple frame_pending

/-! ## Before a transaction is accepted -/

/-- Requests that send nothing to the network leave a run unsent. -/
theorem frame_unsent (id' : String) : (discipline cfg id).Frame 0 (Unsent id) (Touches id') where
  assertion := assertion_unsent
  duty _ _ := trivial
  exec {w r c} hr hw _ := by
    refine ⟨guar _ _, ?_⟩
    show Unsent id (exec cfg r c w).2
    by_cases hread : r.reads = true
    · rw [exec_reads cfg hread]
      exact hw
    · cases r with
      | orderUpdate id'' data =>
        have hset : ∀ o, Unsent id (w.setOrder id'' o) := by
          intro o
          refine ⟨hw.1, ?_⟩
          by_cases hid : id = id''
          · subst hid
            exact ⟨o, by simp⟩
          · rw [w.setOrder_lookup_ne o hid]
            exact hw.2
        rcases exec_orderUpdate cfg id'' data c w with ⟨o, -, -, -, hx⟩ | ⟨o, -, -, -, hx⟩ |
          ⟨e, hx, -⟩
        · rw [hx]
          exact hset _
        · rw [hx]
          exact hset _
        · rw [hx]
          exact hw
      | settlementCreate data =>
        rcases exec_settlementCreate cfg data c w with ⟨-, -, hx⟩ | ⟨-, -, hx⟩ | ⟨e, hx, -⟩
        all_goals
          rw [hx]
          exact hw
      | orderCreate data => cases hr
      | walletCreate creatorId walletAddress provider => cases hr
      | sendTransaction tx => cases hr
      | _ => exact absurd rfl hread
  log hw := ⟨guar _ _, hw⟩

/-- Marking the order failed, when whatever was accepted failed. -/
theorem setStatus_failed : Triple (discipline cfg id) 0 (Failed id)
    (setStatus id .settlementFailed) (fun _ => Failed id) fun _ => Failed id := by
  refine triple_orderUpdate assertion_failed (fun _ _ => trivial) ?_ ?_
  · intro w o c hw _ _ _
    have hset : Failed id (w.setOrder id (OrderUpdate.applyTo { status := .settlementFailed } o)) :=
      ⟨hw.1, _, w.setOrder_lookup id _⟩
    exact ⟨guar _ _, fun _ => hset, fun _ => hset⟩
  · intro w c e hw _ _
    exact ⟨guar _ _, hw⟩

theorem setStatus_pending : Triple (discipline cfg id) 0 (Unsent id)
    (setStatus id .settlementPending) (fun _ => Pending id) fun _ => Unsent id := by
  refine triple_orderUpdate assertion_unsent (fun _ _ => trivial) ?_ ?_
  · intro w o c hw _ _ _
    have hset : Pending id
        (w.setOrder id (OrderUpdate.applyTo { status := .settlementPending } o)) :=
      ⟨hw.1, by simp [OrderUpdate.applyTo]⟩
    exact ⟨guar _ _, fun _ => hset, fun _ => hset.unsent⟩
  · intro w c e hw _ _
    exact ⟨guar _ _, hw⟩

/-- The float check ends the run with the order failed, or leaves it pending. -/
theorem triple_checkFloat (amountUsd : Usd) : Triple (discipline cfg id) 0 (Pending id)
    (checkFloat cfg id amountUsd) (fun go => if go then Pending id else Failed id)
      fun _ => Failed id := by
  refine Triple.tryCatch (Y := fun _ => Pending id) ?_ fun _ => Triple.ret fun _ hw => hw
  refine Triple.bind (R := fun _ => Pending id) (read_pending rfl) fun float => ?_
  dsimp only
  split
  · refine Triple.bind (R := fun _ => Failed id) ?_ fun _ => Triple.ret fun _ hw => hw
    refine triple_orderUpdate assertion_pending (fun _ _ => trivial) ?_ ?_
    · intro w o c hw ha _ _
      exact ⟨guar _ _, fun _ => ⟨hw.unsent.failed.1, _, w.setOrder_lookup id _⟩,
        fun hf => absurd hf (ha.2 rfl)⟩
    · intro w c e hw _ _
      exact ⟨guar _ _, hw⟩
  · exact Triple.ret fun _ hw => hw

/-! ## From the acceptance on -/

/-- What an error says about the run : an error the handler passes over leaves it sound, on
any other whatever was accepted failed. -/
def OnError (id : String) : Failure → World → Prop
  | .settlementTimeout _ => Sound id
  | .settlementNetwork => Sound id
  | .invalidStateTransition _ _ => Sound id
  | _ => Failed id

theorem Failed.onError {w : World} (h : Failed id w) (e : Failure) : OnError id e w := by
  cases e <;> first | exact h | exact h.sound

/-- The polls of an accepted transaction. They see what it came to, or time out. -/
theorem triple_pollTransaction (tx : Tx) : Triple (discipline cfg id) 0 (Awaiting id tx)
    (pollTransaction (.onChain tx))
    (fun r w => if r.status = .success then Awaiting id tx w else Failed id w)
    fun e w => e = .settlementTimeout (.onChain tx) ∧ Awaiting id tx w := by
  refine triple_polls tx (fun _ => assertion_awaiting tx) (fun _ _ _ _ => trivial)
    (fun w => guar w w) (fun hal => hal) (fun h _ => h) (fun h hr => ?_) (fun _ h _ _ => h)
    pollMaxAttempts 0 (zero_add _)
  exact ⟨by simp [h.1, hr], exists_order_of_statusOf h.2⟩

/-- What a call of `invokeSettle` leaves when it throws. -/
def InvokeError (id : String) : Failure → World → Prop
  | .settlementTimeout _ => Sound id
  | _ => Pending id

theorem triple_submitSettle (tx : Tx) : Triple (discipline cfg id) 0 (Pending id)
    (submitSettle tx)
    (fun r w => if r.status = .success then ∃ tx, Awaiting id tx w else Failed id w)
    (InvokeError id) := by
  refine triple_submit (S := Pending id) (A := Awaiting id tx) ?_ ?_ ?_
  · refine triple_read rfl assertion_pending (fun _ _ => trivial) (fun w => guar w w) ?_ ?_
    · intro w c simulated hw _ _ _
      split <;> exact hw
    · intro w c e hw _ he
      rw [exec_thrown cfg rfl (by simp) he]
      exact hw
  · refine triple_sendTransaction assertion_pending (fun _ _ => trivial) (fun w => guar w w)
      (fun _ _ _ ha => ha) ?_ ?_ (fun _ _ hw _ _ => hw)
    · intro w c status hw _ hs _ _
      rw [if_neg (by simp [hs])]
      exact hw
    · intro w c status hw _ hs _ _
      have hawait : Awaiting id tx (w.setChain (w.chain.accepted tx)) :=
        ⟨by simp [Chain.accepted, hw.1], hw.2⟩
      exact ⟨guar _ _, by simpa [hs] using hawait⟩
  · refine (triple_pollTransaction tx).mono (fun _ hw => hw) (fun r w h => ?_) fun e w h => ?_
    · split
      · next hs =>
        rw [if_pos hs] at h
        exact ⟨tx, h⟩
      · next hs =>
        rw [if_neg hs] at h
        exact h
    · rw [h.1]
      exact Or.inr (Or.inl h.2.2)

theorem triple_invokeSettle (totalAmountBase : ℤ) (recipients : List RecipientInput) :
    Triple (discipline cfg id) 0 (Pending id) (invokeSettle cfg id totalAmountBase recipients)
      (fun r w => if r.status = .success then ∃ tx, Awaiting id tx w else Failed id w)
      (InvokeError id) := by
  refine Triple.tryCatch (Y := InvokeError id) ?_ fun e => ?_
  · refine Triple.bind (R := fun _ => Pending id) ?_ fun account => ?_
    · refine triple_read rfl assertion_pending (fun _ _ => trivial) (fun w => guar w w)
        (fun _ _ _ hw _ _ _ => hw) ?_
      intro w c e hw _ he
      rw [exec_thrown cfg rfl (by simp) he]
      exact hw
    · obtain ⟨sequence, now⟩ := account
      cases hb : buildSettle cfg sequence now id totalAmountBase recipients with
      | none =>
        simp only [hb]
        exact Triple.raise fun _ hw => hw
      | some tx =>
        simp only [hb]
        exact triple_submitSettle tx
  · dsimp only
    split
    · exact Triple.raise fun _ hw => hw
    · next hknown =>
      refine Triple.raise fun w hw => ?_
      cases e with
      | settlementTimeout h => exact absurd rfl hknown
      | _ => exact hw

/-- Recording an accepted transaction that was applied with success. -/
theorem triple_recordSettlementSuccess (tx : Tx) (amountUsd : Usd) (totalAmountBase : ℤ)
    (txHash : TxHash) (recipients : List RecipientInput) (collaborators : List Collaborator)
    (Y : Failure → World → Prop) : Triple (discipline cfg id) 0 (Awaiting id tx)
      (recordSettlementSuccess id amountUsd totalAmountBase txHash recipients collaborators)
      (fun _ => Sound id) Y := by
  have hne : ∀ {w}, Awaiting id tx w → w.chain.sent ≠ [] := fun hw => by simp [hw.1]
  refine Triple.bind (R := fun _ => Awaiting id tx) ?_ fun _ =>
    Triple.bind (R := fun _ => Sound id) ?_ fun _ => Triple.signal fun w hw => ⟨guar _ _, hw⟩
  · refine triple_settlementCreate (assertion_awaiting tx) (fun _ _ => trivial) ?_ ?_
    · intro w c hw ha _
      obtain ⟨hf, -⟩ := ha (hne hw)
      exact ⟨guar _ _, fun _ => hw, fun hf' => by simp [hf] at hf'⟩
    · intro w c e hw ha he
      obtain ⟨hf, hl⟩ := ha (hne hw)
      rcases he with ⟨-, hn⟩ | ⟨-, -, hs⟩
      · exact absurd hf hn
      · rw [hl] at hs
        cases hs
  · refine triple_orderUpdate (assertion_awaiting tx) (fun _ _ => trivial) ?_ ?_
    · intro w o c hw ha _ _
      have hf := ha.1 rfl (hne hw)
      exact ⟨guar _ _, fun _ => Or.inr (Or.inr (by simp [OrderUpdate.applyTo])),
        fun hf' => by simp [hf] at hf'⟩
    · intro w c e hw ha he
      obtain ⟨o, ho⟩ := exists_order_of_statusOf hw.2
      rcases he with ⟨-, hn⟩ | ⟨-, -, ref, href, -⟩
      · rw [hn (ha.1 rfl (hne hw))] at ho
        cases ho
      · cases href

/-- What an attempt leaves when it throws : only after `settlementNetwork` it may be made
again. -/
def AttemptError (id : String) : Failure → World → Prop
  | .settlementNetwork => Pending id
  | e => OnError id e

theorem triple_settleAndRecord (amountUsd : Usd) (recipients : List RecipientInput)
    (collaborators : List Collaborator) : Triple (discipline cfg id) 0 (Pending id)
      (settleAndRecord cfg id amountUsd recipients collaborators) (fun _ => Sound id)
      (AttemptError id) := by
  refine Triple.bind ((triple_invokeSettle _ _).mono (fun _ h => h) (fun _ _ h => h) ?_)
    fun result => ?_
  · intro e w hw
    cases e with
    | settlementTimeout h => exact hw
    | settlementNetwork => exact hw
    | invalidStateTransition source target => exact (Pending.unsent hw).failed.sound
    | _ => exact (Pending.unsent hw).failed
  · obtain ⟨txHash, status⟩ := result
    cases status with
    | success =>
      intro w hw
      obtain ⟨tx, hw⟩ := hw
      exact triple_recordSettlementSuccess tx _ _ _ _ _ _ w hw
    | failed =>
      refine Triple.mono (P := Failed id) (Q := fun _ => Failed id)
        (X := fun (e : Failure) w => e = .database ∧ Failed id w) ?_ (fun w hw => hw)
        (fun _ w hw => hw.sound) ?_
      · refine triple_orderUpdate assertion_failed (fun _ _ => trivial) ?_ ?_
        · intro w o c hw _ _ _
          have hset : Failed id (w.setOrder id (OrderUpdate.applyTo
              { status := .settlementFailed, txHash := some (some txHash) } o)) :=
            ⟨hw.1, _, w.setOrder_lookup id _⟩
          exact ⟨guar _ _, fun _ => hset, fun _ => ⟨rfl, hset⟩⟩
        · intro w c e hw _ he
          rcases he with ⟨rfl, -⟩ | ⟨-, -, ref, href, -⟩
          · exact ⟨guar _ _, rfl, hw⟩
          · cases href
      · rintro e w ⟨rfl, hw⟩
        exact hw

/-- The attempts : a run that tries again has nothing accepted. -/
theorem triple_settleWithRetry (amountUsd : Usd) (recipients : List RecipientInput)
    (collaborators : List Collaborator) : ∀ left : ℕ,
    Triple (discipline cfg id) 0 (Pending id)
      (settleWithRetry cfg id amountUsd recipients collaborators left) (fun _ => Sound id)
      (OnError id)
  | 0 => Triple.ret fun _ hw => hw.unsent.failed.sound
  | left + 1 => by
    refine Triple.tryCatch (triple_settleAndRecord _ _ _) fun e => ?_
    cases e with
    | settlementNetwork =>
      dsimp only
      split
      · exact setStatus_failed.mono (fun _ hw => hw.unsent.failed) (fun _ _ hw => hw.sound)
          fun e _ hw => hw.onError e
      · exact triple_settleWithRetry amountUsd recipients collaborators left
    | _ => exact Triple.raise fun _ hw => hw

theorem triple_settleCollaborators (payload : PaymentReceivedPayload) (order : Order)
    (collaborators : List Collaborator) :
    Triple (discipline cfg payload.orderId) 0 (Pending payload.orderId)
      (settleCollaborators cfg payload order collaborators) (fun _ => Sound payload.orderId)
      (OnError payload.orderId) := by
  have hX : ∀ e w, Pending payload.orderId w → OnError payload.orderId e w := fun e w hw =>
    hw.unsent.failed.onError e
  have hfail : Triple (discipline cfg payload.orderId) 0 (Pending payload.orderId)
      (setStatus payload.orderId .settlementFailed) (fun _ => Sound payload.orderId)
      (OnError payload.orderId) :=
    setStatus_failed.mono (fun _ hw => hw.unsent.failed) (fun _ _ hw => hw.sound)
      fun e _ hw => hw.onError e
  refine Triple.bind (R := fun _ => Pending payload.orderId)
    (((ofReads_uses.checks.findRecipientsMissingTrustline _).triple frame_pending).mono
      (fun _ h => h) (fun _ _ h => h) hX) fun missing => ?_
  split
  · exact hfail
  refine Triple.bind (R := fun _ => Pending payload.orderId)
    (((ofReads_uses.checks.checkSettled _).triple frame_pending).mono (fun _ h => h)
      (fun _ _ h => h) hX) fun alreadySettled => ?_
  cases alreadySettled with
  | true =>
    exact ((uses_recoverAlreadySettled _ _ _ _ _ _).triple (frame_unsent _)).mono
      (fun _ hw => hw.unsent) (fun _ _ hw => hw.failed.sound) fun e _ hw => hw.failed.onError e
  | false =>
    refine Triple.bind ((triple_checkFloat _).mono (fun _ h => h) (fun _ _ h => h)
      fun e _ hw => hw.onError e) fun funded => ?_
    cases funded with
    | true => exact triple_settleWithRetry _ _ _ _
    | false => exact Triple.ret fun _ hw => hw.sound

theorem triple_settlePending (payload : PaymentReceivedPayload) (order : Order) :
    Triple (discipline cfg payload.orderId) 0 (Pending payload.orderId)
      (settlePending cfg payload order) (fun _ => Sound payload.orderId)
      (OnError payload.orderId) := by
  have hfail : Triple (discipline cfg payload.orderId) 0 (Pending payload.orderId)
      (setStatus payload.orderId .settlementFailed) (fun _ => Sound payload.orderId)
      (OnError payload.orderId) :=
    setStatus_failed.mono (fun _ hw => hw.unsent.failed) (fun _ _ hw => hw.sound)
      fun e _ hw => hw.onError e
  refine Triple.bind (R := fun _ => Pending payload.orderId) ((read_pending rfl).mono
    (fun _ h => h) (fun _ _ h => h) fun e _ hw => hw.unsent.failed.onError e)
    fun collaborators => ?_
  split
  · exact hfail
  split
  · exact hfail
  split
  · exact hfail
  · exact triple_settleCollaborators payload order collaborators

theorem triple_startSettlement (payload : PaymentReceivedPayload) (order : Order) :
    Triple (discipline cfg payload.orderId) 0 (Unsent payload.orderId)
      (startSettlement cfg payload order) (fun _ => Sound payload.orderId)
      (OnError payload.orderId) :=
  Triple.bind (setStatus_pending.mono (fun _ h => h) (fun _ _ h => h)
    fun e _ hw => hw.failed.onError e) fun _ => triple_settlePending payload order

/-- A run keeps the discipline from any state where nothing of it is accepted. -/
theorem triple_handlePaymentReceived (payload : PaymentReceivedPayload) :
    Triple (discipline cfg payload.orderId) 0 (Unsent payload.orderId)
      (handlePaymentReceived cfg payload) (fun _ => Sound payload.orderId)
      fun _ => Sound payload.orderId := by
  refine Triple.tryCatch (Y := OnError payload.orderId) ?_ fun e => ?_
  · refine Triple.bind (R := fun _ => Unsent payload.orderId)
      (((Uses.ask (R := Touches payload.orderId) trivial).triple (frame_unsent _)).mono
        (fun _ h => h) (fun _ _ h => h)
        fun e _ hw => hw.failed.onError e) fun order => ?_
    cases order with
    | none => exact Triple.ret fun _ hw => hw.failed.sound
    | some order =>
      obtain ⟨order, creatorId⟩ := order
      dsimp only
      split
      · exact Triple.raise fun _ hw => hw.failed.onError _
      · exact triple_startSettlement payload order
  · have hfail : Triple (discipline cfg payload.orderId) 0 (Failed payload.orderId)
        (setStatus payload.orderId .settlementFailed) (fun _ => Sound payload.orderId)
        fun _ => Sound payload.orderId :=
      setStatus_failed.mono (fun _ hw => hw) (fun _ _ hw => hw.sound) fun _ _ hw => hw.sound
    cases e with
    | invalidStateTransition source target => exact Triple.ret fun _ hw => hw
    | settlementTimeout h => exact Triple.ret fun _ hw => hw
    | settlementNetwork => exact Triple.ret fun _ hw => hw
    | _ => exact hfail

theorem stable_sound : Stable (discipline cfg id) 0 (fun _ : Unit => Sound id)
    fun _ => Sound id where
  ret_inv h := h
  raise_inv h := h
  ret_rely h hr _ := h.rel (hr rfl)
  raise_rely h hr _ := h.rel (hr rfl)

instance (w : World) (r : Request) (c : Choice) : Decidable (Verdict w r c) :=
  match r with
  | .sendTransaction _ => inferInstanceAs (Decidable (_ ≠ _))
  | .getTransaction _ _ => inferInstanceAs (Decidable (_ = _))
  | .settlementCreate _ =>
    have : Decidable (w.chain.sent ≠ []) := inferInstanceAs (Decidable (¬ _ = _))
    inferInstanceAs (Decidable (_ → _ ∧ _))
  | .orderUpdate _ _ =>
    have : Decidable (w.chain.sent ≠ []) := inferInstanceAs (Decidable (¬ _ = _))
    inferInstanceAs (Decidable ((_ → _ → _) ∧ (_ → _)))
  | .productFindUnique _ | .userFindUnique _ | .orderFindFirst _ | .orderFindUnique _
  | .orderCreate _ | .orderFindMany _ | .orderFindWaiting _ | .walletFindFirst _
  | .walletFindAddress _ | .walletCreate _ _ _ | .collaboratorFindMany _
  | .settlementFindUnique _ | .getUsdcBalance _ | .getAccount | .simulateSettle _
  | .simulateIsSettled _ => isTrue trivial

end Faults

/-- A run of `handlePaymentReceived` whose steps meet `Verdict` : in every state, when a
transaction it sent was applied with success, the order is settled or still pending. -/
theorem verdict_keeps_sound (cfg : StellarConfig) (payload : PaymentReceivedPayload) (w : World)
    (as : List (Action Choice Env)) (hset : Settleable w payload.orderId)
    (hsent : w.chain.sent = [])
    (hrun : Config.Along (machine cfg) (Config.Meets Faults.Verdict fun _ _ => True) as
      ⟨[handlePaymentReceived cfg payload], w⟩) :
    ∀ tx ∈ (Config.run (machine cfg) as ⟨[handlePaymentReceived cfg payload], w⟩).world.chain.sent,
      (Config.run (machine cfg) as
        ⟨[handlePaymentReceived cfg payload], w⟩).world.chain.Executed tx →
      statusOf (Config.run (machine cfg) as ⟨[handlePaymentReceived cfg payload], w⟩).world
          payload.orderId = some .settled ∨
        statusOf (Config.run (machine cfg) as ⟨[handlePaymentReceived cfg payload], w⟩).world
          payload.orderId = some .settlementPending := by
  have hw : Faults.Unsent payload.orderId w := ⟨hsent, hset.exists_order⟩
  obtain ⟨hinv, -⟩ := (Faults.triple_handlePaymentReceived payload).run_single
    Faults.stable_sound trivial hw hw.failed.sound as hrun
  intro tx htx hx
  rcases hinv with hf | hp | hs
  · have hno := hf tx htx
    rw [Chain.Executed, hno] at hx
    cases hx
  · exact Or.inr hp
  · exact Or.inl hs

/-- A run without faults settles the order. -/
theorem verdict_keeps_sound_demo :
    statusOf (Config.run (machine demoConfig) (List.replicate 10 (.run 0 {}) ++
      .env (.network (.close false)) :: List.replicate 3 (.run 0 {}))
      ⟨[handlePaymentReceived demoConfig (demoPayload "order")],
        demoWorld [demoCollaborator "A" 10000] [("order", demoOrder .paymentReceived)]⟩).world
      "order" = some .settled := by
  have h := verdict_keeps_sound demoConfig (demoPayload "order")
    (demoWorld [demoCollaborator "A" 10000] [("order", demoOrder .paymentReceived)])
    (List.replicate 10 (.run 0 {}) ++ .env (.network (.close false)) ::
      List.replicate 3 (.run 0 {})) (by decide) rfl (by decide)
  rcases h ⟨1, 180, "order", i128 100000000, [⟨"A", i128 10000⟩]⟩ (by decide) (by decide) with
    hs | hp
  · exact hs
  · exact absurd hp (by decide)

/-- The poll after the acceptance throws, the ledger closes, and the run tries again. The
simulation then meets a settled order, and the run marks it failed. -/
theorem lost_poll_fails_settled_order :
    Settleable (demoWorld [demoCollaborator "A" 10000] [("order", demoOrder .paymentReceived)])
        "order" ∧
      ∃ s, s = Config.run (machine demoConfig) (List.replicate 10 (.run 0 {}) ++
          .run 0 { fault := .lost } :: .env (.network (.close false)) ::
            List.replicate 3 (.run 0 {}))
          ⟨[handlePaymentReceived demoConfig (demoPayload "order")],
            demoWorld [demoCollaborator "A" 10000] [("order", demoOrder .paymentReceived)]⟩ ∧
        s.Ended ∧ (∃ tx ∈ s.world.chain.sent, s.world.chain.Executed tx) ∧
        statusOf s.world "order" = some .settlementFailed :=
  ⟨by decide, _, rfl, by decide, by decide, by decide⟩

end Kreav
