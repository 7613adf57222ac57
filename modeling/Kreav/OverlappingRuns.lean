import Kreav.OrderChain
import Kreav.SettlementSteps

/-!
# Overlapping runs for one order

Any number of `handlePaymentReceived` runs for one order, without faults. `Permitted` is the
condition on the steps : a write of `settlementPending` finds a status that still permits
it, and the last poll of a transaction finds it applied or dropped. Then at most one run
gets past the check of the status, and when all runs have ended and the contract has
settled the order, the order is settled and its settlement recorded (`overlapping_runs`).

The run that gets past the check owns the order from there on. It is judged alone
(`discipline`), since the others only read (`PreGate`).
-/

open Async Prog

namespace Kreav

namespace Overlap

/-- The condition on the steps of a run. -/
def Permitted (id : String) (w : World) : Request → Choice → Prop
  | .getTransaction txHash attempt, c =>
    c.fault = .none ∧ (attempt + 1 = pollMaxAttempts →
      c.lag = false ∧ ∀ tx, txHash = .onChain tx → .settle tx ∉ w.chain.mempool)
  | .orderUpdate id' data, c =>
    c.Healthy ∧ (id' = id → data.status = .settlementPending → Settleable w id)
  | _, c => c.Healthy

/-- What the outside keeps of the order while its owner waits. -/
structure Rel (id : String) (w w' : World) : Prop where
  orders : w'.db.orders = w.db.orders
  settlements : w'.db.settlements = w.db.settlements
  quiet : Quiet id w.chain → Quiet id w'.chain
  untouched : Untouched id w.chain → Untouched id w'.chain
  sent : ∀ {tx}, Sent id tx w.chain → Sent id tx w'.chain
  result : ∀ {tx b}, w.chain.result tx = some b → w'.chain.result tx = some b

variable {cfg : StellarConfig} {id : String}

theorem Rel.refl (w : World) : Rel id w w :=
  ⟨rfl, rfl, fun h => h, fun h => h, fun h => h, fun h => h⟩

theorem Rel.trans {w w' w'' : World} (h : Rel id w w') (h' : Rel id w' w'') : Rel id w w'' :=
  ⟨h'.orders.trans h.orders, h'.settlements.trans h.settlements, fun q => h'.quiet (h.quiet q),
    fun u => h'.untouched (h.untouched u), fun s => h'.sent (h.sent s),
    fun r => h'.result (h.result r)⟩

theorem env_rel {w : World} {e : Env} (he : Foreign id e) : Rel id w ((machine cfg).env e w) := by
  cases e with
  | network step =>
    exact ⟨rfl, rfl, fun h => h.step he, fun h => h.step he, fun h => h.step he,
      (w.chain.step_extends cfg step).result⟩
  | updateProduct productId rows =>
    exact ⟨rfl, rfl, fun h => h, fun h => h, fun h => h, fun h => h⟩

theorem Rel.statusOf {w w' : World} (h : Rel id w w') (id' : String) :
    statusOf w' id' = statusOf w id' := by
  unfold Kreav.statusOf
  rw [h.orders]

theorem Rel.settleable {w w' : World} (h : Rel id w w') : Settleable w' id ↔ Settleable w id := by
  rw [Settleable, h.statusOf, Settleable]

variable (cfg id)

/-- The owner of the order, among steps of the outside. -/
def discipline : Discipline (machine cfg) :=
  Discipline.solo (machine cfg) (fun w => ¬ Settleable w id) (Rel id) (Permitted id)
    (fun _ e => Foreign id e) (fun _ _ => True) Rel.refl Rel.trans
    (fun hi he => ⟨mt (env_rel he).settleable.1 hi, env_rel he⟩)

variable {cfg id}

theorem guar (w w' : World) : (discipline cfg id).guar 0 w w' :=
  fun h => absurd rfl h

/-! ## The states of the owner -/

theorem not_settleable {w : World} {s : OrderStatus} (h : statusOf w id = some s)
    (hs : canTransition s .settlementPending = false) : ¬ Settleable w id := by
  rw [Settleable, h]
  simp [hs]

/-- Nothing is sent and the order waits for its settlement. -/
structure Fresh (id : String) (w : World) : Prop where
  status : statusOf w id = some .settlementPending
  row : w.db.settlements.lookup id = none
  chain : Untouched id w.chain

/-- The transaction is sent. -/
structure Awaiting (id : String) (tx : Tx) (w : World) : Prop where
  status : statusOf w id = some .settlementPending
  row : w.db.settlements.lookup id = none
  chain : Sent id tx w.chain

/-- The order is not settled and will not be. -/
structure Unsettled (id : String) (w : World) : Prop where
  order : ∃ o, w.db.orders.lookup id = some o
  status : ¬ Settleable w id
  chain : Quiet id w.chain

/-- The settlement is recorded. -/
structure Recorded (id : String) (w : World) : Prop where
  status : statusOf w id = some .settled
  row : (w.db.settlements.lookup id).isSome = true

theorem Fresh.unsettled {w : World} (h : Fresh id w) : Unsettled id w :=
  ⟨exists_order_of_statusOf h.status, not_settleable h.status rfl, h.chain.toQuiet⟩

theorem Awaiting.unsettled {tx : Tx} {w : World} (h : Awaiting id tx w)
    (hq : Quiet id w.chain) : Unsettled id w :=
  ⟨exists_order_of_statusOf h.status, not_settleable h.status rfl, hq⟩

theorem assertion_fresh : (discipline cfg id).Assertion 0 (Fresh id) where
  inv h := not_settleable h.status rfl
  rely h hr _ :=
    ⟨((hr rfl).statusOf id).trans h.status, by rw [(hr rfl).settlements]; exact h.row,
      (hr rfl).untouched h.chain⟩

theorem assertion_unsettled : (discipline cfg id).Assertion 0 (Unsettled id) where
  inv h := h.status
  rely h hr _ :=
    ⟨by rw [(hr rfl).orders]; exact h.order, mt (hr rfl).settleable.1 h.status,
      (hr rfl).quiet h.chain⟩

theorem assertion_recorded : (discipline cfg id).Assertion 0 (Recorded id) where
  inv h := not_settleable h.status rfl
  rely h hr _ :=
    ⟨((hr rfl).statusOf id).trans h.status, by rw [(hr rfl).settlements]; exact h.row⟩

/-- Some of the polls are left, or the transaction was dropped. -/
theorem assertion_awaiting (tx : Tx) (left : ℕ) : (discipline cfg id).Assertion 0
    fun w => Awaiting id tx w ∧ (left = 0 → Quiet id w.chain) where
  inv h := not_settleable h.1.status rfl
  rely h hr _ :=
    ⟨⟨((hr rfl).statusOf id).trans h.1.status, by rw [(hr rfl).settlements]; exact h.1.row,
      (hr rfl).sent h.1.chain⟩, fun h0 => (hr rfl).quiet (h.2 h0)⟩

theorem assertion_confirmed (tx : Tx) : (discipline cfg id).Assertion 0
    fun w => Awaiting id tx w ∧ w.chain.result tx = some true where
  inv h := not_settleable h.1.status rfl
  rely h hr _ :=
    ⟨⟨((hr rfl).statusOf id).trans h.1.status, by rw [(hr rfl).settlements]; exact h.1.row,
      (hr rfl).sent h.1.chain⟩, (hr rfl).result h.2⟩

/-! ## Before the transaction is sent -/

/-- Reads keep what holds while the owner waits. -/
theorem ofReads {P : World → Prop} (hA : (discipline cfg id).Assertion 0 P) :
    OfReads fun _ p => p.Keeps (discipline cfg id) 0 P where
  toCompositional := Keeps.compositional (discipline cfg id) 0 P
  read hr := triple_read hr hA (fun _ _ => trivial) (fun w => guar w w)
    (fun _ _ _ h _ _ _ => h) fun _ _ _ h _ _ => h

theorem ofReads_fresh : OfReads fun _ p => p.Keeps (discipline cfg id) 0 (Fresh id) :=
  ofReads assertion_fresh

/-- A healthy read of the fresh order. -/
theorem read_fresh {r : Request} {Y : Failure → World → Prop} (hr : r.reads = true)
    (hp : ∀ h n, r ≠ .getTransaction h n) :
    Triple (discipline cfg id) 0 (Fresh id) (await r)
      (fun a w => Fresh id w ∧ ∃ c, c.Healthy ∧ (effect cfg r c w).1 = .ok a) Y := by
  refine triple_read_healthy hr hp assertion_fresh (fun _ _ => trivial) (fun w => guar w w) ?_
  intro w c h
  cases r with
  | getTransaction txHash n => exact absurd rfl (hp txHash n)
  | orderUpdate id' data => cases hr
  | _ => exact h

/-- The order may be marked failed whenever it will not be settled. -/
theorem update_failed {txHash : Option (Option TxHash)} {Y : Failure → World → Prop} :
    Triple (discipline cfg id) 0 (Unsettled id)
      (await (.orderUpdate id { status := .settlementFailed, txHash }))
      (fun _ => Unsettled id) Y := by
  refine triple_update_healthy assertion_unsettled (fun _ _ => trivial) (fun _ _ h => h.1) rfl
    (fun _ h => h.order) fun w o _ h _ _ => ⟨guar _ _, ⟨_, w.setOrder_lookup id _⟩, ?_, h.chain⟩
  exact not_settleable (statusOf_setOrder w id _) rfl

theorem triple_checkSettled {Y : Failure → World → Prop} : Triple (discipline cfg id) 0 (Fresh id)
    (checkSettled id) (fun settled w => settled = false ∧ Fresh id w) Y := by
  refine Triple.tryCatch (Y := fun _ _ => False) ?_ fun _ => fun _ h => h.elim
  refine Triple.bind (R := fun _ => Fresh id)
    ((read_fresh rfl (by simp)).mono (fun _ h => h) (fun _ _ h => h.1) fun _ _ h => h) fun _ => ?_
  refine Triple.bind (read_fresh rfl (by simp)) fun sim => ?_
  intro w hw
  obtain ⟨hf, c, hc, ha⟩ := hw
  have hsim : sim = .value false := by
    have h := Except.ok.inj ha
    have hset : isSettled id w.chain.contract = false := decide_eq_false hf.chain.marker
    simpa [hc.simulationFails, hc.restore, hset] using h.symm
  subst hsim
  exact ⟨rfl, hf⟩

theorem triple_checkFloat (amountUsd : Usd) : Triple (discipline cfg id) 0 (Fresh id)
    (checkFloat cfg id amountUsd) (fun funded w => if funded then Fresh id w else Unsettled id w)
      fun _ => Unsettled id := by
  refine Triple.tryCatch (Y := fun _ => Fresh id) ?_ fun _ => Triple.ret fun _ h => h
  refine Triple.bind (R := fun _ => Fresh id) (ofReads_fresh.read rfl) fun float => ?_
  dsimp only
  split
  · refine Triple.bind (R := fun _ => Unsettled id) (update_failed.mono
      (fun _ h => h.unsettled) (fun _ _ h => h) fun _ _ h => h) fun _ => Triple.ret fun _ h => h
  · exact Triple.ret fun _ h => h

/-! ## From the acceptance on -/

/-- A transaction that was not applied and does not wait will not settle the order. -/
theorem quiet_of_dropped {tx : Tx} {c : Chain} (h : Sent id tx c) (hn : c.result tx = none)
    (hm : .settle tx ∉ c.mempool) : Quiet id c := by
  refine ⟨h.pending.resolve_right fun hp => ?_, fun hs => ?_⟩
  · have hmem : tx ∈ settlesOf id c.mempool := by simp [hp.1]
    exact hm (mem_settlesOf.1 hmem).1
  · rw [h.marker.1 hs] at hn
    cases hn

theorem quiet_of_failed {tx : Tx} {c : Chain} (h : Sent id tx c)
    (hr : c.result tx = some false) : Quiet id c := by
  refine ⟨h.pending.resolve_right fun hp => ?_, fun hs => ?_⟩
  · rw [hp.2] at hr
    cases hr
  · rw [h.marker.1 hs] at hr
    cases hr

/-- The polls. They see what the transaction came to, and time out on a dropped one only. -/
theorem triple_pollTransaction (tx : Tx) : Triple (discipline cfg id) 0 (Awaiting id tx)
    (pollTransaction (.onChain tx))
    (fun r w => if r.status = .success then Awaiting id tx w ∧ w.chain.result tx = some true
      else Unsettled id w)
    fun e w => e = .settlementTimeout (.onChain tx) ∧ Unsettled id w := by
  have hpolls := triple_polls tx (D := discipline cfg id) (F := Unsettled id)
    (assertion_awaiting tx)
    (fun _ _ _ _ => trivial) (fun w => guar w w) (fun hal => hal.1)
    (fun h hr => And.intro h.1 hr)
    (fun h hr => h.1.unsettled (quiet_of_failed h.1.chain hr)) ?_ pollMaxAttempts 0 (zero_add _)
  · exact hpolls.mono (fun w h => ⟨h, fun h0 => absurd h0 (by decide)⟩) (fun _ _ h => h)
      fun _ _ h => ⟨h.1, h.2.1.unsettled (h.2.2 rfl)⟩
  · intro left attempt w c hn h hal hnone
    refine ⟨h.1, fun h0 => ?_⟩
    obtain ⟨hlag, hm⟩ := hal.2 (by omega)
    have hres : w.chain.result tx = none :=
      hnone.resolve_left (by rw [hlag]; exact Bool.false_ne_true)
    exact quiet_of_dropped h.1.chain hres (hm tx rfl)

/-- What an attempt leaves when it throws : the errors of `invokeSettle` that it passes on
leave the order unsettled, and nothing is sent on any other. -/
def InvokeError (id : String) (e : Failure) (w : World) : Prop :=
  if e.known then Unsettled id w else Fresh id w

theorem Fresh.invokeError {w : World} (h : Fresh id w) (e : Failure) : InvokeError id e w := by
  unfold InvokeError
  split
  · exact h.unsettled
  · exact h

theorem triple_submitSettle {tx : Tx} (href : tx.orderRef = id) :
    Triple (discipline cfg id) 0 (Fresh id) (submitSettle tx)
      (fun r w => if r.status = .success then Awaiting id tx w ∧ w.chain.result tx = some true
        else Unsettled id w) (InvokeError id) := by
  refine triple_submit (S := Fresh id) (A := Awaiting id tx) ?_ ?_ ?_
  · refine (read_fresh rfl (by simp)).mono (fun _ h => h) (fun simulated w h => ?_) fun _ _ h => h
    split
    · exact h.1
    · exact h.1.invokeError _
  · refine triple_sendTransaction assertion_fresh (fun _ _ => trivial) (fun w => guar w w)
      (fun w c _ hal => by simp [hal.fault]) ?_ ?_ fun w c _ hal hf => ?_
    · intro w c status h _ hs _ _
      rw [if_neg (by simp [hs])]
      exact h.invokeError _
    · intro w c status h _ hs _ _
      have hawait : Awaiting id tx (w.setChain (w.chain.accepted tx)) :=
        ⟨h.status, h.row, h.chain.accepted href⟩
      exact ⟨guar _ _, by simpa [hs] using hawait⟩
    · rw [hal.fault] at hf
      cases hf
  · refine (triple_pollTransaction tx).mono (fun _ h => h) (fun _ _ h => h) ?_
    rintro e w ⟨rfl, h⟩
    exact h

/-- What a call of `invokeSettle` leaves when it throws : it is made again only when nothing
is sent. -/
def AttemptError (id : String) : Failure → World → Prop
  | .settlementNetwork => Fresh id
  | _ => Unsettled id

theorem triple_invokeSettle (totalAmountBase : ℤ) (recipients : List RecipientInput) :
    Triple (discipline cfg id) 0 (Fresh id) (invokeSettle cfg id totalAmountBase recipients)
      (fun r w => if r.status = .success then
        ∃ tx, Awaiting id tx w ∧ w.chain.result tx = some true else Unsettled id w)
      (AttemptError id) := by
  refine Triple.tryCatch (Y := InvokeError id) ?_ fun e => ?_
  · refine Triple.bind (R := fun _ => Fresh id) ((read_fresh rfl (by simp)).mono (fun _ h => h)
      (fun _ _ h => h.1) fun _ _ h => h) fun account => ?_
    obtain ⟨sequence, now⟩ := account
    cases hb : buildSettle cfg sequence now id totalAmountBase recipients with
    | none =>
      simp only [hb]
      exact Triple.raise fun _ h => h.invokeError _
    | some tx =>
      simp only [hb]
      refine (triple_submitSettle (buildSettle_eq_some hb).2.1).mono (fun _ h => h) ?_
        fun _ _ h => h
      intro r w h
      split at h
      · next hs =>
        rw [if_pos hs]
        exact ⟨tx, h⟩
      · next hs =>
        rw [if_neg hs]
        exact h
  · dsimp only
    split
    · next hk =>
      refine Triple.raise fun w h => ?_
      rw [InvokeError, if_pos hk] at h
      cases e <;> first | exact h | cases hk
    · next hk =>
      refine Triple.raise fun w h => ?_
      rw [InvokeError, if_neg hk] at h
      exact h

theorem triple_recordSettlementSuccess {tx : Tx} {Y : Failure → World → Prop} (amountUsd : Usd)
    (totalAmountBase : ℤ) (txHash : TxHash) (recipients : List RecipientInput)
    (collaborators : List Collaborator) : Triple (discipline cfg id) 0
      (fun w => Awaiting id tx w ∧ w.chain.result tx = some true)
      (recordSettlementSuccess id amountUsd totalAmountBase txHash recipients collaborators)
      (fun _ => Recorded id) Y := by
  refine Triple.bind (R := fun _ w => statusOf w id = some .settlementPending ∧
    (w.db.settlements.lookup id).isSome = true) ?_ fun _ => ?_
  · refine triple_create_healthy (assertion_confirmed tx) (fun _ _ => trivial) (fun _ _ h => h)
      (fun _ h => h.1.row) fun w h => ⟨guar _ _, h.1.status, ?_⟩
    simp [World.addSettlement, AList.lookup_insert]
  · refine Triple.bind (R := fun _ => Recorded id) ?_ fun _ =>
      Triple.signal fun w h => ⟨guar _ _, h.status, h.row⟩
    refine triple_update_healthy ⟨fun h => not_settleable h.1 rfl, fun h hr _ => ?_⟩
      (fun _ _ => trivial) (fun _ _ h => h.1) rfl (fun _ h => exists_order_of_statusOf h.1)
        fun w o _ h _ _ => ⟨guar _ _, statusOf_setOrder w id _, h.2⟩
    exact ⟨((hr rfl).statusOf id).trans h.1, by rw [(hr rfl).settlements]; exact h.2⟩

/-- The order is settled and recorded, or it is not and will not be settled. -/
def Final (id : String) (w : World) : Prop :=
  Recorded id w ∨ Unsettled id w

theorem triple_settleAndRecord (amountUsd : Usd) (recipients : List RecipientInput)
    (collaborators : List Collaborator) : Triple (discipline cfg id) 0 (Fresh id)
      (settleAndRecord cfg id amountUsd recipients collaborators) (fun _ => Final id)
      (AttemptError id) := by
  refine Triple.bind (triple_invokeSettle _ _) fun result => ?_
  obtain ⟨txHash, status⟩ := result
  cases status with
  | success =>
    intro w hw
    obtain ⟨tx, hw⟩ := hw
    exact ((triple_recordSettlementSuccess _ _ _ _ _).mono (fun _ h => h)
      (fun _ _ h => Or.inl h) fun _ _ h => h) w hw
  | failed => exact update_failed.mono (fun _ h => h) (fun _ _ h => Or.inr h) fun _ _ h => h

theorem triple_settleWithRetry (amountUsd : Usd) (recipients : List RecipientInput)
    (collaborators : List Collaborator) : ∀ left : ℕ, Triple (discipline cfg id) 0 (Fresh id)
      (settleWithRetry cfg id amountUsd recipients collaborators left) (fun _ => Final id)
      fun _ => Unsettled id
  | 0 => Triple.ret fun _ h => Or.inr h.unsettled
  | left + 1 => by
    refine Triple.tryCatch (triple_settleAndRecord _ _ _) fun e => ?_
    cases e with
    | settlementNetwork =>
      dsimp only
      split
      · exact update_failed.mono (fun _ h => h.unsettled) (fun _ _ h => Or.inr h)
          fun _ _ h => h
      · exact triple_settleWithRetry amountUsd recipients collaborators left
    | _ => exact Triple.raise fun _ h => h

theorem triple_settlePending {payload : PaymentReceivedPayload} (hid : payload.orderId = id)
    (order : Order) : Triple (discipline cfg id) 0 (Fresh id)
      ((settlePending cfg payload order).tryCatch (handleSettlementError payload.orderId))
      (fun _ => Final id) fun _ => Final id := by
  subst hid
  have hfail : Triple (discipline cfg payload.orderId) 0 (Unsettled payload.orderId)
      (setStatus payload.orderId .settlementFailed) (fun _ => Final payload.orderId)
      fun _ => Unsettled payload.orderId :=
    update_failed.mono (fun _ h => h) (fun _ _ h => Or.inr h) fun _ _ h => h
  have hfresh := hfail.mono (fun _ h => Fresh.unsettled h) (fun _ _ h => h) fun _ _ h => h
  refine Triple.tryCatch (Y := fun _ => Unsettled payload.orderId) ?_ fun e => ?_
  · refine Triple.bind (R := fun _ => Fresh payload.orderId) ((read_fresh rfl (by simp)).mono
      (fun _ h => h) (fun _ _ h => h.1) fun _ _ h => h) fun collaborators => ?_
    split
    · exact hfresh
    split
    · exact hfresh
    split
    · exact hfresh
    refine Triple.bind (R := fun _ => Fresh payload.orderId)
      ((ofReads_fresh.checks.findRecipientsMissingTrustline _).mono (fun _ h => h) (fun _ _ h => h)
        fun _ _ h => h.unsettled) fun missing => ?_
    split
    · exact hfresh
    refine Triple.bind triple_checkSettled fun settled => ?_
    intro w hw
    obtain ⟨rfl, hw⟩ := hw
    refine (Triple.bind (triple_checkFloat _) fun funded => ?_) w hw
    cases funded with
    | true => exact triple_settleWithRetry _ _ _ _
    | false => exact Triple.ret fun _ h => Or.inr h
  · have hret : Triple (discipline cfg payload.orderId) 0 (Unsettled payload.orderId)
        (Prog.ret ()) (fun _ => Final payload.orderId) fun _ => Final payload.orderId :=
      Triple.ret fun _ h => Or.inr h
    cases e with
    | invalidStateTransition source target => exact hret
    | settlementTimeout txHash => exact hret
    | settlementNetwork => exact hret
    | _ => exact hfail.mono (fun _ h => h) (fun _ _ h => h) fun _ _ h => Or.inr h

theorem stable : Stable (discipline cfg id) 0 (fun _ : Unit => Final id) fun _ => Final id := by
  have hrel : ∀ {w w'}, Final id w → (discipline cfg id).rely 0 w w' → Final id w' := by
    intro w w' h hr
    rcases h with h | h
    · exact Or.inl (assertion_recorded.rely h hr (by
        exact not_settleable (((hr rfl).statusOf id).trans h.status) rfl))
    · exact Or.inr (assertion_unsettled.rely h hr (mt (hr rfl).settleable.1 h.status))
  have hinv : ∀ {w}, Final id w → (discipline cfg id).inv w := fun h =>
    h.elim (fun h => assertion_recorded.inv h) fun h => h.status
  exact ⟨hinv, hinv, fun h hr _ => hrel h hr, fun h hr _ => hrel h hr⟩

/-! ## Any number of runs -/

/-- A run that is not past the check of the status, or has ended. -/
inductive PreGate (cfg : StellarConfig) (id : String) : Method Unit → Prop
  | start {payload : PaymentReceivedPayload} (h : payload.orderId = id) :
    PreGate cfg id (handlePaymentReceived cfg payload)
  | checked {payload : PaymentReceivedPayload} (h : payload.orderId = id) (order : Order) :
    PreGate cfg id
      ((startSettlement cfg payload order).tryCatch (handleSettlementError payload.orderId))
  | ended {p : Method Unit} (h : p.Ended) : PreGate cfg id p

/-- Reading the order : the run ends, or goes on to the write of `settlementPending`. -/
theorem resume_start {payload : PaymentReceivedPayload} {c : Choice} (hf : c.fault = .none)
    (w : World) : ∃ p, (handlePaymentReceived cfg payload).resume (machine cfg) c w = (p, w) ∧
      (p.Ended ∨ ∃ order, p =
        (startSettlement cfg payload order).tryCatch (handleSettlementError payload.orderId)) := by
  have hx : (machine cfg).exec (.orderFindUnique payload.orderId) c w =
      (.ok ((w.db.orders.lookup payload.orderId).map fun o => (o, w.db.creatorOf o.productId)),
        w) :=
    exec_of_fault_none cfg w hf
  change ∃ p, (Prog.tryCatch (Prog.bind (Prog.ask (S := backend) _) _) _).resume (machine cfg) c w =
    (p, w) ∧ _
  rw [resume_ask, hx]
  cases w.db.orders.lookup payload.orderId with
  | none => exact ⟨.ret (), rfl, Or.inl trivial⟩
  | some o =>
    dsimp only [Option.map_some]
    split
    · exact ⟨.ret (), rfl, Or.inl trivial⟩
    · exact ⟨_, rfl, Or.inr ⟨o, rfl⟩⟩

/-- One answer leaves such a run there and the world as it is, or the order's status permits
the settlement and the run goes on to it. -/
theorem PreGate.resume {p : Method Unit} (h : PreGate cfg id p) {c : Choice} {w : World}
    (hc : ∀ r, p.request = some r → Permitted id w r c) :
    (PreGate cfg id (p.resume (machine cfg) c w).1 ∧ (p.resume (machine cfg) c w).2 = w) ∨
      Settleable w id ∧ ∃ payload order o, payload.orderId = id ∧
        w.db.orders.lookup id = some o ∧ p.resume (machine cfg) c w =
          ((settlePending cfg payload order).tryCatch (handleSettlementError payload.orderId),
            w.setOrder id (OrderUpdate.applyTo { status := .settlementPending } o)) := by
  cases h with
  | ended h =>
    rw [Prog.resume_ended _ h]
    exact Or.inl ⟨.ended h, rfl⟩
  | @start payload h =>
    have hf : c.fault = .none := (hc _ rfl).fault
    obtain ⟨p, hp, hend⟩ := @resume_start cfg payload c hf w
    rw [hp]
    rcases hend with hend | ⟨order, rfl⟩
    · exact Or.inl ⟨.ended hend, rfl⟩
    · exact Or.inl ⟨.checked h order, rfl⟩
  | @checked payload h order =>
    subst h
    obtain ⟨hh, hset⟩ := hc _ rfl
    have hs : Settleable w payload.orderId := hset rfl rfl
    obtain ⟨o, ho⟩ := hs.exists_order
    refine Or.inr ⟨hs, payload, order, o, rfl, ho, ?_⟩
    have hx : (machine cfg).exec (.orderUpdate payload.orderId { status := .settlementPending })
        c w = (.ok (), w.setOrder payload.orderId
          (OrderUpdate.applyTo { status := .settlementPending } o)) :=
      exec_update_healthy cfg hh.fault ho rfl
    have hr := resume_ask (machine cfg) (.orderUpdate payload.orderId
      { status := .settlementPending }) (fun _ => settlePending cfg payload order)
        (handleSettlementError payload.orderId) c w
    rw [hx] at hr
    exact hr

/-- No run is past the check and the order has no transaction, or one run owns it. -/
def Inv (cfg : StellarConfig) (id : String) (s : Config backend World Unit) : Prop :=
  (s.world.db.settlements.lookup id = none ∧ Untouched id s.world.chain ∧
    ∀ (i : ℕ) (p : Method Unit), s.threads[i]? = some p → PreGate cfg id p) ∨
  ∃ k p, s.threads[k]? = some p ∧ p.Suspended ∧ ¬ Settleable s.world id ∧
    p.Safe (discipline cfg id) 0 (fun _ => Final id) (fun _ => Final id) s.world ∧
    ∀ (i : ℕ) (q : Method Unit), i ≠ k → s.threads[i]? = some q → PreGate cfg id q

theorem inv_act {s : Config backend World Unit} {a : Action Choice Env} (h : Inv cfg id s)
    (ha : s.Meets (Permitted id) (fun _ => Foreign id) a) : Inv cfg id (s.act (machine cfg) a) := by
  have hst : Stable (discipline cfg id) 0 (fun _ : Unit => Final id) fun _ => Final id := stable
  cases a with
  | env e =>
    have hrel : Rel id s.world ((machine cfg).env e s.world) := env_rel ha
    rcases h with ⟨hrow, hchain, hpre⟩ | ⟨k, p, hk, hsus, hinv, hsafe, hpre⟩
    · exact Or.inl ⟨by rw [← hrow]; exact congrArg _ hrel.settlements, hrel.untouched hchain, hpre⟩
    · have hinv' := mt hrel.settleable.1 hinv
      exact Or.inr ⟨k, p, hk, hsus, hinv', hsafe.rely hsus (fun _ => hrel) hinv'
        (fun _ hQ => hst.ret_rely (a := ()) hQ (fun _ => hrel) hinv')
        (fun e hX => hst.raise_rely (e := e) hX (fun _ => hrel) hinv'), hpre⟩
  | run i c =>
    cases hp : s.threads[i]? with
    | none => simpa only [Config.act, hp] using h
    | some p =>
      rw [Config.act_run _ c hp]
      have hc : ∀ r, p.request = some r → Permitted id s.world r c := fun r hr => ha r ⟨p, hp, hr⟩
      rcases h with ⟨hrow, hchain, hpre⟩ | ⟨k, q, hk, hsus, hinv, hsafe, hpre⟩
      · rcases (hpre i p hp).resume hc with ⟨hpre', hw⟩ | ⟨-, payload, order, o, hid, ho, hr⟩
        · -- the run stays before the check
          rw [hw]
          refine Or.inl ⟨hrow, hchain, fun j q hq => ?_⟩
          rcases Config.getElem?_set hp hq with ⟨-, rfl⟩ | ⟨-, hq⟩
          · exact hpre'
          · exact hpre j q hq
        · -- the run becomes the owner
          rw [hr]
          have hfresh : Fresh id (s.world.setOrder id
              (OrderUpdate.applyTo { status := .settlementPending } o)) :=
            ⟨statusOf_setOrder _ _ _, hrow, hchain⟩
          refine Or.inr ⟨i, _, List.getElem?_set_self (List.getElem?_eq_some_iff.1 hp).1, trivial,
            hfresh.unsettled.status, triple_settlePending hid order _ hfresh, ?_⟩
          intro j q hj hq
          rcases Config.getElem?_set hp hq with ⟨rfl, -⟩ | ⟨-, hq⟩
          · exact absurd rfl hj
          · exact hpre j q hq
      · by_cases hik : i = k
        · -- the owner goes on
          subst hik
          obtain rfl : p = q := Option.some.inj (hp.symm.trans hk)
          obtain ⟨hinv', hsus', hsafe', -⟩ := Config.resume_safe (i := 0) (Q := fun _ _ => Final id)
            (X := fun _ _ => Final id) stable hsus hinv hsafe hc
          refine Or.inr ⟨i, _, List.getElem?_set_self (List.getElem?_eq_some_iff.1 hp).1, hsus',
            hinv', hsafe', fun j q hj hq => ?_⟩
          rcases Config.getElem?_set hp hq with ⟨rfl, -⟩ | ⟨-, hq⟩
          · exact absurd rfl hj
          · exact hpre j q hj hq
        · -- another run only reads : the status permits no second settlement
          rcases (hpre i p hik hp).resume hc with ⟨hpre', hw⟩ | ⟨hset, -⟩
          · rw [hw]
            refine Or.inr ⟨k, q, ?_, hsus, hinv, hsafe, fun j r hj hr => ?_⟩
            · rw [List.getElem?_set_ne hik]
              exact hk
            · rcases Config.getElem?_set hp hr with ⟨-, rfl⟩ | ⟨-, hr⟩
              · exact hpre'
              · exact hpre j r hj hr
          · exact absurd hset hinv

instance : (w : World) → (r : Request) → (c : Choice) → Decidable (Permitted id w r c)
  | w, .getTransaction (.onChain tx) attempt, c =>
    decidable_of_iff (c.fault = .none ∧ (attempt + 1 = pollMaxAttempts →
      c.lag = false ∧ .settle tx ∉ w.chain.mempool)) (by simp [Permitted])
  | _, .getTransaction (.placeholder _) attempt, c =>
    decidable_of_iff (c.fault = .none ∧ (attempt + 1 = pollMaxAttempts → c.lag = false))
      (by simp [Permitted])
  | w, .orderUpdate id' data, c => inferInstanceAs (Decidable (c.Healthy ∧
      (id' = id → data.status = .settlementPending → Settleable w id)))
  | _, .productFindUnique _, c | _, .userFindUnique _, c | _, .orderCreate _, c
  | _, .orderFindWaiting _, c | _, .walletFindAddress _, c | _, .walletCreate _ _ _, c
  | _, .orderFindFirst _, c | _, .orderFindUnique _, c | _, .orderFindMany _, c
  | _, .walletFindFirst _, c | _, .collaboratorFindMany _, c | _, .settlementFindUnique _, c
  | _, .settlementCreate _, c | _, .getUsdcBalance _, c | _, .getAccount, c
  | _, .simulateSettle _, c | _, .simulateIsSettled _, c | _, .sendTransaction _, c =>
    inferInstanceAs (Decidable c.Healthy)

end Overlap

/-- Overlapping runs for an order without a transaction, whose steps meet `Permitted`. When
all have ended and the contract has settled the order, it is settled and recorded. -/
theorem overlapping_runs (cfg : StellarConfig) (id : String)
    (payloads : List PaymentReceivedPayload) (w : World) (as : List (Action Choice Env))
    (hid : ∀ p ∈ payloads, p.orderId = id) (hrow : w.db.settlements.lookup id = none)
    (hchain : Untouched id w.chain)
    (hrun : Config.Along (machine cfg)
      (Config.Meets (Overlap.Permitted id) fun _ => Foreign id) as
        ⟨payloads.map (handlePaymentReceived cfg), w⟩)
    (hend : (Config.run (machine cfg) as ⟨payloads.map (handlePaymentReceived cfg), w⟩).Ended)
    (hset : isSettled id (Config.run (machine cfg) as
      ⟨payloads.map (handlePaymentReceived cfg), w⟩).world.chain.contract = true) :
    statusOf (Config.run (machine cfg) as
        ⟨payloads.map (handlePaymentReceived cfg), w⟩).world id = some .settled ∧
      ((Config.run (machine cfg) as
        ⟨payloads.map (handlePaymentReceived cfg), w⟩).world.db.settlements.lookup id).isSome =
          true := by
  have hstart : Overlap.Inv cfg id ⟨payloads.map (handlePaymentReceived cfg), w⟩ := by
    refine Or.inl ⟨hrow, hchain, fun i p hp => ?_⟩
    obtain ⟨payload, hmem, rfl⟩ := List.mem_map.1 (List.mem_of_getElem? hp)
    exact .start (hid payload hmem)
  have hmarker := of_decide_eq_true hset
  rcases Config.inv_run (fun _ _ => Overlap.inv_act) as _ hstart hrun with
    ⟨-, hun, -⟩ | ⟨k, p, hk, -, -, hsafe, -⟩
  · exact absurd hmarker hun.marker
  · have hfinal : Overlap.Final id (Config.run (machine cfg) as
        ⟨payloads.map (handlePaymentReceived cfg), w⟩).world := by
      have hp := hend p (List.mem_of_getElem? hk)
      cases p with
      | ret a => exact hsafe
      | raise e => exact hsafe
      | emit v p => exact hp.elim
      | call r f => exact hp.elim
    rcases hfinal with hrec | hun
    · exact ⟨hrec.status, hrec.row⟩
    · exact absurd hmarker hun.chain.marker

/-- Two runs for the order of `demoPayload`. -/
def demoRuns : Config backend World Unit :=
  ⟨[demoPayload "order", demoPayload "order"].map (handlePaymentReceived demoConfig),
    demoWorld [demoCollaborator "A" 10000] [("order", demoOrder .paymentReceived)]⟩

/-- The second run reads the order when the first has claimed it. -/
theorem overlapping_runs_claimed : ∃ s, s = Config.run (machine demoConfig)
      (List.replicate 2 (.run 0 {}) ++ .run 1 {} :: List.replicate 8 (.run 0 {}) ++
        .env (.network (.close false)) :: List.replicate 3 (.run 0 {})) demoRuns ∧
    statusOf s.world "order" = some .settled :=
  ⟨_, rfl, (overlapping_runs demoConfig "order" [demoPayload "order", demoPayload "order"] _ _
    (by decide) (by decide) (untouched_demoWorld _ _ _) (by decide) (by decide) (by decide)).1⟩

/-- Both runs read the order before either claims it. The second passes the check of the
contract before the first settles, its own simulation is rejected, and it fails the order
that the first has settled. -/
theorem overlapping_runs_fail : ∃ as s, s = Config.run (machine demoConfig) as demoRuns ∧
    Config.Along (machine demoConfig)
      (Config.Meets (fun _ _ c => c.Healthy) fun _ => Foreign "order") as demoRuns ∧
    s.Ended ∧ isSettled "order" s.world.chain.contract = true ∧
    statusOf s.world "order" = some .settlementFailed :=
  ⟨[.run 0 {}, .run 1 {}, .run 0 {}] ++ List.replicate 7 (.run 1 {}) ++
      List.replicate 8 (.run 0 {}) ++ .env (.network (.close false)) ::
        List.replicate 3 (.run 0 {}) ++ List.replicate 2 (.run 1 {}),
    _, rfl, by decide, by decide, by decide, by decide⟩

end Kreav
