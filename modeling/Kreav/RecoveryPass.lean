import Kreav.SettlementFaults

/-!
# One recovery pass

A startup recovery pass with healthy requests, and an order in `settlementPending` without
a transaction hash that the contract has settled. `recovery_pass` : the pass ends, with
the order settled and its settlement recorded exactly when no settlement row existed
before and the product still has an active collaborator.

Other orders are recovered before and after it in the same pass and do not touch it
(`frame_before`, `frame_after`).
-/

open Async Prog

namespace Kreav

/-- A step of the network, not of a product owner. -/
def Env.IsNetwork : Env → Prop
  | .network _ => True
  | .updateProduct _ _ => False

namespace Recovery

/-- What the network keeps while the pass waits. -/
def Rel (w w' : World) : Prop :=
  w'.db = w.db ∧ w.chain.contract.settlement ⊆ w'.chain.contract.settlement

/-- One pass with healthy requests among any steps of the network. -/
def discipline (cfg : StellarConfig) : Discipline (machine cfg) :=
  Discipline.solo (machine cfg) (fun _ => True) Rel (fun _ _ c => c.Healthy)
    (fun _ e => e.IsNetwork) (fun _ _ => True)
    (fun _ => ⟨rfl, Finset.Subset.refl _⟩)
    (fun h h' => ⟨h'.1.trans h.1, h.2.trans h'.2⟩)
    (fun {w e} _ ho => by
      cases e with
      | network step => exact ⟨trivial, rfl, (w.chain.step_extends cfg step).settled⟩
      | updateProduct productId rows => exact ho.elim)

variable {cfg : StellarConfig} {id : String} {o : Order} {row : Option Settlement}
  {active : List Collaborator}

theorem guar (w w' : World) : (discipline cfg).guar 0 w w' :=
  fun h => absurd rfl h

/-- The order before its recovery : its rows, and the contract's marker. -/
structure Before (id : String) (o : Order) (row : Option Settlement)
    (active : List Collaborator) (w : World) : Prop where
  order : w.db.orders.lookup id = some o
  settlement : w.db.settlements.lookup id = row
  active : w.db.activeCollaborators o.productId = active
  settled : id ∈ w.chain.contract.settlement

/-- The order after it. -/
def After (id : String) (row : Option Settlement) (active : List Collaborator) (w : World) :
    Prop :=
  if row = none ∧ active ≠ [] then
    statusOf w id = some .settled ∧ (w.db.settlements.lookup id).isSome = true
  else statusOf w id = some .settlementFailed

theorem after_ok {w : World} (hrow : row = none) (hactive : active ≠ [])
    (hs : statusOf w id = some .settled) (hw : (w.db.settlements.lookup id).isSome = true) :
    After id row active w := by
  rw [After, if_pos ⟨hrow, hactive⟩]
  exact ⟨hs, hw⟩

theorem after_failed {w : World} (h : ¬ (row = none ∧ active ≠ []))
    (hs : statusOf w id = some .settlementFailed) : After id row active w := by
  rw [After, if_neg h]
  exact hs

theorem assertion_before : (discipline cfg).Assertion 0 (Before id o row active) where
  inv _ := trivial
  rely h hr _ := by
    obtain ⟨hdb, hs⟩ := hr rfl
    exact ⟨by rw [hdb]; exact h.order, by rw [hdb]; exact h.settlement,
      by rw [hdb]; exact h.active, hs h.settled⟩

theorem assertion_after : (discipline cfg).Assertion 0 (After id row active) where
  inv _ := trivial
  rely {w w'} h hr _ := by
    have hdb : w'.db = w.db := (hr rfl).1
    simpa only [After, statusOf, hdb] using h

/-- Recovering another order leaves this one waiting for its recovery. -/
theorem frame_before {id' : String} (hne : id ≠ id') :
    (discipline cfg).Frame 0 (Before id o row active) (Touches id') where
  assertion := assertion_before
  duty _ _ := trivial
  exec {w r c} hr h _ := by
    have hs : SameOrder id w ((machine cfg).exec r c w).2 := exec_touches cfg hne hr c w
    refine ⟨guar _ _, hs.order.trans h.order, hs.settlement.trans h.settlement, ?_, ?_⟩
    · rw [Database.activeCollaborators, hs.collaborators]
      exact h.active
    · rw [hs.chain]
      exact h.settled
  log h := ⟨guar _ _, h.order, h.settlement, h.active, h.settled⟩

theorem frame_after {id' : String} (hne : id ≠ id') :
    (discipline cfg).Frame 0 (After id row active) (Touches id') where
  assertion := assertion_after
  duty _ _ := trivial
  exec {w r c} hr h _ := by
    have hs : SameOrder id w ((machine cfg).exec r c w).2 := exec_touches cfg hne hr c w
    refine ⟨guar _ _, ?_⟩
    simpa only [After, statusOf, hs.order, hs.settlement] using h
  log h := ⟨guar _ _, h⟩

/-- A healthy read answers from the waiting order. -/
theorem read_before {r : Request} {Y : Failure → World → Prop} (hr : r.reads = true)
    (hp : ∀ h n, r ≠ .getTransaction h n) :
    Triple (discipline cfg) 0 (Before id o row active) (await r)
      (fun a w => Before id o row active w ∧ ∃ c, c.Healthy ∧ (effect cfg r c w).1 = .ok a) Y :=
  triple_read_healthy hr hp assertion_before (fun _ _ => trivial) (fun w => guar w w)
    fun _ _ h => h

theorem setStatus_failed {Y : Failure → World → Prop} (h : ¬ (row = none ∧ active ≠ [])) :
    Triple (discipline cfg) 0 (Before id o row active) (setStatus id .settlementFailed)
      (fun _ => After id row active) Y :=
  triple_update_healthy assertion_before (fun _ _ => trivial) (fun _ _ h => h) rfl
    (fun _ hw => ⟨o, hw.order⟩) fun w _ _ _ _ _ =>
      ⟨guar _ _, after_failed h (by simp [OrderUpdate.applyTo])⟩

/-- Recording the settlement : it fails on the unique index exactly when there is a row. -/
theorem triple_record (amountUsd : Usd) (totalAmountBase : ℤ) (txHash : TxHash)
    (recipients : List RecipientInput) (collaborators : List Collaborator)
    (hactive : active ≠ []) : Triple (discipline cfg) 0 (Before id o row active)
      (recordSettlementSuccess id amountUsd totalAmountBase txHash recipients collaborators)
      (fun _ => After id row active) fun _ w => Before id o row active w ∧ row ≠ none := by
  refine Triple.bind (R := fun _ w => row = none ∧ w.db.orders.lookup id = some o ∧
    (w.db.settlements.lookup id).isSome = true) ?_ fun _ => ?_
  · refine triple_settlementCreate assertion_before (fun _ _ => trivial) ?_ ?_
    · intro w c h hc hn
      have hf := Choice.Healthy.fault hc
      refine ⟨guar _ _, fun _ => ⟨?_, h.order, ?_⟩, fun hf' => by simp [hf] at hf'⟩
      · rw [← h.settlement]
        exact hn
      · simp [World.addSettlement, AList.lookup_insert]
    · intro w c e h hc he
      refine ⟨guar _ _, h, ?_⟩
      rcases he with ⟨-, hn⟩ | ⟨-, -, hs⟩
      · exact absurd (Choice.Healthy.fault hc) hn
      · rw [h.settlement] at hs
        rintro rfl
        cases hs
  · refine Triple.bind (R := fun _ => After id row active) ?_ fun _ =>
      Triple.signal fun w h => ⟨guar _ _, h⟩
    refine triple_update_healthy ⟨fun _ => trivial, fun {w w'} h hr _ => ?_⟩
      (fun _ _ => trivial) (fun _ _ h => h) rfl (fun _ h => ⟨o, h.2.1⟩)
        fun w _ _ h _ _ => ⟨guar _ _, ?_⟩
    · have hdb : w'.db = w.db := (hr rfl).1
      rw [hdb]
      exact h
    · exact after_ok h.1 hactive (by simp [OrderUpdate.applyTo]) h.2.2

theorem triple_recordRecoveredSettlement (txHash : TxHash) :
    Triple (discipline cfg) 0 (Before id o row active) (recordRecoveredSettlement id txHash)
      (fun _ => After id row active) fun _ w => Before id o row active w ∧ row ≠ none := by
  refine Triple.bind (read_before rfl (by simp)) fun found => ?_
  intro w hw
  obtain ⟨hb, c, -, ha⟩ := hw
  have hfound : found = some (o, w.db.creatorOf o.productId) := by
    have h := Except.ok.inj ha
    rw [hb.order] at h
    exact h.symm
  subst hfound
  refine (Triple.bind (read_before rfl (by simp)) fun collaborators => ?_) w hb
  by_cases h0 : active = []
  · intro w' hw'
    obtain ⟨hb', c', -, ha'⟩ := hw'
    have hc : collaborators = [] := by
      have h := Except.ok.inj ha'
      rw [hb'.active, h0] at h
      exact (List.perm_nil.1 (h ▸ reorder_perm c'.order []))
    subst hc
    exact setStatus_failed (by simp [h0]) w' hb'
  · intro w' hw'
    obtain ⟨hb', c', -, ha'⟩ := hw'
    have hc : collaborators ≠ [] := by
      have h := Except.ok.inj ha'
      rintro rfl
      rw [hb'.active] at h
      have hp := reorder_perm c'.order active
      rw [show reorder c'.order active = [] from h] at hp
      exact h0 (List.nil_perm.1 hp)
    rw [if_neg (mt List.length_eq_zero_iff.1 hc)]
    exact triple_record _ _ _ _ _ h0 w' hb'

/-- The marker of a settled order is always read as settled. -/
theorem triple_sorobanIsSettled {Y : Failure → World → Prop} :
    Triple (discipline cfg) 0 (Before id o row active) (sorobanIsSettled id)
      (fun settled w => settled = true ∧ Before id o row active w) Y := by
  refine Triple.bind (R := fun _ => Before id o row active)
    ((read_before rfl (by simp)).mono (fun _ h => h) (fun _ _ h => h.1) fun _ _ h => h)
    fun _ => ?_
  refine Triple.bind (read_before rfl (by simp)) fun sim => ?_
  intro w hw
  obtain ⟨hb, c, hc, ha⟩ := hw
  have hsim : sim = .value true := by
    have h := Except.ok.inj ha
    have hset : isSettled id w.chain.contract = true := decide_eq_true hb.settled
    simpa [hc.simulationFails, hc.restore, hset] using h.symm
  subst hsim
  exact ⟨rfl, hb⟩

/-! ## The pass -/

theorem triple_recoverByMarker {Y : Failure → World → Prop} (s : StuckOrder) :
    Triple (discipline cfg) 0 (Before s.id s.order row active) (recoverByMarker s)
      (fun recovered w => if recovered then After s.id row active w
        else Before s.id s.order row active w ∧ row ≠ none) Y := by
  refine Triple.tryCatch (Y := fun _ w => Before s.id s.order row active w ∧ row ≠ none) ?_
    fun _ => Triple.ret fun _ h => h
  refine Triple.bind triple_sorobanIsSettled fun settled => ?_
  intro w hw
  obtain ⟨rfl, hb⟩ := hw
  rw [if_pos rfl]
  exact (Triple.bind (triple_recordRecoveredSettlement _) fun _ =>
    Triple.ret fun _ h => by simpa using h) w hb

/-- The recovery of the order, whatever it throws. -/
theorem triple_recoverOrder {Y : Failure → World → Prop} {s : StuckOrder}
    (hs : s.order.status = .settlementPending) (htx : truthy s.order.txHash = none) :
    Triple (discipline cfg) 0 (Before s.id s.order row active) (recoverOrder s)
      (fun _ => After s.id row active) Y := by
  simp only [recoverOrder, hs, recoverSettlementPending, htx]
  refine Triple.bind (triple_recoverByMarker s) fun recovered => ?_
  cases recovered with
  | true => exact Triple.ret fun _ h => h
  | false =>
    refine Triple.bind (R := fun _ => After s.id row active) ?_ fun _ => Triple.ret fun _ h => h
    intro w hw
    exact setStatus_failed (fun h => hw.2 h.1) w hw.1

/-- Orders other than the one a condition is about keep it. -/
theorem triple_recoverAll_others {P : World → Prop} {Y : Failure → World → Prop}
    (hP : ∀ id', id ≠ id' → (discipline cfg).Frame 0 P (Touches id')) :
    ∀ l : List StuckOrder, id ∉ l.map (·.id) →
      Triple (discipline cfg) 0 P (recoverAll l) (fun _ => P) Y
  | [], _ => Triple.ret fun _ h => h
  | s :: rest, hn => by
    obtain ⟨hne, hrest⟩ : id ≠ s.id ∧ id ∉ rest.map (·.id) := by simpa using hn
    refine Triple.bind (R := fun _ => P) ?_ fun _ =>
      Triple.bind (triple_recoverAll_others hP rest hrest) fun _ => Triple.ret fun _ h => h
    exact Triple.tryCatch ((uses_recoverOrder s).triple (hP s.id hne)) fun _ =>
      Triple.ret fun _ h => h

/-- The loop of the pass over orders with different ids. -/
theorem triple_recoverAll {Y : Failure → World → Prop} {s : StuckOrder}
    (hs : s.order.status = .settlementPending) (htx : truthy s.order.txHash = none) :
    ∀ l : List StuckOrder, s ∈ l → (l.map (·.id)).Nodup →
      Triple (discipline cfg) 0 (Before s.id s.order row active) (recoverAll l)
        (fun _ => After s.id row active) Y
  | [], hmem, _ => absurd hmem List.not_mem_nil
  | s' :: rest, hmem, hnd => by
    obtain ⟨hn, hnd⟩ : s'.id ∉ rest.map (·.id) ∧ (rest.map (·.id)).Nodup :=
      List.nodup_cons.1 hnd
    by_cases he : s = s'
    · subst he
      refine Triple.bind (R := fun _ => After s.id row active) ?_ fun _ =>
        Triple.bind (triple_recoverAll_others (fun _ => frame_after) rest hn) fun _ =>
          Triple.ret fun _ h => h
      exact Triple.tryCatch (Y := fun _ => After s.id row active) (triple_recoverOrder hs htx)
        fun _ => Triple.ret fun _ h => h
    · have hmem : s ∈ rest := (List.mem_cons.1 hmem).resolve_left he
      have hne : s.id ≠ s'.id := fun h => hn (h ▸ List.mem_map_of_mem (f := (·.id)) hmem)
      refine Triple.bind (R := fun _ => Before s.id s.order row active) ?_ fun _ =>
        Triple.bind (triple_recoverAll hs htx rest hmem hnd) fun _ => Triple.ret fun _ h => h
      exact Triple.tryCatch ((uses_recoverOrder s').triple (frame_before hne)) fun _ =>
        Triple.ret fun _ h => h

/-- The query of the pass returns every stuck order once. -/
theorem stuckOrders {db : Database} {statuses : List OrderStatus} {l : List StuckOrder}
    (hl : l.Perm (db.ordersIn statuses)) (ho : db.orders.lookup id = some o)
    (hs : o.status ∈ statuses) :
    ⟨id, o, db.creatorOf o.productId⟩ ∈ l ∧ (l.map (·.id)).Nodup := by
  constructor
  · refine hl.mem_iff.2 (List.mem_map.2 ⟨⟨id, o⟩, List.mem_filter.2 ⟨?_, by simpa using hs⟩, rfl⟩)
    exact AList.mem_lookup_iff.1 ho
  · refine (hl.map _).nodup_iff.2 ?_
    rw [Database.ordersIn, List.map_map]
    exact db.orders.nodupKeys.sublist List.filter_sublist

theorem triple_onApplicationBootstrap (cfg : StellarConfig)
    (hs : o.status = .settlementPending) (htx : truthy o.txHash = none) :
    Triple (discipline cfg) 0 (Before id o row active) onApplicationBootstrap
      (fun _ => After id row active) fun _ _ => False := by
  refine Triple.bind (read_before rfl (by simp)) fun l => ?_
  intro w hw
  obtain ⟨hb, c, -, ha⟩ := hw
  have hl : l.Perm (w.db.ordersIn [.paymentReceived, .settlementPending]) := by
    rw [← Except.ok.inj ha]
    exact reorder_perm c.order _
  obtain ⟨hmem, hnd⟩ := stuckOrders hl hb.order (by simp [hs])
  exact triple_recoverAll (s := ⟨id, o, w.db.creatorOf o.productId⟩) hs htx l hmem hnd w hb

end Recovery

/-- A healthy recovery pass ends, and leaves an order of `settlementPending` that the
contract settled with its status and its settlement exactly when it had no settlement
before and its product has an active collaborator. -/
theorem recovery_pass (cfg : StellarConfig) (w : World) (id : String) (o : Order)
    (ho : w.db.orders.lookup id = some o) (hs : o.status = .settlementPending)
    (htx : truthy o.txHash = none) (hset : isSettled id w.chain.contract = true)
    (ch : ℕ → List Env × Choice) (hch : ∀ n, (ch n).2.Healthy)
    (hout : ∀ n, ∀ e ∈ (ch n).1, e.IsNetwork) :
    ∃ n ch' w', onApplicationBootstrap.eval (machine cfg).withSteps ch w = (.ok n, ch', w') ∧
      ((statusOf w' id = some .settled ∧ (w'.db.settlements.lookup id).isSome = true) ↔
        w.db.settlements.lookup id = none ∧ w.db.activeCollaborators o.productId ≠ []) := by
  have hbefore : Recovery.Before id o (w.db.settlements.lookup id)
      (w.db.activeCollaborators o.productId) w := ⟨ho, rfl, rfl, of_decide_eq_true hset⟩
  have h := (Recovery.triple_onApplicationBootstrap cfg hs htx).eval hbefore ch
    (fun n _ _ => hch n) fun n _ => hout n
  rcases hx : onApplicationBootstrap.eval (machine cfg).withSteps ch w with ⟨r, ch', w'⟩
  rw [hx] at h
  cases r with
  | error e => exact h.elim
  | ok n =>
    refine ⟨n, ch', w', rfl, ?_⟩
    have hafter : Recovery.After id (w.db.settlements.lookup id)
      (w.db.activeCollaborators o.productId) w' := h
    unfold Recovery.After at hafter
    split at hafter
    · next hc => exact ⟨fun _ => hc, fun _ => hafter⟩
    · next hc =>
      refine ⟨fun hok => ?_, fun h => absurd h hc⟩
      rw [hafter] at hok
      simp at hok

/-- The world that a run of the handler leaves when it stops `n` answers after the ledger
has its transaction. -/
def demoCrash (n : ℕ) : World :=
  (Config.run (machine demoConfig) (List.replicate 10 (.run 0 {}) ++
      .env (.network (.close false)) :: List.replicate n (.run 0 {}))
    ⟨[handlePaymentReceived demoConfig (demoPayload "order")],
      demoWorld [demoCollaborator "A" 10000] [("order", demoOrder .paymentReceived)]⟩).world

/-- A run that stopped before it recorded anything. -/
theorem recovery_pass_unrecorded :
    ∃ n ch' w', onApplicationBootstrap.eval (machine demoConfig).withSteps (fun _ => ([], {}))
      (demoCrash 1) = (.ok n, ch', w') ∧ statusOf w' "order" = some .settled := by
  obtain ⟨n, ch', w', h, hiff⟩ := recovery_pass demoConfig (demoCrash 1) "order"
    (demoOrder .settlementPending) (by decide) rfl rfl (by decide) (fun _ => ([], {}))
    (fun _ => ⟨rfl, rfl, rfl, rfl, rfl⟩) (fun _ e he => absurd he List.not_mem_nil)
  exact ⟨n, ch', w', h, (hiff.2 ⟨by decide, by decide⟩).1⟩

/-- A run that stopped between the settlement and the order : the pass fails the order. -/
theorem recovery_pass_recorded :
    isSettled "order" (demoCrash 2).chain.contract = true ∧
      (demoCrash 2).db.orders.lookup "order" = some (demoOrder .settlementPending) ∧
      statusOf (onApplicationBootstrap.eval (machine demoConfig).withSteps (fun _ => ([], {}))
        (demoCrash 2)).2.2 "order" = some .settlementFailed :=
  ⟨by decide, by decide, by decide⟩

end Kreav
