import Kreav.Lib.Protocols
import Kreav.PaymentEvents
import Kreav.SettlementSteps
import Kreav.Wallets

/-!
# Orders that wait for a wallet

Webhooks and wallet connections, interleaved at their database statements and with any
faults. The webhook reads that the creator has no wallet and writes `waitingWallet` later,
and `connect` stores the wallet and reads the waiting orders later. `Permitted` is the
condition on the steps : a write of `waitingWallet` finds that the creator has no wallet, or
that a connection has its query of the waiting orders still before it. Then no order is left
waiting, without an event, for a wallet that its creator has (`waiting_orders_resumed`).

`Waiting.protocol` follows a connection from the wallet it stored to the orders it resumes.
-/

open Async Prog

namespace Kreav

/-- A payment, or the connection of a wallet. -/
inductive WalletCall
  | payment (payment : PaymentCall)
  | connect (creatorId walletAddress : String) (provider : WalletProvider)

/-- The method of a call. -/
def WalletCall.method : WalletCall → Method Unit
  | .payment p => p.method
  | .connect creatorId walletAddress provider =>
    (Kreav.connect creatorId walletAddress provider).bind fun _ => .ret ()

instance (creatorId : String) (w : World) : Decidable (Payments.HasWallet creatorId w) :=
  inferInstanceAs (Decidable (∃ wallet ∈ _, _))

namespace Waiting

open Payments

/-- `payment.received` was emitted for the order. -/
def Emitted (w : World) (id : String) : Prop :=
  ∃ p ∈ payments w.emitted, p.orderId = id

instance (w : World) (id : String) : Decidable (Emitted w id) :=
  inferInstanceAs (Decidable (∃ p ∈ _, _))

/-- A thread waits on the query of the creator's waiting orders. -/
def Scanning (s : Config backend World Unit) (creatorId : String) : Prop :=
  ∃ p ∈ s.threads, p.request = some (.orderFindWaiting creatorId)

instance (s : Config backend World Unit) (creatorId : String) :
    Decidable (Scanning s creatorId) :=
  inferInstanceAs (Decidable (∃ p ∈ _, _))

/-- The condition on the steps of a run. A connection is not cut off after its wallet is
stored. -/
def Permitted (s : Config backend World Unit) : Request → Choice → Prop
  | .orderUpdate id data, c => data.status = .waitingWallet → c.fault ≠ .lost →
    (∀ ref ∈ data.paymentRef, ¬ s.world.db.RefTaken id ref) →
      ∀ o ∈ s.world.db.orders.lookup id, HasWallet (s.world.db.creatorOf o.productId) s.world →
        Emitted s.world id ∨ Scanning s (s.world.db.creatorOf o.productId)
  | .walletCreate _ _ _, c => c.fault ≠ .unacked
  | .orderFindWaiting _, c => c.fault = .none
  | _, _ => True

/-! ## The protocol of a call -/

/-- What a call has yet to do : nothing, the query of a creator's waiting orders, or the
events of orders that it found. -/
inductive Phase
  | idle
  | scanning (creatorId : String)
  | resuming (ids : List String)

/-- The requests that may be made at any time. -/
def Plain : Request → Prop
  | .orderUpdate _ _ => True
  | .orderFindWaiting _ => False
  | r => Reads r

/-- How the answers take a method on. -/
inductive Reply : Phase → (r : Request) → Except Failure r.Ans → Phase → Prop
  | plain {r x} (h : Plain r) : Reply .idle r x .idle
  | connected {creatorId walletAddress provider wallet} :
    Reply .idle (.walletCreate creatorId walletAddress provider) (.ok wallet)
      (.scanning creatorId)
  | refused {creatorId walletAddress provider e} :
    Reply .idle (.walletCreate creatorId walletAddress provider) (.error e) .idle
  | found {creatorId} {rows : List StuckOrder} :
    Reply (.scanning creatorId) (.orderFindWaiting creatorId) (.ok rows)
      (.resuming (rows.map (·.id)))
  | cut {creatorId e} : Reply (.scanning creatorId) (.orderFindWaiting creatorId) (.error e) .idle

/-- What a method emits, and for which orders it has still to. -/
inductive Emits : Phase → AppEvent → Phase → Prop
  | plain {v} : Emits .idle v .idle
  | resumed {payload id ids} (h : payload.orderId = id) :
    Emits (.resuming (id :: ids)) (.paymentReceived payload) (.resuming ids)

/-- The phases that leave nothing to do. -/
def Phase.Done : Phase → Prop
  | .idle => True
  | .scanning _ => False
  | .resuming ids => ids = []

/-- The protocol of the methods. -/
def protocol : Protocol backend Phase where
  answers _ _ := True
  reply := Reply
  event := Emits
  final := Phase.Done
  rest := .idle

theorem stays_ask {r : Request} (h : Plain r) : (await r).Stays protocol .idle :=
  Stays.ask fun _ _ => .plain h

theorem stays_signal (v : AppEvent) : (emit v).Stays protocol .idle :=
  Follows.signal Emits.plain rfl

theorem stays_claimPayment (orderId paymentRef : String) (target : OrderStatus) :
    (claimPayment orderId paymentRef target).Stays protocol .idle := by
  have hc := Stays.compositional protocol Phase.idle
  refine hc.tryCatch (hc.bind (stays_ask trivial) fun _ => hc.ret _) fun e => ?_
  cases e with
  | uniqueViolation => exact hc.ret _
  | _ => exact hc.raise _

theorem stays_confirmPayment (orderId paymentRef : String) (order : Order) (creatorId : String)
    (wallet : Option String) :
    (confirmPayment orderId paymentRef order creatorId wallet).Stays protocol .idle := by
  have hc := Stays.compositional protocol Phase.idle
  have hclaim : ∀ (target : OrderStatus) (v : AppEvent),
      ((claimPayment orderId paymentRef target).bind fun claimed =>
        if claimed then emit v else return ()).Stays protocol .idle := by
    intro target v
    refine hc.bind (stays_claimPayment _ _ _) fun claimed => ?_
    split
    · exact stays_signal v
    · exact hc.ret _
  cases wallet with
  | none =>
    rw [confirmPayment]
    split
    · exact hc.raise _
    · exact hclaim _ _
  | some walletAddress =>
    rw [confirmPayment]
    split
    · exact hc.raise _
    · exact hclaim _ _

theorem stays_handleGcashPayment (orderId paymentRef : String) :
    (handleGcashPayment orderId paymentRef).Stays protocol .idle := by
  have hc := Stays.compositional protocol Phase.idle
  refine hc.bind (stays_ask rfl) fun existing => ?_
  cases existing with
  | some _ => exact hc.ret _
  | none =>
    refine hc.bind (stays_ask rfl) fun found => ?_
    cases found with
    | none => exact hc.raise _
    | some found =>
      refine hc.bind (stays_ask rfl) fun wallet => ?_
      exact stays_confirmPayment _ _ _ _ wallet

theorem follows_resumeOrders (walletAddress : String) : ∀ rows : List StuckOrder,
    (resumeOrders walletAddress rows).Follows protocol (fun _ φ => φ = .resuming [])
      (fun _ _ => False) (.resuming (rows.map (·.id)))
  | [] => rfl
  | o :: rest => by
    have hemit : Emits (.resuming (o.id :: rest.map (·.id))) (.paymentReceived ⟨o.id,
        o.order.amountUsd, o.creatorId, some walletAddress,
          o.order.paymentRef.getD ("resume-" ++ o.id)⟩) (.resuming (rest.map (·.id))) :=
      .resumed rfl
    exact ⟨_, hemit, follows_resumeOrders walletAddress rest⟩

theorem follows_createWallet (creatorId walletAddress : String) (provider : WalletProvider) :
    (createWallet creatorId walletAddress provider).Follows protocol
      (fun _ φ => φ = .scanning creatorId) (fun _ φ => φ = .idle) .idle := by
  refine Follows.tryCatch (Y := fun _ φ => φ = .idle)
    (Follows.ask (fun _ _ => ⟨_, Reply.connected, rfl⟩) fun _ _ => ⟨_, Reply.refused, rfl⟩) ?_
  rintro e φ rfl
  cases e <;> exact rfl

theorem conforms_connect (creatorId walletAddress : String) (provider : WalletProvider) :
    ((connect creatorId walletAddress provider).bind fun _ => .ret ()).Conforms protocol
      .idle := by
  have hread : ∀ {r : Request}, Plain r → (await r).Follows protocol (fun _ φ => φ = .idle)
      (fun _ => Phase.Done) .idle := fun h =>
    (stays_ask h).follows (fun _ => rfl) fun _ => trivial
  refine Follows.bind (R := fun _ => Phase.Done) ?_ fun _ _ h => h
  refine Follows.bind (hread rfl) ?_
  rintro creator _ rfl
  cases creator with
  | false => exact trivial
  | true =>
    refine Follows.bind (hread rfl) ?_
    rintro existing _ rfl
    cases existing with
    | true => exact trivial
    | false =>
      refine Follows.bind ((follows_createWallet creatorId walletAddress provider).mono
        (fun _ _ h => h) fun _ _ h => h ▸ trivial) ?_
      rintro wallet _ rfl
      refine Follows.bind (R := fun _ φ => φ = .resuming []) ?_ ?_
      · refine Follows.bind (R := fun rows φ => φ = .resuming (List.map (·.id) rows))
          (Follows.ask (fun _ _ => ⟨_, Reply.found, rfl⟩) fun _ _ => ⟨_, Reply.cut, trivial⟩) ?_
        rintro rows _ rfl
        exact (follows_resumeOrders walletAddress rows).mono (fun _ _ h => h)
          fun _ _ h => h.elim
      · rintro _ _ rfl
        exact rfl

theorem suspended_conforms (call : WalletCall) :
    call.method.Suspended ∧ call.method.Conforms protocol .idle := by
  have hstays : ∀ {p : Method Unit}, p.Stays protocol .idle → p.Conforms protocol .idle :=
    fun h => h.follows (fun _ => trivial) fun _ => trivial
  cases call with
  | connect creatorId walletAddress provider => exact ⟨trivial, conforms_connect _ _ _⟩
  | payment payment =>
    refine ⟨suspended_method payment, ?_⟩
    cases payment with
    | webhook orderId paymentRef => exact hstays (stays_handleGcashPayment _ _)
    | simulate demoMode id =>
      cases demoMode with
      | false => exact trivial
      | true => exact hstays (stays_handleGcashPayment _ _)

/-! ## No lost wake-up -/

/-- The call will resume the creator's order. -/
def Phase.Resumes (creatorId id : String) : Phase → Prop
  | .idle => False
  | .scanning creatorId' => creatorId' = creatorId
  | .resuming ids => id ∈ ids

theorem Phase.Done.not_resumes {φ : Phase} (h : φ.Done) (creatorId id : String) :
    ¬ φ.Resumes creatorId id := by
  cases φ with
  | idle => exact not_false
  | scanning creatorId' => exact h.elim
  | resuming ids =>
    obtain rfl : ids = [] := h
    exact List.not_mem_nil

/-- A waiting order whose creator has a wallet was resumed, or some call will resume it. -/
def Inv (w : World) (φ : ℕ → Phase) : Prop :=
  ∀ id o, w.db.orders.lookup id = some o → o.status = .waitingWallet →
    HasWallet (w.db.creatorOf o.productId) w →
      Emitted w id ∨ ∃ i, (φ i).Resumes (w.db.creatorOf o.productId) id

variable {cfg : StellarConfig} {w : World} {φ : ℕ → Phase} {i : ℕ}

/-- A call that will resume fewer orders than before, all others as before. -/
theorem Inv.update (h : Inv w φ) {φ' : Phase}
    (hφ : ∀ creatorId id, (φ i).Resumes creatorId id → φ'.Resumes creatorId id) :
    Inv w (Function.update φ i φ') := by
  intro id o hl hs hw
  refine (h id o hl hs hw).imp_right fun hj => ?_
  exact Phases.exists_update (T := fun ψ : Phase => ψ.Resumes (w.db.creatorOf o.productId) id) hj
    (hφ _ _)

/-- An order update. -/
theorem Inv.setOrder (h : Inv w φ) {id : String} {o : Order} {data : OrderUpdate}
    (hl : w.db.orders.lookup id = some o)
    (hnew : data.status = .waitingWallet → HasWallet (w.db.creatorOf o.productId) w →
      Emitted w id ∨ ∃ i, (φ i).Resumes (w.db.creatorOf o.productId) id) :
    Inv (w.setOrder id (data.applyTo o)) φ := by
  intro id' o' hl' hs hw
  by_cases hid : id' = id
  · subst hid
    obtain rfl : data.applyTo o = o' := by simpa using hl'
    exact hnew hs hw
  · rw [w.setOrder_lookup_ne _ hid] at hl'
    exact h id' o' hl' hs hw

/-- A wallet is stored, and its call goes on to the query. -/
theorem Inv.addWallet (h : Inv w φ) {wallet : Wallet} (hi : φ i = .idle) :
    Inv (w.addWallet wallet) (Function.update φ i (.scanning wallet.creatorId)) := by
  intro id o hl hs hw
  obtain ⟨wallet', hmem, hc⟩ := hw
  rcases List.mem_append.1 hmem with hmem | hmem
  · exact (h.update (i := i) (fun _ _ hr => by rw [hi] at hr; exact hr.elim)) id o hl hs
      ⟨wallet', hmem, hc⟩
  · obtain rfl := List.mem_singleton.1 hmem
    exact Or.inr ⟨i, by rw [Function.update_self]; exact hc⟩

/-- The query finds every waiting order of the creator. -/
theorem Inv.found (h : Inv w φ) {creatorId : String} {rows : List StuckOrder}
    (hi : φ i = .scanning creatorId) (hrows : rows.Perm (w.db.waitingOrders creatorId)) :
    Inv w (Function.update φ i (.resuming (rows.map (·.id)))) := by
  intro id o hl hs hw
  refine (h id o hl hs hw).imp_right fun hj => ?_
  refine Phases.exists_update (T := fun ψ : Phase => ψ.Resumes (w.db.creatorOf o.productId) id) hj
    fun hj => ?_
  rw [hi] at hj
  obtain rfl : creatorId = w.db.creatorOf o.productId := hj
  refine List.mem_map.2 ⟨⟨id, o, w.db.creatorOf o.productId⟩, hrows.mem_iff.2 ?_, rfl⟩
  exact List.mem_filter.2 ⟨List.mem_map.2 ⟨⟨id, o⟩, List.mem_filter.2
    ⟨AList.mem_lookup_iff.1 hl, by simp [hs]⟩, rfl⟩, by simp⟩

theorem Inv.log (h : Inv w φ) {v : AppEvent} {φ' : Phase} (hv : Emits (φ i) v φ') :
    Inv ((machine cfg).log v w) (Function.update φ i φ') := by
  have hmono : ∀ id, Emitted w id → Emitted ((machine cfg).log v w) id := by
    rintro id ⟨p, hp, rfl⟩
    refine ⟨p, ?_, rfl⟩
    simp only [payments, machine, List.filterMap_append]
    exact List.mem_append_left _ hp
  intro id o hl hs hw
  rcases h id o hl hs hw with he | ⟨j, hj⟩
  · exact Or.inl (hmono id he)
  by_cases hij : j = i
  · subst hij
    generalize hφ : φ j = ψ at hv hj
    cases hv with
    | plain => exact hj.elim
    | @resumed payload id' ids he =>
      rcases List.mem_cons.1 hj with rfl | hj
      · refine Or.inl ⟨payload, ?_, he⟩
        simp [payments, machine]
      · exact Or.inr ⟨j, by rw [Function.update_self]; exact hj⟩
  · exact Or.inr ⟨j, by rwa [Function.update_of_ne hij]⟩

/-- The steps of a run meet the condition. -/
def Meets (s : Config backend World Unit) (a : Action Choice Env) : Prop :=
  s.Meets (fun _ => Permitted s) (fun _ _ => True) a

/-- A thread that waits on the query of waiting orders will resume them. -/
theorem Scanning.resumes {s : Config backend World Unit} (hs : s.Tracks protocol φ)
    {creatorId : String} (h : Scanning s creatorId) (id : String) :
    ∃ i, (φ i).Resumes creatorId id := by
  obtain ⟨p, hp, hr⟩ := h
  obtain ⟨i, hi⟩ := List.mem_iff_getElem?.1 hp
  obtain ⟨φ', hφ'⟩ := hs.reply (x := .error .database) ⟨p, hi, hr⟩ trivial
  generalize hφ : φ i = ψ at hφ'
  cases hφ' with
  | plain h => exact h.elim
  | cut => exact ⟨i, by rw [hφ]; exact rfl⟩

theorem invariant : protocol.Invariant (machine cfg) Meets Inv where
  final_rest := trivial
  event h hv := h.log hv
  ended {w φ i} h hdone := h.update fun creatorId id hr => absurd hr (hdone.not_resumes _ _)
  outside {s φ e} h _ := by
    cases e <;> exact h
  reply {s φ i r k c} h hs hget hP := by
    have hw : s.Waits i r := ⟨_, hget, rfl⟩
    have hper : Permitted s r c := hP r hw
    refine ⟨trivial, fun φ' hφ' hk => .update hk ?_⟩
    generalize hi : φ i = ψ at hφ'
    generalize hx : ((machine cfg).exec r c s.world).1 = x at hφ'
    have hsame : ∀ {w'}, Inv w' φ → Inv w' (Function.update φ i ψ) := fun h => by
      rwa [← hi, Function.update_eq_self]
    cases hφ' with
    | plain hplain =>
      by_cases hread : r.reads = true
      · have hw : ((machine cfg).exec r c s.world).2 = s.world := exec_reads cfg hread c s.world
        rw [hw]
        exact hsame h
      · cases r with
        | orderUpdate id data =>
          have hset : ∀ o, c.fault ≠ .lost → (∀ ref ∈ data.paymentRef,
              ¬ s.world.db.RefTaken id ref) → s.world.db.orders.lookup id = some o →
                Inv (s.world.setOrder id (data.applyTo o)) φ := fun o hf href hl =>
            h.setOrder hl fun hd hwallet =>
              (hper hd hf href o hl hwallet).imp_right fun hscan => hscan.resumes hs id
          refine hsame ?_
          rcases exec_orderUpdate cfg id data c s.world with ⟨o, hf, hl, href, hx⟩ |
            ⟨o, hf, hl, href, hx⟩ | ⟨e, hx, -⟩
          · simp only [machine, hx]
            exact hset o (by simp [hf]) href hl
          · simp only [machine, hx]
            exact hset o (by simp [hf]) href hl
          · simp only [machine, hx]
            exact h
        | orderFindWaiting creatorId => exact hplain.elim
        | _ => exact absurd hplain hread
    | @connected creatorId walletAddress provider wallet =>
      rcases exec_walletCreate cfg creatorId walletAddress provider c s.world with
        ⟨wallet, rfl, -, hx'⟩ | ⟨wallet, -, hf, -⟩ | ⟨e, hx'⟩
      · simp only [machine, hx']
        exact h.addWallet hi
      · exact absurd hf hper
      · simp [machine, hx'] at hx
    | @refused creatorId walletAddress provider e =>
      rcases exec_walletCreate cfg creatorId walletAddress provider c s.world with
        ⟨wallet, -, -, hx'⟩ | ⟨wallet, -, hf, -⟩ | ⟨e, hx'⟩
      · simp [machine, hx'] at hx
      · exact absurd hf hper
      · simp only [machine, hx']
        exact hsame h
    | @found creatorId rows =>
      have hx' : (machine cfg).exec (.orderFindWaiting creatorId) c s.world =
          (.ok (reorder c.order (s.world.db.waitingOrders creatorId)), s.world) :=
        exec_of_fault_none cfg s.world hper
      rw [hx'] at hx ⊢
      obtain rfl := Except.ok.inj hx
      exact h.found hi (reorder_perm _ _)
    | @cut creatorId e =>
      have hx' : (machine cfg).exec (.orderFindWaiting creatorId) c s.world =
          (.ok (reorder c.order (s.world.db.waitingOrders creatorId)), s.world) :=
        exec_of_fault_none cfg s.world hper
      rw [hx'] at hx
      cases hx

instance (s : Config backend World Unit) : (r : Request) → (c : Choice) →
    Decidable (Permitted s r c)
  | .orderUpdate _ _, _ => inferInstanceAs (Decidable (_ → _ → (∀ ref ∈ _, _) → ∀ o ∈ _, _))
  | .walletCreate _ _ _, c => inferInstanceAs (Decidable (c.fault ≠ .unacked))
  | .orderFindWaiting _, c => inferInstanceAs (Decidable (c.fault = .none))
  | .productFindUnique _, _ | .userFindUnique _, _ | .orderFindFirst _, _
  | .orderFindUnique _, _ | .orderCreate _, _ | .orderFindMany _, _ | .walletFindFirst _, _
  | .walletFindAddress _, _ | .collaboratorFindMany _, _ | .settlementFindUnique _, _
  | .settlementCreate _, _ | .getUsdcBalance _, _ | .getAccount, _ | .simulateSettle _, _
  | .simulateIsSettled _, _ | .sendTransaction _, _ | .getTransaction _ _, _ => isTrue trivial

instance (s : Config backend World Unit) (a : Action Choice Env) : Decidable (Meets s a) :=
  inferInstanceAs (Decidable (s.Meets (fun _ => Permitted s) (fun _ _ => True) a))

end Waiting

/-- Payments and wallet connections, in any number and interleaved in any way, whose steps
meet `Waiting.Permitted`. When all have ended, `payment.received` was emitted for every
order in `waitingWallet` whose creator has a wallet. -/
theorem waiting_orders_resumed (cfg : StellarConfig) (calls : List WalletCall) (w : World)
    (as : List (Action Choice Env))
    (hw : ∀ id o, w.db.orders.lookup id = some o → o.status = .waitingWallet →
      Payments.HasWallet (w.db.creatorOf o.productId) w → Waiting.Emitted w id)
    (hrun : Config.Along (machine cfg) Waiting.Meets as ⟨calls.map (·.method), w⟩)
    (hend : (Config.run (machine cfg) as ⟨calls.map (·.method), w⟩).Ended) :
    ∀ w', w' = (Config.run (machine cfg) as ⟨calls.map (·.method), w⟩).world →
      ∀ id o, w'.db.orders.lookup id = some o → o.status = .waitingWallet →
        Payments.HasWallet (w'.db.creatorOf o.productId) w' →
          ∃ p ∈ payments w'.emitted, p.orderId = id := by
  rintro w' rfl id o hl hs hwallet
  have hstart : Config.Tracks Waiting.protocol
      (⟨calls.map (·.method), w⟩ : Config backend World Unit) fun _ => .idle :=
    Config.tracks_map Waiting.suspended_conforms calls w
  obtain ⟨ψ, htracks, hinv⟩ := Waiting.invariant.run as hstart
    (fun id o hl hs hwallet => Or.inl (hw id o hl hs hwallet)) hrun
  rcases hinv id o hl hs hwallet with he | ⟨i, hi⟩
  · exact he
  · exact absurd hi ((htracks.final hend trivial i).not_resumes _ _)

/-- One creator without a wallet, a webhook for the order of `demoPayload`, and a wallet
connection. -/
def demoWaiting : Config backend World Unit :=
  ⟨[.payment (.webhook "order" "ref"), .connect "alice" "A" .freighter].map WalletCall.method,
    { demoWorld [] [("order", demoOrder .paymentPending)] with
      db := { (demoWorld [] [("order", demoOrder .paymentPending)]).db with wallets := [] } }⟩

/-- The webhook writes `waitingWallet` before the connection queries the waiting orders. -/
theorem waiting_orders_resumed_scanned : ∃ w', w' = (Config.run (machine demoConfig)
      (List.replicate 3 (.run 0 {}) ++ List.replicate 3 (.run 1 {}) ++ [.run 0 {}, .run 1 {}])
        demoWaiting).world ∧ ∃ p ∈ payments w'.emitted, p.orderId = "order" := by
  refine ⟨_, rfl, waiting_orders_resumed demoConfig
    [.payment (.webhook "order" "ref"), .connect "alice" "A" .freighter] _ _ ?_ (by decide)
    (by decide) _ rfl "order" _ rfl rfl (by decide)⟩
  intro id o hl hs hwallet
  exact absurd hwallet (by rintro ⟨wallet, hmem, -⟩; cases hmem)

/-- The webhook finds no wallet. Then the connection stores one and finds no waiting order,
and the webhook writes `waitingWallet`. -/
theorem waiting_orders_lost : ∃ as s, s = Config.run (machine demoConfig) as demoWaiting ∧
    s.Ended ∧ statusOf s.world "order" = some .waitingWallet ∧
    Payments.HasWallet "alice" s.world ∧ payments s.world.emitted = [] :=
  ⟨List.replicate 3 (.run 0 {}) ++ List.replicate 4 (.run 1 {}) ++ [.run 0 {}], _, rfl,
    by decide, by decide, by decide, by decide⟩

end Kreav
