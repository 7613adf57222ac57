import Kreav.Backend
import Kreav.ContractRuns
import Kreav.Lib.Triples

/-!
# What a request does

Each request either reads, or is one of five writes, and `exec_orderUpdate`,
`exec_settlementCreate`, `exec_orderCreate`, `exec_walletCreate` and `exec_sendTransaction`
say all that a write can do under any fault. `Chain.Extends` is what any step of the network
keeps : what was applied stays applied with its result, what was sent stays sent, and a
settled order stays settled.
-/

open Async

namespace Kreav

/-- The requests that change nothing. -/
def Request.reads : Request → Bool
  | .orderCreate _ => false
  | .orderUpdate _ _ => false
  | .walletCreate _ _ _ => false
  | .settlementCreate _ => false
  | .sendTransaction _ => false
  | _ => true

/-- The world with a row of `orders` replaced. -/
def World.setOrder (w : World) (id : String) (o : Order) : World :=
  { w with db := { w.db with orders := w.db.orders.insert id o } }

/-- The world with a new row of `settlements`. -/
def World.addSettlement (w : World) (data : SettlementCreate) : World :=
  { w with db := { w.db with
      settlements := w.db.settlements.insert data.orderId
        ⟨data.totalAmount, data.txHash, data.recipients.map (·.stored)⟩ } }

/-- The world with a new row of `wallets`. -/
def World.addWallet (w : World) (wallet : Wallet) : World :=
  { w with db := { w.db with wallets := w.db.wallets ++ [wallet] } }

/-- The world with another network. -/
def World.setChain (w : World) (chain : Chain) : World :=
  { w with chain }

@[simp] theorem World.setOrder_lookup (w : World) (id : String) (o : Order) :
    (w.setOrder id o).db.orders.lookup id = some o :=
  AList.lookup_insert _

theorem World.setOrder_lookup_ne (w : World) {id id' : String} (o : Order) (h : id' ≠ id) :
    (w.setOrder id o).db.orders.lookup id' = w.db.orders.lookup id' :=
  AList.lookup_insert_ne h

@[simp] theorem World.setChain_chain (w : World) (c : Chain) : (w.setChain c).chain = c :=
  rfl

variable (cfg : StellarConfig)

/-! ## Requests -/

theorem exec_of_fault_none {r : Request} {c : Choice} (w : World) (h : c.fault = .none) :
    exec cfg r c w = effect cfg r c w := by
  simp only [exec, h]

theorem exec_of_fault_lost {r : Request} {c : Choice} (w : World) (h : c.fault = .lost) :
    exec cfg r c w = (.error r.thrown, w) := by
  simp only [exec, h]

theorem exec_of_fault_unacked {r : Request} {c : Choice} {w w' : World} {x : Except Failure r.Ans}
    (h : c.fault = .unacked) (he : effect cfg r c w = (x, w')) :
    exec cfg r c w = (.error r.thrown, w') := by
  simp only [exec, h, he]

/-- A request has its effect, or none. -/
theorem exec_world (r : Request) (c : Choice) (w : World) :
    (exec cfg r c w).2 = w ∨ (exec cfg r c w).2 = (effect cfg r c w).2 := by
  cases hf : c.fault with
  | none => exact Or.inr (by rw [exec_of_fault_none cfg w hf])
  | lost => exact Or.inl (by rw [exec_of_fault_lost cfg w hf])
  | unacked => exact Or.inr (by rw [exec_of_fault_unacked cfg hf Prod.mk.eta.symm])

/-- A request that a fault hits throws the error of its service. -/
theorem exec_fault {r : Request} {c : Choice} (w : World) (h : c.fault ≠ .none) :
    (exec cfg r c w).1 = .error r.thrown := by
  cases hf : c.fault with
  | none => exact absurd hf h
  | lost => rw [exec_of_fault_lost cfg w hf]
  | unacked => rw [exec_of_fault_unacked cfg hf Prod.mk.eta.symm]

/-- An answer is the answer of the effect. -/
theorem exec_ok {r : Request} {c : Choice} {w : World} {a : r.Ans}
    (h : (exec cfg r c w).1 = .ok a) : c.fault = .none ∧ (effect cfg r c w).1 = .ok a := by
  by_cases hf : c.fault = .none
  · rw [exec_of_fault_none cfg w hf] at h
    exact ⟨hf, h⟩
  · rw [exec_fault cfg w hf] at h
    cases h

theorem effect_reads {r : Request} (h : r.reads = true) (c : Choice) (w : World) :
    (effect cfg r c w).2 = w := by
  cases r <;> first | rfl | cases h

/-- A read changes nothing, faults or not. -/
theorem exec_reads {r : Request} (h : r.reads = true) (c : Choice) (w : World) :
    (exec cfg r c w).2 = w := by
  rcases exec_world cfg r c w with hw | hw
  · exact hw
  · exact hw.trans (effect_reads cfg h c w)

/-- A read other than a poll does not fail by itself. -/
theorem effect_reads_ne_error {r : Request} (hr : r.reads = true)
    (hp : ∀ h n, r ≠ .getTransaction h n) {c : Choice} {w : World} {e : Failure} :
    (effect cfg r c w).1 ≠ .error e := by
  intro h
  cases r with
  | getTransaction txHash n => exact hp txHash n rfl
  | orderCreate data => cases hr
  | orderUpdate id data => cases hr
  | walletCreate creatorId walletAddress provider => cases hr
  | settlementCreate data => cases hr
  | sendTransaction tx => cases hr
  | _ => cases h

/-- A read other than a poll throws nothing but the error of its service. -/
theorem exec_thrown {r : Request} (hr : r.reads = true) (hp : ∀ h n, r ≠ .getTransaction h n)
    {c : Choice} {w : World} {e : Failure} (h : (exec cfg r c w).1 = .error e) :
    e = r.thrown := by
  by_cases hf : c.fault = .none
  · rw [exec_of_fault_none cfg w hf] at h
    exact absurd h (effect_reads_ne_error cfg hr hp)
  · rw [exec_fault cfg w hf] at h
    exact (Except.error.inj h).symm

/-- A row of `order.findMany` is an order of the table. -/
theorem lookup_of_mem_ordersIn {db : Database} {statuses : List OrderStatus} {s : StuckOrder}
    (h : s ∈ db.ordersIn statuses) : db.orders.lookup s.id = some s.order := by
  obtain ⟨e, he, rfl⟩ := List.mem_map.1 h
  exact AList.mem_lookup_iff.2 (List.mem_filter.1 he).1

/-- All that an order update does. -/
theorem exec_orderUpdate (id : String) (data : OrderUpdate) (c : Choice) (w : World) :
    (∃ o, c.fault = .none ∧ w.db.orders.lookup id = some o ∧
      (∀ ref ∈ data.paymentRef, ¬ w.db.RefTaken id ref) ∧
      exec cfg (.orderUpdate id data) c w = (.ok (), w.setOrder id (data.applyTo o))) ∨
    (∃ o, c.fault = .unacked ∧ w.db.orders.lookup id = some o ∧
      (∀ ref ∈ data.paymentRef, ¬ w.db.RefTaken id ref) ∧
      exec cfg (.orderUpdate id data) c w = (.error .database, w.setOrder id (data.applyTo o))) ∨
    ∃ e, exec cfg (.orderUpdate id data) c w = (.error e, w) ∧
      (e = .database ∧ (c.fault = .none → w.db.orders.lookup id = none) ∨
        e = .uniqueViolation ∧ c.fault = .none ∧
          ∃ ref ∈ data.paymentRef, w.db.RefTaken id ref) := by
  cases hl : w.db.orders.lookup id with
  | none =>
    have he : effect cfg (.orderUpdate id data) c w = (.error .database, w) := by
      simp only [effect, Database.updateOrder, hl, World.write, DbError.failure]
      rfl
    refine Or.inr (Or.inr ⟨.database, ?_, Or.inl ⟨rfl, fun _ => rfl⟩⟩)
    cases hf : c.fault with
    | none => rw [exec_of_fault_none cfg w hf, he]
    | lost => exact exec_of_fault_lost cfg w hf
    | unacked => exact exec_of_fault_unacked cfg hf he
  | some o =>
    by_cases ht : ∃ ref ∈ data.paymentRef, w.db.RefTaken id ref
    · have he : effect cfg (.orderUpdate id data) c w = (.error .uniqueViolation, w) := by
        simp only [effect, Database.updateOrder, hl, if_pos ht, World.write, DbError.failure]
        rfl
      refine Or.inr (Or.inr ?_)
      cases hf : c.fault with
      | none =>
        exact ⟨_, by rw [exec_of_fault_none cfg w hf, he], Or.inr ⟨rfl, rfl, ht⟩⟩
      | lost =>
        exact ⟨.database, exec_of_fault_lost cfg w hf, Or.inl ⟨rfl, fun h => by cases h⟩⟩
      | unacked =>
        exact ⟨.database, exec_of_fault_unacked cfg hf he, Or.inl ⟨rfl, fun h => by cases h⟩⟩
    · have he : effect cfg (.orderUpdate id data) c w =
          (.ok (), w.setOrder id (data.applyTo o)) := by
        simp only [effect, Database.updateOrder, hl, if_neg ht, World.write]
        rfl
      have hn : ∀ ref ∈ data.paymentRef, ¬ w.db.RefTaken id ref := by
        simpa using ht
      cases hf : c.fault with
      | none => exact Or.inl ⟨o, rfl, rfl, hn, by rw [exec_of_fault_none cfg w hf, he]⟩
      | lost =>
        exact Or.inr (Or.inr ⟨.database, exec_of_fault_lost cfg w hf,
          Or.inl ⟨rfl, fun h => by cases h⟩⟩)
      | unacked =>
        exact Or.inr (Or.inl ⟨o, rfl, rfl, hn, exec_of_fault_unacked cfg hf he⟩)

/-- An update of an order that exists, without a payment reference, that no fault hits. -/
theorem exec_update_healthy {id : String} {data : OrderUpdate} {c : Choice} {w : World}
    {o : Order} (hc : c.fault = .none) (ho : w.db.orders.lookup id = some o)
    (href : data.paymentRef = none) :
    exec cfg (.orderUpdate id data) c w = (.ok (), w.setOrder id (data.applyTo o)) := by
  rcases exec_orderUpdate cfg id data c w with ⟨o', -, ho', -, hx⟩ | ⟨o', hf, -⟩ | ⟨e, hx, he⟩
  · obtain rfl : o = o' := Option.some.inj (ho.symm.trans ho')
    exact hx
  · rw [hc] at hf
    cases hf
  · rcases he with ⟨-, hn⟩ | ⟨-, -, ref, hm, -⟩
    · rw [hn hc] at ho
      cases ho
    · rw [href] at hm
      cases hm

/-- All that the creation of a settlement does. -/
theorem exec_settlementCreate (data : SettlementCreate) (c : Choice) (w : World) :
    (c.fault = .none ∧ w.db.settlements.lookup data.orderId = none ∧
      exec cfg (.settlementCreate data) c w = (.ok (), w.addSettlement data)) ∨
    (c.fault = .unacked ∧ w.db.settlements.lookup data.orderId = none ∧
      exec cfg (.settlementCreate data) c w = (.error .database, w.addSettlement data)) ∨
    ∃ e, exec cfg (.settlementCreate data) c w = (.error e, w) ∧
      (e = .database ∧ c.fault ≠ .none ∨ e = .uniqueViolation ∧ c.fault = .none ∧
        (w.db.settlements.lookup data.orderId).isSome = true) := by
  by_cases hl : (w.db.settlements.lookup data.orderId).isSome = true
  · have he : effect cfg (.settlementCreate data) c w = (.error .uniqueViolation, w) := by
      simp only [effect, Database.createSettlement, if_pos hl, World.write, DbError.failure]
      rfl
    refine Or.inr (Or.inr ?_)
    cases hf : c.fault with
    | none => exact ⟨_, by rw [exec_of_fault_none cfg w hf, he], Or.inr ⟨rfl, rfl, hl⟩⟩
    | lost => exact ⟨.database, exec_of_fault_lost cfg w hf, Or.inl ⟨rfl, by simp⟩⟩
    | unacked => exact ⟨.database, exec_of_fault_unacked cfg hf he, Or.inl ⟨rfl, by simp⟩⟩
  · have he : effect cfg (.settlementCreate data) c w = (.ok (), w.addSettlement data) := by
      simp only [effect, Database.createSettlement, if_neg hl, World.write]
      rfl
    have hn : w.db.settlements.lookup data.orderId = none := by
      simpa using hl
    cases hf : c.fault with
    | none => exact Or.inl ⟨rfl, hn, by rw [exec_of_fault_none cfg w hf, he]⟩
    | lost =>
      exact Or.inr (Or.inr ⟨.database, exec_of_fault_lost cfg w hf, Or.inl ⟨rfl, by simp⟩⟩)
    | unacked => exact Or.inr (Or.inl ⟨rfl, hn, exec_of_fault_unacked cfg hf he⟩)

/-- All that the creation of an order does. -/
theorem exec_orderCreate (data : OrderCreate) (c : Choice) (w : World) :
    (∃ x, w.db.orders.lookup c.uuid = none ∧
      exec cfg (.orderCreate data) c w = (x, w.setOrder c.uuid data.stored)) ∨
    ∃ e, exec cfg (.orderCreate data) c w = (.error e, w) := by
  have heffect : w.db.orders.lookup c.uuid = none ∧ effect cfg (.orderCreate data) c w =
        (.ok c.uuid, w.setOrder c.uuid data.stored) ∨
      ∃ e, effect cfg (.orderCreate data) c w = (.error e, w) := by
    simp only [effect, Database.createOrder]
    by_cases hp : (w.db.products.lookup data.productId).isNone = true
    · exact Or.inr ⟨_, by rw [if_pos hp]; rfl⟩
    · by_cases hl : (w.db.orders.lookup c.uuid).isSome = true
      · exact Or.inr ⟨_, by rw [if_neg hp, if_pos hl]; rfl⟩
      · exact Or.inl ⟨by simpa using hl, by rw [if_neg hp, if_neg hl]; rfl⟩
  unfold exec
  cases c.fault with
  | none =>
    rcases heffect with ⟨hl, he⟩ | ⟨e, he⟩
    · exact Or.inl ⟨_, hl, he⟩
    · exact Or.inr ⟨e, he⟩
  | lost => exact Or.inr ⟨_, rfl⟩
  | unacked =>
    rcases heffect with ⟨hl, he⟩ | ⟨e, he⟩
    · exact Or.inl ⟨_, hl, by rw [he]⟩
    · exact Or.inr ⟨_, by rw [he]⟩

/-- All that the creation of a wallet does. -/
theorem exec_walletCreate (creatorId walletAddress : String) (provider : WalletProvider)
    (c : Choice) (w : World) :
    (∃ wallet : Wallet, wallet.creatorId = creatorId ∧ c.fault = .none ∧
      exec cfg (.walletCreate creatorId walletAddress provider) c w =
        (.ok wallet, w.addWallet wallet)) ∨
    (∃ wallet : Wallet, wallet.creatorId = creatorId ∧ c.fault = .unacked ∧
      exec cfg (.walletCreate creatorId walletAddress provider) c w =
        (.error .database, w.addWallet wallet)) ∨
    ∃ e, exec cfg (.walletCreate creatorId walletAddress provider) c w = (.error e, w) := by
  have heffect : effect cfg (.walletCreate creatorId walletAddress provider) c w =
        (.ok ⟨creatorId, walletAddress, provider, c.now⟩,
          w.addWallet ⟨creatorId, walletAddress, provider, c.now⟩) ∨
      ∃ e, effect cfg (.walletCreate creatorId walletAddress provider) c w = (.error e, w) := by
    simp only [effect, Database.createWallet]
    by_cases hu : creatorId ∉ w.db.users
    · exact Or.inr ⟨_, by rw [if_pos hu]; rfl⟩
    · by_cases ha : walletAddress ∈ w.db.wallets.map (·.walletAddress)
      · exact Or.inr ⟨_, by rw [if_neg hu, if_pos ha]; rfl⟩
      · exact Or.inl (by rw [if_neg hu, if_neg ha]; rfl)
  unfold exec
  cases hf : c.fault with
  | none =>
    rcases heffect with he | ⟨e, he⟩
    · exact Or.inl ⟨⟨creatorId, walletAddress, provider, c.now⟩, rfl, rfl, he⟩
    · exact Or.inr (Or.inr ⟨e, he⟩)
  | lost => exact Or.inr (Or.inr ⟨_, rfl⟩)
  | unacked =>
    rcases heffect with he | ⟨e, he⟩
    · exact Or.inr (Or.inl ⟨⟨creatorId, walletAddress, provider, c.now⟩, rfl, rfl, by
        rw [he]
        rfl⟩)
    · exact Or.inr (Or.inr ⟨_, by rw [he]⟩)

/-- The network after it accepted a transaction. -/
def Chain.accepted (tx : Tx) (c : Chain) : Chain :=
  { c with
    mempool := if .settle tx ∈ c.mempool then c.mempool else c.mempool ++ [.settle tx]
    sent := tx :: c.sent }

/-- The network accepted the transaction, now or before. -/
def SendStatus.accepted : SendStatus → Bool
  | .pending => true
  | .duplicate => true
  | .tryAgainLater => false
  | .error => false

/-- A sent transaction is turned down and changes nothing, or is accepted. -/
theorem Chain.send_cases (refusal : Option Refusal) (tx : Tx) (c : Chain) :
    ((c.send refusal tx).1.accepted = false ∧
      (c.send refusal tx).2 = c ∧
      (refusal = none → .settle tx ∉ c.mempool ∧ tx.seq ≠ c.sequence + 1)) ∨
    ((c.send refusal tx).1.accepted = true ∧
      refusal = none ∧ (.settle tx ∈ c.mempool ∨ tx.seq = c.sequence + 1) ∧
      (c.send refusal tx).2 = c.accepted tx) := by
  cases refusal with
  | some r => cases r <;> simp [Chain.send, Refusal.status, SendStatus.accepted]
  | none =>
    by_cases hm : .settle tx ∈ c.mempool
    · simp [Chain.send, Chain.submit, hm, Chain.accepted, SendStatus.accepted]
    · by_cases hs : tx.seq = c.sequence + 1
      · simp [Chain.send, Chain.submit, hm, hs, Chain.accepted, PlatformTx.seq, SendStatus.accepted]
      · simp [Chain.send, Chain.submit, hm, hs, PlatformTx.seq, SendStatus.accepted]

/-- All that sending a transaction does. -/
theorem exec_sendTransaction (tx : Tx) (c : Choice) (w : World) :
    (∃ status, status.accepted = false ∧ c.fault = .none ∧
      (c.refusal = none → .settle tx ∉ w.chain.mempool ∧ tx.seq ≠ w.chain.sequence + 1) ∧
      exec cfg (.sendTransaction tx) c w = (.ok status, w)) ∨
    (∃ status, status.accepted = true ∧ c.fault = .none ∧
      (.settle tx ∈ w.chain.mempool ∨ tx.seq = w.chain.sequence + 1) ∧
      exec cfg (.sendTransaction tx) c w = (.ok status, w.setChain (w.chain.accepted tx))) ∨
    (exec cfg (.sendTransaction tx) c w).1 = .error .rpc ∧
      (c.fault = .lost ∧ (exec cfg (.sendTransaction tx) c w).2 = w ∨ c.fault = .unacked) := by
  cases hf : c.fault with
  | none =>
    rcases w.chain.send_cases c.refusal tx with ⟨hs, hc, hn⟩ | ⟨hs, -, hq, hc⟩
    · exact Or.inl ⟨_, hs, rfl, hn, by rw [exec_of_fault_none cfg w hf, effect, hc]⟩
    · exact Or.inr (Or.inl ⟨_, hs, rfl, hq, by
        rw [exec_of_fault_none cfg w hf, effect, hc]
        rfl⟩)
  | lost =>
    have hx := exec_of_fault_lost cfg (r := .sendTransaction tx) w hf
    exact Or.inr (Or.inr ⟨congrArg Prod.fst hx, Or.inl ⟨rfl, congrArg Prod.snd hx⟩⟩)
  | unacked => exact Or.inr (Or.inr ⟨exec_fault cfg w (by simp [hf]), Or.inr rfl⟩)

/-- Whatever it answers, the network has the transaction or is as before. -/
theorem exec_sendTransaction_world (tx : Tx) (c : Choice) (w : World) :
    (exec cfg (.sendTransaction tx) c w).2 = w ∨
      (exec cfg (.sendTransaction tx) c w).2 = w.setChain (w.chain.accepted tx) := by
  have heffect : (effect cfg (.sendTransaction tx) c w).2 = w ∨
      (effect cfg (.sendTransaction tx) c w).2 = w.setChain (w.chain.accepted tx) := by
    rcases w.chain.send_cases c.refusal tx with ⟨-, hc, -⟩ | ⟨-, -, -, hc⟩
    · exact Or.inl (by rw [effect, hc])
    · exact Or.inr (by rw [effect, hc]; rfl)
  rcases exec_world cfg (.sendTransaction tx) c w with hw | hw
  · exact Or.inl hw
  · rwa [hw]

/-- No other request reaches the network. -/
theorem exec_chain (r : Request) (c : Choice) (w : World) :
    (exec cfg r c w).2.chain = w.chain ∨
      ∃ tx, r = .sendTransaction tx ∧ (exec cfg r c w).2 = w.setChain (w.chain.accepted tx) := by
  by_cases hread : r.reads = true
  · exact Or.inl (by rw [exec_reads cfg hread])
  cases r with
  | orderCreate data =>
    rcases exec_orderCreate cfg data c w with ⟨x, -, hx⟩ | ⟨e, hx⟩
    all_goals exact Or.inl (congrArg (·.2.chain) hx)
  | orderUpdate id data =>
    rcases exec_orderUpdate cfg id data c w with ⟨o, -, -, -, hx⟩ | ⟨o, -, -, -, hx⟩ | ⟨e, hx, -⟩
    all_goals exact Or.inl (congrArg (·.2.chain) hx)
  | settlementCreate data =>
    rcases exec_settlementCreate cfg data c w with ⟨-, -, hx⟩ | ⟨-, -, hx⟩ | ⟨e, hx, -⟩
    all_goals exact Or.inl (congrArg (·.2.chain) hx)
  | walletCreate creatorId walletAddress provider =>
    rcases exec_walletCreate cfg creatorId walletAddress provider c w with ⟨wallet, -, -, hx⟩ |
      ⟨wallet, -, -, hx⟩ | ⟨e, hx⟩
    all_goals exact Or.inl (congrArg (·.2.chain) hx)
  | sendTransaction tx =>
    rcases exec_sendTransaction_world cfg tx c w with hx | hx
    · exact Or.inl (by rw [hx])
    · exact Or.inr ⟨tx, rfl, hx⟩
  | _ => exact absurd rfl hread

/-- Requests emit nothing. -/
theorem exec_emitted (r : Request) (c : Choice) (w : World) :
    (exec cfg r c w).2.emitted = w.emitted := by
  have hwrite : ∀ x, (w.write x).2.emitted = w.emitted := fun x => by cases x <;> rfl
  have hinsert : ∀ {α : Type} (a : α) x, (w.insert a x).2.emitted = w.emitted :=
    fun a x => by cases x <;> rfl
  have heffect : (effect cfg r c w).2.emitted = w.emitted := by
    cases r with
    | orderCreate data => exact hinsert _ _
    | orderUpdate id data => exact hwrite _
    | walletCreate creatorId walletAddress provider => exact hinsert _ _
    | settlementCreate data => exact hwrite _
    | _ => rfl
  rcases exec_world cfg r c w with hw | hw <;> rw [hw]
  exact heffect

/-- What the status of a transaction says about its result. -/
theorem Chain.status_ok {lag : Bool} {c : Chain} {tx : Tx} {s : TxStatus}
    (h : c.status lag (.onChain tx) = .ok s) :
    (s = .success → c.result tx = some true) ∧ (s = .failed → c.result tx = some false) ∧
      (s = .notFound → lag = true ∨ c.result tx = none) := by
  simp only [Chain.status] at h
  split at h
  · next hl =>
    obtain rfl := Except.ok.inj h
    simp [hl]
  · split at h
    all_goals
      next hr =>
        obtain rfl := Except.ok.inj h
        simp [hr]

theorem Chain.status_ne_error {lag : Bool} {c : Chain} {tx : Tx} {e : Failure} :
    c.status lag (.onChain tx) ≠ .error e := by
  simp only [Chain.status]
  split
  · simp
  · split <;> simp

/-- The errors that requests throw. -/
def Failure.Thrown (e : Failure) : Prop :=
  e = .database ∨ e = .uniqueViolation ∨ e = .rpc ∨ e = .horizon

theorem effect_error {r : Request} {c : Choice} {w : World} {e : Failure}
    (h : (effect cfg r c w).1 = .error e) : e.Thrown := by
  have hwrite : ∀ {x : Except DbError Database}, (w.write x).1 = .error e → e.Thrown := by
    intro x hx
    cases x with
    | ok db => cases hx
    | error d =>
      obtain rfl := Except.error.inj hx
      cases d <;> simp [DbError.failure, Failure.Thrown]
  have hinsert : ∀ {α : Type} {a : α} {x : Except DbError Database},
      (w.insert a x).1 = .error e → e.Thrown := by
    intro α a x hx
    cases x with
    | ok db => cases hx
    | error d =>
      obtain rfl := Except.error.inj hx
      cases d <;> simp [DbError.failure, Failure.Thrown]
  cases r with
  | orderCreate data => exact hinsert h
  | orderUpdate id data => exact hwrite h
  | walletCreate creatorId walletAddress provider => exact hinsert h
  | settlementCreate data => exact hwrite h
  | getTransaction txHash n =>
    cases txHash with
    | placeholder text =>
      obtain rfl : Failure.rpc = e := Except.error.inj h
      simp [Failure.Thrown]
    | onChain tx => exact absurd h Chain.status_ne_error
  | _ => cases h

/-- A status call that throws. -/
theorem exec_getTransaction_error {txHash : TxHash} {n : ℕ} {c : Choice} {w : World} {e : Failure}
    (h : (exec cfg (.getTransaction txHash n) c w).1 = .error e) : e = .rpc := by
  by_cases hf : c.fault = .none
  · rw [exec_of_fault_none cfg w hf] at h
    cases txHash with
    | placeholder text => exact (Except.error.inj h).symm
    | onChain tx => exact absurd h Chain.status_ne_error
  · rw [exec_fault cfg w hf] at h
    exact (Except.error.inj h).symm

theorem exec_error {r : Request} {c : Choice} {w : World} {e : Failure}
    (h : (exec cfg r c w).1 = .error e) : e.Thrown := by
  have hthrown : r.thrown.Thrown := by cases r <;> simp [Request.thrown, Failure.Thrown]
  by_cases hf : c.fault = .none
  · rw [exec_of_fault_none cfg w hf] at h
    exact effect_error cfg h
  · rw [exec_fault cfg w hf] at h
    exact Except.error.inj h ▸ hthrown

/-! ## The network -/

/-- What every step of the network keeps. -/
structure Chain.Extends (c c' : Chain) : Prop where
  sent : c'.sent = c.sent
  result : ∀ {tx b}, c.result tx = some b → c'.result tx = some b
  settled : c.contract.settlement ⊆ c'.contract.settlement

theorem Chain.Extends.refl (c : Chain) : c.Extends c :=
  ⟨rfl, id, Finset.Subset.refl _⟩

theorem Chain.Extends.trans {c c' c'' : Chain} (h : c.Extends c') (h' : c'.Extends c'') :
    c.Extends c'' :=
  ⟨h'.sent.trans h.sent, fun hr => h'.result (h.result hr), h.settled.trans h'.settled⟩

theorem Chain.mem_results {c : Chain} {tx : Tx} {b : Bool} (h : c.result tx = some b) :
    (tx, b) ∈ c.results := by
  obtain ⟨l, l', hl, -⟩ := List.lookup_eq_some_iff.1 h
  simp [hl]

theorem Chain.result_cons {c : Chain} {tx tx' : Tx} {b b' : Bool} (hn : c.result tx = none)
    (h : c.result tx' = some b') : ((tx, b) :: c.results).lookup tx' = some b' := by
  have hne : tx' ≠ tx := by
    rintro rfl
    rw [hn] at h
    cases h
  rw [List.lookup_cons, beq_eq_false_iff_ne.2 hne]
  exact h

theorem Chain.submit_extends (t : PlatformTx) (c : Chain) : c.Extends (c.submit t).2 := by
  unfold Chain.submit
  split
  · exact Extends.refl c
  · split
    · exact ⟨rfl, id, Finset.Subset.refl _⟩
    · exact Extends.refl c

/-- What a closing ledger does with the first queued transaction. -/
inductive Chain.Closes (fails : Bool) (c : Chain) : Chain → Prop
  | idle (h : c.mempool = []) : Closes fails c c
  | other {seq : ℕ} {rest : List PlatformTx} (h : c.mempool = .other seq :: rest) :
    Closes fails c { c with closedSequence := c.closedSequence + 1, mempool := rest }
  | again {tx : Tx} {rest : List PlatformTx} (h : c.mempool = .settle tx :: rest)
    (hr : (c.result tx).isSome = true) : Closes fails c { c with mempool := rest }
  | settled {tx : Tx} {rest : List PlatformTx} {contract : ContractState String}
    (h : c.mempool = .settle tx :: rest) (hr : c.result tx = none) (hf : fails = false)
    (hs : c.invokeSettle cfg tx = .ok contract) :
    Closes fails c { c with
      closedSequence := c.closedSequence + 1, mempool := rest, contract
      results := (tx, true) :: c.results }
  | failed {tx : Tx} {rest : List PlatformTx} (h : c.mempool = .settle tx :: rest)
    (hr : c.result tx = none) (hs : fails = true ∨ ∃ e, c.invokeSettle cfg tx = .error e) :
    Closes fails c { c with
      closedSequence := c.closedSequence + 1, mempool := rest
      results := (tx, false) :: c.results }

theorem Chain.close_closes (fails : Bool) (c : Chain) :
    c.Closes cfg fails (c.close cfg fails) := by
  unfold Chain.close
  split
  · next h => exact .idle h
  · next h => exact .other h
  · next tx rest h =>
    split
    · next hr => exact .again h hr
    · next hr =>
      have hn : c.result tx = none := by simpa using hr
      unfold Chain.apply
      cases fails with
      | true => exact .failed h hn (Or.inl rfl)
      | false =>
        split
        · next hs => exact .settled h hn rfl hs
        · next hs => exact .failed h hn (Or.inr ⟨_, hs⟩)

theorem Chain.Closes.extends {fails : Bool} {c c' : Chain} (h : c.Closes cfg fails c') :
    c.Extends c' := by
  cases h with
  | idle h => exact Extends.refl c
  | other h => exact ⟨rfl, id, Finset.Subset.refl _⟩
  | again h hr => exact ⟨rfl, id, Finset.Subset.refl _⟩
  | failed h hr => exact ⟨rfl, Chain.result_cons hr, Finset.Subset.refl _⟩
  | @settled tx rest contract h hr hf hs =>
    refine ⟨rfl, Chain.result_cons hr, ?_⟩
    obtain ⟨_, _, _, hset⟩ := settle_eq_ok hs
    show c.contract.settlement ⊆ contract.settlement
    rw [hset.settlement]
    exact Finset.subset_insert _ _

theorem Chain.step_extends (step : NetworkStep) (c : Chain) : c.Extends (c.step cfg step) := by
  cases step with
  | close fails => exact (c.close_closes cfg fails).extends
  | drop n => exact ⟨rfl, id, Finset.Subset.refl _⟩
  | submit t => exact c.submit_extends t
  | accounts ledger trustline => exact ⟨rfl, id, Finset.Subset.refl _⟩

/-- A step of the outside leaves orders, settlements and events alone and extends the
network. -/
theorem env_keeps (e : Env) (w : World) :
    ((machine cfg).env e w).db.orders = w.db.orders ∧
      ((machine cfg).env e w).db.settlements = w.db.settlements ∧
      ((machine cfg).env e w).emitted = w.emitted ∧
      w.chain.Extends ((machine cfg).env e w).chain := by
  cases e with
  | network step => exact ⟨rfl, rfl, rfl, w.chain.step_extends cfg step⟩
  | updateProduct productId rows => exact ⟨rfl, rfl, rfl, Chain.Extends.refl _⟩

/-! ## Rules for the requests -/

variable {cfg} {D : Discipline (machine cfg)} {i : ℕ} {P : World → Prop}
  {Y : Failure → World → Prop}

/-- Reads keep every assertion that does not look at the events. -/
theorem frame_reads (hA : D.Assertion i P) (hguar : ∀ w, D.guar i w w)
    (hduty : ∀ w r, r.reads = true → P w → D.duty w r)
    (hlog : ∀ w v, P w → D.guar i w ((machine cfg).log v w) ∧ P ((machine cfg).log v w)) :
    D.Frame i P fun r => r.reads = true where
  assertion := hA
  duty h hw := hduty _ _ h hw
  exec {w r c} h hw _ := by
    have hx : ((machine cfg).exec r c w).2 = w := exec_reads cfg h c w
    rw [hx]
    exact ⟨hguar w, hw⟩
  log hw := hlog _ _ hw

/-- A read : it answers as the effect does, or throws. -/
theorem triple_read {r : Request} {Q : r.Ans → World → Prop} (hr : r.reads = true)
    (hA : D.Assertion i P) (hduty : ∀ w, P w → D.duty w r) (hguar : ∀ w, D.guar i w w)
    (hok : ∀ w c a, P w → D.allowed w r c → c.fault = .none →
      (effect cfg r c w).1 = .ok a → Q a w)
    (herr : ∀ w c e, P w → D.allowed w r c → (exec cfg r c w).1 = .error e → Y e w) :
    Prog.Triple D i P (await r) Q Y := by
  have hx : ∀ c w, ((machine cfg).exec r c w).2 = w := exec_reads cfg hr
  refine Prog.Triple.ask hA hduty (fun w c _ _ => ?_) (fun w c a hw ha h => ?_)
    fun w c e hw ha h => ?_
  · rw [hx]
    exact hguar w
  · rw [hx]
    obtain ⟨hf, he⟩ := exec_ok cfg h
    exact hok w c a hw ha hf he
  · rw [hx]
    exact herr w c e hw ha h

/-- An order update : it sets the row, and may throw after that, or throws and changes
nothing. -/
theorem triple_orderUpdate {id : String} {data : OrderUpdate} {Q : World → Prop}
    (hA : D.Assertion i P) (hduty : ∀ w, P w → D.duty w (.orderUpdate id data))
    (hset : ∀ w o c, P w → D.allowed w (.orderUpdate id data) c →
      w.db.orders.lookup id = some o → (∀ ref ∈ data.paymentRef, ¬ w.db.RefTaken id ref) →
      D.guar i w (w.setOrder id (data.applyTo o)) ∧
        (c.fault = .none → Q (w.setOrder id (data.applyTo o))) ∧
        (c.fault = .unacked → Y .database (w.setOrder id (data.applyTo o))))
    (herr : ∀ w c e, P w → D.allowed w (.orderUpdate id data) c →
      (e = .database ∧ (c.fault = .none → w.db.orders.lookup id = none) ∨
        e = .uniqueViolation ∧ c.fault = .none ∧
          ∃ ref ∈ data.paymentRef, w.db.RefTaken id ref) → D.guar i w w ∧ Y e w) :
    Prog.Triple D i P (await (.orderUpdate id data)) (fun _ => Q) Y := by
  refine Prog.Triple.ask hA hduty (fun w c hw ha => ?_) (fun w c a hw ha h => ?_)
    fun w c e hw ha h => ?_ <;> simp only [machine] at *
  all_goals
    rcases exec_orderUpdate cfg id data c w with ⟨o, hf, hl, ht, hx⟩ | ⟨o, hf, hl, ht, hx⟩ |
      ⟨e', hx, hn⟩
  · rw [hx]
    exact (hset w o c hw ha hl ht).1
  · rw [hx]
    exact (hset w o c hw ha hl ht).1
  · rw [hx]
    exact (herr w c e' hw ha hn).1
  · rw [hx]
    exact (hset w o c hw ha hl ht).2.1 hf
  · simp [hx] at h
  · simp [hx] at h
  · simp [hx] at h
  · rw [hx] at h ⊢
    obtain rfl : Failure.database = e := by simpa using h
    exact (hset w o c hw ha hl ht).2.2 hf
  · rw [hx] at h ⊢
    obtain rfl : e' = e := by simpa using h
    exact (herr w c e' hw ha hn).2

/-- The creation of a settlement. -/
theorem triple_settlementCreate {data : SettlementCreate} {Q : World → Prop}
    (hA : D.Assertion i P) (hduty : ∀ w, P w → D.duty w (.settlementCreate data))
    (hadd : ∀ w c, P w → D.allowed w (.settlementCreate data) c →
      w.db.settlements.lookup data.orderId = none →
      D.guar i w (w.addSettlement data) ∧ (c.fault = .none → Q (w.addSettlement data)) ∧
        (c.fault = .unacked → Y .database (w.addSettlement data)))
    (herr : ∀ w c e, P w → D.allowed w (.settlementCreate data) c →
      (e = .database ∧ c.fault ≠ .none ∨ e = .uniqueViolation ∧ c.fault = .none ∧
        (w.db.settlements.lookup data.orderId).isSome = true) → D.guar i w w ∧ Y e w) :
    Prog.Triple D i P (await (.settlementCreate data)) (fun _ => Q) Y := by
  refine Prog.Triple.ask hA hduty (fun w c hw ha => ?_) (fun w c a hw ha h => ?_)
    fun w c e hw ha h => ?_ <;> simp only [machine] at *
  all_goals
    rcases exec_settlementCreate cfg data c w with ⟨hf, hl, hx⟩ | ⟨hf, hl, hx⟩ | ⟨e', hx, hn⟩
  · rw [hx]
    exact (hadd w c hw ha hl).1
  · rw [hx]
    exact (hadd w c hw ha hl).1
  · rw [hx]
    exact (herr w c e' hw ha hn).1
  · rw [hx]
    exact (hadd w c hw ha hl).2.1 hf
  · simp [hx] at h
  · simp [hx] at h
  · simp [hx] at h
  · rw [hx] at h ⊢
    obtain rfl : Failure.database = e := by simpa using h
    exact (hadd w c hw ha hl).2.2 hf
  · rw [hx] at h ⊢
    obtain rfl : e' = e := by simpa using h
    exact (herr w c e' hw ha hn).2

/-- Sending a transaction whose acceptance does not get lost : it is turned down or throws
and nothing changes, or it is accepted. -/
theorem triple_sendTransaction {tx : Tx} {Q : SendStatus → World → Prop}
    (hA : D.Assertion i P) (hduty : ∀ w, P w → D.duty w (.sendTransaction tx))
    (hguar : ∀ w, D.guar i w w)
    (hacked : ∀ w c, P w → D.allowed w (.sendTransaction tx) c → c.fault ≠ .unacked)
    (hno : ∀ w c status, P w → D.allowed w (.sendTransaction tx) c →
      status.accepted = false → c.fault = .none →
      (c.refusal = none → .settle tx ∉ w.chain.mempool ∧ tx.seq ≠ w.chain.sequence + 1) →
      Q status w)
    (hyes : ∀ w c status, P w → D.allowed w (.sendTransaction tx) c →
      status.accepted = true → c.fault = .none →
      (.settle tx ∈ w.chain.mempool ∨ tx.seq = w.chain.sequence + 1) →
      D.guar i w (w.setChain (w.chain.accepted tx)) ∧
        Q status (w.setChain (w.chain.accepted tx)))
    (herr : ∀ w c, P w → D.allowed w (.sendTransaction tx) c → c.fault = .lost → Y .rpc w) :
    Prog.Triple D i P (await (.sendTransaction tx)) Q Y := by
  refine Prog.Triple.ask hA hduty (fun w c hw ha => ?_) (fun w c a hw ha h => ?_)
    fun w c e hw ha h => ?_ <;> simp only [machine] at *
  all_goals
    rcases exec_sendTransaction cfg tx c w with ⟨st, hst, hf, hn, hx⟩ | ⟨st, hst, hf, hn, hx⟩ |
      ⟨hx1, ⟨hf, hx2⟩ | hf⟩
  · rw [hx]
    exact hguar w
  · rw [hx]
    exact (hyes w c st hw ha hst hf hn).1
  · rw [hx2]
    exact hguar w
  · exact absurd hf (hacked w c hw ha)
  · rw [hx] at h ⊢
    obtain rfl : st = a := by simpa using h
    exact hno w c st hw ha hst hf hn
  · rw [hx] at h ⊢
    obtain rfl : st = a := by simpa using h
    exact (hyes w c st hw ha hst hf hn).2
  · simp [hx1] at h
  · simp [hx1] at h
  · simp [hx] at h
  · simp [hx] at h
  · rw [hx1] at h
    rw [hx2]
    obtain rfl : Failure.rpc = e := by simpa using h
    exact herr w c hw ha hf
  · exact absurd hf (hacked w c hw ha)

/-! ## Healthy requests -/

/-- A healthy read answers. -/
theorem triple_read_healthy {r : Request} (hr : r.reads = true)
    (hp : ∀ h n, r ≠ .getTransaction h n) (hA : D.Assertion i P)
    (hduty : ∀ w, P w → D.duty w r) (hguar : ∀ w, D.guar i w w)
    (hc : ∀ w c, D.allowed w r c → c.Healthy) :
    Prog.Triple D i P (await r)
      (fun a w => P w ∧ ∃ c, c.Healthy ∧ (effect cfg r c w).1 = .ok a) Y := by
  refine triple_read hr hA hduty hguar (fun w c a h hal _ ha => ⟨h, c, hc w c hal, ha⟩)
    fun w c e _ hal he => ?_
  rw [exec_of_fault_none cfg w (hc w c hal).fault] at he
  exact absurd he (effect_reads_ne_error cfg hr hp)

/-- A healthy update of an order that exists, without a payment reference, succeeds. -/
theorem triple_update_healthy {id : String} {data : OrderUpdate} {Q : World → Prop}
    (hA : D.Assertion i P) (hduty : ∀ w, P w → D.duty w (.orderUpdate id data))
    (hc : ∀ w c, D.allowed w (.orderUpdate id data) c → c.Healthy)
    (href : data.paymentRef = none) (hrow : ∀ w, P w → ∃ o, w.db.orders.lookup id = some o)
    (hset : ∀ w o c, P w → D.allowed w (.orderUpdate id data) c →
      w.db.orders.lookup id = some o → D.guar i w (w.setOrder id (data.applyTo o)) ∧
        Q (w.setOrder id (data.applyTo o))) :
    Prog.Triple D i P (await (.orderUpdate id data)) (fun _ => Q) Y := by
  refine Prog.Triple.ask hA hduty (fun w c hw hal => ?_) (fun w c a hw hal _ => ?_)
    fun w c e hw hal h => ?_ <;> simp only [machine] at *
  all_goals
    obtain ⟨o, hl⟩ := hrow w hw
    have hx := exec_update_healthy cfg (hc w c hal).fault hl href
  · rw [hx]
    exact (hset w o c hw hal hl).1
  · rw [hx]
    exact (hset w o c hw hal hl).2
  · rw [hx] at h
    cases h

/-- A healthy creation of a settlement for an order without one succeeds. -/
theorem triple_create_healthy {data : SettlementCreate} {Q : World → Prop}
    (hA : D.Assertion i P) (hduty : ∀ w, P w → D.duty w (.settlementCreate data))
    (hc : ∀ w c, D.allowed w (.settlementCreate data) c → c.Healthy)
    (hnone : ∀ w, P w → w.db.settlements.lookup data.orderId = none)
    (hadd : ∀ w, P w → D.guar i w (w.addSettlement data) ∧ Q (w.addSettlement data)) :
    Prog.Triple D i P (await (.settlementCreate data)) (fun _ => Q) Y := by
  refine triple_settlementCreate hA hduty ?_ ?_
  · intro w c hw hal _
    have hf := (hc w c hal).fault
    obtain ⟨hg, hq⟩ := hadd w hw
    exact ⟨hg, fun _ => hq, fun h => by simp [hf] at h⟩
  · intro w c e hw hal he
    rcases he with ⟨-, hn⟩ | ⟨-, -, hs⟩
    · exact absurd (hc w c hal).fault hn
    · rw [hnone w hw] at hs
      cases hs

end Kreav
