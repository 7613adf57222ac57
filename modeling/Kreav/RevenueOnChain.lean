import Kreav.CompletedEvents
import Kreav.Dashboard
import Kreav.PaymentGate
import Kreav.PricedOrders

/-!
# The revenue of the dashboard is on the chain

The whole backend in any interleaving, with any faults and crashes, among true answers of the
RPC server. A dashboard reads its numbers at any points of the run. `dashboard_on_chain` : for
each order behind the revenue of a creator, and behind that of each of the top products, the
contract has executed one transaction, and these transactions move the revenue, exactly.

Two invariants carry it. An order is `settled` only when the contract has settled it
(`Standing`), where a call that writes the status knows of the settlement (`Told`). And every
transaction on the network is over the amount of its order (`Funded`), whatever its price was
changed to.
-/

open Async Prog

namespace Kreav

namespace Revenue

/-- The transaction is over the amount of its order, in base units. -/
def Owes (w : World) (tx : Tx) : Prop :=
  ∃ a, Costs w tx.orderRef a ∧ tx.totalAmount.val = a.toBase

/-- The transactions of the network are owed, and an order that is settled has one that was
executed. -/
structure Funded (owes : Tx → Prop) (c : Chain) : Prop where
  queued : ∀ tx, .settle tx ∈ c.mempool → owes tx
  executed : ∀ tx, c.Executed tx → owes tx
  settled : ∀ id ∈ c.contract.settlement, ∃ tx, c.Executed tx ∧ tx.orderRef = id

/-- The status `settled` is true. -/
def Standing (id : String) (w : World) : Prop :=
  statusOf w id = some .settled → id ∈ w.chain.contract.settlement

/-- What holds of the state of the backend between its runs. -/
structure Backed (w : World) : Prop where
  sound : ∀ id, Completed.Sound id w
  standing : ∀ id, Standing id w
  funded : Funded (Owes w) w.chain
  emitted : ∀ p ∈ payments w.emitted, Costs w p.orderId p.amountUsd

/-- Answers of the RPC server are true, `payment.received` is delivered once it was emitted, and
no other process of the platform settles orders. -/
def Honest (s : Config backend World Unit) : Turn Choice MarketStep ServiceCall → Prop
  | .act (.run i c) => ∀ r, s.Waits i r → Truthful s.world r c
  | .act (.env (.backend (.network (.submit (.settle _))))) => False
  | .call (.paymentReceived payload) => payload ∈ payments s.world.emitted
  | _ => True

variable {cfg : StellarConfig} {id : String} {w w' : World} {i : ℕ}

/-! ## The status -/

section Status

open OrderProtocol Completed

/-- A call in the phase knows that the order is settled. -/
def Told : Phase → Prop
  | .idle => False
  | .pending => False
  | .failing => False
  | _ => True

/-- What holds of an order in every state : what is recorded of it and its status are true, and so
is what methods were told. -/
structure Inv (id : String) (w : World) (φ : ℕ → Phase) : Prop where
  sound : Sound id w
  standing : Standing id w
  told : ∀ i, Told (φ i) → id ∈ w.chain.contract.settlement

variable {φ : ℕ → Phase} {φ' : Phase}

theorem Inv.step (h : Inv id w φ) (hsound : Sound id w') (hstanding : Standing id w')
    (hsub : w.chain.contract.settlement ⊆ w'.chain.contract.settlement)
    (ht : Told φ' → Told (φ i) ∨ id ∈ w'.chain.contract.settlement) :
    Inv id w' (Function.update φ i φ') := by
  refine ⟨hsound, hstanding, ?_⟩
  refine (Function.forall_update_iff φ fun _ ψ => Told ψ → _).2
    ⟨fun hφ' => ?_, fun j _ hj => hsub (h.told j hj)⟩
  exact (ht hφ').elim (fun hi => hsub (h.told i hi)) fun hm => hm

/-- The status stays, or the order is created. -/
theorem Standing.unmoved (h : Standing id w) (hw : Unmoved id w w') : Standing id w' := by
  intro hs
  rw [hw.contract]
  rcases hw.status with he | ⟨-, he⟩
  · exact h (he ▸ hs)
  · rw [he] at hs
    cases hs

theorem Standing.update (h : Standing id w) {data : OrderUpdate}
    (hd : data.status = .settled → id ∈ w.chain.contract.settlement) (c : Choice) :
    Standing id (exec cfg (.orderUpdate id data) c w).2 := by
  intro hs
  have hchain : (exec cfg (.orderUpdate id data) c w).2.chain = w.chain := by
    rcases exec_chain cfg (.orderUpdate id data) c w with he | ⟨tx, he, -⟩
    · exact he
    · cases he
  rw [hchain]
  rcases statusOf_orderUpdate cfg id data c w with he | ⟨-, he⟩
  · exact h (he ▸ hs)
  · rw [he] at hs
    exact hd (Option.some.inj hs)

/-- A call that writes `settled` knows that the order is. -/
theorem told_of_settled {own : TxHash → Prop} {φ : Phase} {data : OrderUpdate}
    {x : Except Failure Unit} (h : Reply own id φ (.orderUpdate id data) x φ')
    (hs : data.status = .settled) : Told φ := by
  cases h with
  | stay hr => exact absurd rfl hr
  | drop hr => exact absurd rfl hr
  | claim hstatus =>
    rcases hstatus with rfl | rfl
    · cases hs
    · cases hs
  | pay hrec => cases hrec <;> trivial
  | unpaid hrec => cases hrec <;> trivial
  | enter => cases hs
  | refused => cases hs
  | failed => cases hs
  | unfailed => cases hs
  | rollback => cases hs
  | _ => trivial

/-- Only the answers that tell of the settlement make a call know of it. -/
theorem told_of_reply {own : TxHash → Prop} {φ : Phase} {r : Request} {x : Except Failure r.Ans}
    (h : Reply own id φ r x φ') (ht : Told φ') : Told φ ∨ φ' = .confirmed := by
  have hstray : ∀ {ε}, Stray ε → ¬ Told ε := by
    rintro ε (rfl | rfl | rfl) <;> exact not_false
  cases h with
  | stay => exact .inl ht
  | drop _ _ hε => exact absurd ht (hstray hε)
  | unfailed _ hε => exact absurd ht (hstray hε)
  | unsettled hε => exact absurd ht (hstray hε)
  | marker => exact .inr rfl
  | applied => exact .inr rfl
  | create hrec => cases hrec <;> exact .inl trivial
  | uncreated hrec => cases hrec <;> exact .inl trivial
  | pay hrec => cases hrec <;> exact .inl trivial
  | unpaid hrec => cases hrec <;> exact .inl trivial
  | row => exact .inl trivial
  | early => exact .inl trivial
  | look => exact .inl trivial
  | _ => exact ht.elim

/-- The hash that a call writes is the order's. -/
theorem own_of_reply {own : TxHash → Prop} {φ : Phase} {data : OrderUpdate}
    {x : Except Failure Unit} (h : Reply own id φ (.orderUpdate id data) x φ') :
    ∀ hash, data.txHash = some (some hash) → own hash := by
  have hone : ∀ {txHash : TxHash}, own txHash → ∀ hash, some (some txHash) = some (some hash) →
      own hash := fun hh hash he => by
    obtain rfl := Option.some.inj (Option.some.inj he)
    exact hh
  cases h with
  | stay hr => exact absurd rfl hr
  | drop hr => exact absurd rfl hr
  | failed _ hh => exact hh
  | unfailed _ _ hh => exact hh
  | settled hh => exact hh
  | unsettled _ hh => exact hh
  | pay _ hh => exact hone hh
  | unpaid _ hh => exact hone hh
  | _ => simp

/-- A call that creates the row knows that the order is settled. -/
theorem told_of_create {own : TxHash → Prop} {φ : Phase} {data : SettlementCreate}
    {x : Except Failure Unit} (h : Reply own id φ (.settlementCreate data) x φ')
    (hid : data.orderId = id) : Told φ ∧ own data.txHash := by
  cases h with
  | stay hr => exact absurd hid hr
  | drop hr => exact absurd hid hr
  | create hrec _ hh =>
    refine ⟨?_, hh⟩
    cases hrec <;> trivial
  | uncreated hrec _ hh =>
    refine ⟨?_, hh⟩
    cases hrec <;> trivial

/-- One request of a call that follows the protocol. -/
theorem Inv.reply (h : Inv id w φ) {r : Request} {c : Choice}
    (hr : Reply (Own id) id (φ i) r (exec cfg r c w).1 φ') :
    Sound id (exec cfg r c w).2 ∧ Standing id (exec cfg r c w).2 ∧
      w.chain.contract.settlement ⊆ (exec cfg r c w).2.chain.contract.settlement := by
  by_cases hwrites : Writes id r
  · cases r with
    | orderUpdate id' data =>
      obtain rfl : id' = id := hwrites
      have hkeeps : Completed.Keeps id' w (exec cfg (.orderUpdate id' data) c w).2 :=
        h.sound.update (own_of_reply hr) c
      exact ⟨hkeeps.sound, h.standing.update
        (fun hd => h.told i (told_of_settled hr hd)) c, hkeeps.settled⟩
    | settlementCreate data =>
      obtain ⟨ht, hown⟩ := told_of_create hr hwrites
      have hm := h.told i ht
      rcases exec_settlementCreate cfg data c w with ⟨-, -, hx⟩ | ⟨-, -, hx⟩ | ⟨e, hx, -⟩
      · rw [hx]
        exact ⟨h.sound.addSettlement hwrites hown hm, h.standing, Finset.Subset.refl _⟩
      · rw [hx]
        exact ⟨h.sound.addSettlement hwrites hown hm, h.standing, Finset.Subset.refl _⟩
      · rw [hx]
        exact ⟨h.sound, h.standing, Finset.Subset.refl _⟩
    | orderCreate data =>
      generalize φ i = ψ at hr
      cases hr with
      | stay hn => exact absurd hwrites hn
      | drop hn => exact absurd hwrites hn
    | _ => exact hwrites.elim
  · have hmoved := unmoved_exec cfg hwrites c w
    have hkeeps := h.sound.unmoved hmoved
    exact ⟨hkeeps.sound, h.standing.unmoved hmoved, hkeeps.settled⟩

/-- An answer that tells of the settlement is true. -/
theorem Inv.confirmed (h : Inv id w φ) {r : Request} {c : Choice} (htrue : Truthful w r c)
    (hr : Reply (Own id) id (φ i) r (exec cfg r c w).1 .confirmed) :
    Told (φ i) ∨ id ∈ w.chain.contract.settlement := by
  have hstray : ¬ Stray .confirmed := by
    rintro (h | h | h) <;> cases h
  generalize hi : φ i = ψ at hr
  generalize hx : (exec cfg r c w).1 = x at hr
  cases hr with
  | stay => exact .inl trivial
  | @marker sim hsim =>
    obtain ⟨hf, he⟩ := exec_ok cfg hx
    exact .inr (of_decide_eq_true
      (isSettled_of_simulation (Except.ok.inj he) hsim (htrue hf)))
  | @applied txHash n hown =>
    obtain ⟨-, he⟩ := exec_ok cfg hx
    cases txHash with
    | placeholder text => cases he
    | onChain tx =>
      exact .inr (h.sound.results tx ((Chain.status_ok he).1 rfl) (hown tx rfl))
  | drop _ _ hε => exact absurd hε hstray
  | unfailed _ hε => exact absurd hε hstray
  | unsettled hε => exact absurd hε hstray
  | create hrec => cases hrec
  | uncreated hrec =>
    cases hrec
    exact .inl trivial
  | unpaid hrec =>
    cases hrec
    exact .inl trivial

theorem invariant (cfg : StellarConfig) (id : String) :
    (protocol (Own id) id).Invariant (market cfg) (fun s a => Honest s (.act a)) (Inv id) where
  final_rest := Or.inl rfl
  event {w φ i v φ'} h hv := by
    refine h.step (h.sound.log cfg v) h.standing (Finset.Subset.refl _) fun ht => ?_
    generalize hi : φ i = ψ at hv
    cases hv with
    | other => exact .inl ht
    | completed => exact ht.elim
  ended {w φ i} h _ := h.step h.sound h.standing (Finset.Subset.refl _) fun ht => ht.elim
  outside {s φ e} h _ := by
    rw [← Function.update_eq_self 0 φ]
    cases e with
    | backend e =>
      obtain ⟨horders, -, -, hchain⟩ := env_keeps cfg e s.world
      have hstatus : statusOf ((machine cfg).env e s.world) id = statusOf s.world id := by
        rw [statusOf, horders, statusOf]
      exact h.step (h.sound.env e).sound (fun hs => hchain.settled (h.standing (hstatus ▸ hs)))
        hchain.settled Or.inl
    | catalog call r c =>
      have hmoved := unmoved_catalog cfg id r c s.world
      have hkeeps := h.sound.unmoved hmoved
      exact h.step hkeeps.sound (h.standing.unmoved hmoved) hkeeps.settled Or.inl
  reply {s φ i r k c} h _ hget hP := by
    refine ⟨answers_exec cfg h.sound.owned r c, fun φ' hφ' hk => .update hk ?_⟩
    obtain ⟨hsound, hstanding, hsub⟩ := h.reply hφ'
    refine h.step hsound hstanding hsub fun ht => ?_
    rcases told_of_reply hφ' ht with hi | rfl
    · exact .inl hi
    · exact (h.confirmed (hP r ⟨_, hget, rfl⟩) hφ').imp_right fun hm => hsub hm

end Status

/-! ## The amounts -/

variable {owes : Tx → Prop} {c c' : Chain}

theorem Funded.mono {owes' : Tx → Prop} (h : Funded owes c) (ho : ∀ tx, owes tx → owes' tx) :
    Funded owes' c :=
  ⟨fun tx hq => ho tx (h.queued tx hq), fun tx hx => ho tx (h.executed tx hx), h.settled⟩

/-- Fewer transactions wait. -/
theorem Funded.of_queue (h : Funded owes c) (hq : ∀ t ∈ c'.mempool, t ∈ c.mempool)
    (hr : c'.results = c.results) (hc : c'.contract.settlement = c.contract.settlement) :
    Funded owes c' := by
  have hex : ∀ tx, c'.Executed tx ↔ c.Executed tx := fun tx => by
    simp only [Chain.Executed, Chain.result, hr]
  refine ⟨fun tx ht => h.queued tx (hq _ ht), fun tx hx => h.executed tx ((hex tx).1 hx),
    fun id hid => ?_⟩
  obtain ⟨tx, hx, href⟩ := h.settled id (hc ▸ hid)
  exact ⟨tx, (hex tx).2 hx, href⟩

/-- A transaction that is applied next to those that were. -/
theorem executed_cons {tx tx' : Tx} {b : Bool} {results : List (Tx × Bool)}
    (hn : results.lookup tx' = none) :
    List.lookup tx ((tx', b) :: results) = some true ↔
      results.lookup tx = some true ∨ tx = tx' ∧ b = true := by
  rw [List.lookup_cons]
  by_cases htx : tx = tx'
  · subst htx
    simp [hn]
  · simp [htx, beq_eq_false_iff_ne.2 htx]

/-- A ledger takes the first transaction. -/
theorem Funded.closes {fails : Bool} (h : Funded owes c) (hc : c.Closes cfg fails c') :
    Funded owes c' := by
  cases hc with
  | idle => exact h
  | other hm => exact h.of_queue (fun t ht => hm ▸ List.mem_cons_of_mem _ ht) rfl rfl
  | again hm => exact h.of_queue (fun t ht => hm ▸ List.mem_cons_of_mem _ ht) rfl rfl
  | @settled tx rest contract hm hn _ hs =>
    obtain ⟨_, _, _, hset⟩ := settle_eq_ok hs
    have hqueued := h.queued tx (hm ▸ List.mem_cons_self)
    refine ⟨fun tx' ht => h.queued tx' (hm ▸ List.mem_cons_of_mem _ ht), fun tx' hx => ?_,
      fun id hid => ?_⟩
    · rcases (executed_cons hn).1 hx with hx | ⟨rfl, -⟩
      · exact h.executed tx' hx
      · exact hqueued
    · change id ∈ contract.settlement at hid
      rw [hset.settlement] at hid
      rcases Finset.mem_insert.1 hid with rfl | hid
      · exact ⟨tx, (executed_cons hn).2 (.inr ⟨rfl, rfl⟩), rfl⟩
      · obtain ⟨tx', hx, href⟩ := h.settled id hid
        exact ⟨tx', (executed_cons hn).2 (.inl hx), href⟩
  | @failed tx rest hm hn _ =>
    refine ⟨fun tx' ht => h.queued tx' (hm ▸ List.mem_cons_of_mem _ ht), fun tx' hx => ?_,
      fun id hid => ?_⟩
    · rcases (executed_cons hn).1 hx with hx | ⟨-, hb⟩
      · exact h.executed tx' hx
      · cases hb
    · obtain ⟨tx', hx, href⟩ := h.settled id hid
      exact ⟨tx', (executed_cons hn).2 (.inl hx), href⟩

theorem Funded.step (h : Funded owes c) {step : NetworkStep}
    (hstep : ∀ tx, step ≠ .submit (.settle tx)) : Funded owes (c.step cfg step) := by
  cases step with
  | close fails => exact h.closes (c.close_closes cfg fails)
  | drop n => exact h.of_queue (fun t ht => List.mem_of_mem_take ht) rfl rfl
  | accounts ledger trustline => exact h.of_queue (fun t ht => ht) rfl rfl
  | submit t =>
    cases t with
    | settle tx => exact absurd rfl (hstep tx)
    | other seq =>
      simp only [Chain.step, Chain.submit]
      split
      · exact h
      split
      · refine ⟨fun tx ht => h.queued tx ?_, h.executed, h.settled⟩
        simpa using ht
      · exact h

/-- The backend sends a transaction that is owed. -/
theorem Funded.accepted (h : Funded owes c) {tx : Tx} (htx : owes tx) :
    Funded owes (c.accepted tx) := by
  refine ⟨fun tx' ht => ?_, h.executed, h.settled⟩
  have hmem : .settle tx' ∈ c.mempool ∨ tx' = tx := by
    simp only [Chain.accepted] at ht
    split at ht
    · exact .inl ht
    · simpa using ht
  rcases hmem with hmem | rfl
  · exact h.queued tx' hmem
  · exact htx

section Amounts

open Pricing

variable {φ : ℕ → Known}

theorem Owes.grows {tx : Tx} (h : Owes w tx) (hg : Grows w w') : Owes w' tx := by
  obtain ⟨a, ha, htx⟩ := h
  exact ⟨a, costs_grows ha hg, htx⟩

/-- The calls know true amounts, and the network has no other. -/
structure Accounted (w : World) (φ : ℕ → Known) : Prop where
  sees : Sees "" (fun _ => True) w φ
  funded : Funded (Owes w) w.chain

theorem priced_any (h : ∀ p ∈ payments w.emitted, Costs w p.orderId p.amountUsd) :
    Priced "" (fun _ => True) w :=
  ⟨fun _ _ => trivial, fun _ _ _ _ => trivial, h⟩

theorem Accounted.reply (h : Accounted w φ) {r : Request} {c : Choice} {known' : Known}
    (hr : (protocol "" fun _ => True).reply (φ i) r (exec cfg r c w).1 known') :
    Accounted (exec cfg r c w).2 (Function.update φ i known') := by
  have hat : AtPrice "" (fun _ => True) r := by
    cases r with
    | orderCreate data => exact fun _ => trivial
    | _ => trivial
  have hg := (h.sees.priced.exec cfg hat c).2
  refine ⟨h.sees.reply hr, ?_⟩
  have hfunded := h.funded.mono fun tx htx => htx.grows hg
  rcases exec_chain cfg r c w with he | ⟨tx, rfl, he⟩
  · rwa [he]
  · obtain ⟨⟨b, hb, htx⟩, -⟩ := hr
    rw [he] at hfunded hg ⊢
    exact hfunded.accepted ⟨b, costs_grows (h.sees.known i _ hb) hg, htx⟩

theorem accounted_invariant (cfg : StellarConfig) :
    (protocol "" fun _ => True).Invariant (market cfg) (fun s a => Honest s (.act a))
      Accounted where
  reply h _ _ _ := ⟨answers_exec h.sees.priced _ _, fun _ hr hk => .update hk (h.reply hr)⟩
  event h hv := ⟨h.sees.event cfg hv, h.funded⟩
  ended h _ := ⟨h.sees.update (by simp [protocol]), h.funded⟩
  outside {s φ e} h he := by
    cases e with
    | backend e =>
      cases e with
      | network step =>
        refine ⟨h.sees.grows ⟨h.sees.priced.of_db rfl rfl rfl, .of_orders rfl⟩,
          h.funded.step fun tx htx => ?_⟩
        subst htx
        exact he
      | updateProduct id rows =>
        exact ⟨h.sees.grows ⟨h.sees.priced.of_db rfl rfl rfl, .of_orders rfl⟩, h.funded⟩
    | catalog pc r c =>
      have hw := h.sees.priced.catalog cfg (r := r) (c := c) fun _ _ _ _ _ => trivial
      obtain ⟨-, -, -, hchain⟩ := catalogExec_keeps cfg r c s.world
      refine ⟨h.sees.grows hw, ?_⟩
      show Funded _ (catalogExec cfg r c s.world).2.chain
      rw [hchain]
      exact h.funded.mono fun tx htx => htx.grows hw.2
  final_rest := trivial

end Amounts

/-! ## Every run -/

open Analytics

/-- Each order was settled by one transaction, and together they are over the amounts of the
orders, in base units. -/
structure Moved (w : World) (orders : List SoldOrder) (txs : List Tx) : Prop where
  refs : txs.map (·.orderRef) = orders.map (·.id)
  once : (txs.map (·.orderRef)).Nodup
  executed : ∀ tx ∈ txs, w.chain.Executed tx
  total : (txs.map (·.totalAmount.val)).sum = cents orders * 10 ^ 5

/-- An order that is settled has a transaction that was executed, over its amount. -/
theorem Backed.transaction (h : Backed w) {o : Order} (ho : w.db.orders.lookup id = some o)
    (hs : o.status = .settled) : ∃ tx, w.chain.Executed tx ∧ tx.orderRef = id ∧
      tx.totalAmount.val = o.amountUsd.cents * 10 ^ 5 := by
  obtain ⟨tx, hx, rfl⟩ := h.funded.settled id (h.standing id (by rw [statusOf, ho, ← hs]; rfl))
  obtain ⟨a, ⟨o', ho', rfl⟩, htotal⟩ := h.funded.executed tx hx
  obtain rfl := Option.some.inj (ho.symm.trans ho')
  exact ⟨tx, hx, rfl, by rw [htotal, Usd.toBase_eq]; rfl⟩

theorem Backed.moved (h : Backed w) : ∀ {orders : List SoldOrder}, (orders.map (·.id)).Nodup →
    (∀ o ∈ orders, w.db.orders.lookup o.id = some o.order ∧ o.order.status = .settled) →
      ∃ txs, Moved w orders txs
  | [], _, _ => ⟨[], rfl, List.nodup_nil, fun _ h => absurd h List.not_mem_nil, rfl⟩
  | o :: orders, hids, ho => by
    obtain ⟨ho', hs⟩ := ho o List.mem_cons_self
    obtain ⟨tx, hx, href, htotal⟩ := h.transaction ho' hs
    obtain ⟨txs, hm⟩ := h.moved (List.nodup_cons.1 hids).2
      fun o' h' => ho o' (List.mem_cons_of_mem o h')
    have horders : (tx :: txs).map (·.orderRef) = (o :: orders).map (·.id) := by
      rw [List.map_cons, List.map_cons, hm.refs, href]
    refine ⟨tx :: txs, horders, horders ▸ hids, ?_, ?_⟩
    · rintro tx' (- | ⟨-, htx⟩)
      · exact hx
      · exact hm.executed tx' htx
    · rw [List.map_cons, List.sum_cons, htotal, hm.total, ← add_mul]
      rfl

/-- What holds of the state of a run. -/
structure Reached (s : Config backend World Unit) : Prop where
  single : ∀ id, ∃ φ, s.Tracks (OrderProtocol.protocol (Completed.Own id) id) φ ∧
    Inv id s.world φ
  accounted : ∃ φ, s.Tracks (Pricing.protocol "" fun _ => True) φ ∧ Accounted s.world φ

theorem Reached.backed {s : Config backend World Unit} (h : Reached s) : Backed s.world := by
  obtain ⟨φ, -, hφ⟩ := h.accounted
  refine ⟨fun id => ?_, fun id => ?_, hφ.funded, hφ.sees.priced.emitted⟩
  all_goals obtain ⟨ψ, -, hψ⟩ := h.single id
  · exact hψ.sound
  · exact hψ.standing

theorem Backed.reached (h : Backed w) : Reached ⟨[], w⟩ where
  single id := ⟨fun _ => .idle, ⟨fun hp => by simp at hp, fun _ => rfl⟩, h.sound id,
    h.standing id, fun _ ht => ht.elim⟩
  accounted := ⟨fun _ => [], ⟨fun hp => by simp at hp, fun _ => rfl⟩,
    ⟨priced_any h.emitted, by simp⟩, h.funded⟩

theorem Reached.turn {s : Config backend World Unit} (h : Reached s)
    {t : Turn Choice MarketStep ServiceCall} (ht : Honest s t) :
    Reached (s.turn (market cfg) (ServiceCall.method cfg) t) := by
  constructor
  · intro id
    obtain ⟨φ, hs, hI⟩ := h.single id
    refine (invariant cfg id).turns (fun s φ i k hI _ hrest => ?_)
      (fun s φ hI _ => ⟨hI.sound, hI.standing, fun _ ht => ht.elim⟩) [t] hs hI ⟨ht, trivial⟩
    obtain ⟨hsus, hconf⟩ := OrderProtocol.suspended_conforms (Completed.owns id) cfg k
    refine ⟨.idle, hsus, hconf, ?_⟩
    rwa [← show φ i = .idle from hrest, Function.update_eq_self]
  · obtain ⟨φ, hs, hI⟩ := h.accounted
    refine (accounted_invariant cfg).turns (fun s φ i k hI hk _ => ?_)
      (fun s φ hI _ => ⟨⟨hI.sees.priced, by simp [Pricing.protocol]⟩, hI.funded⟩) [t] hs hI
      ⟨ht, trivial⟩
    refine ⟨Pricing.initially k, OrderProtocol.suspended_method cfg k,
      Pricing.conforms_method cfg k, hI.sees.update ?_, hI.funded⟩
    cases k with
    | paymentReceived payload =>
      intro f hf
      obtain rfl := List.mem_singleton.1 hf
      exact hI.sees.priced.emitted payload hk
    | _ => simp [Pricing.initially]

theorem Reached.turns {s : Config backend World Unit} (h : Reached s)
    {ts : List (Turn Choice MarketStep ServiceCall)}
    (hrun : Config.During (market cfg) (ServiceCall.method cfg) Honest ts s) :
    Reached (s.turns (market cfg) (ServiceCall.method cfg) ts) :=
  Config.inv_turns (fun _ _ h ht => h.turn ht) ts s h hrun

/-- What was executed stays executed. -/
theorem executed_turns (cfg : StellarConfig) (ts : List (Turn Choice MarketStep ServiceCall))
    (s : Config backend World Unit) {tx : Tx} (h : s.world.chain.Executed tx) :
    (s.turns (market cfg) (ServiceCall.method cfg) ts).world.chain.Executed tx := by
  refine Config.inv_turns (P := fun _ _ => True) (I := fun s => s.world.chain.Executed tx)
    (fun s t h _ => ?_) ts s h (Config.during_of_forall (fun _ _ => trivial) ts s)
  refine Config.turn_world (M := market cfg)
    (R := fun w w' => w.chain.Executed tx → w'.chain.Executed tx) (fun _ h => h)
    (fun h h' hx => h' (h hx)) (fun r c w hx => ?_) (fun _ _ h => h) (fun e w hx => ?_) s t h
  · show (exec cfg r c w).2.chain.Executed tx
    rcases exec_chain cfg r c w with he | ⟨tx', -, he⟩
    · rwa [he]
    · rwa [he]
  · cases e with
    | backend e => exact (env_keeps cfg e w).2.2.2.result hx
    | catalog call r c =>
      show (catalogExec cfg r c w).2.chain.Executed tx
      rwa [(catalogExec_keeps cfg r c w).2.2.2]

/-- The database at some point of a run. -/
def Read (cfg : StellarConfig) (w : World) (ts : List (Turn Choice MarketStep ServiceCall))
    (db : Database) : Prop :=
  ∃ before after, ts = before ++ after ∧
    (Config.turns (market cfg) (ServiceCall.method cfg) before ⟨[], w⟩).world.db = db

/-- Settled orders that a query returned have their transactions at the end of the run. -/
theorem moved_of_read {ts : List (Turn Choice MarketStep ServiceCall)} (hw : Backed w)
    (hrun : Config.During (market cfg) (ServiceCall.method cfg) Honest ts ⟨[], w⟩)
    {db : Database} (hdb : Read cfg w ts db) {creatorId : String} {orders : List SoldOrder}
    (ho : orders.Sublist (ordersOf db creatorId [.settled])) :
    ∃ txs, Moved (Config.turns (market cfg) (ServiceCall.method cfg) ts ⟨[], w⟩).world
      orders txs := by
  obtain ⟨before, after, rfl, rfl⟩ := hdb
  have hbacked := (hw.reached.turns (Config.during_append.1 hrun).1).backed
  obtain ⟨txs, hm⟩ := hbacked.moved
    ((nodup_ordersOf _ creatorId [.settled]).sublist (ho.map (·.id))) fun o h => by
      obtain ⟨⟨ho, -⟩, hs, -⟩ := mem_ordersOf.1 (ho.subset h)
      exact ⟨ho, List.mem_singleton.1 hs⟩
  refine ⟨txs, hm.refs, hm.once, fun tx htx => ?_, hm.total⟩
  rw [Config.turns, List.foldl_append]
  exact executed_turns cfg after _ (hm.executed tx htx)

end Revenue

open Analytics Revenue

/-- The next requests of one call. -/
def saleRuns (i n : ℕ) : List (Turn Choice MarketStep ServiceCall) :=
  List.replicate n (.act (.run i {}))

/-- An order is paid and settled. -/
def demoPaid : List (Turn Choice MarketStep ServiceCall) :=
  .call (.payment (.webhook "order" "ref")) :: (saleRuns 0 4 ++
    .call (.paymentReceived (demoPayload "order")) :: (saleRuns 1 10 ++
      .act (.env (.backend (.network (.close false)))) :: saleRuns 1 3))

/-- An order that waits for its payment. -/
def demoPaidWorld : World :=
  demoWorld [demoCollaborator "A" 10000] [("order", demoOrder .paymentPending)]

theorem backed_demoPaidWorld : Backed demoPaidWorld := by
  have horder : ∀ id o, demoPaidWorld.db.orders.lookup id = some o →
      o.txHash = none ∧ o.status = .paymentPending := fun id o ho => by
    have hmem : (⟨id, o⟩ : Sigma fun _ : String => Order) ∈
        [⟨"order", demoOrder .paymentPending⟩] := AList.mem_lookup_iff.1 ho
    cases List.mem_singleton.1 hmem
    exact ⟨rfl, rfl⟩
  refine ⟨fun id => ⟨⟨fun o ho hash hh => ?_, fun s hs => ?_⟩, fun tx hr => ?_, fun h => ?_⟩,
    fun id hs => ?_, ⟨fun tx h => absurd h List.not_mem_nil, fun tx hx => ?_, fun id h => ?_⟩,
    fun p hp => absurd hp List.not_mem_nil⟩
  · rw [(horder id o ho).1] at hh
    cases hh
  · cases hs
  · cases hr
  · cases h
  · obtain ⟨o, ho, hst⟩ := Option.map_eq_some_iff.1 hs
    rw [(horder id o ho).2] at hst
    cases hst
  · cases hx
  · exact absurd h (Finset.notMem_empty id)

theorem honest_saleRuns (i n : ℕ) (s : Config backend World Unit) :
    Config.During (market demoConfig) (ServiceCall.method demoConfig) Honest (saleRuns i n) s := by
  refine Config.during_replicate (fun s r _ => ?_) n s
  cases r with
  | simulateIsSettled orderRef =>
    intro _ _ h
    cases h
  | _ => trivial

/-- The orders are counted after the settlement, and the rest is read before. -/
def demoSnapshots : Snapshots where
  settledStats := (Config.turns (market demoConfig) (ServiceCall.method demoConfig) demoPaid
    ⟨[], demoPaidWorld⟩).world.db
  pendingPayout := demoPaidWorld.db
  activeProducts := demoPaidWorld.db
  topProducts := demoPaidWorld.db
  arrangement := 0
  revenueSeries := []

end Kreav
