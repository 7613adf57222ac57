import Kreav.Lib.Restarts
import Kreav.OrderProtocol

/-!
# One `settlement.completed` for an order

Any calls of the services, interleaved in any way, with any faults and any crashes. The event
of an order follows the creation of its row of `settlements`, which succeeds once, and a
call creates the row only when it knows that the contract has settled the order. So the
event is emitted at most once, for an order that is settled on chain and recorded
(`completed_once`). Besides that a positive answer of the RPC server is true (`Truthful`),
nothing is asked of a run.

`Completed.Inv` is the invariant : the one call that may emit the event has created the row
(`Phase.Token`), and every call that takes the order for settled is right (`Phase.Knows`).
-/

open Async Prog

namespace Kreav

/-- The `settlement.completed` events, oldest first. -/
def completions (events : List AppEvent) : List SettlementCompletedPayload :=
  events.filterMap fun
    | .settlementCompleted payload => some payload
    | _ => none

/-- A state that the backend may be started in : what is recorded and emitted is settled on
chain, and the hashes of an order are its own. -/
structure Consistent (w : World) : Prop where
  orders : ∀ id o tx, w.db.orders.lookup id = some o → o.txHash = some (.onChain tx) →
    tx.orderRef = id
  settlements : ∀ id s tx, w.db.settlements.lookup id = some s → s.txHash = .onChain tx →
    tx.orderRef = id
  settled : ∀ id, (w.db.settlements.lookup id).isSome = true →
    isSettled id w.chain.contract = true
  results : ∀ tx, w.chain.result tx = some true → isSettled tx.orderRef w.chain.contract = true
  emitted : ∀ p ∈ completions w.emitted, (w.db.settlements.lookup p.orderId).isSome = true
  once : ((completions w.emitted).map (·.orderId)).Nodup

/-- A simulation that has to restore an entry reads the marker of a settled order. The other
positive answers of the RPC server are true by what the network is. -/
def Truthful (w : World) : Request → Choice → Prop
  | .simulateIsSettled orderRef, c => c.fault = .none → c.simulationFails = false →
    c.restore = true → isSettled orderRef w.chain.contract = true
  | _, _ => True

instance (w : World) : (r : Request) → (c : Choice) → Decidable (Truthful w r c)
  | .simulateIsSettled _, _ => inferInstanceAs (Decidable (_ → _ → _ → _))
  | .productFindUnique _, _ | .userFindUnique _, _ | .orderFindFirst _, _
  | .orderFindUnique _, _ | .orderCreate _, _ | .orderUpdate _ _, _ | .orderFindMany _, _
  | .orderFindWaiting _, _ | .walletFindFirst _, _ | .walletFindAddress _, _
  | .walletCreate _ _ _, _ | .collaboratorFindMany _, _ | .settlementFindUnique _, _
  | .settlementCreate _, _ | .getUsdcBalance _, _ | .getAccount, _ | .simulateSettle _, _
  | .sendTransaction _, _ | .getTransaction _ _, _ => isTrue trivial

namespace Completed

open OrderProtocol

/-- The condition on the moves of a run. -/
def Meets (s : Config backend World Unit) : Move Choice Env ServiceCall → Prop
  | .act a => s.Meets Truthful (fun _ _ => True) a
  | .restart _ => True

instance (s : Config backend World Unit) : (m : Move Choice Env ServiceCall) →
    Decidable (Meets s m)
  | .act a => inferInstanceAs (Decidable (s.Meets Truthful (fun _ _ => True) a))
  | .restart _ => isTrue trivial

/-- A hash that is the order's, when it is one of the network. -/
def Own (id : String) (h : TxHash) : Prop :=
  ∀ tx, h = .onChain tx → tx.orderRef = id

theorem owns (id : String) : Owns (Own id) id where
  placeholder _ _ h := nomatch h
  onChain _ h _ he := by
    cases he
    exact h

/-- A call in the phase knows that the order is settled. -/
def Knows : Phase → Prop
  | .confirmed => True
  | .bare => True
  | .looked _ => True
  | _ => False

/-- A call in the phase has created the row and the event is still before it. -/
def Token : Phase → Prop
  | .created => True
  | .recreated => True
  | .paid => True
  | _ => False

/-- The events of the order. -/
def eventsOf (id : String) (w : World) : List SettlementCompletedPayload :=
  (completions w.emitted).filter (·.orderId = id)

/-- What no request but the creation of the row changes. -/
structure Sound (id : String) (w : World) : Prop where
  owned : Owned (Own id) id w
  results : ∀ tx, w.chain.result tx = some true → tx.orderRef = id →
    id ∈ w.chain.contract.settlement
  row : (w.db.settlements.lookup id).isSome = true → id ∈ w.chain.contract.settlement

/-- What holds of an order in every state : what is known of it is true, one method at most may emit
its event, and the event was emitted once at most, after the row was stored. -/
structure Inv (id : String) (w : World) (φ : ℕ → Phase) : Prop where
  sound : Sound id w
  knows : ∀ i, Knows (φ i) → id ∈ w.chain.contract.settlement
  token : ∀ i, Token (φ i) → (w.db.settlements.lookup id).isSome = true ∧ eventsOf id w = []
  single : ∀ i j, Token (φ i) → Token (φ j) → i = j
  emitted : eventsOf id w ≠ [] → (w.db.settlements.lookup id).isSome = true
  once : (eventsOf id w).length ≤ 1

variable {cfg : StellarConfig} {id : String} {w w' : World} {φ : ℕ → Phase} {i : ℕ}

/-! ## The steps -/

theorem Sound.log (h : Sound id w) (cfg : StellarConfig) (v : AppEvent) :
    Sound id ((machine cfg).log v w) :=
  ⟨⟨h.owned.order, h.owned.settlement⟩, h.results, h.row⟩

/-- A step that leaves the row and the events of the order as they are. -/
structure Keeps (id : String) (w w' : World) : Prop where
  sound : Sound id w'
  row : w'.db.settlements.lookup id = w.db.settlements.lookup id
  emitted : w'.emitted = w.emitted
  settled : w.chain.contract.settlement ⊆ w'.chain.contract.settlement

theorem Inv.keeps (h : Inv id w φ) (hw : Keeps id w w') {φ' : Phase}
    (hk : Knows φ' → Knows (φ i) ∨ id ∈ w'.chain.contract.settlement)
    (ht : Token φ' → Token (φ i)) : Inv id w' (Function.update φ i φ') := by
  have hevents : eventsOf id w' = eventsOf id w := by rw [eventsOf, hw.emitted, eventsOf]
  have htoken : ∀ j, Token (Function.update φ i φ' j) → Token (φ j) := Phases.of_update ht
  refine ⟨hw.sound, ?_, fun j hj => ?_, fun j k hj hk => ?_, ?_, ?_⟩
  · refine (Function.forall_update_iff φ fun _ ψ => Knows ψ → _).2
      ⟨fun hφ' => ?_, fun j _ hj => hw.settled (h.knows j hj)⟩
    exact (hk hφ').elim (fun hi => hw.settled (h.knows i hi)) fun hm => hm
  · rw [hw.row, hevents]
    exact h.token j (htoken j hj)
  · exact h.single j k (htoken j hj) (htoken k hk)
  · rw [hw.row, hevents]
    exact h.emitted
  · rw [hevents]
    exact h.once

theorem Sound.unmoved (h : Sound id w) (hw : Unmoved id w w') : Keeps id w w' where
  sound := by
    refine ⟨⟨?_, ?_⟩, fun tx hr hid => ?_, fun hrow => ?_⟩
    · rcases hw.order with he | ⟨-, o, ho, -, hnone⟩
      · rw [he]
        exact h.owned.order
      · rintro o' ho' hash hhash
        obtain rfl : o = o' := Option.some.inj (ho.symm.trans ho')
        rw [hnone] at hhash
        cases hhash
    · rw [hw.settlement]
      exact h.owned.settlement
    · rw [Chain.result, hw.results] at hr
      rw [hw.contract]
      exact h.results tx hr hid
    · rw [hw.settlement] at hrow
      rw [hw.contract]
      exact h.row hrow
  row := hw.settlement
  emitted := hw.emitted
  settled := by rw [hw.contract]

theorem Sound.update (h : Sound id w) {data : OrderUpdate}
    (hh : ∀ hash, data.txHash = some (some hash) → Own id hash) (c : Choice) :
    Keeps id w (exec cfg (.orderUpdate id data) c w).2 := by
  have hset : ∀ o, w.db.orders.lookup id = some o →
      Keeps id w (w.setOrder id (data.applyTo o)) := by
    intro o ho
    refine ⟨⟨⟨?_, h.owned.settlement⟩, h.results, h.row⟩, rfl, rfl, Finset.Subset.refl _⟩
    rintro o' ho' hash hhash
    obtain rfl : data.applyTo o = o' := by simpa using ho'
    simp only [OrderUpdate.applyTo] at hhash
    cases hd : data.txHash with
    | none =>
      rw [hd] at hhash
      exact h.owned.order o ho hash hhash
    | some t =>
      rw [hd] at hhash
      obtain rfl : t = some hash := hhash
      exact hh hash hd
  rcases exec_orderUpdate cfg id data c w with ⟨o, -, ho, -, hx⟩ | ⟨o, -, ho, -, hx⟩ |
    ⟨e, hx, -⟩
  · rw [hx]
    exact hset o ho
  · rw [hx]
    exact hset o ho
  · rw [hx]
    exact ⟨h, rfl, rfl, Finset.Subset.refl _⟩

/-- The creation of the row, by a call that knows. -/
theorem Sound.addSettlement (h : Sound id w) {data : SettlementCreate} (hid : data.orderId = id)
    (hh : Own id data.txHash) (hm : id ∈ w.chain.contract.settlement) :
    Sound id (w.addSettlement data) := by
  refine ⟨⟨h.owned.order, ?_⟩, h.results, fun _ => hm⟩
  subst hid
  intro s hs
  obtain rfl : _ = s := Option.some.inj ((AList.lookup_insert _).symm.trans hs)
  exact hh

theorem lookup_addSettlement {data : SettlementCreate} (hid : data.orderId = id) :
    ((w.addSettlement data).db.settlements.lookup id).isSome = true := by
  subst hid
  simp [World.addSettlement]

/-- A row that is new : no call had created it and no event was emitted. -/
theorem Inv.create (h : Inv id w φ) {data : SettlementCreate} (hid : data.orderId = id)
    (hh : Own id data.txHash) (hk : Knows (φ i)) (hnone : w.db.settlements.lookup id = none)
    {φ' : Phase} (hφ' : ¬ Knows φ') : Inv id (w.addSettlement data) (Function.update φ i φ') := by
  have hrow := lookup_addSettlement (w := w) hid
  have hno : ∀ j, ¬ Token (φ j) := fun j hj => by
    have := (h.token j hj).1
    rw [hnone] at this
    cases this
  have hevents : eventsOf id w = [] := by
    by_contra hne
    have := h.emitted hne
    rw [hnone] at this
    cases this
  have hi : ∀ j, Token (Function.update φ i φ' j) → j = i :=
    Phases.eq_of_update fun j _ => hno j
  exact ⟨h.sound.addSettlement hid hh (h.knows i hk),
    (Function.forall_update_iff φ fun _ ψ => Knows ψ → _).2
      ⟨fun hk => absurd hk hφ', fun j _ => h.knows j⟩, fun j _ => ⟨hrow, hevents⟩,
    fun j k hj hk => (hi j hj).trans (hi k hk).symm, fun _ => hrow, h.once⟩

/-- The event of the order, emitted by the call that created the row. -/
theorem Inv.completed (h : Inv id w φ) {p : SettlementCompletedPayload} (hid : p.orderId = id)
    (hi : φ i = .paid) : Inv id ((machine cfg).log (.settlementCompleted p) w)
      (Function.update φ i .idle) := by
  have htoken : Token (φ i) := by
    rw [hi]
    trivial
  obtain ⟨hrow, hnone⟩ := h.token i htoken
  have hno : ∀ j, ¬ Token (Function.update φ i .idle j) :=
    (Function.forall_update_iff φ fun _ ψ => ¬ Token ψ).2
      ⟨not_false, fun j hij hj => hij (h.single j i hj htoken)⟩
  have hevents : eventsOf id ((machine cfg).log (.settlementCompleted p) w) = [p] := by
    simp only [eventsOf, machine, completions, List.filterMap_append, List.filter_append]
    rw [eventsOf, completions] at hnone
    rw [hnone]
    simp [hid]
  exact ⟨h.sound.log cfg _, fun j hj => h.knows j (Phases.of_update False.elim j hj),
    fun j hj => absurd hj (hno j), fun j _ hj => absurd hj (hno j), fun _ => hrow, by
      rw [hevents, List.length_singleton]⟩

theorem Inv.log (h : Inv id w φ) {v : AppEvent} {φ' : Phase} (hv : Emits id (φ i) v φ') :
    Inv id ((machine cfg).log v w) (Function.update φ i φ') := by
  generalize hi : φ i = ψ at hv
  cases hv with
  | completed hid => exact h.completed hid hi
  | other hne =>
    subst hi
    have hevents : eventsOf id ((machine cfg).log v w) = eventsOf id w := by
      simp only [eventsOf, machine, completions, List.filterMap_append, List.filter_append]
      cases v with
      | settlementCompleted p => simp [hne p rfl]
      | _ => simp
    rw [Function.update_eq_self]
    refine ⟨h.sound.log cfg v, h.knows, fun j hj => ?_, h.single, ?_, ?_⟩
    · rw [hevents]
      exact h.token j hj
    · rw [hevents]
      exact h.emitted
    · rw [hevents]
      exact h.once

/-- A transaction of the order that was applied with success settled it. -/
theorem results_step (step : NetworkStep) {c : Chain}
    (h : ∀ tx, c.result tx = some true → tx.orderRef = id → id ∈ c.contract.settlement) :
    ∀ tx, (c.step cfg step).result tx = some true → tx.orderRef = id →
      id ∈ (c.step cfg step).contract.settlement := by
  cases step with
  | drop n => exact h
  | submit t =>
    intro tx hr hid
    have hr' : c.result tx = some true := by
      rw [← hr]
      simp only [Chain.step, Chain.submit]
      split
      · rfl
      · split <;> rfl
    exact (c.submit_extends t).settled (h tx hr' hid)
  | accounts ledger trustline => exact h
  | close fails =>
    have hc := c.close_closes cfg fails
    intro tx hr hid
    change (c.close cfg fails).result tx = some true at hr
    show id ∈ (c.close cfg fails).contract.settlement
    generalize c.close cfg fails = c' at hc hr
    cases hc with
    | idle hm => exact h tx hr hid
    | other hm => exact h tx hr hid
    | again hm hsome => exact h tx hr hid
    | @settled tx' rest contract hm hnone hf hs =>
      obtain ⟨_, _, _, hset⟩ := settle_eq_ok hs
      show id ∈ contract.settlement
      rw [hset.settlement]
      by_cases htx : tx = tx'
      · subst htx
        rw [hid]
        exact Finset.mem_insert_self _ _
      · refine Finset.mem_insert_of_mem (h tx ?_ hid)
        rw [Chain.result, List.lookup_cons, beq_eq_false_iff_ne.2 htx] at hr
        exact hr
    | @failed tx' rest hm hnone hs =>
      by_cases htx : tx = tx'
      · subst htx
        simp [Chain.result] at hr
      · refine h tx ?_ hid
        rw [Chain.result, List.lookup_cons, beq_eq_false_iff_ne.2 htx] at hr
        exact hr

theorem Sound.env (h : Sound id w) (e : Env) : Keeps id w ((machine cfg).env e w) := by
  obtain ⟨horders, hsettlements, hemitted, hchain⟩ := env_keeps cfg e w
  refine ⟨⟨⟨?_, ?_⟩, ?_, fun hrow => ?_⟩, ?_, hemitted, hchain.settled⟩
  · rw [horders]
    exact h.owned.order
  · rw [hsettlements]
    exact h.owned.settlement
  · cases e with
    | network step => exact results_step step h.results
    | updateProduct productId rows => exact h.results
  · rw [hsettlements] at hrow
    exact hchain.settled (h.row hrow)
  · rw [hsettlements]

/-- A simulation whose answer is taken for a settlement, when it is true. -/
theorem isSettled_of_simulation {c : Choice} {settled : Bool} {sim : IsSettledSimulation}
    (he : (if c.simulationFails then IsSettledSimulation.error else if c.restore then .restore
      else .value settled) = sim) (hsim : sim = .restore ∨ sim = .value true)
    (htrue : c.simulationFails = false → c.restore = true → settled = true) :
    settled = true := by
  subst he
  cases hf : c.simulationFails with
  | true => simp [hf] at hsim
  | false =>
    cases hr : c.restore with
    | true => exact htrue hf hr
    | false => simpa [hf, hr] using hsim

theorem invariant : (protocol (Own id) id).Invariant (machine cfg) (fun s a => Meets s (.act a))
    (Inv id) where
  final_rest := Or.inl rfl
  event h hv := h.log hv
  ended {w φ i} h hfinal := by
    refine h.keeps ⟨h.sound, rfl, rfl, Finset.Subset.refl _⟩ (fun hk => hk.elim) fun ht => ht.elim
  outside {s φ e} h _ := by
    rw [← Function.update_eq_self 0 φ]
    exact h.keeps (h.sound.env e) Or.inl fun ht => ht
  reply {s φ i r k c} h hs hget hP := by
    have hw : s.Waits i r := ⟨_, hget, rfl⟩
    refine ⟨answers_exec cfg h.sound.owned r c, fun φ' hφ' hk => .update hk ?_⟩
    have htrue : Truthful s.world r c := hP r hw
    generalize hi : φ i = ψ at hφ'
    generalize hx : ((machine cfg).exec r c s.world).1 = x at hφ'
    -- a request that does not write the order
    have hread : ¬ Writes id r → (Knows φ' → Knows ψ ∨ id ∈ s.world.chain.contract.settlement) →
        (Token φ' → Token ψ) →
          Inv id ((machine cfg).exec r c s.world).2 (Function.update φ i φ') := by
      intro hr hk ht
      have hkeeps := h.sound.unmoved (unmoved_exec cfg hr c s.world)
      refine h.keeps hkeeps (fun hφ' => ?_) (hi ▸ ht)
      rw [hi]
      exact (hk hφ').imp_right fun hm => hkeeps.settled hm
    -- an update of the order
    have hupdate : ∀ {data : OrderUpdate}, (∀ hash, data.txHash = some (some hash) →
        Own id hash) → (Knows φ' → Knows ψ) → (Token φ' → Token ψ) →
          Inv id ((machine cfg).exec (.orderUpdate id data) c s.world).2
            (Function.update φ i φ') := fun hh hk ht =>
      h.keeps (h.sound.update hh c) (fun hφ' => Or.inl (hi ▸ hk hφ')) (hi ▸ ht)
    have hstray : ∀ {ε}, Stray ε → ¬ Knows ε ∧ ¬ Token ε := by
      rintro ε (rfl | rfl | rfl) <;> exact ⟨not_false, not_false⟩
    have hone : ∀ {txHash : TxHash}, Own id txHash →
        ∀ hash, some (some txHash) = some (some hash) → Own id hash := by
      rintro txHash hh hash he
      obtain rfl : txHash = hash := by simpa using he
      exact hh
    cases hφ' with
    | stay hr => exact hread hr Or.inl fun ht => ht
    | drop hr _ hε =>
      exact hread hr (fun hk => absurd hk (hstray hε).1) fun ht => absurd ht (hstray hε).2
    | claim _ => exact hupdate (by simp) (fun hk => hk) fun ht => ht
    | unread => exact hread not_false (fun hk => hk.elim) fun ht => ht
    | enter => exact hupdate (by simp) (fun hk => hk) fun ht => ht
    | refused => exact hupdate (by simp) (fun hk => hk) fun ht => ht
    | found _ => exact hread not_false (fun hk => hk.elim) fun ht => ht
    | @marker sim hsim =>
      refine hread not_false (fun _ => Or.inr ?_) fun ht => ht
      obtain ⟨hf, he⟩ := exec_ok cfg hx
      exact of_decide_eq_true (isSettled_of_simulation (Except.ok.inj he) hsim (htrue hf))
    | @applied txHash n hown =>
      refine hread not_false (fun _ => Or.inr ?_) fun ht => ht
      obtain ⟨-, he⟩ := exec_ok cfg hx
      cases txHash with
      | placeholder text => cases he
      | onChain tx => exact h.sound.results tx ((Chain.status_ok he).1 rfl) (hown tx rfl)
    | row => exact hread not_false (fun hk => hk.elim) fun ht => ht
    | failed _ hh => exact hupdate hh (fun hk => hk.elim) fun ht => ht.elim
    | unfailed _ hε hh =>
      exact hupdate hh (fun hk => absurd hk (hstray hε).1) fun ht => absurd ht (hstray hε).2
    | rollback => exact hupdate (by simp) (fun hk => hk) fun ht => ht
    | settled hh => exact hupdate hh (fun hk => hk.elim) fun ht => ht.elim
    | unsettled hε hh =>
      exact hupdate hh (fun hk => absurd hk (hstray hε).1) fun ht => absurd ht (hstray hε).2
    | @create _ _ ε data hrec hid hh =>
      rcases exec_settlementCreate cfg data c s.world with ⟨-, hn, hx'⟩ | ⟨-, -, hx'⟩ |
        ⟨e, hx', -⟩
      · simp only [machine, hx']
        rw [hid] at hn
        refine h.create hid hh ?_ hn ?_
        · rw [hi]
          cases hrec <;> trivial
        · cases hrec <;> exact not_false
      · simp [machine, hx'] at hx
      · simp [machine, hx'] at hx
    | @uncreated _ _ _ data e hrec hid hh =>
      have hε : Stray φ' := by
        cases hrec with
        | first hε => exact hε
        | again => exact Or.inr (Or.inr rfl)
      rcases exec_settlementCreate cfg data c s.world with ⟨-, -, hx'⟩ | ⟨-, hn, hx'⟩ |
        ⟨e, hx', -⟩
      · simp [machine, hx'] at hx
      · simp only [machine, hx']
        rw [hid] at hn
        refine h.create hid hh ?_ hn (hstray hε).1
        rw [hi]
        cases hrec <;> trivial
      · simp only [machine, hx']
        exact h.keeps ⟨h.sound, rfl, rfl, Finset.Subset.refl _⟩
          (fun hk => absurd hk (hstray hε).1) fun ht => absurd ht (hstray hε).2
    | pay hrec hh =>
      refine hupdate (hone hh) (fun hk => hk.elim) fun _ => ?_
      cases hrec <;> trivial
    | unpaid hrec hh =>
      have hε : Stray φ' := by
        cases hrec with
        | first hε => exact hε
        | again => exact Or.inr (Or.inr rfl)
      exact hupdate (hone hh) (fun hk => absurd hk (hstray hε).1)
        fun ht => absurd ht (hstray hε).2
    | early => exact hupdate (by simp) (fun hk => hk) fun ht => ht
    | unsure => exact hupdate (by simp) (fun hk => hk.elim) fun ht => ht
    | look => exact hread not_false Or.inl fun ht => ht
    | gone => exact hread not_false (fun hk => hk.elim) fun ht => ht
    | blind => exact hread not_false (fun hk => hk.elim) fun ht => ht
    | empty => exact hread not_false (fun hk => hk.elim) fun ht => ht
    | unlisted => exact hread not_false (fun hk => hk.elim) fun ht => ht

end Completed

/-- Calls of the services in any number, interleaved in any way, with any faults and crashes,
among true answers of the RPC server. `settlement.completed` is emitted at most once for an
order, whose settle was executed on chain and whose row of `settlements` is committed. -/
theorem completed_once (cfg : StellarConfig) (calls : List ServiceCall) (w : World)
    (ms : List (Move Choice Env ServiceCall)) (hw : Consistent w)
    (hrun : Config.Through (machine cfg) (·.method cfg) Completed.Meets ms
      ⟨calls.map (·.method cfg), w⟩) :
    ∀ w', w' = (Config.moves (machine cfg) (·.method cfg) ms
        ⟨calls.map (·.method cfg), w⟩).world →
      ((completions w'.emitted).map (·.orderId)).Nodup ∧
        ∀ p ∈ completions w'.emitted, isSettled p.orderId w'.chain.contract = true ∧
          (w'.db.settlements.lookup p.orderId).isSome = true := by
  rintro w' rfl
  have hend : ∀ id, ∃ ψ, Completed.Inv id (Config.moves (machine cfg) (·.method cfg) ms
      ⟨calls.map (·.method cfg), w⟩).world ψ := by
    intro id
    have hinv : Completed.Inv id w fun _ => .idle := by
      refine ⟨⟨⟨?_, ?_⟩, ?_, ?_⟩, fun _ h => h.elim, fun _ h => h.elim, fun _ _ h => h.elim, ?_, ?_⟩
      · rintro o ho _ hhash tx rfl
        exact hw.orders id o tx ho hhash
      · exact fun s hs tx htx => hw.settlements id s tx hs htx
      · rintro tx hr rfl
        exact of_decide_eq_true (hw.results tx hr)
      · exact fun hrow => of_decide_eq_true (hw.settled id hrow)
      · intro hne
        obtain ⟨p, hp⟩ := List.exists_mem_of_ne_nil _ hne
        obtain ⟨hmem, hid⟩ := List.mem_filter.1 hp
        obtain rfl : p.orderId = id := of_decide_eq_true hid
        exact hw.emitted p hmem
      · have hcount := List.nodup_iff_count_le_one.1 hw.once id
        rwa [List.count_eq_countP, List.countP_map, List.countP_eq_length_filter] at hcount
    obtain ⟨ψ, -, hψ⟩ := Completed.invariant.moves
      (OrderProtocol.suspended_conforms (Completed.owns id) cfg)
      (fun s φ _ h _ => ⟨h.sound, fun _ h => h.elim, fun _ h => h.elim, fun _ _ h => h.elim,
        h.emitted, h.once⟩) ms
      (Config.tracks_map (OrderProtocol.suspended_conforms (Completed.owns id) cfg) _ _) hinv hrun
    exact ⟨ψ, hψ⟩
  refine ⟨List.nodup_iff_count_le_one.2 fun id => ?_, fun p hp => ?_⟩
  · obtain ⟨ψ, hψ⟩ := hend id
    rw [List.count_eq_countP, List.countP_map, List.countP_eq_length_filter]
    exact hψ.once
  · obtain ⟨ψ, hψ⟩ := hend p.orderId
    have hrow := hψ.emitted (List.ne_nil_of_mem (List.mem_filter.2 ⟨hp, by simp⟩))
    exact ⟨decide_eq_true (hψ.sound.row hrow), hrow⟩

/-- An order without a hash and nothing on chain. -/
theorem consistent_demoWorld (collaborators : List Collaborator) (status : OrderStatus) :
    Consistent (demoWorld collaborators [("order", demoOrder status)]) where
  orders id o tx hl hh := by
    have hmem : (⟨id, o⟩ : Sigma fun _ : String => Order) ∈ [⟨"order", demoOrder status⟩] :=
      AList.mem_lookup_iff.1 hl
    cases List.mem_singleton.1 hmem
    cases hh
  settlements id s tx hl := by cases hl
  settled id h := by cases h
  results tx h := by cases h
  emitted p hp := by cases hp
  once := List.nodup_nil

/-- Two runs for the order, a crash after the event, and the same payment again with the
recovery pass. -/
def demoRestarted : List (Move Choice Env ServiceCall) :=
  List.replicate 2 (.act (.run 0 {})) ++ .act (.run 1 {}) :: List.replicate 8 (.act (.run 0 {})) ++
    .act (.env (.network (.close false))) :: List.replicate 3 (.act (.run 0 {})) ++
      .restart [.bootstrap, .paymentReceived (demoPayload "order")] ::
        [.act (.run 0 {}), .act (.run 1 {}), .act (.run 0 {})]

theorem completed_once_restarted : ∃ w', w' = (Config.moves (machine demoConfig)
      (ServiceCall.method demoConfig) demoRestarted
      ⟨[ServiceCall.paymentReceived (demoPayload "order"),
        .paymentReceived (demoPayload "order")].map (ServiceCall.method demoConfig),
        demoWorld [demoCollaborator "A" 10000] [("order", demoOrder .paymentReceived)]⟩).world ∧
    (completions w'.emitted).map (·.orderId) = ["order"] ∧
    ((completions w'.emitted).map (·.orderId)).Nodup ∧
      ∀ p ∈ completions w'.emitted, isSettled p.orderId w'.chain.contract = true ∧
        (w'.db.settlements.lookup p.orderId).isSome = true :=
  ⟨_, rfl, by decide, completed_once demoConfig _ _ _ (consistent_demoWorld _ _) (by decide)
    _ rfl⟩

end Kreav
