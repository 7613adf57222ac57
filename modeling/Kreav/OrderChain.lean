import Kreav.BackendSteps

/-!
# One order on the network

An order has no transaction yet (`Untouched`), or one (`Sent`) that waits, was dropped, or
was applied, and then the contract's marker is set exactly when it succeeded. In `Quiet` the
order is not settled and will not be. The network keeps all three, and the acceptance of
another order's transaction keeps them too.
-/

namespace Kreav

/-- The queued settle transactions of an order. -/
def settlesOf (id : String) (queue : List PlatformTx) : List Tx :=
  queue.filterMap fun
    | .settle tx => if tx.orderRef = id then some tx else none
    | .other _ => none

variable {cfg : StellarConfig} {id : String} {tx : Tx}

theorem settlesOf_self (h : tx.orderRef = id) (queue : List PlatformTx) :
    settlesOf id (.settle tx :: queue) = tx :: settlesOf id queue :=
  List.filterMap_cons_some (if_pos h)

theorem settlesOf_ne (h : tx.orderRef ≠ id) (queue : List PlatformTx) :
    settlesOf id (.settle tx :: queue) = settlesOf id queue :=
  List.filterMap_cons_none (if_neg h)

theorem settlesOf_append (queue queue' : List PlatformTx) :
    settlesOf id (queue ++ queue') = settlesOf id queue ++ settlesOf id queue' :=
  List.filterMap_append

theorem mem_settlesOf {queue : List PlatformTx} :
    tx ∈ settlesOf id queue ↔ .settle tx ∈ queue ∧ tx.orderRef = id := by
  constructor
  · intro h
    obtain ⟨t, ht, he⟩ := List.mem_filterMap.1 h
    cases t with
    | other seq => cases he
    | settle tx' =>
      dsimp only at he
      split at he
      · next hr =>
        obtain rfl := Option.some.inj he
        exact ⟨ht, hr⟩
      · cases he
  · rintro ⟨ht, hr⟩
    exact List.mem_filterMap.2 ⟨_, ht, if_pos hr⟩

/-- No other process settles the order. -/
def Foreign (id : String) : Env → Prop
  | .network (.submit (.settle tx)) => tx.orderRef ≠ id
  | _ => True

instance (id : String) : (e : Env) → Decidable (Foreign id e)
  | .network (.submit (.settle _)) => inferInstanceAs (Decidable (_ ≠ _))
  | .network (.submit (.other _)) | .network (.close _) | .network (.drop _)
  | .network (.accounts _ _) | .updateProduct _ _ => isTrue trivial

/-- The order is not settled and nothing waits that would settle it. -/
structure Quiet (id : String) (c : Chain) : Prop where
  pending : settlesOf id c.mempool = []
  marker : id ∉ c.contract.settlement

/-- The order has no transaction and is not settled. -/
structure Untouched (id : String) (c : Chain) : Prop extends Quiet id c where
  results : ∀ p ∈ c.results, p.1.orderRef ≠ id

/-- The order has this transaction only. -/
structure Sent (id : String) (tx : Tx) (c : Chain) : Prop where
  ref : tx.orderRef = id
  pending : settlesOf id c.mempool = [] ∨ settlesOf id c.mempool = [tx] ∧ c.result tx = none
  marker : id ∈ c.contract.settlement ↔ c.result tx = some true

theorem untouched_demoWorld (id : String) (collaborators : List Collaborator)
    (orders : List (String × Order)) : Untouched id (demoWorld collaborators orders).chain where
  pending := rfl
  marker := Finset.notMem_empty id
  results _ hp := absurd hp List.not_mem_nil

/-- A transaction of another order changes neither the marker nor the result of this one. -/
theorem result_cons_ne {tx' : Tx} (h : tx.orderRef ≠ tx'.orderRef) (b : Bool)
    (results : List (Tx × Bool)) : ((tx', b) :: results).lookup tx = results.lookup tx := by
  have hne : tx ≠ tx' := fun he => h (congrArg Tx.orderRef he)
  rw [List.lookup_cons, beq_eq_false_iff_ne.2 hne]

theorem mem_settlement_ne {c : Chain} {contract : ContractState String} {tx' : Tx}
    (hs : c.invokeSettle cfg tx' = .ok contract) (h : id ≠ tx'.orderRef) :
    id ∈ contract.settlement ↔ id ∈ c.contract.settlement := by
  obtain ⟨_, _, _, hset⟩ := settle_eq_ok hs
  rw [hset.settlement, Finset.mem_insert]
  exact or_iff_right h

theorem Quiet.head {c : Chain} (h : Quiet id c) {tx' : Tx} {rest : List PlatformTx}
    (hm : c.mempool = .settle tx' :: rest) : tx'.orderRef ≠ id ∧ settlesOf id rest = [] := by
  have hp := h.pending
  rw [hm] at hp
  by_cases hr : tx'.orderRef = id
  · rw [settlesOf_self hr] at hp
    cases hp
  · rw [settlesOf_ne hr] at hp
    exact ⟨hr, hp⟩

theorem Quiet.closes {fails : Bool} {c c' : Chain} (h : Quiet id c)
    (hc : c.Closes cfg fails c') : Quiet id c' := by
  cases hc with
  | idle _ => exact h
  | other hm => exact ⟨by have hp := h.pending; rwa [hm] at hp, h.marker⟩
  | again hm _ => exact ⟨(h.head hm).2, h.marker⟩
  | failed hm _ _ => exact ⟨(h.head hm).2, h.marker⟩
  | settled hm _ _ hs =>
    exact ⟨(h.head hm).2, mt (mem_settlement_ne hs (h.head hm).1.symm).1 h.marker⟩

theorem Untouched.closes {fails : Bool} {c c' : Chain} (h : Untouched id c)
    (hc : c.Closes cfg fails c') : Untouched id c' := by
  have hquiet := h.toQuiet.closes hc
  have hcons : ∀ {tx' : Tx} {b : Bool} {rest : List PlatformTx}, c.mempool = .settle tx' :: rest →
      ∀ p ∈ (tx', b) :: c.results, p.1.orderRef ≠ id := by
    intro tx' b rest hm p hp
    rcases List.mem_cons.1 hp with rfl | hp
    · exact (h.head hm).1
    · exact h.results p hp
  cases hc with
  | idle _ => exact h
  | other _ => exact ⟨hquiet, h.results⟩
  | again _ _ => exact ⟨hquiet, h.results⟩
  | failed hm _ _ => exact ⟨hquiet, hcons hm⟩
  | settled hm _ _ _ => exact ⟨hquiet, hcons hm⟩

/-- The first queued transaction is the order's own, or of another order. -/
theorem Sent.head {c : Chain} (h : Sent id tx c) {tx' : Tx} {rest : List PlatformTx}
    (hm : c.mempool = .settle tx' :: rest) :
    tx' = tx ∧ settlesOf id rest = [] ∧ c.result tx = none ∨
      tx'.orderRef ≠ id ∧ settlesOf id rest = settlesOf id c.mempool := by
  by_cases hr : tx'.orderRef = id
  · have hp := h.pending
    rw [hm, settlesOf_self hr] at hp
    rcases hp with hp | ⟨hp, hn⟩
    · cases hp
    · obtain ⟨he, hrest⟩ := List.cons.inj hp
      exact Or.inl ⟨he, hrest, hn⟩
  · rw [hm, settlesOf_ne hr]
    exact Or.inr ⟨hr, rfl⟩

theorem Sent.closes {fails : Bool} {c c' : Chain} (h : Sent id tx c)
    (hc : c.Closes cfg fails c') : Sent id tx c' := by
  have hne : ∀ {tx' : Tx}, tx'.orderRef ≠ id → tx.orderRef ≠ tx'.orderRef := fun hr he =>
    hr (he.symm.trans h.ref)
  have hself : ∀ (b : Bool), ((tx, b) :: c.results).lookup tx = some b := fun b =>
    List.lookup_cons_self
  cases hc with
  | idle _ => exact h
  | other hm => exact ⟨h.ref, by have hp := h.pending; rwa [hm] at hp, h.marker⟩
  | again hm hr =>
    rcases h.head hm with ⟨rfl, -, hn⟩ | ⟨-, hrest⟩
    · rw [hn] at hr
      cases hr
    · exact ⟨h.ref, by rw [hrest]; exact h.pending, h.marker⟩
  | @failed tx' rest hm _ _ =>
    rcases h.head hm with ⟨rfl, hrest, hn⟩ | ⟨hr, hrest⟩
    · refine ⟨h.ref, Or.inl hrest, fun hs => ?_, fun he => ?_⟩
      · rw [h.marker.1 hs] at hn
        cases hn
      · rw [Chain.result, hself] at he
        cases he
    · refine ⟨h.ref, ?_, ?_⟩
      · simp only [Chain.result, result_cons_ne (hne hr), hrest]
        exact h.pending
      · simp only [Chain.result, result_cons_ne (hne hr)]
        exact h.marker
  | @settled tx' rest contract hm _ _ hs =>
    rcases h.head hm with ⟨rfl, hrest, hn⟩ | ⟨hr, hrest⟩
    · obtain ⟨_, _, _, hset⟩ := settle_eq_ok hs
      refine ⟨h.ref, Or.inl hrest, ?_⟩
      simp only [Chain.result, hself, hset.settlement, ← h.ref, Finset.mem_insert_self]
    · refine ⟨h.ref, ?_, ?_⟩
      · simp only [Chain.result, result_cons_ne (hne hr), hrest]
        exact h.pending
      · simp only [Chain.result, result_cons_ne (hne hr)]
        exact (mem_settlement_ne hs hr.symm).trans h.marker

/-- Other transactions of the platform account join the queue. -/
theorem settlesOf_submit {t : PlatformTx} (hf : Foreign id (.network (.submit t))) (c : Chain) :
    settlesOf id (c.submit t).2.mempool = settlesOf id c.mempool := by
  unfold Chain.submit
  split
  · rfl
  split
  · rw [settlesOf_append]
    cases t with
    | other seq => exact List.append_nil _
    | settle tx => rw [settlesOf_ne hf]; exact List.append_nil _
  · rfl

theorem submit_keeps (t : PlatformTx) (c : Chain) :
    (c.submit t).2.contract = c.contract ∧ (c.submit t).2.results = c.results := by
  unfold Chain.submit
  split
  · exact ⟨rfl, rfl⟩
  split
  · exact ⟨rfl, rfl⟩
  · exact ⟨rfl, rfl⟩

theorem settlesOf_take (n : ℕ) (queue : List PlatformTx) :
    (settlesOf id (queue.take n)).Sublist (settlesOf id queue) :=
  (List.take_sublist n queue).filterMap _

theorem Quiet.step {step : NetworkStep} {c : Chain} (h : Quiet id c)
    (hf : Foreign id (.network step)) : Quiet id (c.step cfg step) := by
  cases step with
  | close fails => exact h.closes (c.close_closes cfg fails)
  | accounts ledger trustline => exact ⟨h.pending, h.marker⟩
  | drop n => exact ⟨List.sublist_nil.1 (h.pending ▸ settlesOf_take n c.mempool), h.marker⟩
  | submit t => exact ⟨(settlesOf_submit hf c).trans h.pending, (submit_keeps t c).1 ▸ h.marker⟩

theorem Untouched.step {step : NetworkStep} {c : Chain} (h : Untouched id c)
    (hf : Foreign id (.network step)) : Untouched id (c.step cfg step) := by
  cases step with
  | close fails => exact h.closes (c.close_closes cfg fails)
  | accounts ledger trustline => exact ⟨h.toQuiet.step hf, h.results⟩
  | drop n => exact ⟨h.toQuiet.step hf, h.results⟩
  | submit t => exact ⟨h.toQuiet.step hf, (submit_keeps t c).2 ▸ h.results⟩

theorem Sent.step {step : NetworkStep} {c : Chain} (h : Sent id tx c)
    (hf : Foreign id (.network step)) : Sent id tx (c.step cfg step) := by
  cases step with
  | close fails => exact h.closes (c.close_closes cfg fails)
  | accounts ledger trustline => exact ⟨h.ref, h.pending, h.marker⟩
  | drop n =>
    refine ⟨h.ref, ?_, h.marker⟩
    have hsub : (settlesOf id (c.mempool.take n)).Sublist (settlesOf id c.mempool) :=
      settlesOf_take n c.mempool
    rcases h.pending with hp | ⟨hp, hn⟩
    · rw [hp] at hsub
      exact Or.inl (List.sublist_nil.1 hsub)
    · rw [hp] at hsub
      exact (List.sublist_singleton.1 hsub).imp (fun he => he) fun he => ⟨he, hn⟩
  | submit t =>
    obtain ⟨hc, hr⟩ := submit_keeps t c
    have hres : (c.submit t).2.result tx = c.result tx := by rw [Chain.result, hr, Chain.result]
    refine ⟨h.ref, ?_, ?_⟩
    · show settlesOf id (c.submit t).2.mempool = [] ∨
        settlesOf id (c.submit t).2.mempool = [tx] ∧ (c.submit t).2.result tx = none
      rw [settlesOf_submit hf, hres]
      exact h.pending
    · show id ∈ (c.submit t).2.contract.settlement ↔ (c.submit t).2.result tx = some true
      rw [hc, hres]
      exact h.marker

theorem settlesOf_accepted_ne (h : tx.orderRef ≠ id) (c : Chain) :
    settlesOf id (c.accepted tx).mempool = settlesOf id c.mempool := by
  simp only [Chain.accepted]
  split
  · rfl
  · rw [settlesOf_append, settlesOf_ne h]
    exact List.append_nil _

/-- The order's transaction is accepted. -/
theorem Untouched.accepted {c : Chain} (h : Untouched id c) (href : tx.orderRef = id) :
    Sent id tx (c.accepted tx) := by
  have hm : .settle tx ∉ c.mempool := fun hmem => by
    have ht := mem_settlesOf.2 ⟨hmem, href⟩
    rw [h.pending] at ht
    cases ht
  have hn : c.result tx = none := by
    refine List.lookup_eq_none_iff.2 fun p hp => ?_
    rw [bne_iff_ne]
    rintro rfl
    exact h.results p hp href
  refine ⟨href, Or.inr ⟨?_, hn⟩, ?_⟩
  · simp only [Chain.accepted, if_neg hm]
    rw [settlesOf_append, h.pending, settlesOf_self href]
    rfl
  · refine ⟨fun hs => absurd hs h.marker, fun he => ?_⟩
    rw [show c.result tx = some true from he] at hn
    cases hn

theorem Untouched.accepted_ne {tx' : Tx} {c : Chain} (h : Untouched id c)
    (hne : tx'.orderRef ≠ id) : Untouched id (c.accepted tx') :=
  ⟨⟨(settlesOf_accepted_ne hne c).trans h.pending, h.marker⟩, h.results⟩

theorem Sent.accepted_ne {tx' : Tx} {c : Chain} (h : Sent id tx c)
    (hne : tx'.orderRef ≠ id) : Sent id tx (c.accepted tx') :=
  ⟨h.ref, by rw [settlesOf_accepted_ne hne]; exact h.pending, h.marker⟩

end Kreav
