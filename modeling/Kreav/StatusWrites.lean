import Kreav.Lib.Restarts
import Kreav.OrderProtocol
import Kreav.OverlappingRuns

/-!
# Writes of an order's status

Checkouts, payments, wallet connections, settlements and recovery passes, interleaved in any
way, with any faults and crashes. Two of the writers check the status first. The others
write what they have come to know. `Meets` is the condition on the moves : a check still
holds when its write is made, a recovery pass takes an order only when no other call is
settling it, and a failed request leaves an order that its call will still write in
`settlementPending`. Then every write that changes a status is a legal transition
(`status_writes_legal`).

`StatusWrites.Inv` is the invariant : one call at most settles the order, and the status is
the one that the phase of that call says (`Phase.status`).
-/

open Async Prog

namespace Kreav

namespace StatusWrites

open OrderProtocol

/-- The call writes the order only after a check of its status. -/
def Idle (id : String) (p : Method Unit) : Prop :=
  p.Conforms (protocol (fun _ => True) id) .idle

/-- The request throws, or finds no collaborators. -/
def fails : (r : Request) → Except Failure r.Ans → Bool
  | .collaboratorFindMany _, .ok (rows : List Collaborator) => rows.isEmpty
  | _, .ok _ => false
  | _, .error _ => true

/-- A check holds when its write is made. -/
def CheckHolds (w : World) (id : String) (data : OrderUpdate) (c : Choice) : Prop :=
  (data.status = .settlementPending →
    ∃ o ∈ w.db.orders.lookup id, canTransition o.status .settlementPending = true) ∧
  ∀ ref ∈ data.paymentRef, c.fault ≠ .lost → ¬ w.db.RefTaken id ref →
    ∀ o ∈ w.db.orders.lookup id,
      canTransition o.status data.status = true ∧ o.status ≠ .settlementPending

instance (w : World) (id : String) (data : OrderUpdate) (c : Choice) :
    Decidable (CheckHolds w id data c) :=
  inferInstanceAs (Decidable ((_ → ∃ o ∈ _, _) ∧ ∀ ref ∈ _, _ → _ → ∀ o ∈ _, _))

/-- The condition on the writes after a check, and on the query of a recovery pass. -/
def Checked (s : Config backend World Unit) (i : ℕ) : Request → Choice → Prop
  | .orderUpdate id data, c => CheckHolds s.world id data c
  | .orderFindMany statuses, c => c.fault = .none → .settlementPending ∈ statuses →
    ∀ id, statusOf s.world id = some .settlementPending →
      ∀ j p, j ≠ i → s.threads[j]? = some p → Idle id p
  | _, _ => True

/-- The call that gets this answer is idle towards the order then, or the order is in
`settlementPending` and the request was not the read for a check. -/
def Survives (id : String) (r : Request) (k : Except Failure r.Ans → Method Unit)
    (x : Except Failure r.Ans) (w : World) : Prop :=
  Idle id (k x) ∨ statusOf w id = some .settlementPending ∧
    (Idle id (.call r k) → r ≠ .orderFindUnique id)

/-- The condition on an answer to the call in thread `i`. -/
def Permitted (cfg : StellarConfig) (s : Config backend World Unit) (i : ℕ) (c : Choice) :
    Method Unit → Prop
  | .call r k => Checked s i r c ∧ (fails r (exec cfg r c s.world).1 = true →
    ∀ id, Survives id r k (exec cfg r c s.world).1 (exec cfg r c s.world).2)
  | _ => True

/-- The condition on the moves of a run. -/
def Meets (cfg : StellarConfig) (s : Config backend World Unit) :
    Move Choice Env ServiceCall → Prop
  | .act (.run i c) => ∀ p ∈ s.threads[i]?, Permitted cfg s i c p
  | _ => True

/-- The status of the order while a call is in the phase. -/
def status : Phase → Option OrderStatus
  | .idle => none
  | .pending => some .settlementPending
  | .confirmed => some .settlementPending
  | .recorded => some .settlementPending
  | .created => some .settlementPending
  | .failing => some .settlementPending
  | .bare => some .settled
  | .looked _ => some .settled
  | .recreated => some .settled
  | .paid => some .settled

/-- What holds of an order in every state : its status is that of the method which has it, and no
two methods have it. -/
structure Inv (id : String) (w : World) (φ : ℕ → Phase) : Prop where
  status : ∀ i, φ i ≠ .idle → statusOf w id = status (φ i)
  single : ∀ i j, φ i ≠ .idle → φ j ≠ .idle → i = j

/-- A status is kept or follows the state machine. -/
def Legal (id : String) (w w' : World) : Prop :=
  ∀ a b, statusOf w id = some a → statusOf w' id = some b → a ≠ b → canTransition a b = true

variable {cfg : StellarConfig} {id : String} {w w' : World} {φ : ℕ → Phase} {i : ℕ}

/-! ## The steps -/

theorem legal_of_eq (h : statusOf w' id = statusOf w id) : Legal id w w' := by
  intro a b ha hb hne
  rw [h, ha] at hb
  exact absurd (Option.some.inj hb) hne

theorem statusOf_settlementCreate (data : SettlementCreate) (c : Choice) :
    statusOf (exec cfg (.settlementCreate data) c w).2 id = statusOf w id := by
  rcases exec_settlementCreate cfg data c w with ⟨-, -, hx⟩ | ⟨-, -, hx⟩ | ⟨e, hx, -⟩
  · rw [hx]
    rfl
  · rw [hx]
    rfl
  · rw [hx]

theorem legal_of_unmoved (h : Unmoved id w w') : Legal id w w' := by
  intro a b ha hb hne
  rcases h.status with he | ⟨hnone, -⟩
  · rw [he, ha] at hb
    exact absurd (Option.some.inj hb) hne
  · rw [ha] at hnone
    cases hnone

theorem legal_orderUpdate {data : OrderUpdate} {c : Choice} {a : OrderStatus}
    (ha : statusOf w id = some a) (h : a = data.status ∨ canTransition a data.status = true) :
    Legal id w (exec cfg (.orderUpdate id data) c w).2 := by
  intro a' b ha' hb hne
  obtain rfl : a = a' := Option.some.inj (ha.symm.trans ha')
  rcases statusOf_orderUpdate cfg id data c w with he | ⟨-, he⟩
  · rw [he, ha] at hb
    exact absurd (Option.some.inj hb) hne
  · obtain rfl : data.status = b := Option.some.inj (he.symm.trans hb)
    exact h.resolve_left hne

theorem Inv.alone (h : Inv id w φ) (hi : φ i ≠ .idle) : ∀ j, j ≠ i → φ j = .idle := by
  intro j hj
  by_contra hne
  exact hj (h.single j i hne hi)

/-- Nobody settles an order in another status. -/
theorem Inv.free (h : Inv id w φ) (hp : statusOf w id ≠ some .settlementPending)
    (hs : statusOf w id ≠ some .settled) (j : ℕ) : φ j = .idle := by
  by_contra hne
  have hstatus := h.status j hne
  cases hj : φ j <;> rw [hj] at hstatus hne <;>
    first | exact hne rfl | exact hp hstatus | exact hs hstatus

/-- The check of a settlement holds : nobody settles the order. -/
theorem Inv.free_of_check (h : Inv id w φ) {o : Order} (ho : w.db.orders.lookup id = some o)
    (hcan : canTransition o.status .settlementPending = true) :
    statusOf w id = some o.status ∧ ∀ j, φ j = .idle := by
  have hs : statusOf w id = some o.status := by rw [statusOf, ho, Option.map_some]
  refine ⟨hs, h.free ?_ ?_⟩
  all_goals
    rw [hs]
    rcases canTransition_settlementPending.1 hcan with he | he <;> rw [he] <;> simp

/-- One call may settle the order when no other does. -/
theorem Inv.only {ψ : ℕ → Phase} {φ' : Phase} (h : ∀ j, j ≠ i → ψ j = .idle)
    (hφ' : φ' ≠ .idle → statusOf w' id = StatusWrites.status φ') :
    Inv id w' (Function.update ψ i φ') := by
  have hi : ∀ j, Function.update ψ i φ' j ≠ .idle → j = i :=
    Phases.eq_of_update (T := (· ≠ Phase.idle)) fun j hj => not_not.2 (h j hj)
  refine ⟨fun j hj => ?_, fun j k hj hk => (hi j hj).trans (hi k hk).symm⟩
  obtain rfl := hi j hj
  rw [Function.update_self] at hj ⊢
  exact hφ' hj

/-- The call does not settle the order, before and after. -/
theorem Inv.idle (h : Inv id w φ) (hi : φ i = .idle)
    (hw : ∀ a, statusOf w id = some a → statusOf w' id = some a) :
    Inv id w' (Function.update φ i .idle) := by
  have he : Function.update φ i .idle = φ := by rw [← hi, Function.update_eq_self]
  rw [he]
  refine ⟨fun j hj => ?_, h.single⟩
  have hstatus := h.status j hj
  cases ha : StatusWrites.status (φ j) with
  | none => cases hj' : φ j <;> simp [hj', StatusWrites.status] at ha hj
  | some a => exact hw a (hstatus.trans ha)

/-- A row of a query by status is an order in one of the statuses. -/
theorem statusOf_of_found {statuses : List OrderStatus} {c : Choice} {rows : List StuckOrder}
    (h : (exec cfg (.orderFindMany statuses) c w).1 = .ok rows) {o : StuckOrder} (ho : o ∈ rows) :
    o.order.status ∈ statuses ∧ statusOf w o.id = some o.order.status := by
  obtain ⟨-, he⟩ := exec_ok cfg h
  have he : reorder c.order (w.db.ordersIn statuses) = rows := Except.ok.inj he
  have hmem : o ∈ w.db.ordersIn statuses := by
    rw [← (reorder_perm c.order _).mem_iff, he]
    exact ho
  obtain ⟨e, hfilter, rfl⟩ := List.mem_map.1 hmem
  obtain ⟨hentry, hst⟩ := List.mem_filter.1 hfilter
  refine ⟨of_decide_eq_true hst, ?_⟩
  rw [statusOf, AList.mem_lookup_iff.2 hentry]
  rfl

variable {s : Config backend World Unit} {r : Request} {k : Except Failure r.Ans → Method Unit}
  {c : Choice}

/-- A failure of the call that settles the order. -/
theorem advances_failed {x : Except Failure r.Ans} (hothers : ∀ j, j ≠ i → φ j = .idle)
    (hsurvives : Survives id r k x w') {ε : Phase} (hε : Stray ε)
    (hk : (k x).Conforms (protocol (fun _ => True) id) ε) :
    (protocol (fun _ => True) id).Advances s φ i (k x) (Inv id w') := by
  rcases hsurvives with hidle | ⟨hst, -⟩
  · exact .update hidle (Inv.only hothers fun h => absurd rfl h)
  · refine .update hk (Inv.only hothers fun _ => ?_)
    rw [hst]
    rcases hε with rfl | rfl | rfl <;> first | rfl | contradiction

/-- The write of a status by the call that settles the order. -/
theorem step_orderUpdate {data : OrderUpdate} {a : OrderStatus} {p : Method Unit} {φ' : Phase}
    (hothers : ∀ j, j ≠ i → φ j = .idle) (ha : statusOf s.world id = some a)
    (hlegal : a = data.status ∨ canTransition a data.status = true)
    (hk : p.Conforms (protocol (fun _ => True) id) φ')
    (hφ' : φ' ≠ .idle → statusOf (exec cfg (.orderUpdate id data) c s.world).2 id = status φ') :
    Legal id s.world (exec cfg (.orderUpdate id data) c s.world).2 ∧
      (protocol (fun _ => True) id).Advances s φ i p
        (Inv id (exec cfg (.orderUpdate id data) c s.world).2) :=
  ⟨legal_orderUpdate ha hlegal, .update hk (Inv.only hothers hφ')⟩

/-- A write of a status that fails, by the call that settles the order. -/
theorem step_unanswered {data : OrderUpdate} {a : OrderStatus}
    {k : Except Failure (Request.orderUpdate id data).Ans → Method Unit}
    {x : Except Failure (Request.orderUpdate id data).Ans} {ε : Phase}
    (hothers : ∀ j, j ≠ i → φ j = .idle) (ha : statusOf s.world id = some a)
    (hlegal : a = data.status ∨ canTransition a data.status = true)
    (hsurvives : Survives id (.orderUpdate id data) k x
      (exec cfg (.orderUpdate id data) c s.world).2)
    (hε : Stray ε) (hk : (k x).Conforms (protocol (fun _ => True) id) ε) :
    Legal id s.world (exec cfg (.orderUpdate id data) c s.world).2 ∧
      (protocol (fun _ => True) id).Advances s φ i (k x)
        (Inv id (exec cfg (.orderUpdate id data) c s.world).2) :=
  ⟨legal_orderUpdate ha hlegal, advances_failed hothers hsurvives hε hk⟩

/-- A query that fails, or finds nothing, by the call that settles the order. -/
theorem step_unread {x : Except Failure r.Ans} (hreads : r.reads = true)
    (hothers : ∀ j, j ≠ i → φ j = .idle)
    (hsurvives : Survives id r k x (exec cfg r c s.world).2)
    (hk : (k x).Conforms (protocol (fun _ => True) id) .failing) :
    Legal id s.world (exec cfg r c s.world).2 ∧
      (protocol (fun _ => True) id).Advances s φ i (k x) (Inv id (exec cfg r c s.world).2) :=
  ⟨legal_of_eq (congrArg (statusOf · id) (exec_reads cfg hreads c s.world)),
    advances_failed hothers hsurvives (Or.inr (Or.inr rfl)) hk⟩

/-- A request of the call that settles the order, which does not write it. -/
theorem step_unmoved (h : Inv id s.world φ) (hr : ¬ Writes id r) (hi : φ i ≠ .idle)
    {p : Method Unit} {φ' : Phase} (hst : φ' ≠ .idle → status φ' = status (φ i))
    (hk : p.Conforms (protocol (fun _ => True) id) φ') :
    Legal id s.world (exec cfg r c s.world).2 ∧
      (protocol (fun _ => True) id).Advances s φ i p (Inv id (exec cfg r c s.world).2) := by
  have hun := unmoved_exec cfg hr c s.world
  refine ⟨legal_of_unmoved hun, .update hk (Inv.only (h.alone hi) fun hφ' => ?_)⟩
  rw [hst hφ', ← h.status i hi]
  rcases hun.status with he | ⟨hnone, -⟩
  · exact he
  · rw [h.status i hi] at hnone
    cases hψ : φ i <;> rw [hψ] at hi hnone <;> first | exact absurd rfl hi | cases hnone

/-- The claim of a payment, whose order is not with a call when it takes effect. -/
theorem step_claim (h : Inv id s.world φ) (hi : φ i = .idle) {st : OrderStatus} {ref : String}
    (hst : st = .waitingWallet ∨ st = .paymentReceived)
    (hchecked : Checked s i (.orderUpdate id { status := st, paymentRef := some ref }) c)
    {p : Method Unit} (hk : p.Conforms (protocol (fun _ => True) id) .idle) :
    Legal id s.world
        (exec cfg (.orderUpdate id { status := st, paymentRef := some ref }) c s.world).2 ∧
      (protocol (fun _ => True) id).Advances s φ i p (Inv id
        (exec cfg (.orderUpdate id { status := st, paymentRef := some ref }) c s.world).2) := by
  have hset : ∀ o, c.fault ≠ .lost → ¬ s.world.db.RefTaken id ref →
      s.world.db.orders.lookup id = some o → statusOf s.world id = some o.status ∧
        canTransition o.status st = true ∧ ∀ j, φ j = .idle := by
    intro o hf href ho
    obtain ⟨hcan, hne⟩ := hchecked.2 ref rfl hf href o ho
    have hs : statusOf s.world id = some o.status := by rw [statusOf, ho, Option.map_some]
    refine ⟨hs, hcan, h.free ?_ ?_⟩
    · rw [hs]
      exact fun he => hne (Option.some.inj he)
    · rw [hs]
      intro he
      rw [Option.some.inj he] at hcan
      rcases hst with rfl | rfl <;> cases hcan
  rcases exec_orderUpdate cfg id { status := st, paymentRef := some ref } c s.world with
    ⟨o, hf, ho, href, -⟩ | ⟨o, hf, ho, href, -⟩ | ⟨e, hx', -⟩
  · obtain ⟨hs, hcan, hfree⟩ := hset o (by simp [hf]) (href ref rfl) ho
    exact step_orderUpdate (fun j _ => hfree j) hs (Or.inr hcan) hk (absurd rfl)
  · obtain ⟨hs, hcan, hfree⟩ := hset o (by simp [hf]) (href ref rfl) ho
    exact step_orderUpdate (fun j _ => hfree j) hs (Or.inr hcan) hk (absurd rfl)
  · rw [hx']
    exact ⟨legal_of_eq rfl, .update hk (h.idle hi fun _ ha => ha)⟩

theorem step (h : Inv id s.world φ) (hget : s.threads[i]? = some (.call r k))
    (hs : s.Tracks (protocol (fun _ => True) id) φ) (hP : Permitted cfg s i c (.call r k))
    {φ' : Phase} (hφ' : Reply (fun _ => True) id (φ i) r (exec cfg r c s.world).1 φ')
    (hk : (k (exec cfg r c s.world).1).Conforms (protocol (fun _ => True) id) φ') :
    Legal id s.world (exec cfg r c s.world).2 ∧ (protocol (fun _ => True) id).Advances s φ i
      (k (exec cfg r c s.world).1) (Inv id (exec cfg r c s.world).2) := by
  obtain ⟨hchecked, hfails⟩ := hP
  have hidle := (hs.thread hget).2
  have hothers : φ i ≠ .idle → ∀ j, j ≠ i → φ j = .idle := h.alone
  have hstatus := h.status i
  generalize hi : φ i = ψ at hφ' hidle hstatus hothers
  generalize hx : (exec cfg r c s.world).1 = x at hφ' hk hfails ⊢
  have hfails : fails r x = true → Survives id r k x (exec cfg r c s.world).2 := fun hf =>
    hfails hf id
  -- a request that does not write the order
  have hread : ¬ Writes id r → ψ ≠ .idle → (φ' ≠ .idle → status φ' = status ψ) →
      Legal id s.world (exec cfg r c s.world).2 ∧ (protocol (fun _ => True) id).Advances s φ i
        (k x) (Inv id (exec cfg r c s.world).2) := fun hr hne hst =>
    step_unmoved h hr (hi ▸ hne) (hi ▸ hst) hk
  have hpending : ψ = .pending ∨ ψ = .confirmed ∨ ψ = .recorded ∨ ψ = .created ∨ ψ = .failing →
      ψ ≠ .idle ∧ statusOf s.world id = some .settlementPending := by
    rintro (rfl | rfl | rfl | rfl | rfl) <;> exact ⟨by simp, hstatus (by simp)⟩
  cases hφ' with
  | stay hr =>
    by_cases hne : φ' = .idle
    · subst hne
      have hun := unmoved_exec cfg hr c s.world
      refine ⟨legal_of_unmoved hun, .update hk (h.idle hi fun a ha => ?_)⟩
      rcases hun.status with he | ⟨hnone, -⟩
      · rw [he, ha]
      · rw [ha] at hnone
        cases hnone
    · exact hread hr hne fun _ => rfl
  | drop hr hφ hε =>
    refine hread hr (by rcases hφ with rfl | rfl <;> simp) fun hne => ?_
    rcases hφ with rfl | rfl <;> rcases hε with rfl | rfl | rfl <;>
      first | rfl | exact absurd rfl hne
  | claim hst => exact step_claim h hi hst hchecked hk
  | unread =>
    rw [exec_reads cfg rfl]
    refine ⟨legal_of_eq rfl, ?_⟩
    rcases hfails rfl with hidle' | ⟨-, hne⟩
    · exact .update hidle' (h.idle hi fun _ ha => ha)
    · exact absurd rfl (hne hidle)
  | enter =>
    obtain ⟨o, ho, hcan⟩ := hchecked.1 rfl
    have hfree := h.free_of_check ho hcan
    exact step_orderUpdate (fun j _ => hfree.2 j) hfree.1 (Or.inr hcan) hk
      fun _ => statusOf_orderUpdate_ok cfg hx
  | refused =>
    obtain ⟨o, ho, hcan⟩ := hchecked.1 rfl
    have hfree := h.free_of_check ho hcan
    exact step_unanswered (fun j _ => hfree.2 j) hfree.1 (Or.inr hcan) (hfails rfl)
      (Or.inr (Or.inr rfl)) hk
  | @found statuses rows hrows =>
    obtain ⟨o, ho, rfl, hst⟩ := hrows
    obtain ⟨hmem, hs'⟩ := statusOf_of_found hx ho
    rw [hst] at hmem hs'
    have hothers := hchecked (exec_ok cfg hx).1 hmem o.id hs'
    rw [exec_reads cfg rfl]
    refine ⟨legal_of_eq rfl, Function.update (fun _ => .idle) i .pending, ?_,
      Inv.only (fun _ _ => rfl) fun _ => hs', fun j hj => Or.inr ⟨Function.update_of_ne hj .., ?_⟩⟩
    · rwa [Function.update_self]
    · exact fun p hp => hothers j p hj hp
  | marker _ => exact hread not_false (by simp) fun _ => rfl
  | applied _ => exact hread not_false (by simp) fun _ => rfl
  | row => exact hread not_false (by simp) fun _ => rfl
  | failed hφ _ =>
    have hp := hpending (by rcases hφ with rfl | rfl | rfl <;> simp)
    exact step_orderUpdate (hothers hp.1) hp.2 (Or.inr rfl) hk (absurd rfl)
  | unfailed hφ hε _ =>
    have hp := hpending (by rcases hφ with rfl | rfl | rfl <;> simp)
    exact step_unanswered (hothers hp.1) hp.2 (Or.inr rfl) (hfails rfl) hε hk
  | rollback =>
    have hp := hpending (Or.inl rfl)
    exact step_orderUpdate (hothers hp.1) hp.2 (Or.inr rfl) hk (absurd rfl)
  | settled _ =>
    have hp := hpending (by simp)
    exact step_orderUpdate (hothers hp.1) hp.2 (Or.inr rfl) hk (absurd rfl)
  | unsettled hε _ =>
    have hp := hpending (by simp)
    exact step_unanswered (hothers hp.1) hp.2 (Or.inr rfl) (hfails rfl) hε hk
  | @create _ _ _ data hrec _ _ =>
    have he : statusOf (exec cfg (.settlementCreate data) c s.world).2 id = statusOf s.world id :=
      statusOf_settlementCreate data c
    refine ⟨legal_of_eq he, .update hk ?_⟩
    cases hrec with
    | first _ => exact Inv.only (hothers (by simp)) fun _ => he.trans (hstatus (by simp))
    | again => exact Inv.only (hothers (by simp)) fun _ => he.trans (hstatus (by simp))
  | @uncreated _ _ _ data e hrec _ _ =>
    refine ⟨legal_of_eq (statusOf_settlementCreate data c), ?_⟩
    cases hrec with
    | first hε => exact advances_failed (hothers (by simp)) (hfails rfl) hε hk
    | again =>
      exact advances_failed (hothers (by simp)) (hfails rfl) (Or.inr (Or.inr rfl)) hk
  | pay hrec _ =>
    cases hrec with
    | first _ =>
      exact step_orderUpdate (hothers (by simp)) (hstatus (by simp)) (Or.inr rfl) hk
        fun _ => statusOf_orderUpdate_ok cfg hx
    | again =>
      exact step_orderUpdate (hothers (by simp)) (hstatus (by simp)) (Or.inl rfl) hk
        fun _ => statusOf_orderUpdate_ok cfg hx
  | unpaid hrec _ =>
    cases hrec with
    | first hε =>
      exact step_unanswered (hothers (by simp)) (hstatus (by simp)) (Or.inr rfl) (hfails rfl) hε hk
    | again =>
      exact step_unanswered (hothers (by simp)) (hstatus (by simp)) (Or.inl rfl) (hfails rfl)
        (Or.inr (Or.inr rfl)) hk
  | early =>
    have hp := hpending (by simp)
    exact step_orderUpdate (hothers hp.1) hp.2 (Or.inr rfl) hk
      fun _ => statusOf_orderUpdate_ok cfg hx
  | unsure =>
    have hp := hpending (by simp)
    exact step_unanswered (hothers hp.1) hp.2 (Or.inr rfl) (hfails rfl) (Or.inr (Or.inr rfl)) hk
  | look => exact hread not_false (by simp) fun _ => rfl
  | gone => exact hread not_false (by simp) fun hne => absurd rfl hne
  | blind =>
    exact step_unread rfl (hothers (by simp)) (hfails rfl) hk
  | empty =>
    exact step_unread rfl (hothers (by simp)) (hfails rfl) hk
  | unlisted =>
    exact step_unread rfl (hothers (by simp)) (hfails rfl) hk

theorem invariant : (protocol (fun _ => True) id).Invariant (machine cfg)
    (fun s a => Meets cfg s (.act a)) (Inv id) where
  final_rest := Or.inl rfl
  event {w φ i v φ'} h hv := by
    generalize hi : φ i = ψ at hv
    cases hv with
    | other _ =>
      rw [← hi, Function.update_eq_self]
      exact ⟨h.status, h.single⟩
    | completed _ =>
      have hne : φ i ≠ .idle := by simp [hi]
      exact Inv.only (h.alone hne) fun hne => absurd rfl hne
  ended {w φ i} h _ := by
    by_cases hi : φ i = .idle
    · exact h.idle hi fun _ ha => ha
    · exact Inv.only (h.alone hi) fun hne => absurd rfl hne
  outside {s φ e} h _ := by
    obtain ⟨horders, -, -, -⟩ := env_keeps cfg e s.world
    refine ⟨fun i hi => ?_, h.single⟩
    rw [statusOf, horders]
    exact h.status i hi
  reply h hs hget hP :=
    ⟨answers_exec cfg (owned_any _ _) _ _, fun _ hφ' hk => (step h hget hs (hP _ hget) hφ' hk).2⟩

/-- Events do not change a status. -/
theorem statusOf_flush (p : Method Unit) (w : World) :
    statusOf (p.flush (machine cfg) w).2 id = statusOf w id := by
  induction p generalizing w with
  | emit v p ih => exact ih _
  | _ => rfl

/-- One move of a run. -/
theorem Inv.move {s : Config backend World Unit} (h : Inv id s.world φ)
    (hs : s.Tracks (protocol (fun _ => True) id) φ) {m : Move Choice Env ServiceCall}
    (hm : Meets cfg s m) :
    Legal id s.world (s.move (machine cfg) (·.method cfg) m).world := by
  cases m with
  | restart calls => exact legal_of_eq rfl
  | act a =>
    cases a with
    | env e =>
      obtain ⟨horders, -, -, -⟩ := env_keeps cfg e s.world
      exact legal_of_eq (by rw [statusOf, statusOf, ← horders]; rfl)
    | run i c =>
      cases hget : s.threads[i]? with
      | none =>
        refine legal_of_eq ?_
        simp only [Config.move, Config.act, hget]
      | some p =>
        simp only [Config.move, Config.act_run _ c hget]
        cases p with
        | ret a => exact legal_of_eq rfl
        | raise e => exact legal_of_eq rfl
        | emit v p => exact ((hs.thread hget).1).elim
        | call r k =>
          have hans := answers_exec cfg (owned_any id s.world) r c
          obtain ⟨φ', hφ', hk⟩ := (hs.thread hget).2 _ hans
          have hlegal := (step h hget hs (hm _ hget) hφ' hk).1
          intro a b ha hb
          exact hlegal a b ha ((statusOf_flush _ _).symm.trans hb)

end StatusWrites

/-- Calls of the services in any number, interleaved in any way, with any faults and crashes.
Where the moves meet `StatusWrites.Meets`, a write that changes the status of an order is a
legal transition. In particular it leaves no finished order, and it takes no `settled` order
to `settlementFailed` or back to `paymentReceived`. -/
theorem status_writes_legal (cfg : StellarConfig) (calls : List ServiceCall) (w : World)
    (ms : List (Move Choice Env ServiceCall)) (m : Move Choice Env ServiceCall)
    (hrun : Config.Through (machine cfg) (·.method cfg) (StatusWrites.Meets cfg) (ms ++ [m])
      ⟨calls.map (·.method cfg), w⟩) :
    ∀ s, s = Config.moves (machine cfg) (·.method cfg) ms ⟨calls.map (·.method cfg), w⟩ →
      ∀ id a b, statusOf s.world id = some a →
        statusOf (s.move (machine cfg) (·.method cfg) m).world id = some b → a ≠ b →
          canTransition a b = true ∧ isTerminal a = false ∧
            (a = .settled → b ≠ .settlementFailed ∧ b ≠ .paymentReceived) := by
  rintro s rfl id a b ha hb hne
  have ho := OrderProtocol.owns_any id
  obtain ⟨hms, hm, -⟩ := Config.through_append.1 hrun
  obtain ⟨ψ, htracks, hinv⟩ := StatusWrites.invariant.moves
    (OrderProtocol.suspended_conforms ho cfg)
    (fun _ _ _ _ _ => ⟨fun _ hi => absurd rfl hi, fun _ _ hi => absurd rfl hi⟩) ms
    (Config.tracks_map (OrderProtocol.suspended_conforms ho cfg) _ _)
    ⟨fun _ hi => absurd rfl hi, fun _ _ hi => absurd rfl hi⟩ hms
  have hcan := hinv.move htracks hm a b ha hb hne
  refine ⟨hcan, ?_, ?_⟩
  · by_contra hterminal
    rw [not_canTransition_of_isTerminal (by simpa using hterminal)] at hcan
    cases hcan
  · rintro rfl
    constructor
    · rintro rfl
      cases hcan
    · rintro rfl
      cases hcan

namespace StatusWrites

/-- One call at a time, whose requests do not fail and whose checks hold. -/
def calm (cfg : StellarConfig) (s : Config backend World Unit) :
    Move Choice Env ServiceCall → Bool
  | .act (.run i c) => decide (s.threads.length ≤ 1) && match s.threads[i]? with
    | some (.call r _) => !fails r (exec cfg r c s.world).1 && match r with
      | .orderUpdate id data => decide (CheckHolds s.world id data c)
      | _ => true
    | _ => true
  | _ => true

theorem meets_of_calm {s : Config backend World Unit} {m : Move Choice Env ServiceCall}
    (h : calm cfg s m = true) : Meets cfg s m := by
  cases m with
  | restart calls => trivial
  | act a =>
    cases a with
    | env e => trivial
    | run i c =>
      intro p hget
      have hget : s.threads[i]? = some p := hget
      simp only [calm, hget, Bool.and_eq_true, decide_eq_true_eq] at h
      obtain ⟨hlen, h⟩ := h
      cases p with
      | call r k =>
        simp only [Bool.and_eq_true, Bool.not_eq_true'] at h
        refine ⟨?_, fun hf => absurd (h.1.symm.trans hf) (by simp)⟩
        have hi := (List.getElem?_eq_some_iff.1 hget).1
        cases r with
        | orderUpdate id data =>
          have hc : CheckHolds s.world id data c := of_decide_eq_true h.2
          exact hc
        | orderFindMany statuses =>
          intro _ _ id _ j p hj hp
          have hj' := (List.getElem?_eq_some_iff.1 hp).1
          omega
        | _ => trivial
      | _ => trivial

/-- A run for the order of `demoPayload` that is cut off when its transaction is applied, and
a recovery pass that records the settlement. -/
def demoRecoveredRun : List (Move Choice Env ServiceCall) :=
  List.replicate 10 (.act (.run 0 {})) ++ .act (.env (.network (.close false))) ::
    .restart [.bootstrap] :: List.replicate 6 (.act (.run 0 {}))

end StatusWrites

/-- The write of `settled` by the recovery pass. -/
theorem status_writes_legal_recovered : ∃ s, s = Config.moves (machine demoConfig)
      (ServiceCall.method demoConfig) StatusWrites.demoRecoveredRun
      ⟨[ServiceCall.paymentReceived (demoPayload "order")].map (ServiceCall.method demoConfig),
        demoWorld [demoCollaborator "A" 10000] [("order", demoOrder .paymentReceived)]⟩ ∧
    statusOf s.world "order" = some .settlementPending ∧
    statusOf (s.move (machine demoConfig) (ServiceCall.method demoConfig)
      (.act (.run 0 {}))).world "order" = some .settled ∧
    canTransition .settlementPending .settled = true ∧ isTerminal .settlementPending = false := by
  have hlegal := status_writes_legal demoConfig [.paymentReceived (demoPayload "order")]
    (demoWorld [demoCollaborator "A" 10000] [("order", demoOrder .paymentReceived)])
    StatusWrites.demoRecoveredRun (.act (.run 0 {}))
    (Config.Through.mono (P := fun s m => StatusWrites.calm demoConfig s m = true)
      (fun _ _ => StatusWrites.meets_of_calm) (by decide))
    _ rfl "order" .settlementPending .settled (by decide) (by decide) (by decide)
  exact ⟨_, rfl, by decide, by decide, hlegal.1, hlegal.2.1⟩

/-- The runs of `overlapping_runs_fail`, without any fault : the second run takes the order
from `settled` to `settlementFailed`. -/
theorem settled_overwritten : ∃ as s, s = Config.run (machine demoConfig) as demoRuns ∧
    statusOf s.world "order" = some .settled ∧
    statusOf (s.act (machine demoConfig) (.run 1 {})).world "order" = some .settlementFailed ∧
    canTransition .settled .settlementFailed = false :=
  ⟨[.run 0 {}, .run 1 {}, .run 0 {}] ++ List.replicate 7 (.run 1 {}) ++
      List.replicate 8 (.run 0 {}) ++ .env (.network (.close false)) ::
        List.replicate 3 (.run 0 {}) ++ [.run 1 {}],
    _, rfl, by decide, by decide, rfl⟩

end Kreav
