import Kreav.CompletedEvents

/-!
# Settled orders and `settlement.completed`

Calls of the services, interleaved in any way, with any faults and with crashes at any
point. The row of `settlements`, the status and the event of an order are three steps, and
nothing repeats the event when a crash or a failed write comes between them. `Meets` is the
condition on the moves : `settled` is written for a recorded order when a call is there that
will emit, and an order that is `settled` before its event is neither left by a crash nor
by a lost write. Then every `settled` order has its event when all calls have ended
(`settled_delivered`).

`Deliveries.Inv` is the invariant : an order that is `settled` and not delivered is held by
a call that emits the event or takes the status back (`Phase.Holds`).
-/

open Async Prog

namespace Kreav

/-- `settlement.completed` was emitted for the order. -/
def Delivered (id : String) (w : World) : Prop :=
  ∃ p ∈ completions w.emitted, p.orderId = id

instance (id : String) (w : World) : Decidable (Delivered id w) :=
  inferInstanceAs (Decidable (∃ p ∈ _, _))

theorem Delivered.log {id : String} {w : World} (h : Delivered id w) (cfg : StellarConfig)
    (v : AppEvent) : Delivered id ((machine cfg).log v w) := by
  obtain ⟨p, hp, hid⟩ := h
  refine ⟨p, ?_, hid⟩
  simp only [machine, completions, List.filterMap_append, List.mem_append]
  exact Or.inl hp

namespace Deliveries

open OrderProtocol

/-- The call waits on an update of the order and emits the event when it is answered. -/
def delivers (id : String) : Method Unit → Bool
  | .call (.orderUpdate id' _) k =>
    match k (.ok ()) with
    | .emit (.settlementCompleted payload) _ => decide (id' = id ∧ payload.orderId = id)
    | _ => false
  | _ => false

/-- A call delivers the order, and it is not the one of thread `i` if the answer to that is an
error. -/
def Delivering (s : Config backend World Unit) (id : String) (i : ℕ) (c : Choice) : Prop :=
  ∃ j < s.threads.length, (∃ p ∈ s.threads[j]?, delivers id p = true) ∧
    (j = i → c.fault = .none)

instance (s : Config backend World Unit) (id : String) (i : ℕ) (c : Choice) :
    Decidable (Delivering s id i c) :=
  inferInstanceAs (Decidable (∃ j < _, (∃ p ∈ _, _) ∧ (_ → _)))

/-- The condition on a request of thread `i`. -/
def Permitted (s : Config backend World Unit) (i : ℕ) : Request → Choice → Prop
  | .orderUpdate id data, c => ¬ Delivered id s.world →
    (data.status = .settled → c.fault ≠ .lost →
      (s.world.db.settlements.lookup id).isSome = true → Delivering s id i c) ∧
    (statusOf s.world id = some .settled →
      data.status = .settled ∨ data.status = .settlementFailed → c.fault ≠ .lost)
  | _, _ => True

/-- The condition on the moves of a run. -/
def Meets (s : Config backend World Unit) : Move Choice Env ServiceCall → Prop
  | .act (.run i c) => ∀ r, s.Waits i r → Permitted s i r c
  | .act (.env _) => True
  | .restart _ => ∀ id ∈ s.world.db.orders.keys, statusOf s.world id = some .settled →
    Delivered id s.world

instance (s : Config backend World Unit) (i : ℕ) : (r : Request) → (c : Choice) →
    Decidable (Permitted s i r c)
  | .orderUpdate _ _, _ =>
    inferInstanceAs (Decidable (_ → (_ → _ → _ → _) ∧ (_ → _ ∨ _ → _)))
  | .productFindUnique _, _ | .userFindUnique _, _ | .orderFindFirst _, _
  | .orderFindUnique _, _ | .orderCreate _, _ | .orderFindMany _, _
  | .orderFindWaiting _, _ | .walletFindFirst _, _ | .walletFindAddress _, _
  | .walletCreate _ _ _, _ | .collaboratorFindMany _, _ | .settlementFindUnique _, _
  | .settlementCreate _, _ | .getUsdcBalance _, _ | .getAccount, _ | .simulateSettle _, _
  | .simulateIsSettled _, _ | .sendTransaction _, _ | .getTransaction _ _, _ => isTrue trivial

instance (s : Config backend World Unit) : (m : Move Choice Env ServiceCall) →
    Decidable (Meets s m)
  | .act (.run i c) =>
    decidable_of_iff (∀ r ∈ s.threads[i]?.bind Prog.request, Permitted s i r c)
      (forall_congr' fun _ => imp_congr_left Config.waits_iff.symm)
  | .act (.env _) => isTrue trivial
  | .restart _ => inferInstanceAs (Decidable (∀ id ∈ _, _ → _))

/-- A call in the phase has seen or created the row. -/
def HasRow : Phase → Prop
  | .recorded => True
  | .created => True
  | .recreated => True
  | .paid => True
  | _ => False

/-- A call in the phase emits the event, or takes the status `settled` back. -/
def Holds : Phase → Prop
  | .created => True
  | .recreated => True
  | .paid => True
  | .bare => True
  | .looked _ => True
  | .failing => True
  | _ => False

/-- What holds of an order in every state : a method that has its row is right, and an order that
is settled and not delivered is in the hands of a method that will deliver it, or take the
status back. -/
structure Inv (id : String) (w : World) (φ : ℕ → Phase) : Prop where
  row : ∀ i, HasRow (φ i) → (w.db.settlements.lookup id).isSome = true
  held : statusOf w id = some .settled → ¬ Delivered id w → ∃ i, Holds (φ i)

variable {cfg : StellarConfig} {id : String} {w w' : World} {φ : ℕ → Phase} {i : ℕ}
  {own : TxHash → Prop}

/-! ## The steps -/

/-- A call that delivers has created the row. -/
theorem phase_of_delivers {p : Method Unit} {φ : Phase} (h : delivers id p = true)
    (hp : p.Conforms (protocol own id) φ) : φ = .created ∨ φ = .recreated := by
  cases p with
  | call r k =>
    cases r with
    | orderUpdate id' data =>
      obtain ⟨φ', hφ', hk⟩ := hp (.ok ()) trivial
      simp only [delivers] at h
      split at h
      · next payload rest he =>
        obtain ⟨rfl, hid⟩ := of_decide_eq_true h
        rw [he] at hk
        obtain ⟨φ'', hv, -⟩ := hk
        have hpaid : φ' = .paid := by
          cases hv with
          | other hne => exact absurd hid (hne payload rfl)
          | completed _ => rfl
        subst hpaid
        cases hφ' with
        | stay hr => exact absurd rfl hr
        | drop hr _ _ => exact absurd rfl hr
        | pay hrec _ =>
          cases hrec with
          | first _ => exact Or.inl rfl
          | again => exact Or.inr rfl
      · cases h
    | _ => cases h
  | _ => cases h

/-- A step of thread `i` that keeps the rows and the events, and leaves the order held. -/
theorem Inv.step (h : Inv id w φ) {φ' : Phase}
    (hrow : (w.db.settlements.lookup id).isSome = true →
      (w'.db.settlements.lookup id).isSome = true)
    (hφ' : HasRow φ' → (w'.db.settlements.lookup id).isSome = true)
    (hheld : statusOf w' id = some .settled → ¬ Delivered id w' →
      ∃ j, Holds (Function.update φ i φ' j)) : Inv id w' (Function.update φ i φ') := by
  refine ⟨?_, hheld⟩
  exact (Function.forall_update_iff φ fun _ ψ => HasRow ψ → _).2
    ⟨hφ', fun j _ hj => hrow (h.row j hj)⟩

theorem holds_self {φ' : Phase} (h : Holds φ') : ∃ j, Holds (Function.update φ i φ' j) :=
  ⟨i, by rwa [Function.update_self]⟩

/-- A request that does not write the order. -/
theorem Inv.unmoved (h : Inv id w φ) (hw : Unmoved id w w') {φ' : Phase}
    (hrow : HasRow φ' → HasRow (φ i) ∨ (w.db.settlements.lookup id).isSome = true)
    (hφ' : statusOf w id = some .settled → Holds (φ i) → Holds φ') :
    Inv id w' (Function.update φ i φ') := by
  have hrows : w'.db.settlements.lookup id = w.db.settlements.lookup id := hw.settlement
  refine h.step (by rw [hrows]; exact fun hr => hr) (fun hr => ?_) fun hs hd => ?_
  · rw [hrows]
    exact (hrow hr).elim (h.row i) fun hr => hr
  · have hs' : statusOf w id = some .settled := by
      rcases hw.status with he | ⟨-, he⟩
      · rwa [← he]
      · rw [hs] at he
        cases he
    rw [Delivered, hw.emitted] at hd
    exact Phases.exists_update (h.held hs' hd) (hφ' hs')

/-- An update of the order, which leaves rows and events as they are. -/
theorem Inv.update (h : Inv id w φ) {data : OrderUpdate} {c : Choice} {φ' : Phase}
    (hφ' : HasRow φ' → HasRow (φ i))
    (hheld : statusOf (exec cfg (.orderUpdate id data) c w).2 id = some .settled →
      ¬ Delivered id w → ∃ j, Holds (Function.update φ i φ' j)) :
    Inv id (exec cfg (.orderUpdate id data) c w).2 (Function.update φ i φ') := by
  have hkeeps : (exec cfg (.orderUpdate id data) c w).2.db.settlements = w.db.settlements ∧
      (exec cfg (.orderUpdate id data) c w).2.emitted = w.emitted := by
    rcases exec_orderUpdate cfg id data c w with ⟨o, -, -, -, hx⟩ | ⟨o, -, -, -, hx⟩ | ⟨e, hx, -⟩
    all_goals
      rw [hx]
      exact ⟨rfl, rfl⟩
  refine h.step (by rw [hkeeps.1]; exact fun hr => hr) (fun hr => ?_) fun hs hd => ?_
  · rw [hkeeps.1]
    exact h.row i (hφ' hr)
  · rw [Delivered, hkeeps.2] at hd
    exact hheld hs hd

/-- An update to another status than `settled`, by a call that does not hold the order. -/
theorem Inv.other (h : Inv id w φ) {data : OrderUpdate} {c : Choice} {φ' : Phase}
    (hdata : data.status ≠ .settled) (hi : ¬ Holds (φ i)) (hφ' : HasRow φ' → HasRow (φ i)) :
    Inv id (exec cfg (.orderUpdate id data) c w).2 (Function.update φ i φ') := by
  refine h.update hφ' fun hs hd => ?_
  rcases statusOf_orderUpdate cfg id data c w with he | ⟨-, he⟩
  · rw [he] at hs
    exact Phases.exists_update (h.held hs hd) fun hi' => absurd hi' hi
  · rw [hs] at he
    exact absurd (Option.some.inj he).symm hdata

/-- The status `settlementFailed`, which is not lost while the order is held. -/
theorem Inv.failed (h : Inv id w φ) {data : OrderUpdate} {c : Choice} {φ' : Phase}
    (hdata : data.status = .settlementFailed) (hp : data.paymentRef = none)
    (hper : ¬ Delivered id w → statusOf w id = some .settled → c.fault ≠ .lost)
    (hφ' : ¬ HasRow φ') :
    Inv id (exec cfg (.orderUpdate id data) c w).2 (Function.update φ i φ') := by
  refine h.update (fun hr => absurd hr hφ') fun hs hd => ?_
  have hfailed : statusOf (exec cfg (.orderUpdate id data) c w).2 id ≠
      some .settlementFailed := by
    rw [hs]
    simp
  rcases statusOf_orderUpdate cfg id data c w with he | ⟨-, he⟩
  · rw [he] at hs
    have ha := (statusOf_orderUpdate_applied cfg hp (hper hd hs) (w := w) (by rw [hs]; rfl)).1
    rw [hdata] at ha
    exact absurd ha hfailed
  · rw [hdata] at he
    exact absurd he hfailed

/-- The status `settled` of an order with a row, by a call that will not emit. Another one
does. -/
theorem Inv.settled {s : Config backend World Unit} (h : Inv id s.world φ)
    (hs : s.Tracks (protocol own id) φ) {data : OrderUpdate} {c : Choice}
    (hdata : data.status = .settled) (hp : data.paymentRef = none)
    (hper : Permitted s i (.orderUpdate id data) c) (hi : HasRow (φ i))
    (hno : φ i = .created ∨ φ i = .recreated →
      (exec cfg (.orderUpdate id data) c s.world).1 ≠ .ok ())
    {φ' : Phase} (hφ' : ¬ HasRow φ') :
    Inv id (exec cfg (.orderUpdate id data) c s.world).2 (Function.update φ i φ') := by
  refine h.update (fun hr => absurd hr hφ') fun hst hd => ?_
  obtain ⟨hdel, hlost⟩ := hper hd
  -- the update is not lost, and the order exists
  have hc : c.fault ≠ .lost ∧ (statusOf s.world id).isSome = true := by
    rcases statusOf_orderUpdate cfg id data c s.world with he | ⟨hsome, -⟩
    · rw [he] at hst
      exact ⟨hlost hst (Or.inl hdata), by rw [hst]; rfl⟩
    · refine ⟨fun hl => ?_, hsome⟩
      have he : (exec cfg (.orderUpdate id data) c s.world).2 = s.world := by
        rw [exec_of_fault_lost cfg s.world hl]
      rw [he] at hst
      exact hlost hst (Or.inl hdata) hl
  obtain ⟨j, -, ⟨p, hj, hpd⟩, hji⟩ := hdel hdata hc.1 (h.row i hi)
  have hphase := phase_of_delivers hpd (hs.thread hj).2
  have hne : j ≠ i := by
    rintro rfl
    exact hno hphase ((statusOf_orderUpdate_applied cfg hp hc.1 hc.2).2 (hji rfl))
  refine ⟨j, ?_⟩
  rw [Function.update_of_ne hne]
  rcases hphase with he | he
  · rw [he]
    trivial
  · rw [he]
    trivial

theorem Inv.log (h : Inv id w φ) {v : AppEvent} {φ' : Phase} (hv : Emits id (φ i) v φ') :
    Inv id ((machine cfg).log v w) (Function.update φ i φ') := by
  generalize hi : φ i = ψ at hv
  cases hv with
  | other _ =>
    subst hi
    rw [Function.update_eq_self]
    exact ⟨h.row, fun hs hd => h.held hs fun hd' => hd (hd'.log cfg v)⟩
  | @completed payload hid =>
    refine h.step (fun hr => hr) (fun hr => hr.elim) fun _ hd => absurd ⟨payload, ?_, hid⟩ hd
    simp [machine, completions]

/-- The creation of the row. -/
theorem Inv.create (h : Inv id w φ) {data : SettlementCreate} (hid : data.orderId = id)
    {c : Choice} {φ' : Phase}
    (hrow : HasRow φ' → (exec cfg (.settlementCreate data) c w).1 = .ok ())
    (hφ' : Holds (φ i) → Holds φ') :
    Inv id (exec cfg (.settlementCreate data) c w).2 (Function.update φ i φ') := by
  have hadd := Completed.lookup_addSettlement (w := w) hid
  have hheld : statusOf w id = some .settled → ¬ Delivered id w →
      ∃ j, Holds (Function.update φ i φ' j) := fun hs hd => Phases.exists_update (h.held hs hd) hφ'
  rcases exec_settlementCreate cfg data c w with ⟨-, -, hx⟩ | ⟨-, -, hx⟩ | ⟨e, hx, -⟩
  · rw [hx]
    exact h.step (fun _ => hadd) (fun _ => hadd) hheld
  · rw [hx]
    exact h.step (fun _ => hadd) (fun _ => hadd) hheld
  · rw [hx] at hrow ⊢
    exact h.step (fun hr => hr) (fun hr => nomatch hrow hr) hheld

/-- A row that was found is there. -/
theorem row_of_found {c : Choice} {x : Settlement}
    (h : (exec cfg (.settlementFindUnique id) c w).1 = .ok (some x)) :
    (w.db.settlements.lookup id).isSome = true := by
  obtain ⟨-, he⟩ := exec_ok cfg h
  have he : w.db.settlements.lookup id = some x := Except.ok.inj he
  rw [he]
  rfl

/-- An order that was not found has no status. -/
theorem statusOf_of_gone {c : Choice}
    (h : (exec cfg (.orderFindUnique id) c w).1 = .ok none) : statusOf w id = none := by
  obtain ⟨-, he⟩ := exec_ok cfg h
  have he : (w.db.orders.lookup id).map (fun o => (o, w.db.creatorOf o.productId)) = none :=
    Except.ok.inj he
  rw [statusOf, Option.map_eq_none_iff.1 he]
  rfl

theorem invariant : (protocol (fun _ => True) id).Invariant (machine cfg)
    (fun s a => Meets s (.act a)) (Inv id) where
  final_rest := Or.inl rfl
  event h hv := h.log hv
  ended {w φ i} h hfinal := by
    have hi : ¬ Holds (φ i) := by
      rcases hfinal with hi | hi <;> rw [hi] <;> exact not_false
    exact h.step (fun hr => hr) (fun hr => hr.elim) fun hs hd =>
      Phases.exists_update (h.held hs hd) fun hi' => absurd hi' hi
  outside {s φ e} h _ := by
    obtain ⟨horders, hsettlements, hemitted, -⟩ := env_keeps cfg e s.world
    refine ⟨fun i hi => ?_, fun hs hd => ?_⟩
    · rw [hsettlements]
      exact h.row i hi
    · rw [statusOf, horders] at hs
      rw [Delivered, hemitted] at hd
      exact h.held hs hd
  reply {s φ i r k c} h hs hget hP := by
    have hw : s.Waits i r := ⟨_, hget, rfl⟩
    refine ⟨answers_exec cfg (owned_any id s.world) r c, fun φ' hφ' hk => .update hk ?_⟩
    have hper : Permitted s i r c := hP r hw
    generalize hi : φ i = ψ at hφ'
    generalize hx : ((machine cfg).exec r c s.world).1 = x at hφ'
    have hread : ¬ Writes id r → (HasRow φ' → HasRow ψ ∨
        (s.world.db.settlements.lookup id).isSome = true) →
          (statusOf s.world id = some .settled → Holds ψ → Holds φ') →
            Inv id ((machine cfg).exec r c s.world).2 (Function.update φ i φ') := fun hr hrow hh =>
      h.unmoved (unmoved_exec cfg hr c s.world) (hi ▸ hrow) (hi ▸ hh)
    have hstray : ∀ {ε}, Stray ε → ¬ HasRow ε := by
      rintro ε (rfl | rfl | rfl) <;> exact not_false
    cases hφ' with
    | stay hr => exact hread hr Or.inl fun _ hh => hh
    | drop hr hφ hε =>
      refine hread hr (fun hrow => absurd hrow (hstray hε)) fun _ hh => ?_
      rcases hφ with rfl | rfl <;> exact hh.elim
    | claim hst =>
      refine h.other ?_ (by rw [hi]; exact not_false) fun hr => hr.elim
      rcases hst with rfl | rfl <;> simp
    | unread => exact hread not_false (fun hr => hr.elim) fun _ hh => hh.elim
    | enter => exact h.other (by simp) (by rw [hi]; exact not_false) fun hr => hr.elim
    | refused => exact h.other (by simp) (by rw [hi]; exact not_false) fun hr => hr.elim
    | found _ => exact hread not_false (fun hr => hr.elim) fun _ hh => hh.elim
    | marker _ => exact hread not_false (fun hr => hr.elim) fun _ hh => hh.elim
    | applied _ => exact hread not_false (fun hr => hr.elim) fun _ hh => hh.elim
    | row => exact hread not_false (fun _ => Or.inr (row_of_found hx)) fun _ hh => hh.elim
    | failed _ _ => exact h.failed rfl rfl (fun hd hs => (hper hd).2 hs (Or.inr rfl)) not_false
    | unfailed _ hε _ =>
      exact h.failed rfl rfl (fun hd hs => (hper hd).2 hs (Or.inr rfl)) (hstray hε)
    | rollback => exact h.other (by simp) (by rw [hi]; exact not_false) fun hr => hr.elim
    | settled _ =>
      refine h.settled hs rfl rfl hper (by rw [hi]; trivial) (fun he => ?_) not_false
      rw [hi] at he
      rcases he with he | he <;> cases he
    | unsettled hε _ =>
      refine h.settled hs rfl rfl hper (by rw [hi]; trivial) (fun he => ?_) (hstray hε)
      rw [hi] at he
      rcases he with he | he <;> cases he
    | create hrec hid _ =>
      refine h.create hid (fun _ => hx) fun hh => ?_
      rw [hi] at hh
      cases hrec with
      | first _ => exact hh.elim
      | again => trivial
    | uncreated hrec hid _ =>
      cases hrec with
      | first hε =>
        refine h.create hid (fun hr => absurd hr (hstray hε)) fun hh => ?_
        rw [hi] at hh
        exact hh.elim
      | again => exact h.create hid (fun hr => hr.elim) fun _ => trivial
    | pay hrec _ =>
      refine h.update (fun _ => ?_) fun _ _ => holds_self trivial
      rw [hi]
      cases hrec <;> trivial
    | unpaid hrec _ =>
      refine h.settled hs rfl rfl hper (by rw [hi]; cases hrec <;> trivial) (fun _ he => ?_) ?_
      · have he' := hx.symm.trans he
        cases he'
      · cases hrec with
        | first hε => exact hstray hε
        | again => exact not_false
    | early => exact h.update (fun hr => hr.elim) fun _ _ => holds_self trivial
    | unsure => exact h.update (fun hr => hr.elim) fun _ _ => holds_self trivial
    | look => exact hread not_false (fun hr => hr.elim) fun _ _ => trivial
    | gone =>
      refine hread not_false (fun hr => hr.elim) fun hst => ?_
      rw [statusOf_of_gone hx] at hst
      cases hst
    | blind => exact hread not_false (fun hr => hr.elim) fun _ _ => trivial
    | empty => exact hread not_false (fun hr => hr.elim) fun _ _ => trivial
    | unlisted => exact hread not_false (fun hr => hr.elim) fun _ _ => trivial

end Deliveries

/-- Calls of the services in any number, interleaved in any way, with any faults, and crashes
after which any calls are made, among them the recovery pass. When all have ended, the event
of every `settled` order was emitted, if all moves meet `Deliveries.Meets`. -/
theorem settled_delivered (cfg : StellarConfig) (calls : List ServiceCall) (w : World)
    (ms : List (Move Choice Env ServiceCall))
    (hw : ∀ id, statusOf w id = some .settled → Delivered id w)
    (hrun : Config.Through (machine cfg) (·.method cfg) Deliveries.Meets ms
      ⟨calls.map (·.method cfg), w⟩)
    (hend : (Config.moves (machine cfg) (·.method cfg) ms
      ⟨calls.map (·.method cfg), w⟩).Ended) :
    ∀ w', w' = (Config.moves (machine cfg) (·.method cfg) ms
        ⟨calls.map (·.method cfg), w⟩).world →
      ∀ id, statusOf w' id = some .settled →
        ∃ p ∈ completions w'.emitted, p.orderId = id := by
  rintro w' rfl id hs
  have ho := OrderProtocol.owns_any id
  have hrestart : ∀ {w : World}, (statusOf w id = some .settled → Delivered id w) →
      Deliveries.Inv id w fun _ => .idle := fun h =>
    ⟨fun _ hr => hr.elim, fun hs hd => absurd (h hs) hd⟩
  obtain ⟨ψ, htracks, hinv⟩ := Deliveries.invariant.moves
    (OrderProtocol.suspended_conforms ho cfg)
    (fun s φ calls _ hcrash => hrestart fun hs => by
      refine hcrash id ?_ hs
      by_contra hmem
      rw [statusOf, AList.lookup_eq_none.2 hmem] at hs
      cases hs) ms
    (Config.tracks_map (OrderProtocol.suspended_conforms ho cfg) _ _)
    (hrestart (hw id)) hrun
  by_contra hd
  obtain ⟨i, hi⟩ := hinv.held hs hd
  rcases htracks.final hend (Or.inl rfl) i with he | he
  · rw [he] at hi
    exact hi
  · rw [he] at hi
    exact hi

/-- The run of `demoRestarted` : the crash comes after the event. -/
theorem settled_delivered_restarted : ∃ w', w' = (Config.moves (machine demoConfig)
      (ServiceCall.method demoConfig) demoRestarted
      ⟨[ServiceCall.paymentReceived (demoPayload "order"),
        .paymentReceived (demoPayload "order")].map (ServiceCall.method demoConfig),
        demoWorld [demoCollaborator "A" 10000] [("order", demoOrder .paymentReceived)]⟩).world ∧
    ∃ p ∈ completions w'.emitted, p.orderId = "order" := by
  refine ⟨_, rfl, settled_delivered demoConfig _ _ _ (fun id hs => ?_) (by decide) (by decide)
    _ rfl "order" (by decide)⟩
  obtain ⟨o, ho, hst⟩ := Option.map_eq_some_iff.1 hs
  have hmem : (⟨id, o⟩ : Sigma fun _ : String => Order) ∈
      [⟨"order", demoOrder .paymentReceived⟩] := AList.mem_lookup_iff.1 ho
  cases List.mem_singleton.1 hmem
  cases hst

/-- The write of `settled` takes effect and is not answered. After the crash the recovery
pass does not look at the order, which is `settled`. -/
theorem settled_undelivered : ∃ s, s = Config.moves (machine demoConfig)
      (ServiceCall.method demoConfig) (List.replicate 10 (.act (.run 0 {})) ++
        .act (.env (.network (.close false))) :: List.replicate 2 (.act (.run 0 {})) ++
          [.act (.run 0 { fault := .unacked }), .restart [.bootstrap], .act (.run 0 {})])
      ⟨[ServiceCall.paymentReceived (demoPayload "order")].map (ServiceCall.method demoConfig),
        demoWorld [demoCollaborator "A" 10000] [("order", demoOrder .paymentReceived)]⟩ ∧
    s.Ended ∧ statusOf s.world "order" = some .settled ∧ completions s.world.emitted = [] :=
  ⟨_, rfl, by decide, by decide, by decide⟩

end Kreav
