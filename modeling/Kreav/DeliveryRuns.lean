import Kreav.Mailer

/-!
# One e-mail for an order

The listeners of `settlement.completed` and the whole backend run together, interleaved in any
way, with any faults and crashes. Each event starts its listener once, if a crash does not come
first. `delivered_once` : an order gets one e-mail at most, to its buyer and with its own
transaction, after its payment was confirmed and the contract settled it. The log does not call
an attempt sent that the provider did not take.

`Inv` is the invariant. A listener that may still send for an order is the only one, and has not
sent (`Phase.about`). It rests on `Completed.Inv`, that an order is completed once.
-/

open Async Prog

namespace Kreav

namespace ProductDelivery

/-! ## The protocol of a listener -/

/-- What a listener knows of the order of its event. -/
inductive Phase
  | idle
  /-- The order is to be read. -/
  | ready (payload : SettlementCompletedPayload)
  /-- The e-mail is to be sent. -/
  | known (payload : SettlementCompletedPayload) (buyerEmail : String)
  /-- The provider took the e-mail. -/
  | sent (buyerEmail : String)
  deriving DecidableEq

/-- The event whose e-mail may still be sent. -/
def Phase.about : Phase → Option SettlementCompletedPayload
  | .ready payload => some payload
  | .known payload _ => some payload
  | _ => none

/-- How the answers change what it knows. -/
inductive Reply (mail : MailConfig) :
    Phase → (r : DeliveryRequest) → Except DeliveryError r.Ans → Phase → Prop
  | read {payload email product} : Reply mail (.ready payload) (.orderFindUnique payload.orderId)
      (.ok (some (Purchase.mk email product))) (.known payload email)
  | missing {payload x} : Reply mail (.ready payload) (.orderFindUnique payload.orderId) x .idle
  | sent {payload email product sender} {response : MailResponse} (h : response.ok = true) :
    Reply mail (.known payload email) (.fetch payload.orderId sender
      (deliveryMail mail email product payload.txHash)) (.ok response) (.sent email)
  | unsent {payload email product sender x} :
    Reply mail (.known payload email) (.fetch payload.orderId sender
      (deliveryMail mail email product payload.txHash)) x .idle
  | logged {email row x} (h : row.recipient = email) :
    Reply mail (.sent email) (.notificationLogCreate row) x .idle
  | attempt {φ row x} (h : row.status = .sent → row.providerMessageId = some "SIMULATED") :
    Reply mail φ (.notificationLogCreate row) x .idle

/-- The protocol of the listener. -/
def protocol (mail : MailConfig) : Protocol delivery Phase where
  answers _ _ := True
  reply := Reply mail
  event _ _ _ := True
  final _ := True
  rest := .idle

variable {mail : MailConfig}

/-- An attempt counts as sent when the provider took the e-mail. -/
theorem follows_send (payload : SettlementCompletedPayload) (email : String)
    (product : PurchasedProduct) :
    (send mail payload.orderId (deliveryMail mail email product payload.txHash)).Follows
      (protocol mail) (fun result φ => result.status = .sent → φ = .sent email)
        (fun _ _ => False) (.known payload email) := by
  unfold send
  split
  · rintro ⟨⟩
  refine Follows.tryCatch (Y := fun _ _ => True) (Follows.bind (R := fun (res : MailResponse) φ =>
    res.ok = true → φ = .sent email) (Follows.ask (fun res _ => ?_) fun e _ => ?_) ?_) ?_
  · by_cases hok : res.ok = true
    · exact ⟨.sent email, .sent hok, fun _ => rfl⟩
    · exact ⟨.idle, .unsent, fun h => absurd h hok⟩
  · exact ⟨.idle, .unsent, trivial⟩
  · intro res φ h
    cases hok : res.ok with
    | true =>
      simp only [Bool.not_true, Bool.false_eq_true, if_false]
      exact fun _ => h hok
    | false =>
      simp only [Bool.not_false, if_true]
      rintro ⟨⟩
  · rintro e φ - ⟨⟩

theorem conforms_method (l : Listening) :
    (l.method mail).Conforms (protocol mail) (.ready l.payload) := by
  refine Follows.tryCatch (Y := fun _ _ => True) (Follows.bind
    (R := fun (found : Option Purchase) φ => ∀ p ∈ found, φ = .known l.payload p.buyerEmail)
      (Follows.ask (fun found _ => ?_) fun e _ => ⟨.idle, .missing, trivial⟩) ?_)
        fun _ _ _ => trivial
  · cases found with
    | none => exact ⟨.idle, .missing, by simp⟩
    | some p => exact ⟨.known l.payload p.buyerEmail, .read, by simp⟩
  · rintro found φ hφ
    rcases found with - | ⟨email, - | product⟩
    · trivial
    · trivial
    obtain rfl : φ = .known l.payload email := hφ _ rfl
    refine Follows.bind ((follows_send l.payload email product).mono (fun _ _ h => h)
      fun _ _ h => h.elim) ?_
    intro result φ h
    cases hs : result.status with
    | sent =>
      obtain rfl := h hs
      exact Follows.ask (fun _ _ => ⟨.idle, .logged rfl, trivial⟩)
        fun _ _ => ⟨.idle, .logged rfl, trivial⟩
    | _ =>
      have hrow : (logRow email result).status = .sent →
          (logRow email result).providerMessageId = some "SIMULATED" := by simp [logRow, hs]
      exact Follows.ask (fun _ _ => ⟨.idle, .attempt hrow, trivial⟩)
        fun _ _ => ⟨.idle, .attempt hrow, trivial⟩

theorem suspended_method (mail : MailConfig) (l : Listening) : (l.method mail).Suspended :=
  trivial

/-! ## The backend next to the listeners -/

/-- The answers of the RPC server are true. -/
def TrueAnswers (s : Config backend World Unit) : Turn Choice MarketStep Endpoint → Prop
  | .act (.run i c) => ∀ r, s.Waits i r → Truthful s.world r c
  | _ => True

/-- The condition on the turns of the backend. -/
def Genuine (gate : Gate) (s : Config backend World Unit)
    (t : Turn Choice MarketStep Endpoint) : Prop :=
  (∀ id, gate.Received id s t) ∧ TrueAnswers s t

theorem conforms_endpoint (cfg : StellarConfig) (gate : Gate) (id : String) (c : Endpoint) :
    (c.method cfg gate).Suspended ∧
      (c.method cfg gate).Conforms (OrderProtocol.protocol (Completed.Own id) id) .idle := by
  refine ⟨PaymentGate.suspended_method cfg gate c, ?_⟩
  have hservice := fun c => (OrderProtocol.suspended_conforms (Completed.owns id) cfg c).2
  cases c with
  | checkout productId buyerEmail => exact hservice (.checkout productId buyerEmail)
  | connect creatorId walletAddress provider =>
    exact hservice (.connect creatorId walletAddress provider)
  | paymentReceived payload => exact hservice (.paymentReceived payload)
  | bootstrap => exact hservice .bootstrap
  | simulatePayment id' => exact hservice (.payment (.simulate gate.isDemo id'))
  | handleGcashWebhook req =>
    rcases PaymentGate.handleGcashWebhook_cases gate req with ⟨answer, he⟩ | ⟨-, he⟩
    · rw [Endpoint.method, he]
      exact Or.inl rfl
    · rw [Endpoint.method, he]
      have hk := Stays.compositional (OrderProtocol.protocol (Completed.Own id) id) .idle
      have hstays : (handleGcashPayment req.dto.orderId req.dto.paymentRef).Stays
          (OrderProtocol.protocol (Completed.Own id) id) .idle :=
        OrderProtocol.stays_handleGcashPayment _ _
      exact (hk.bind (hk.bind hstays fun _ => hk.ret _) fun _ => hk.ret ()).follows
        (fun _ => Or.inl rfl) fun _ => Or.inl rfl

variable {cfg : StellarConfig} {gate : Gate}

/-- An order is completed once, with the products service in between. -/
theorem completed_invariant (cfg : StellarConfig) (id : String) :
    (OrderProtocol.protocol (Completed.Own id) id).Invariant (market cfg)
      (fun s a => TrueAnswers s (.act a)) (Completed.Inv id) := by
  refine Completed.invariant.of_outside (M := machine cfg) rfl rfl (fun s i c h => h) ?_
  intro s φ e h _
  rw [← Function.update_eq_self 0 φ]
  refine h.keeps ?_ Or.inl fun ht => ht
  cases e with
  | backend e => exact h.sound.env e
  | catalog call r c => exact h.sound.unmoved (OrderProtocol.unmoved_catalog cfg id r c s.world)

/-- The backend as far as an order is concerned. -/
def Single (id : String) (s : Config backend World Unit) : Prop :=
  ∃ ψ, s.Tracks (OrderProtocol.protocol (Completed.Own id) id) ψ ∧ Completed.Inv id s.world ψ

theorem Single.turn {id : String} {s : Config backend World Unit} (h : Single id s)
    {t : Turn Choice MarketStep Endpoint} (ht : TrueAnswers s t) :
    Single id (s.turn (market cfg) (Endpoint.method cfg gate) t) := by
  obtain ⟨ψ, hs, hI⟩ := h
  refine (completed_invariant cfg id).turns (P := TrueAnswers) (fun s φ i c h _ hrest => ?_)
    (fun s φ h _ => ⟨h.sound, fun _ h => h.elim, fun _ h => h.elim, fun _ _ h => h.elim,
      h.emitted, h.once⟩) [t] hs hI ⟨ht, trivial⟩
  obtain ⟨hsus, hconf⟩ := conforms_endpoint cfg gate id c
  refine ⟨.idle, hsus, hconf, ?_⟩
  rwa [← show φ i = .idle from hrest, Function.update_eq_self]

/-- Orders stay with their buyer, and events are only added. -/
structure Grows (w w' : World) : Prop where
  orders : ∀ id o, w.db.orders.lookup id = some o →
    ∃ o', w'.db.orders.lookup id = some o' ∧ o'.buyerEmail = o.buyerEmail
  emitted : w.emitted <+: w'.emitted

theorem Grows.of_orders {w w' : World} (ho : w'.db.orders = w.db.orders)
    (he : w'.emitted = w.emitted) : Grows w w' :=
  ⟨fun id o h => ⟨o, by rwa [ho], rfl⟩, he ▸ List.prefix_rfl⟩

theorem Grows.refl (w : World) : Grows w w :=
  .of_orders rfl rfl

theorem Grows.trans {w w' w'' : World} (h : Grows w w') (h' : Grows w' w'') : Grows w w'' where
  orders id o ho := by
    obtain ⟨o', ho', he⟩ := h.orders id o ho
    obtain ⟨o'', ho'', he'⟩ := h'.orders id o' ho'
    exact ⟨o'', ho'', he'.trans he⟩
  emitted := h.emitted.trans h'.emitted

/-- A new order, or an update that keeps the buyer. -/
theorem grows_setOrder {w : World} {id : String} {o : Order}
    (h : ∀ o', w.db.orders.lookup id = some o' → o.buyerEmail = o'.buyerEmail) :
    Grows w (w.setOrder id o) := by
  refine ⟨fun id' o' ho' => ?_, List.prefix_rfl⟩
  by_cases hid : id' = id
  · subst hid
    exact ⟨o, w.setOrder_lookup _ _, h o' ho'⟩
  · exact ⟨o', by rwa [w.setOrder_lookup_ne _ hid], rfl⟩

theorem grows_exec (cfg : StellarConfig) (r : Request) (c : Choice) (w : World) :
    Grows w (Kreav.exec cfg r c w).2 := by
  by_cases hread : r.reads = true
  · rw [exec_reads cfg hread]
    exact .refl w
  cases r with
  | orderCreate data =>
    rcases exec_orderCreate cfg data c w with ⟨x, hn, hx⟩ | ⟨e, hx⟩
    · rw [hx]
      refine grows_setOrder fun o' ho' => ?_
      rw [hn] at ho'
      cases ho'
    · rw [hx]
      exact .refl w
  | orderUpdate id data =>
    have hupdate : ∀ o, w.db.orders.lookup id = some o →
        Grows w (w.setOrder id (data.applyTo o)) := fun o ho => by
      refine grows_setOrder fun o' ho' => ?_
      obtain rfl := Option.some.inj (ho.symm.trans ho')
      rfl
    rcases exec_orderUpdate cfg id data c w with
      ⟨o, -, ho, -, hx⟩ | ⟨o, -, ho, -, hx⟩ | ⟨e, hx, -⟩
    · rw [hx]
      exact hupdate o ho
    · rw [hx]
      exact hupdate o ho
    · rw [hx]
      exact .refl w
  | walletCreate creatorId walletAddress provider =>
    rcases exec_walletCreate cfg creatorId walletAddress provider c w with
      ⟨wallet, -, -, hx⟩ | ⟨wallet, -, -, hx⟩ | ⟨e, hx⟩ <;>
    · rw [hx]
      exact .of_orders rfl rfl
  | settlementCreate data =>
    rcases exec_settlementCreate cfg data c w with ⟨-, -, hx⟩ | ⟨-, -, hx⟩ | ⟨e, hx, -⟩ <;>
    · rw [hx]
      exact .of_orders rfl rfl
  | sendTransaction tx =>
    rcases exec_sendTransaction_world cfg tx c w with hx | hx <;>
    · rw [hx]
      exact .of_orders rfl rfl
  | _ => exact absurd rfl hread

theorem grows_turn (s : Config backend World Unit) (t : Turn Choice MarketStep Endpoint) :
    Grows s.world (s.turn (market cfg) (Endpoint.method cfg gate) t).world := by
  refine Config.turn_world Grows.refl Grows.trans (grows_exec cfg) (fun v w => ?_)
    (fun e w => ?_) s t
  · exact ⟨fun id o h => ⟨o, h, rfl⟩, List.prefix_append _ _⟩
  · cases e with
    | backend e =>
      obtain ⟨horders, -, hemitted, -⟩ := env_keeps cfg e w
      exact .of_orders horders hemitted
    | catalog call r c =>
      obtain ⟨horders, -, hemitted, -⟩ := catalogExec_keeps cfg r c w
      exact .of_orders horders hemitted

/-! ## The invariant -/

variable {used : List ℕ} {w w' : PostWorld} {φ : ℕ → Phase} {i : ℕ}

/-- The event of a listener that has started. -/
def Announced (used : List ℕ) (w : PostWorld) (p : SettlementCompletedPayload) : Prop :=
  ∃ n ∈ used, (completions w.backend.world.emitted)[n]? = some p

/-- The buyer of an order. -/
def Buys (w : PostWorld) (id email : String) : Prop :=
  ∃ o, w.backend.world.db.orders.lookup id = some o ∧ o.buyerEmail = email

/-- The e-mail of an event that has a listener, to the buyer. -/
def Delivers (mail : MailConfig) (used : List ℕ) (w : PostWorld) (m : Mail) : Prop :=
  ∃ p, Announced used w p ∧ p.orderId = m.orderId ∧ ∃ email product, Buys w p.orderId email ∧
    m.input = deliveryMail mail email product p.txHash

/-- The provider took an e-mail for the recipient. -/
def Took (w : PostWorld) (recipient : String) : Prop :=
  ∃ m ∈ w.outbox, m.input.recipient = recipient

/-- What holds in every state : the backend emits one event for each order at most, each e-mail is
that of an event with a listener, and no two listeners have the same order in hand. -/
structure Inv (mail : MailConfig) (used : List ℕ) (w : PostWorld) (φ : ℕ → Phase) : Prop where
  backend : ∀ id, Single id w.backend
  mails : (w.outbox.map (·.orderId)).Nodup
  sent : ∀ m ∈ w.outbox, Delivers mail used w m
  pending : ∀ i, ∀ p ∈ (φ i).about, Announced used w p ∧ ∀ m ∈ w.outbox, m.orderId ≠ p.orderId
  known : ∀ i p email, φ i = .known p email → Buys w p.orderId email
  apart : ∀ i j, ∀ p ∈ (φ i).about, ∀ q ∈ (φ j).about, p.orderId = q.orderId → i = j
  taken : ∀ i email, φ i = .sent email → Took w email
  logs : ∀ row ∈ w.logs, row.status = .sent → row.providerMessageId = some "SIMULATED" ∨
    Took w row.recipient

theorem completions_prefix {events events' : List AppEvent} (h : events <+: events') :
    completions events <+: completions events' :=
  h.filterMap _

/-- An order has one event. -/
theorem index_unique {l : List SettlementCompletedPayload} {id : String} :
    ∀ {n n' : ℕ} {p p' : SettlementCompletedPayload}, (l.filter (·.orderId = id)).length ≤ 1 →
      l[n]? = some p → l[n']? = some p' → p.orderId = id → p'.orderId = id → n = n' := by
  induction l with
  | nil => simp
  | cons x l ih =>
    intro n n' p p' hlen hn hn' hp hp'
    have hnone : x.orderId = id → ∀ {m : ℕ} {q : SettlementCompletedPayload}, l[m]? = some q →
        q.orderId ≠ id := by
      intro hx m q hq hid
      have hmem : q ∈ l.filter (·.orderId = id) :=
        List.mem_filter.2 ⟨List.mem_of_getElem? hq, decide_eq_true hid⟩
      rw [List.filter_cons_of_pos (by simpa using hx), List.length_cons] at hlen
      have := List.length_pos_of_mem hmem
      omega
    cases n with
    | zero =>
      obtain rfl : x = p := by simpa using hn
      cases n' with
      | zero => rfl
      | succ m' => exact absurd hp' (hnone hp (by simpa using hn'))
    | succ m =>
      cases n' with
      | zero =>
        obtain rfl : x = p' := by simpa using hn'
        exact absurd hp (hnone hp' (by simpa using hn))
      | succ m' =>
        have hle : (l.filter (·.orderId = id)).length ≤ 1 :=
          ((List.sublist_cons_self x l).filter _).length_le.trans hlen
        exact congrArg (· + 1) (ih hle (by simpa using hn) (by simpa using hn') hp hp')

namespace Inv

/-- The events with listeners have different orders. -/
theorem index_eq (h : Inv mail used w φ) {n n' : ℕ} {p p' : SettlementCompletedPayload}
    (hn : (completions w.backend.world.emitted)[n]? = some p)
    (hn' : (completions w.backend.world.emitted)[n']? = some p')
    (hid : p.orderId = p'.orderId) : n = n' := by
  obtain ⟨ψ, -, hI⟩ := h.backend p'.orderId
  exact index_unique hI.once hn hn' hid rfl

/-- The next phase of a listener that has no more to send than before. -/
theorem update (h : Inv mail used w φ) {φ' : Phase}
    (habout : ∀ p ∈ φ'.about, p ∈ (φ i).about)
    (hknown : ∀ p email, φ' = .known p email → Buys w p.orderId email)
    (htaken : ∀ email, φ' = .sent email → Took w email) :
    Inv mail used w (Function.update φ i φ') where
  backend := h.backend
  mails := h.mails
  sent := h.sent
  pending := (Function.forall_update_iff φ fun _ ψ => ∀ p ∈ ψ.about, Announced used w p ∧
    ∀ m ∈ w.outbox, m.orderId ≠ p.orderId).2
      ⟨fun p hp => h.pending i p (habout p hp), fun j _ => h.pending j⟩
  known := (Function.forall_update_iff φ fun _ ψ => ∀ p email, ψ = .known p email →
    Buys w p.orderId email).2 ⟨hknown, fun j _ => h.known j⟩
  apart j k p hp q hq he := by
    have hsub : ∀ j, ∀ p ∈ (Function.update φ i φ' j).about, p ∈ (φ j).about := fun j p =>
      Phases.of_update (T := fun ψ : Phase => p ∈ ψ.about) (habout p) j
    exact h.apart j k p (hsub j p hp) q (hsub k q hq) he
  taken := (Function.forall_update_iff φ fun _ ψ => ∀ email, ψ = .sent email → Took w email).2
    ⟨htaken, fun j _ => h.taken j⟩
  logs := h.logs

theorem idle (h : Inv mail used w φ) (i : ℕ) :
    Inv mail used w (Function.update φ i .idle) :=
  h.update (by simp [Phase.about]) (by simp) (by simp)

/-- The provider takes the e-mail of an order that has none. -/
theorem took (h : Inv mail used w φ) {payload : SettlementCompletedPayload} {email : String}
    (hi : φ i = .known payload email) (product : PurchasedProduct) (sender : Option String)
    {φ' : Phase} (hφ' : φ' = .sent email ∨ φ' = .idle) :
    Inv mail used { w with outbox := w.outbox ++ [⟨payload.orderId, sender,
      deliveryMail mail email product payload.txHash⟩] } (Function.update φ i φ') := by
  have hi' : payload ∈ (φ i).about := by simp [hi, Phase.about]
  obtain ⟨hann, hfresh⟩ := h.pending i payload hi'
  have habout : φ'.about = none := by rcases hφ' with rfl | rfl <;> rfl
  have hnone : ∀ p ∈ φ'.about, False := by simp [habout]
  have hothers : ∀ j, ∀ p ∈ (Function.update φ i φ' j).about, j ≠ i ∧ p ∈ (φ j).about :=
    (Function.forall_update_iff φ fun j ψ => ∀ p ∈ ψ.about, j ≠ i ∧ p ∈ (φ j).about).2
      ⟨fun p hp => (hnone p hp).elim, fun j hj p hp => ⟨hj, hp⟩⟩
  refine ⟨h.backend, ?_, fun m hm => ?_, fun j p hp => ?_, ?_, fun j k p hp q hq he => ?_, ?_,
    fun row hrow hs => ?_⟩
  · rw [List.map_append, List.map_singleton]
    refine List.nodup_append.2 ⟨h.mails, List.nodup_singleton _, ?_⟩
    rintro _ hm _ hm' rfl
    obtain ⟨m, hm, he⟩ := List.mem_map.1 hm
    exact hfresh m hm (he.trans (List.mem_singleton.1 hm'))
  · rcases List.mem_append.1 hm with hm | hm
    · exact h.sent m hm
    · rw [List.mem_singleton.1 hm]
      exact ⟨payload, hann, rfl, email, product, h.known i _ _ hi, rfl⟩
  · obtain ⟨hj, hp⟩ := hothers j p hp
    refine ⟨(h.pending j p hp).1, fun m hm he => ?_⟩
    rcases List.mem_append.1 hm with hm | hm
    · exact (h.pending j p hp).2 m hm he
    · rw [List.mem_singleton.1 hm] at he
      exact hj (h.apart j i p hp payload hi' he.symm)
  · refine (Function.forall_update_iff φ fun _ ψ => ∀ p email, ψ = .known p email →
      Buys w p.orderId email).2 ⟨fun p email' he => ?_, fun j _ => h.known j⟩
    simp [he, Phase.about] at habout
  · exact h.apart j k p (hothers j p hp).2 q (hothers k q hq).2 he
  · intro j email' he
    by_cases hj : j = i
    · subst hj
      rw [Function.update_self] at he
      rcases hφ' with rfl | rfl
      · obtain rfl := Phase.sent.inj he
        exact ⟨_, List.mem_append_right _ (List.mem_singleton.2 rfl), rfl⟩
      · cases he
    · rw [Function.update_of_ne hj] at he
      obtain ⟨m, hm, hr⟩ := h.taken j email' he
      exact ⟨m, List.mem_append_left _ hm, hr⟩
  · refine (h.logs row hrow hs).imp_right ?_
    rintro ⟨m, hm, hr⟩
    exact ⟨m, List.mem_append_left _ hm, hr⟩

/-- A row of the log. -/
theorem log (h : Inv mail used w φ) {row : NotificationRow}
    (hrow : row.status = .sent → row.providerMessageId = some "SIMULATED" ∨
      Took w row.recipient) : Inv mail used { w with logs := w.logs ++ [row] } φ :=
  { h with
    logs := fun row' hm => by
      rcases List.mem_append.1 hm with hm | hm
      · exact h.logs row' hm
      · rwa [List.mem_singleton.1 hm] }

/-- A turn of the backend. -/
theorem turn (h : Inv mail used w φ) {t : Turn Choice MarketStep Endpoint}
    (ht : TrueAnswers w.backend t) :
    Inv mail used { w with backend := w.backend.turn (market cfg) (Endpoint.method cfg gate) t }
      φ := by
  have hg : Grows w.backend.world
      (w.backend.turn (market cfg) (Endpoint.method cfg gate) t).world := grows_turn w.backend t
  have hann : ∀ {p}, Announced used w p → Announced used
      { w with backend := w.backend.turn (market cfg) (Endpoint.method cfg gate) t } p := by
    rintro p ⟨n, hn, hp⟩
    obtain ⟨rest, hrest⟩ := completions_prefix hg.emitted
    refine ⟨n, hn, ?_⟩
    rw [← hrest, List.getElem?_append_left (List.getElem?_eq_some_iff.1 hp).1]
    exact hp
  have hbuys : ∀ {id email}, Buys w id email → Buys
      { w with backend := w.backend.turn (market cfg) (Endpoint.method cfg gate) t } id email := by
    rintro id email ⟨o, ho, rfl⟩
    exact hg.orders id o ho
  refine ⟨fun id => (h.backend id).turn ht, h.mails, fun m hm => ?_, fun i p hp => ?_,
    fun i p email he => hbuys (h.known i p email he), h.apart, h.taken, h.logs⟩
  · obtain ⟨p, hp, hid, email, product, hb, hinput⟩ := h.sent m hm
    exact ⟨p, hann hp, hid, email, product, hbuys hb, hinput⟩
  · exact ⟨hann (h.pending i p hp).1, (h.pending i p hp).2⟩

/-- The listener of a new event. -/
theorem call (h : Inv mail used w φ) {l : Listening}
    (hl : (completions w.backend.world.emitted)[l.index]? = some l.payload)
    (hnew : l.index ∉ used) (i : ℕ) :
    Inv mail (l.index :: used) w (Function.update φ i (.ready l.payload)) := by
  have hann : ∀ {p}, Announced used w p → Announced (l.index :: used) w p := by
    rintro p ⟨n, hn, hp⟩
    exact ⟨n, List.mem_cons_of_mem _ hn, hp⟩
  have hother : ∀ {p}, Announced used w p → p.orderId ≠ l.payload.orderId := by
    rintro p ⟨n, hn, hp⟩ he
    exact hnew (h.index_eq hp hl he ▸ hn)
  refine ⟨h.backend, h.mails, fun m hm => ?_, ?_, ?_, fun j k p hp q hq he => ?_, ?_, h.logs⟩
  · obtain ⟨p, hp, hid, hb⟩ := h.sent m hm
    exact ⟨p, hann hp, hid, hb⟩
  · refine (Function.forall_update_iff φ fun _ ψ => ∀ p ∈ ψ.about,
      Announced (l.index :: used) w p ∧ ∀ m ∈ w.outbox, m.orderId ≠ p.orderId).2
        ⟨fun p hp => ?_, fun j _ p hp => ⟨hann (h.pending j p hp).1, (h.pending j p hp).2⟩⟩
    obtain rfl : l.payload = p := by simpa [Phase.about] using hp
    refine ⟨⟨l.index, List.mem_cons_self, hl⟩, fun m hm he => ?_⟩
    obtain ⟨p, hp, hid, -⟩ := h.sent m hm
    exact hother hp (hid.trans he)
  · exact (Function.forall_update_iff φ fun _ ψ => ∀ p email, ψ = .known p email →
      Buys w p.orderId email).2 ⟨fun p email he => by simp at he, fun j _ => h.known j⟩
  · by_cases hj : j = i
    · by_cases hk : k = i
      · exact hj.trans hk.symm
      · subst hj
        rw [Function.update_self] at hp
        rw [Function.update_of_ne hk] at hq
        obtain rfl : l.payload = p := by simpa [Phase.about] using hp
        exact absurd he.symm (hother (h.pending k q hq).1)
    · rw [Function.update_of_ne hj] at hp
      by_cases hk : k = i
      · subst hk
        rw [Function.update_self] at hq
        obtain rfl : l.payload = q := by simpa [Phase.about] using hq
        exact absurd he (hother (h.pending j p hp).1)
      · rw [Function.update_of_ne hk] at hq
        exact h.apart j k p hp q hq he
  · exact (Function.forall_update_iff φ fun _ ψ => ∀ email, ψ = .sent email → Took w email).2
      ⟨fun email he => by simp at he, fun j _ => h.taken j⟩

/-- A crash ends the listeners. -/
theorem crash (h : Inv mail used w φ) : Inv mail used w fun _ => .idle :=
  { h with
    pending := by simp [Phase.about]
    known := by simp
    apart := by simp [Phase.about]
    taken := by simp }

end Inv

/-! ## Every run -/

/-- The turns of the backend are genuine, and a listener is that of an emitted event. -/
def Admitted (gate : Gate) (s : Config delivery PostWorld Unit) :
    Turn PostChoice (Turn Choice MarketStep Endpoint) Listening → Prop
  | .act (.env t) => Genuine gate s.world.backend t
  | .call l => (completions s.world.backend.world.emitted)[l.index]? = some l.payload
  | _ => True

theorem exec_find (id : String) (c : PostChoice) (w : PostWorld) :
    (exec (.orderFindUnique id) c w).2 = w := by
  unfold exec
  split <;> rfl

theorem exec_find_ok {id : String} {c : PostChoice} {w : PostWorld} {found : Option Purchase}
    (h : (exec (.orderFindUnique id) c w).1 = .ok found) :
    found = purchase w.backend.world.db id := by
  unfold exec at h
  split at h
  · exact (Except.ok.inj h).symm
  · cases h
  · cases h

/-- The provider takes an e-mail, or it answers that it does not. -/
theorem exec_fetch (id : String) (sender : Option String) (input : MailInput) (c : PostChoice)
    (w : PostWorld) :
    (exec (.fetch id sender input) c w).2 = { w with outbox := w.outbox ++ [⟨id, sender, input⟩] } ∨
      (exec (.fetch id sender input) c w).2 = w ∧ ∀ response : MailResponse,
        (exec (.fetch id sender input) c w).1 = .ok response → response.ok = false := by
  have heffect : (effect (.fetch id sender input) c w).2 =
      { w with outbox := w.outbox ++ [⟨id, sender, input⟩] } ∨
        (effect (.fetch id sender input) c w).2 = w ∧ c.response.ok = false := by
    cases hok : c.response.ok with
    | true => exact .inl (by simp [effect, hok])
    | false => exact .inr ⟨by simp [effect, hok], rfl⟩
  unfold exec
  split
  · refine heffect.imp_right fun h => ⟨h.1, fun response he => ?_⟩
    obtain rfl : c.response = response := Except.ok.inj he
    exact h.2
  · exact .inr ⟨rfl, fun _ he => by cases he⟩
  · exact heffect.imp_right fun h => ⟨h.1, fun _ he => by cases he⟩

theorem exec_log (row : NotificationRow) (c : PostChoice) (w : PostWorld) :
    (exec (.notificationLogCreate row) c w).2 = w ∨
      (exec (.notificationLogCreate row) c w).2 = { w with logs := w.logs ++ [row] } := by
  unfold exec
  split
  · exact .inr rfl
  · exact .inl rfl
  · exact .inr rfl

theorem Inv.reply (h : Inv mail used w φ) {r : DeliveryRequest} {c : PostChoice} {φ' : Phase}
    (hr : Reply mail (φ i) r (exec r c w).1 φ') :
    Inv mail used (exec r c w).2 (Function.update φ i φ') := by
  generalize hi : φ i = ψ at hr
  generalize hx : (exec r c w).1 = x at hr
  have hlog : ∀ {row : NotificationRow}, (row.status = .sent →
      row.providerMessageId = some "SIMULATED" ∨ Took w row.recipient) →
        Inv mail used (exec (.notificationLogCreate row) c w).2 (Function.update φ i .idle) := by
    intro row hrow
    rcases exec_log row c w with hw | hw <;> rw [hw]
    · exact h.idle i
    · exact (h.log hrow).idle i
  cases hr with
  | @read payload email product =>
    rw [exec_find]
    have hfound := exec_find_ok hx
    refine h.update (by simp [hi, Phase.about]) (fun p email' he => ?_) (by simp)
    obtain ⟨rfl, rfl⟩ := Phase.known.inj he
    obtain ⟨o, ho, he⟩ := Option.map_eq_some_iff.1 hfound.symm
    exact ⟨o, ho, (Purchase.mk.inj he).1⟩
  | missing =>
    rw [exec_find]
    exact h.idle i
  | @sent payload email product sender response hok =>
    rcases exec_fetch payload.orderId sender (deliveryMail mail email product payload.txHash) c w
      with hw | ⟨-, hno⟩
    · rw [hw]
      exact h.took hi product sender (.inl rfl)
    · rw [hno response hx] at hok
      cases hok
  | @unsent payload email product sender =>
    rcases exec_fetch payload.orderId sender (deliveryMail mail email product payload.txHash) c w
      with hw | ⟨hw, -⟩ <;> rw [hw]
    · exact h.took hi product sender (.inr rfl)
    · exact h.idle i
  | @logged email row _ he => exact hlog fun _ => .inr (he ▸ h.taken i email hi)
  | attempt hrow => exact hlog fun hs => .inl (hrow hs)

theorem invariant (cfg : StellarConfig) (gate : Gate) (mail : MailConfig) (used : List ℕ) :
    (protocol mail).Invariant (postOffice cfg gate) (fun s a => Admitted gate s (.act a))
      (Inv mail used) where
  final_rest := trivial
  event {_ _ _ v} _ _ := v.elim
  ended h _ := h.idle _
  outside h ht := h.turn ht.2
  reply h _ _ _ := ⟨trivial, fun _ hφ' hk => .update hk (h.reply hφ')⟩

/-- The turns of the backend. -/
def backendTurns (ts : List (Turn PostChoice (Turn Choice MarketStep Endpoint) Listening)) :
    List (Turn Choice MarketStep Endpoint) :=
  ts.filterMap fun
    | .act (.env t) => some t
    | _ => none

theorem backend_act_run (s : Config delivery PostWorld Unit) (i : ℕ) (c : PostChoice) :
    (s.act (postOffice cfg gate) (.run i c)).world.backend = s.world.backend := by
  refine Config.run_world (M := postOffice cfg gate) (R := fun w w' => w'.backend = w.backend)
    (fun _ => rfl) (fun h h' => Eq.trans h' h) (fun r c w => ?_) (fun _ _ => rfl) s i c
  have heffect : (effect r c w).2.backend = w.backend := by
    cases r with
    | fetch orderId sender input =>
      simp only [effect]
      split <;> rfl
    | _ => rfl
  show (exec r c w).2.backend = w.backend
  unfold exec
  split
  · exact heffect
  · rfl
  · exact heffect

/-- The backend runs as it would without listeners. -/
theorem backend_turns : ∀ (ts : List (Turn PostChoice (Turn Choice MarketStep Endpoint) Listening))
    (s : Config delivery PostWorld Unit),
      Config.During (postOffice cfg gate) (Listening.method mail) (Admitted gate) ts s →
        (Config.turns (postOffice cfg gate) (Listening.method mail) ts s).world.backend =
          Config.turns (market cfg) (Endpoint.method cfg gate) (backendTurns ts)
            s.world.backend ∧
        Config.During (market cfg) (Endpoint.method cfg gate) (Genuine gate) (backendTurns ts)
          s.world.backend
  | [], _, _ => ⟨rfl, trivial⟩
  | .act (.env t) :: ts, s, h => by
    obtain ⟨heq, hduring⟩ := backend_turns ts _ h.2
    exact ⟨heq, h.1, hduring⟩
  | .act (.run i c) :: ts, s, h => by
    obtain ⟨heq, hduring⟩ := backend_turns ts _ h.2
    have hb : (s.turn (postOffice cfg gate) (Listening.method mail) (.act (.run i c))).world.backend
        = s.world.backend := backend_act_run s i c
    rw [hb] at heq hduring
    exact ⟨heq, hduring⟩
  | .call l :: ts, s, h => backend_turns ts ⟨s.threads ++ [l.method mail], s.world⟩ h.2
  | .crash :: ts, s, h => backend_turns ts ⟨[], s.world⟩ h.2

/-! ### The start -/

theorem single_of_consistent {w : World} (hw : Consistent w) (id : String) :
    Single id ⟨[], w⟩ := by
  refine ⟨fun _ => .idle, ⟨fun hp => by simp at hp, fun _ => rfl⟩, ⟨⟨?_, ?_⟩, ?_, ?_⟩,
    fun _ h => h.elim, fun _ h => h.elim, fun _ _ h => h.elim, ?_, ?_⟩
  · rintro o ho _ hhash tx rfl
    exact hw.orders id o tx ho hhash
  · exact fun s hs tx htx => hw.settlements id s tx hs htx
  · rintro tx hr rfl
    exact of_decide_eq_true (hw.results tx hr)
  · exact fun hrow => of_decide_eq_true (hw.settled id hrow)
  · intro hne
    obtain ⟨p, hp⟩ := List.exists_mem_of_ne_nil _ hne
    obtain ⟨hmem, hid⟩ := List.mem_filter.1 hp
    obtain rfl : p.orderId = id := of_decide_eq_true hid
    exact hw.emitted p hmem
  · have hcount := List.nodup_iff_count_le_one.1 hw.once id
    rwa [List.count_eq_countP, List.countP_map, List.countP_eq_length_filter] at hcount

theorem inv_start {w : World} (hw : Consistent w) :
    Inv mail [] ⟨⟨[], w⟩, [], []⟩ fun _ => .idle where
  backend := single_of_consistent hw
  mails := List.nodup_nil
  sent _ hm := absurd hm List.not_mem_nil
  pending := by simp [Phase.about]
  known := by simp
  apart := by simp [Phase.about]
  taken := by simp
  logs _ hm := absurd hm List.not_mem_nil

/-- An order whose event was emitted is settled. -/
theorem Single.settled {id : String} {s : Config backend World Unit} (h : Single id s)
    {p : SettlementCompletedPayload} (hp : p ∈ completions s.world.emitted)
    (hid : p.orderId = id) : isSettled id s.world.chain.contract = true := by
  obtain ⟨ψ, -, hI⟩ := h
  have hmem : p ∈ Completed.eventsOf id s.world := List.mem_filter.2 ⟨hp, decide_eq_true hid⟩
  exact decide_eq_true (hI.sound.row (hI.emitted (List.ne_nil_of_mem hmem)))

end ProductDelivery

open ProductDelivery

/-- Listeners of `settlement.completed` next to the whole backend, in any interleaving, with any
faults and crashes, each event with one listener at most, among true answers of the RPC server,
from a consistent state. An order gets at most one e-mail. It goes to the buyer with the
transaction of the event, and the contract has settled the order. An order that was unpaid has
been confirmed by a call. A row of the log that says `sent` without `SIMULATED` has an e-mail to
its recipient. -/
theorem delivered_once (cfg : StellarConfig) (gate : Gate) (mail : MailConfig) (w : World)
    (ts : List (Turn PostChoice (Turn Choice MarketStep Endpoint) Listening)) (hw : Consistent w)
    (hrun : Config.During (postOffice cfg gate) (Listening.method mail) (Admitted gate) ts
      ⟨[], ⟨⟨[], w⟩, [], []⟩⟩) (honce : (arrived Listening.index ts).Nodup) :
    ∀ w', w' = (Config.turns (postOffice cfg gate) (Listening.method mail) ts
        ⟨[], ⟨⟨[], w⟩, [], []⟩⟩).world →
      (w'.outbox.map (·.orderId)).Nodup ∧
      (∀ m ∈ w'.outbox, isSettled m.orderId w'.backend.world.chain.contract = true ∧
        (∃ o p product, w'.backend.world.db.orders.lookup m.orderId = some o ∧
          p ∈ completions w'.backend.world.emitted ∧ p.orderId = m.orderId ∧
            m.input = deliveryMail mail o.buyerEmail product p.txHash) ∧
        (Unpaid m.orderId w →
          ∃ c, .call c ∈ backendTurns ts ∧ gate.Confirms m.orderId c)) ∧
      ∀ row ∈ w'.logs, row.status = .sent → row.providerMessageId = some "SIMULATED" ∨
        ∃ m ∈ w'.outbox, m.input.recipient = row.recipient := by
  rintro w' rfl
  obtain ⟨heq, hduring⟩ := backend_turns ts _ hrun
  obtain ⟨used, φ, -, hI⟩ := Protocol.Invariant.turns_fresh (invariant cfg gate mail)
    (fun used s φ i l h hl _ hnew =>
      ⟨.ready l.payload, suspended_method mail l, conforms_method l, h.call hl hnew i⟩)
    (fun used s φ h _ => h.crash) ts ⟨fun hp => by simp at hp, fun _ => rfl⟩ (inv_start hw)
    hrun honce (fun _ _ => List.not_mem_nil)
  refine ⟨hI.mails, fun m hm => ?_, hI.logs⟩
  obtain ⟨p, ⟨n, -, hn⟩, hid, email, product, ⟨o, ho, rfl⟩, hinput⟩ := hI.sent m hm
  have hp := List.mem_of_getElem? hn
  refine ⟨(hI.backend m.orderId).settled hp hid, ⟨o, p, product, hid ▸ ho, hp, hid, hinput⟩,
    fun hunpaid => ?_⟩
  by_contra hc
  have hend := PaymentGate.unpaid_turns hunpaid (hduring.mono fun s t h => h.1 m.orderId)
    fun c hm hconf => hc ⟨c, hm, hconf⟩
  rw [← heq] at hend
  obtain ⟨v, hv, he⟩ := List.mem_filterMap.1 hp
  cases v with
  | settlementCompleted q =>
    obtain rfl := Option.some.inj he
    exact hend.emitted _ hv hid
  | _ => cases he

/-! ## A delivered order -/

/-- The demo mode, outside of production. -/
def demoMode : Gate :=
  { demoGate with nodeEnv := "development" }

/-- The configuration of the example. -/
def demoMail : MailConfig where
  resendApiKey := some "re_key"
  resendFrom := some "Kreav <onboarding@resend.dev>"
  explorerUrl := "https://stellar.expert/explorer/testnet"
  hashText _ := "c0ffee"

/-- The event of the order that `demoDelivered` settles. -/
def demoCompleted : SettlementCompletedPayload where
  orderId := "order"
  txHash := .onChain ⟨1, 180, "order", ⟨100000000, by decide, by decide⟩,
    [⟨"A", ⟨10000, by decide, by decide⟩⟩]⟩
  creatorAmountUsd := 950
  platformAmountUsd := 50

/-- The next requests of one call of the backend. -/
def backendRuns (i n : ℕ) : List (Turn PostChoice (Turn Choice MarketStep Endpoint) Listening) :=
  List.replicate n (.act (.env (.act (.run i {}))))

/-- A simulated payment, its settlement and the listener of its event. -/
def demoDelivered : List (Turn PostChoice (Turn Choice MarketStep Endpoint) Listening) :=
  .act (.env (.call (.simulatePayment "order"))) :: (backendRuns 0 4 ++
    .act (.env (.call (.paymentReceived
      ⟨"order", demoProduct.priceUsd, "alice", some "A", "demo-order"⟩))) ::
      (backendRuns 1 10 ++ .act (.env (.act (.env (.backend (.network (.close false)))))) ::
        (backendRuns 1 3 ++ .call ⟨0, demoCompleted⟩ :: List.replicate 3 (.act (.run 0 {})))))

theorem admitted_run (gate : Gate) (i : ℕ) (s : Config delivery PostWorld Unit) :
    Admitted gate s (.act (.env (.act (.run i {})))) := by
  refine ⟨fun _ => trivial, fun r _ => ?_⟩
  cases r with
  | simulateIsSettled orderRef =>
    intro _ _ h
    cases h
  | _ => trivial

theorem delivered_once_simulated : ∃ w', w' = (Config.turns (postOffice demoConfig demoMode)
      (Listening.method demoMail) demoDelivered
      ⟨[], ⟨⟨[], demoWorld [demoCollaborator "A" 10000] [("order", demoOrder .paymentPending)]⟩,
        [], []⟩⟩).world ∧
    w'.outbox.map (·.orderId) = ["order"] ∧
    ∃ c, .call c ∈ backendTurns demoDelivered ∧ demoMode.Confirms "order" c := by
  have hrun : Config.During (postOffice demoConfig demoMode) (Listening.method demoMail)
      (Admitted demoMode) demoDelivered
      ⟨[], ⟨⟨[], demoWorld [demoCollaborator "A" 10000] [("order", demoOrder .paymentPending)]⟩,
        [], []⟩⟩ := by
    have hruns : ∀ i n s, Config.During (postOffice demoConfig demoMode)
        (Listening.method demoMail) (Admitted demoMode) (backendRuns i n) s := fun i n s =>
      Config.during_replicate (admitted_run demoMode i) n s
    refine ⟨⟨fun _ => trivial, trivial⟩, Config.during_append.2 ⟨hruns 0 4 _,
      ⟨fun _ => ?_, trivial⟩, Config.during_append.2 ⟨hruns 1 10 _, ⟨fun _ => trivial, trivial⟩,
        Config.during_append.2 ⟨hruns 1 3 _, ?_, Config.during_replicate (fun _ => trivial) 3 _⟩⟩⟩⟩
    · change _ ∈ payments _
      decide
    · change (completions _)[0]? = some demoCompleted
      decide
  have hids : (Config.turns (postOffice demoConfig demoMode) (Listening.method demoMail)
      demoDelivered ⟨[], ⟨⟨[], demoWorld [demoCollaborator "A" 10000]
        [("order", demoOrder .paymentPending)]⟩, [], []⟩⟩).world.outbox.map (·.orderId) =
          ["order"] := by decide
  obtain ⟨-, hmails, -⟩ := delivered_once demoConfig demoMode demoMail _ demoDelivered
    (consistent_demoWorld _ _) hrun (by decide) _ rfl
  obtain ⟨m, hm, hid⟩ := List.mem_map.1 (hids ▸ List.mem_singleton.2 rfl : "order" ∈ _)
  refine ⟨_, rfl, hids, ?_⟩
  exact hid ▸ (hmails m hm).2.2 (hid ▸ unpaid_demoWorld _ _)

end Kreav
