import Kreav.RecordedSplit
import Kreav.SettlementRules

/-!
# Accepted transactions are not sent again

One run of `handlePaymentReceived` among any other threads, with any faults. The service
polls for the result of a transaction that the RPC server has accepted. A poll that throws
becomes `settlementNetwork`, and the attempt is made again from the start, the sending
included, until the attempts are used up. So after an accepted transaction the run only
polls for it and records what it finds, if and only if the attempt is the last one, or the
answer of `sendTransaction` arrives and no poll throws (`accepted_not_resent`).

The attempts are counted by the requests for the account, of which `isSettled` makes the
first.
-/

open Async Prog

namespace Kreav

namespace Resends

/-- The requests that a run may make once its transaction was accepted. -/
def Verifies (txHash : TxHash) : Request → Prop
  | .getTransaction txHash' _ => txHash' = txHash
  | .orderUpdate _ _ => True
  | .settlementCreate _ => True
  | _ => False

/-- The server takes the transaction. -/
def Accepts (c : Choice) (w : World) (tx : Tx) : Prop :=
  c.fault ≠ .lost ∧ (w.chain.send c.refusal tx).1.accepted = true

instance (c : Choice) (w : World) (tx : Tx) : Decidable (Accepts c w tx) :=
  inferInstanceAs (Decidable (_ ∧ _))

/-- A poll of the run in thread `i` throws. -/
def PollThrows (cfg : StellarConfig) (i : ℕ) (s : Config backend World Unit)
    (a : Action Choice Env) : Prop :=
  ∃ c txHash n e, a = .run i c ∧ s.Waits i (.getTransaction txHash n) ∧
    (exec cfg (.getTransaction txHash n) c s.world).1 = .error e

/-- The action answers a request for the account. -/
def asks (i : ℕ) (s : Config backend World Unit) : Action Choice Env → ℕ
  | .run j _ => if j = i ∧ .getAccount ∈ s.threads[i]?.bind Prog.request then 1 else 0
  | .env _ => 0

/-- How often thread `i` has asked for the account. -/
def accounts (cfg : StellarConfig) (i : ℕ) :
    List (Action Choice Env) → Config backend World Unit → ℕ
  | [], _ => 0
  | a :: as, s => asks i s a + accounts cfg i as (s.act (machine cfg) a)

/-- The run in thread `i` is in the last of its attempts. -/
def LastAttempt (cfg : StellarConfig) (i : ℕ) (as : List (Action Choice Env))
    (s : Config backend World Unit) : Prop :=
  accounts cfg i as s = maxRetries + 1

/-! ## The protocol of a run -/

/-- Where the attempts of a run stand. -/
inductive Phase
  /-- The account was asked for `n` times. -/
  | fresh (n : ℕ)
  | accepted (n : ℕ) (tx : Tx)
  /-- The attempt has failed, and another one starts. -/
  | retry (n : ℕ)
  /-- Nothing is sent any more. -/
  | idle

/-- After a throw, with the transaction accepted or perhaps so. -/
def afterThrow (n : ℕ) (tx : Tx) : Phase :=
  if n = maxRetries + 1 then .accepted n tx else .retry n

/-- The run goes on in its phase. -/
def Silent : Request → Prop
  | .sendTransaction _ => False
  | .getAccount => False
  | _ => True

/-- Statements that record a settlement. -/
def Records : Request → Prop
  | .orderUpdate _ _ => True
  | .settlementCreate _ => True
  | _ => False

/-- How the answers take the attempts on. -/
inductive Reply : Phase → (r : Request) → Except Failure r.Ans → Phase → Prop
  | before {n r x} (h : Silent r) : Reply (.fresh n) r x (.fresh n)
  | account {n x} : Reply (.fresh n) .getAccount x (.fresh (n + 1))
  | again {n x} : Reply (.retry n) .getAccount x (.fresh (n + 1))
  | leave {n r x} (h : Silent r) : Reply (.fresh n) r x .idle
  | idle {r x} (h : ∀ tx, r ≠ .sendTransaction tx) : Reply .idle r x .idle
  | accept {n tx} {status : SendStatus} (h : status.accepted = true) :
    Reply (.fresh n) (.sendTransaction tx) (.ok status) (.accepted n tx)
  | refuse {n tx} {status : SendStatus} (h : status.accepted = false) :
    Reply (.fresh n) (.sendTransaction tx) (.ok status) (.fresh n)
  | unsent {n tx e} : Reply (.fresh n) (.sendTransaction tx) (.error e) (afterThrow n tx)
  | record {n tx r x} (h : Records r) : Reply (.accepted n tx) r x (.accepted n tx)
  | poll {n tx k} {status : TxStatus} :
    Reply (.accepted n tx) (.getTransaction (.onChain tx) k) (.ok status) (.accepted n tx)
  -- the poll throws, and the attempt with it
  | throws {n tx k e} :
    Reply (.accepted n tx) (.getTransaction (.onChain tx) k) (.error e) (afterThrow n tx)

/-- The run does not owe another attempt. -/
def Calm : Phase → Prop
  | .retry _ => False
  | _ => True

/-- The protocol of the attempts. -/
def protocol : Protocol backend Phase where
  answers _ x := ∀ e, x = .error e → e.Thrown
  reply := Reply
  event φ _ φ' := φ' = φ
  final := Calm
  rest := .idle

/-! ## Programs that stay in a phase -/

theorem silent_of_records {r : Request} (h : Records r) : Silent r := by
  cases r with
  | orderUpdate id data => trivial
  | settlementCreate data => trivial
  | _ => exact h.elim

theorem stays_silent {r : Request} (h : Silent r) (n : ℕ) :
    (await r).Stays protocol (.fresh n) :=
  Stays.ask fun _ _ => .before h

theorem ofOrder_idle (id : String) : OfOrder (fun _ p => p.Stays protocol .idle) id where
  toCompositional := Stays.compositional protocol Phase.idle
  read {r} hr := Stays.ask fun _ _ => .idle fun tx he => by
    subst he
    cases hr
  update _ := Stays.ask fun _ _ => .idle fun _ he => nomatch he
  signal _ _ := Follows.signal rfl rfl

/-- A statement that records a settlement. -/
theorem follows_record {φ : Phase} (hφ : Calm φ) {r : Request} (h : Records r) :
    (await r).Follows protocol (fun _ φ' => φ' = φ) (fun e φ' => φ' = φ ∧ e.Thrown) φ := by
  have hr : ∀ x, protocol.reply φ r x φ := by
    intro x
    cases φ with
    | fresh n => exact .before (silent_of_records h)
    | accepted n tx => exact .record h
    | retry n => exact hφ.elim
    | idle =>
      refine .idle fun tx he => ?_
      subst he
      exact h
  exact Follows.ask (fun _ _ => ⟨φ, hr _, rfl⟩) fun _ he => ⟨φ, hr _, rfl, he _ rfl⟩

theorem follows_recordSettlementSuccess {φ : Phase} (hφ : Calm φ) (id : String)
    (amountUsd : Usd) (totalAmountBase : ℤ) (txHash : TxHash) (recipients : List RecipientInput)
    (collaborators : List Collaborator) :
    (recordSettlementSuccess id amountUsd totalAmountBase txHash recipients
      collaborators).Follows protocol (fun _ φ' => φ' = φ) (fun e φ' => φ' = φ ∧ e.Thrown) φ := by
  refine Follows.bind (follows_record hφ (r := .settlementCreate _) trivial) ?_
  rintro _ _ rfl
  refine Follows.bind (follows_record hφ (r := .orderUpdate _ _) trivial) ?_
  rintro _ _ rfl
  exact Follows.signal rfl rfl

theorem follows_setStatus {φ : Phase} (hφ : Calm φ) (orderId : String) (status : OrderStatus) :
    (setStatus orderId status).Follows protocol (fun _ => Calm) (fun _ => Calm) φ :=
  (follows_record hφ (r := .orderUpdate _ _) trivial).mono (fun _ _ h => h ▸ hφ)
    fun _ _ h => h.1 ▸ hφ

/-! ## An attempt -/

/-- The attempt failed before a transaction was accepted, or by a throw. -/
def Failed (n : ℕ) (φ : Phase) : Prop :=
  φ = .fresh n ∨ ∃ tx, φ = afterThrow n tx

/-- An error that is not `known` becomes `settlementNetwork`. -/
def Raised (n : ℕ) (e : Failure) (φ : Phase) : Prop :=
  if e.known = true then Calm φ else Failed n φ

theorem raised_of_thrown {n : ℕ} {e : Failure} {φ : Phase} (he : e.Thrown) (h : Failed n φ) :
    Raised n e φ := by
  rcases he with rfl | rfl | rfl | rfl <;> exact h

theorem follows_pollFrom (n : ℕ) (tx : Tx) : ∀ left attempt : ℕ,
    (pollFrom (.onChain tx) attempt left).Follows protocol (fun _ => Calm) (Raised n)
      (.accepted n tx)
  | 0, _ => trivial
  | left + 1, attempt => by
    refine Follows.bind (R := fun _ φ => φ = .accepted n tx) (Follows.ask
      (fun _ _ => ⟨_, Reply.poll, rfl⟩) fun e he =>
        ⟨_, Reply.throws, raised_of_thrown (he e rfl) (Or.inr ⟨tx, rfl⟩)⟩) ?_
    rintro status _ rfl
    cases status with
    | notFound => exact follows_pollFrom n tx left (attempt + 1)
    | success => exact trivial
    | failed => exact trivial

theorem follows_submitSettle (n : ℕ) (tx : Tx) :
    (submitSettle tx).Follows protocol (fun _ => Calm) (Raised n) (.fresh n) := by
  refine follows_submitSettle_of (P := fun φ => φ = .fresh n)
    (R := fun status φ => φ = if status.accepted = true then .accepted n tx else .fresh n)
    (Follows.ask (fun _ _ => ⟨_, Reply.before trivial, rfl⟩) fun e he =>
      ⟨_, Reply.before trivial, raised_of_thrown (he e rfl) (Or.inl rfl)⟩) ?_ ?_ ?_ ?_
  · rintro _ rfl
    exact trivial
  · rintro _ rfl
    refine Follows.ask ?_
      fun e he => ⟨_, Reply.unsent, raised_of_thrown (he e rfl) (Or.inr ⟨tx, rfl⟩)⟩
    intro (status : SendStatus) _
    cases h : status.accepted with
    | true => exact ⟨_, Reply.accept h, rfl⟩
    | false => exact ⟨_, Reply.refuse h, rfl⟩
  · rintro status _ h rfl
    rw [h]
    exact trivial
  · rintro status _ h rfl
    rw [h]
    exact follows_pollFrom n tx _ _

/-- An attempt starts with a request for the account. -/
def Starts (n : ℕ) (φ : Phase) : Prop :=
  φ = .fresh n ∨ φ = .retry n

theorem Starts.account {n : ℕ} {φ : Phase} (h : Starts n φ)
    (x : Except Failure (Request.Ans .getAccount)) : Reply φ .getAccount x (.fresh (n + 1)) := by
  rcases h with rfl | rfl
  · exact .account
  · exact .again

theorem follows_invokeSettle (cfg : StellarConfig) (orderRef : String) (totalAmountBase : ℤ)
    (recipients : List RecipientInput) {n : ℕ} {φ : Phase} (hφ : Starts n φ) :
    (invokeSettle cfg orderRef totalAmountBase recipients).Follows protocol (fun _ => Calm)
      (fun e φ' => if e = .settlementNetwork then Failed (n + 1) φ' else Calm φ') φ := by
  refine follows_invokeSettle_of (P := fun φ => φ = .fresh (n + 1)) (Y := Raised (n + 1))
    (Follows.ask (fun _ _ => ⟨_, hφ.account _, rfl⟩) fun e he =>
      ⟨_, hφ.account _, raised_of_thrown (he e rfl) (Or.inl rfl)⟩) ?_ ?_ ?_ ?_
  · rintro _ rfl
    exact Or.inl rfl
  · rintro tx _ - rfl
    exact follows_submitSettle (n + 1) tx
  · intro e φ' hknown h
    have hne : e ≠ .settlementNetwork := by
      rintro rfl
      cases hknown
    rw [if_neg hne]
    rwa [Raised, if_pos hknown] at h
  · intro e φ' hknown h
    rw [if_pos rfl]
    rwa [Raised, if_neg (by simp [hknown])] at h

theorem follows_settleAndRecord (cfg : StellarConfig) (orderId : String) (amountUsd : Usd)
    (recipients : List RecipientInput) (collaborators : List Collaborator) {n : ℕ} {φ : Phase}
    (hφ : Starts n φ) :
    (settleAndRecord cfg orderId amountUsd recipients collaborators).Follows protocol
      (fun _ => Calm)
        (fun e φ' => if e = .settlementNetwork then Failed (n + 1) φ' else Calm φ') φ := by
  have hthrown : ∀ {φ : Phase}, Calm φ → ∀ (e : Failure) (φ' : Phase), φ' = φ ∧ e.Thrown →
      if e = .settlementNetwork then Failed (n + 1) φ' else Calm φ' := by
    rintro φ hφ e φ' ⟨rfl, he⟩
    rcases he with rfl | rfl | rfl | rfl <;> exact hφ
  refine Follows.bind (follows_invokeSettle cfg orderId _ recipients hφ) ?_
  rintro ⟨txHash, status⟩ φ hcalm
  cases status with
  | success =>
    exact (follows_recordSettlementSuccess hcalm _ _ _ _ _ _).mono (fun _ _ h => h ▸ hcalm)
      (hthrown hcalm)
  | failed =>
    exact (follows_record hcalm (r := .orderUpdate _ _) trivial).mono (fun _ _ h => h ▸ hcalm)
      (hthrown hcalm)

/-- After a failed attempt another one starts, or it was the last. -/
theorem Failed.starts {n : ℕ} {φ : Phase} (h : Failed n φ) (hn : n ≠ maxRetries + 1) :
    Starts n φ := by
  rcases h with rfl | ⟨tx, rfl⟩
  · exact Or.inl rfl
  · exact Or.inr (if_neg hn)

theorem Failed.calm {φ : Phase} (h : Failed (maxRetries + 1) φ) : Calm φ := by
  rcases h with rfl | ⟨tx, rfl⟩
  · trivial
  · rw [afterThrow, if_pos rfl]
    trivial

theorem follows_settleWithRetry (cfg : StellarConfig) (orderId : String) (amountUsd : Usd)
    (recipients : List RecipientInput) (collaborators : List Collaborator) :
    ∀ (left n : ℕ) (φ : Phase), n + (left + 1) = maxRetries + 1 → Starts n φ →
      (settleWithRetry cfg orderId amountUsd recipients collaborators (left + 1)).Follows protocol
        (fun _ => Calm) (fun _ => Calm) φ := by
  intro left n φ hn hφ
  refine Follows.tryCatch (follows_settleAndRecord cfg orderId amountUsd recipients
    collaborators hφ) ?_
  intro err φ' h
  cases err with
  | settlementNetwork =>
    have hfailed : Failed (n + 1) φ' := h
    dsimp only
    cases left with
    | zero =>
      obtain rfl : n = maxRetries := by omega
      exact follows_setStatus hfailed.calm orderId _
    | succ left =>
      exact follows_settleWithRetry cfg orderId amountUsd recipients collaborators left (n + 1) φ'
        (by omega) (hfailed.starts (by omega))
  | _ => exact h

/-! ## The run -/

/-- What comes before the attempts. -/
theorem follows_fresh {α : Type} {p : Method α} {n : ℕ} (h : p.Stays protocol (.fresh n)) :
    p.Follows protocol (fun _ φ => φ = .fresh n) (fun _ => Calm) (.fresh n) :=
  h.follows (fun _ => rfl) fun _ => trivial

/-- `isSettled` asks for the account too. -/
theorem follows_checkSettled (id : String) : (checkSettled id).Follows protocol
    (fun settled φ => φ = if settled = true then .idle else .fresh 1) (fun _ => Calm)
      (.fresh 0) := by
  refine follows_checkSettled_of (follows_sorobanIsSettled_of (P := fun φ => φ = .fresh 1)
    (Follows.ask (fun _ _ => ⟨_, Reply.account, rfl⟩) fun _ _ => ⟨_, Reply.account, rfl⟩) ?_
    fun _ h => h)
  rintro _ rfl
  refine Follows.ask ?_ fun _ _ => ⟨_, Reply.before trivial, rfl⟩
  intro (sim : IsSettledSimulation) _
  by_cases h : sim = .restore ∨ sim = .value true
  · exact ⟨_, Reply.leave trivial, (if_pos (decide_eq_true h)).symm⟩
  · exact ⟨_, Reply.before trivial, (if_neg (by simpa using h)).symm⟩

theorem follows_checkFloat (cfg : StellarConfig) (id : String) (amountUsd : Usd) :
    (checkFloat cfg id amountUsd).Follows protocol (fun _ φ => φ = .fresh 1) (fun _ => Calm)
      (.fresh 1) := by
  refine follows_checkFloat_of (P := fun φ => φ = Phase.fresh 1) (stays_silent (by trivial) 1)
    (fun _ h => h) ?_
  rintro _ rfl
  exact stays_silent (by trivial) 1

theorem follows_settleCollaborators (cfg : StellarConfig) (payload : PaymentReceivedPayload)
    (order : Order) (collaborators : List Collaborator) :
    (settleCollaborators cfg payload order collaborators).Follows protocol (fun _ => Calm)
      (fun _ => Calm) (.fresh 0) := by
  have hcreate : ∀ data, (await (.settlementCreate data)).Stays protocol .idle := fun _ =>
    Stays.ask fun _ _ => .idle fun _ he => nomatch he
  have ho := ofOrder_idle payload.orderId
  refine follows_settleCollaborators_of (P := fun φ => φ = .fresh 0)
    (R := fun settled φ => φ = if settled = true then .idle else .fresh 1)
    (F := fun _ φ => φ = .fresh 1)
    (follows_findRecipientsMissingTrustline_of (fun _ => stays_silent (by trivial) 0) _)
    ?_ ?_ ?_ ?_ ?_ ?_
  · rintro _ rfl
    exact follows_setStatus (by trivial) _ _
  · rintro _ rfl
    exact follows_checkSettled _
  · rintro _ rfl
    exact (ho.settlement.recoverAlreadySettled (fun _ => hcreate _)
      (ho.settlement.recordRecoveredSettlement fun _ _ => hcreate _)).follows (fun _ => trivial)
        fun _ => trivial
  · rintro _ rfl
    exact follows_checkFloat cfg _ _
  · rintro _ rfl
    exact follows_settleWithRetry cfg _ _ _ _ _ 1 _ rfl (Or.inl rfl)
  · rintro _ rfl
    exact trivial

theorem follows_settleOrder (cfg : StellarConfig) (payload : PaymentReceivedPayload) :
    (settleOrder cfg payload).Follows protocol (fun _ => Calm) (fun _ => Calm) (.fresh 0) := by
  have hread : ∀ {r : Request}, Silent r → (await r).Follows protocol
      (fun _ φ => φ = .fresh 0) (fun _ => Calm) (.fresh 0) := fun h =>
    follows_fresh (stays_silent h 0)
  refine follows_settleOrder_of (R := fun _ φ => φ = .fresh 0) (S := fun _ φ => φ = .fresh 0)
    (hread (r := .orderFindUnique _) trivial) ?_ ?_ ?_ ?_
  · rintro _ rfl
    exact trivial
  · rintro order creatorId _ rfl
    exact trivial
  · rintro order creatorId _ rfl
    exact hread (r := .orderUpdate _ _) trivial
  · rintro order _ rfl
    refine follows_settlePending_of (P := fun φ => φ = .fresh 0)
      (hread (r := .collaboratorFindMany _) trivial) ?_ ?_
    · rintro _ rfl
      exact follows_setStatus (by trivial) _ _
    · rintro collaborators _ rfl
      exact follows_settleCollaborators cfg payload order collaborators

theorem conforms_handlePaymentReceived (cfg : StellarConfig) (payload : PaymentReceivedPayload) :
    (handlePaymentReceived cfg payload).Conforms protocol (.fresh 0) := by
  refine Follows.tryCatch (follows_settleOrder cfg payload) fun err φ hφ => ?_
  cases err with
  | invalidStateTransition source target => exact hφ
  | settlementTimeout txHash => exact hφ
  | settlementNetwork => exact hφ
  | _ => exact follows_setStatus hφ _ _

/-! ## The steps of the run -/

variable {cfg : StellarConfig} {s : Config backend World Unit} {i : ℕ}

/-- The run is in the phase `φ`. -/
def At (i : ℕ) (φ : Phase) (s : Config backend World Unit) : Prop :=
  ∃ p, s.threads[i]? = some p ∧ p.Suspended ∧ p.Conforms protocol φ

/-- The count of a phase. -/
def Phase.Asked (n : ℕ) : Phase → Prop
  | .fresh m => m = n
  | .accepted m _ => m = n
  | .retry m => m = n
  | .idle => True

theorem Phase.Asked.reply {n : ℕ} {φ : Phase} (h : φ.Asked n) {r : Request}
    {x : Except Failure r.Ans} {φ' : Phase} (hr : Reply φ r x φ') :
    φ'.Asked (n + if r = .getAccount then 1 else 0) := by
  have hafter : ∀ {m : ℕ} (tx : Tx), m = n → (afterThrow m tx).Asked n := by
    intro m tx hm
    rw [afterThrow]
    split
    · exact hm
    · exact hm
  have hsame : ∀ {r : Request}, r ≠ .getAccount → ∀ {φ' : Phase}, φ'.Asked n →
      φ'.Asked (n + if r = .getAccount then 1 else 0) := by
    intro r hr φ' h
    rwa [if_neg hr]
  cases hr with
  | before hs =>
    refine hsame ?_ h
    rintro rfl
    exact hs
  | account =>
    obtain rfl : _ = n := h
    rfl
  | again =>
    obtain rfl : _ = n := h
    rfl
  | leave _ => trivial
  | idle _ => trivial
  | accept _ => exact hsame (by simp) h
  | refuse _ => exact hsame (by simp) h
  | unsent => exact hsame (by simp) (hafter _ h)
  | record hr =>
    refine hsame ?_ h
    rintro rfl
    exact hr
  | poll => exact hsame (by simp) h
  | throws => exact hsame (by simp) (hafter _ h)

/-- The next answer leads to a phase that the protocol has for it. -/
theorem At.answer (cfg : StellarConfig) {φ : Phase} (h : At i φ s) {r : Request}
    (hw : s.Waits i r) (c : Choice) :
    ∃ φ', Reply φ r (exec cfg r c s.world).1 φ' ∧ At i φ' (s.act (machine cfg) (.run i c)) := by
  obtain ⟨p, hp, -, hc⟩ := h
  obtain ⟨k, hp'⟩ := hw.exists_call
  obtain rfl : p = .call r k := Option.some.inj (hp.symm.trans hp')
  obtain ⟨φ', hφ', hk⟩ := hc (exec cfg r c s.world).1 fun e he => exec_error cfg he
  refine ⟨φ', hφ', ?_⟩
  rw [Config.act_run (machine cfg) c hp]
  exact ⟨_, List.getElem?_set_self (List.getElem?_eq_some_iff.1 hp).1,
    Prog.suspended_flush _ _ _, Conforms.flush (A := protocol) (fun _ _ _ h => h) hk _⟩

/-- A step answers the run or leaves it where it is. -/
theorem At.cases {φ : Phase} (h : At i φ s) (a : Action Choice Env) :
    (∃ c r φ', a = .run i c ∧ s.Waits i r ∧ Reply φ r (exec cfg r c s.world).1 φ' ∧
      At i φ' (s.act (machine cfg) a)) ∨
    (∀ c r, a = .run i c → ¬ s.Waits i r) ∧ At i φ (s.act (machine cfg) a) := by
  obtain ⟨p, hp, hs, hc⟩ := h
  obtain ⟨q, hq, ⟨c, rfl, hres⟩ | ⟨ha, rfl⟩⟩ := Config.getElem?_act (machine cfg) hp a
  · cases p with
    | call r k =>
      have hw : s.Waits i r := ⟨_, hp, rfl⟩
      obtain ⟨φ', hφ', hat⟩ := At.answer cfg (φ := φ) ⟨_, hp, hs, hc⟩ hw c
      exact Or.inl ⟨c, r, φ', rfl, hw, hφ', hat⟩
    | emit v p => exact hs.elim
    | _ =>
      refine Or.inr ⟨fun c' r _ hw => ?_, q, hq, ?_, ?_⟩
      · obtain ⟨k, hk⟩ := hw.exists_call
        cases Option.some.inj (hp.symm.trans hk)
      · rw [hres]
        exact hs
      · rw [hres]
        exact hc
  · exact Or.inr ⟨fun c _ he _ => ha c he, q, hq, hs, hc⟩

/-- Any step leaves the run in some phase, with its count. -/
theorem at_act {n : ℕ} (h : ∃ φ, At i φ s ∧ φ.Asked n) (a : Action Choice Env) :
    ∃ φ, At i φ (s.act (machine cfg) a) ∧ φ.Asked (n + asks i s a) := by
  obtain ⟨φ, hφ, hn⟩ := h
  rcases hφ.cases a with ⟨c, r, φ', rfl, hw, hφ', hat⟩ | ⟨ha, hat⟩
  · have hreq : s.threads[i]?.bind Prog.request = some r := Config.waits_iff.1 hw
    have hasks : asks i s (.run i c) = if r = .getAccount then 1 else 0 := by
      simp [asks, hreq]
    exact ⟨φ', hat, hasks ▸ hn.reply hφ'⟩
  · have hasks : asks i s a = 0 := by
      cases a with
      | env e => rfl
      | run j c =>
        refine if_neg ?_
        rintro ⟨rfl, hreq⟩
        exact ha c _ rfl (Config.waits_iff.2 hreq)
    exact ⟨φ, hat, by rwa [hasks]⟩

/-- The count of a run is the number of its requests for the account. -/
theorem at_accounts (cfg : StellarConfig) : ∀ (as : List (Action Choice Env)) {n : ℕ}
    {s : Config backend World Unit}, (∃ φ, At i φ s ∧ φ.Asked n) →
      ∃ φ, At i φ (s.run (machine cfg) as) ∧ φ.Asked (n + accounts cfg i as s)
  | [], _, _, h => h
  | a :: as, n, s, h => by
    rw [Config.run_cons, accounts, ← Nat.add_assoc]
    exact at_accounts cfg as (at_act h a)

/-- A run that owes another attempt waits for the account. -/
theorem waits_of_retry {n : ℕ} (h : At i (.retry n) s) : s.Waits i .getAccount := by
  obtain ⟨p, hp, hs, hc⟩ := h
  cases p with
  | call r k =>
    obtain ⟨φ', hφ', -⟩ := hc (.error .database) fun e he => by
      obtain rfl := Except.error.inj he
      exact Or.inl rfl
    cases hφ' with
    | again => exact ⟨_, hp, rfl⟩
  | emit v p => exact hs.elim
  | ret a => exact hc.elim
  | raise e => exact hc.elim

variable {n : ℕ} {tx : Tx}

theorem accepted_of_afterThrow (h : At i (afterThrow n tx) s) (hn : n = maxRetries + 1) :
    At i (.accepted n tx) s := by
  rwa [afterThrow, if_pos hn] at h

theorem waits_of_afterThrow (h : At i (afterThrow n tx) s) (hn : n ≠ maxRetries + 1) :
    s.Waits i .getAccount := by
  rw [afterThrow, if_neg hn] at h
  exact waits_of_retry h

/-- The step that sends an accepted transaction. -/
theorem accepted_send (cfg : StellarConfig) {φ : Phase} (h : At i φ s) (hn : φ.Asked n)
    (hw : s.Waits i (.sendTransaction tx)) {c : Choice} (hacc : Accepts c s.world tx) :
    At i (if c.fault = .unacked then afterThrow n tx else .accepted n tx)
      (s.act (machine cfg) (.run i c)) := by
  obtain ⟨φ', hφ', hat⟩ := h.answer cfg hw c
  cases hf : c.fault with
  | none =>
    have hx : exec cfg (.sendTransaction tx) c s.world =
        effect cfg (.sendTransaction tx) c s.world := exec_of_fault_none cfg s.world hf
    have hstatus := hacc.2
    rw [hx] at hφ'
    simp only [effect] at hφ'
    generalize (s.world.chain.send c.refusal tx).1 = status at hφ' hstatus
    rw [if_neg (by simp)]
    cases hφ' with
    | before h => exact h.elim
    | leave h => exact h.elim
    | idle h => exact absurd rfl (h tx)
    | accept _ =>
      obtain rfl : _ = n := hn
      exact hat
    | refuse h =>
      rw [h] at hstatus
      cases hstatus
    | record h => exact h.elim
  | lost => exact absurd hf hacc.1
  | unacked =>
    have hx : (exec cfg (.sendTransaction tx) c s.world).1 = .error .rpc :=
      exec_fault cfg s.world (by simp [hf])
    rw [hx] at hφ'
    rw [if_pos rfl]
    cases hφ' with
    | before h => exact h.elim
    | leave h => exact h.elim
    | idle h => exact absurd rfl (h tx)
    | unsent =>
      obtain rfl : _ = n := hn
      exact hat
    | record h => exact h.elim

/-- After a transaction was accepted, every step leaves it so, unless a poll throws. -/
theorem accepted_act (h : At i (.accepted n tx) s) {a : Action Choice Env}
    (ha : n = maxRetries + 1 ∨ ¬ PollThrows cfg i s a) :
    At i (.accepted n tx) (s.act (machine cfg) a) := by
  rcases h.cases a with ⟨c, r, φ', rfl, hw, hφ', hat⟩ | ⟨-, hat⟩
  · generalize hx : (exec cfg r c s.world).1 = x at hφ'
    cases hφ' with
    | record _ => exact hat
    | poll => exact hat
    | @throws _ _ m e =>
      have hn : n = maxRetries + 1 := ha.resolve_right fun hne =>
        hne ⟨c, .onChain tx, m, e, rfl, hw, hx⟩
      exact accepted_of_afterThrow hat hn
  · exact hat

theorem afterThrow_of_pollThrows (h : At i (.accepted n tx) s) {a : Action Choice Env}
    (ha : PollThrows cfg i s a) : At i (afterThrow n tx) (s.act (machine cfg) a) := by
  obtain ⟨c, txHash, m, e, rfl, hw, hx⟩ := ha
  obtain ⟨φ', hφ', hat⟩ := h.answer cfg hw c
  rw [hx] at hφ'
  cases hφ' with
  | record h => exact h.elim
  | throws => exact hat

/-- After a transaction was accepted, the run makes no other requests. -/
theorem verifies_of_accepted (h : At i (.accepted n tx) s) {r : Request} (hw : s.Waits i r) :
    Verifies (.onChain tx) r := by
  obtain ⟨p, hp, -, hc⟩ := h
  obtain ⟨k, hp'⟩ := hw.exists_call
  obtain rfl : p = .call r k := Option.some.inj (hp.symm.trans hp')
  obtain ⟨φ', hφ', -⟩ := hc (.error .database) fun e he => by
    obtain rfl := Except.error.inj he
    exact Or.inl rfl
  cases hφ' with
  | record h =>
    cases r with
    | orderUpdate id data => trivial
    | settlementCreate data => trivial
    | _ => exact h.elim
  | throws => exact rfl

end Resends

/-- One run of `handlePaymentReceived` in thread `i`, among any other threads, with any
faults. Once the RPC server has accepted its transaction, the run polls for this transaction
and records what it finds, and nothing else, if and only if it is in its last attempt, or the
answer of the server arrives and no poll throws. -/
theorem accepted_not_resent (cfg : StellarConfig) (payload : PaymentReceivedPayload)
    (threads : List (Method Unit)) (w : World) (i : ℕ)
    (hi : threads[i]? = some (handlePaymentReceived cfg payload))
    (as as' : List (Action Choice Env)) (c : Choice) (tx : Tx)
    (hsend : (Config.run (machine cfg) as ⟨threads, w⟩).Waits i (.sendTransaction tx))
    (hacc : Resends.Accepts c (Config.run (machine cfg) as ⟨threads, w⟩).world tx) :
    (∀ bs, bs <+: as' → ∀ s, s = Config.run (machine cfg) (as ++ .run i c :: bs) ⟨threads, w⟩ →
      ∀ r, s.Waits i r → Resends.Verifies (.onChain tx) r) ↔
    Resends.LastAttempt cfg i as ⟨threads, w⟩ ∨ c.fault ≠ .unacked ∧
      Config.Along (machine cfg) (fun s a => ¬ Resends.PollThrows cfg i s a) as'
        (Config.run (machine cfg) (as ++ [.run i c]) ⟨threads, w⟩) := by
  have hstart : ∃ φ, Resends.At i φ ⟨threads, w⟩ ∧ φ.Asked 0 :=
    ⟨.fresh 0, ⟨_, hi, trivial, Resends.conforms_handlePaymentReceived cfg payload⟩, rfl⟩
  obtain ⟨φ, hφ, hn⟩ := Resends.at_accounts cfg as hstart
  rw [Nat.zero_add] at hn
  have hsent := Resends.accepted_send cfg hφ hn hsend hacc
  rw [Resends.LastAttempt]
  simp only [Config.run_append, Config.run_cons]
  generalize Resends.accounts cfg i as ⟨threads, w⟩ = n at hsent
  generalize (Config.run (machine cfg) as ⟨threads, w⟩).act (machine cfg) (.run i c) = s₁ at hsent
  constructor
  · intro h
    by_cases hlast : n = maxRetries + 1
    · exact Or.inl hlast
    -- another attempt would start with a request for the account
    have hnot : ∀ bs, bs <+: as' →
        ¬ Resends.At i (Resends.afterThrow n tx) (Config.run (machine cfg) bs s₁) :=
      fun bs hbs hthrow => h bs hbs _ rfl _ (Resends.waits_of_afterThrow hthrow hlast)
    have hfault : c.fault ≠ .unacked := by
      intro hf
      rw [if_pos hf] at hsent
      exact hnot [] List.nil_prefix hsent
    rw [if_neg hfault] at hsent
    refine Or.inr ⟨hfault, ?_⟩
    by_contra hthrows
    obtain ⟨before, a, after, rfl, hbefore, ha⟩ := Config.exists_of_not_along hthrows
    have haccepted := Config.inv_run (I := fun s => Resends.At i (.accepted n tx) s)
      (fun _ _ h ha => Resends.accepted_act h (Or.inr ha)) before s₁ hsent hbefore
    refine hnot (before ++ [a]) ⟨after, by simp⟩ ?_
    rw [Config.run_append]
    exact Resends.afterThrow_of_pollThrows haccepted (not_not.1 ha)
  · rintro h bs ⟨rest, rfl⟩ s rfl r hw
    have haccepted : Resends.At i (.accepted n tx) (Config.run (machine cfg) bs s₁) := by
      rcases h with hlast | ⟨hfault, halong⟩
      · have hstart : Resends.At i (.accepted n tx) s₁ := by
          split at hsent
          · exact Resends.accepted_of_afterThrow hsent hlast
          · exact hsent
        exact Config.inv_run (I := fun s => Resends.At i (.accepted n tx) s) (P := fun _ _ => True)
          (fun _ _ h _ => Resends.accepted_act h (Or.inl hlast)) bs s₁ hstart
          (Config.along_of_forall (fun _ _ => trivial) bs s₁)
      · rw [if_neg hfault] at hsent
        exact Config.inv_run (I := fun s => Resends.At i (.accepted n tx) s)
          (fun _ _ h ha => Resends.accepted_act h (Or.inr ha)) bs s₁ hsent
          (Config.along_append.1 halong).1
    exact Resends.verifies_of_accepted haccepted hw

namespace Resends

/-- No poll of the run throws. -/
def answered (cfg : StellarConfig) (i : ℕ) (s : Config backend World Unit) :
    Action Choice Env → Bool
  | .run _ c => match s.threads[i]?.bind Prog.request with
    | some (.getTransaction txHash n) => (exec cfg (.getTransaction txHash n) c s.world).1.isOk
    | _ => true
  | .env _ => true

theorem not_pollThrows_of_answered {a : Action Choice Env} (h : answered cfg i s a = true) :
    ¬ PollThrows cfg i s a := by
  rintro ⟨c, txHash, n, e, rfl, hw, hx⟩
  have hreq : s.threads[i]?.bind Prog.request = some (.getTransaction txHash n) :=
    Config.waits_iff.1 hw
  simp [answered, hreq, hx, Except.isOk, Except.toBool] at h

end Resends

/-- A run for the order of `demoPayload`. -/
def demoSettling : Config backend World Unit :=
  ⟨[handlePaymentReceived demoConfig (demoPayload "order")],
    demoWorld [demoCollaborator "A" 5000, demoCollaborator "B" 5000]
      [("order", demoOrder .paymentReceived)]⟩

/-- The first poll finds nothing. The second is for the same transaction. -/
theorem accepted_not_resent_polled : ∃ s, s = Config.run (machine demoConfig)
      (List.replicate 10 (.run 0 {}) ++ .run 0 {} :: [.run 0 { lag := true }]) demoSettling ∧
    s.Waits 0 (.getTransaction (.onChain demoTx) 1) ∧
      ∀ r, s.Waits 0 r → Resends.Verifies (.onChain demoTx) r :=
  ⟨_, rfl, Config.waits_iff.2 (by decide),
    (accepted_not_resent demoConfig (demoPayload "order") _ _ 0 rfl
      (List.replicate 10 (.run 0 {})) [.run 0 { lag := true }] {} demoTx
      (Config.waits_iff.2 (by decide)) (by decide)).2
      (Or.inr ⟨by decide, Config.Along.mono
        (P := fun s a => Resends.answered demoConfig 0 s a = true)
        (fun _ _ => Resends.not_pollThrows_of_answered) (by decide)⟩)
      _ (List.prefix_rfl) _ rfl⟩

/-- The first poll throws, and the accepted transaction is sent again. -/
theorem accepted_resent : ∃ s s', s = Config.run (machine demoConfig)
      (List.replicate 10 (.run 0 {})) demoSettling ∧
    s' = Config.run (machine demoConfig)
      [.run 0 {}, .run 0 { fault := .lost }, .run 0 {}, .run 0 {}] s ∧
    s.Waits 0 (.sendTransaction demoTx) ∧ Resends.Accepts {} s.world demoTx ∧
      s'.Waits 0 (.sendTransaction demoTx) :=
  ⟨_, _, rfl, rfl, Config.waits_iff.2 (by decide), by decide, Config.waits_iff.2 (by decide)⟩

end Kreav
