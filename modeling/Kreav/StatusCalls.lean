import Kreav.PaymentEvents
import Kreav.RecoveryPass

/-!
# What a recovery pass makes of the answers of the RPC server

One recovery pass with a working database, whatever the RPC server answers to the status
calls : `success`, `failed`, `notFound`, or an exception. For an order of `settlementPending`
with a transaction hash the pass makes at most two such calls (`StatusCalls`), and `fate`
says what becomes of the order.

It should be retried only if both calls answered `notFound`, stay as it is if a call threw,
and be settled if one answered `success` (`Honoured`). An exception of the second call, or of
the recording after it, is caught just above the retry, so that this holds exactly under the
condition `StatusCalls.Sound` (`pass_honoured`).
-/

open Async Prog

namespace Kreav

/-- The answer to a status call : a status, or an exception. -/
abbrev StatusAnswer :=
  Option TxStatus

/-- The outcome of a request when the database works. -/
def Choice.working (r : Request) (c : Choice) : Choice :=
  if r.thrown = .database then { c with fault := .none } else c

/-- A request when the database works and a status call gets the given answer. -/
def workingExec (cfg : StellarConfig) : (r : Request) → Choice × StatusAnswer → World →
    Except Failure r.Ans × World
  | .getTransaction _ _, (_, some status), w => (.ok status, w)
  | .getTransaction _ _, (_, none), w => (.error .rpc, w)
  | r, (c, _), w => exec cfg r (c.working r) w

/-- The backend with a working database and an RPC server that answers status calls as it
likes. -/
def working (cfg : StellarConfig) : Machine backend World (Choice × StatusAnswer) Env where
  exec := workingExec cfg
  log := (machine cfg).log
  env := (machine cfg).env

theorem working_exec {cfg : StellarConfig} {r : Request} (hr : ∀ h n, r ≠ .getTransaction h n)
    (c : Choice × StatusAnswer) (w : World) :
    (working cfg).exec r c w = exec cfg r (c.1.working r) w := by
  cases r with
  | getTransaction txHash n => exact absurd rfl (hr txHash n)
  | _ => rfl

/-- No fault hits the database. -/
theorem working_database {cfg : StellarConfig} {r : Request} (hdb : r.thrown = .database)
    (c : Choice × StatusAnswer) (w : World) :
    (working cfg).exec r c w = effect cfg r { c.1 with fault := .none } w := by
  rw [working_exec, Choice.working, if_pos hdb, exec_of_fault_none cfg w rfl]
  rintro txHash n rfl
  cases hdb

/-- Whatever a request answers when the database works is an answer here. -/
theorem exists_working (cfg : StellarConfig) {r : Request} {c : Choice} (w : World)
    (hc : r.thrown = .database → c.fault = .none) :
    ∃ a, (working cfg).exec r (c, a) w = (machine cfg).exec r c w := by
  by_cases hr : ∃ h n, r = .getTransaction h n
  · obtain ⟨txHash, n, rfl⟩ := hr
    have hw : ((machine cfg).exec (.getTransaction txHash n) c w).2 = w := exec_reads cfg rfl c w
    rcases hx : (machine cfg).exec (.getTransaction txHash n) c w with ⟨e | status, w'⟩
    · obtain rfl : w' = w := by rw [← hw, hx]
      obtain rfl : e = .rpc := exec_getTransaction_error cfg (congrArg Prod.fst hx)
      exact ⟨none, rfl⟩
    · obtain rfl : w' = w := by rw [← hw, hx]
      exact ⟨some status, rfl⟩
  · refine ⟨none, ?_⟩
    rw [working_exec fun h n he => hr ⟨h, n, he⟩]
    suffices h : c.working r = c by rw [h, machine]
    by_cases hdb : r.thrown = .database
    · rw [Choice.working, if_pos hdb, ← hc hdb]
    · rw [Choice.working, if_neg hdb]

/-! ## The law -/

/-- The answers to the status calls for an order. The second call is made after `notFound`. -/
structure StatusCalls where
  first : StatusAnswer
  second : StatusAnswer
  deriving DecidableEq, Repr

namespace StatusCalls

/-- A call threw. -/
def Throws (calls : StatusCalls) : Prop :=
  calls.first = none ∨ calls.first = some .notFound ∧ calls.second = none

/-- A call answered `success`. -/
def Succeeds (calls : StatusCalls) : Prop :=
  calls.first = some .success ∨ calls.first = some .notFound ∧ calls.second = some .success

/-- The condition on the answers and the rows : no exception after `notFound`, and a row that
exists already is only looked for after the first call. -/
def Sound (calls : StatusCalls) (row : Option Settlement) (active : List Collaborator) : Prop :=
  ¬ (calls.first = some .notFound ∧ calls.second = none) ∧
    (calls.Succeeds → if row = none then active ≠ [] else calls.first = some .success)

end StatusCalls

/-- The `payment.received` events of an order. -/
def paymentsOf (id : String) (w : World) : List PaymentReceivedPayload :=
  (payments w.emitted).filter (·.orderId = id)

/-- What a pass from `w` to `w'` should make of an order. -/
structure Honoured (calls : StatusCalls) (id : String) (w w' : World) : Prop where
  retried : statusOf w' id = some .paymentReceived ∨ paymentsOf id w' ≠ paymentsOf id w →
    calls.first = some .notFound ∧ calls.second = some .notFound
  kept : calls.Throws → ¬ calls.Succeeds → w'.db.orders.lookup id = w.db.orders.lookup id ∧
    w'.db.settlements.lookup id = w.db.settlements.lookup id ∧ paymentsOf id w' = paymentsOf id w
  settled : calls.Succeeds →
    statusOf w' id = some .settled ∧ w'.db.settlements.keys.count id = 1

/-! ## Other orders -/

/-- An order, its settlement and its events are as before, and so are the collaborators. -/
structure Spared (id : String) (w w' : World) : Prop extends SameOrder id w w' where
  events : paymentsOf id w' = paymentsOf id w

theorem Spared.refl (id : String) (w : World) : Spared id w w :=
  ⟨.refl id w, rfl⟩

theorem Spared.trans {id : String} {w w' w'' : World} (h : Spared id w w')
    (h' : Spared id w' w'') : Spared id w w'' :=
  ⟨⟨h'.order.trans h.order, h'.settlement.trans h.settlement,
    h'.collaborators.trans h.collaborators, h'.chain.trans h.chain⟩, h'.events.trans h.events⟩

variable {cfg : StellarConfig} {id id' : String}

variable (cfg) in
theorem paymentsOf_log (w : World) {v : AppEvent} (hv : v.orderId ≠ id) :
    paymentsOf id ((working cfg).log v w) = paymentsOf id w := by
  have hv' : (payments [v]).filter (·.orderId = id) = [] := by
    cases v with
    | paymentReceived payload =>
      have hne : payload.orderId ≠ id := hv
      simp [payments, hne]
    | _ => rfl
  show (payments (w.emitted ++ [v])).filter _ = (payments w.emitted).filter _
  rw [payments, List.filterMap_append, List.filter_append]
  exact (congrArg (_ ++ ·) hv').trans (List.append_nil _)

/-- The recovery of another order. -/
theorem spared_recoverOrder {s : StuckOrder} (hne : id ≠ s.id) :
    (recoverOrder s).Relates (working cfg) (Spared id) := by
  have hreq : ∀ {r : Request}, Touches s.id r → (await r).Relates (working cfg) (Spared id) :=
    fun {r} hr => Relates.ask fun c w => by
      by_cases h : ∃ h n, r = .getTransaction h n
      · obtain ⟨txHash, n, rfl⟩ := h
        obtain ⟨c, a⟩ := c
        cases a <;> exact .refl id w
      · rw [working_exec fun h' n he => h ⟨h', n, he⟩]
        refine ⟨exec_touches cfg hne hr _ w, ?_⟩
        rw [paymentsOf, exec_emitted, paymentsOf]
  have hof : OfOrder (fun _ p => p.Relates (working cfg) (Spared id)) s.id :=
    { toCompositional := Relates.compositional (working cfg) (.refl id) .trans
      read := fun hr => hreq (hr.touches s.id)
      update := fun data => hreq rfl
      signal := fun v hv ch w => ⟨⟨rfl, rfl, rfl, rfl⟩,
        paymentsOf_log cfg w fun he => hne (he.symm.trans hv)⟩ }
  exact hof.recoverOrder fun _ =>
    hof.settlement.recordRecoveredSettlement (fun data hdata => hreq hdata) _

/-! ## The order itself -/

/-- What becomes of an order. -/
inductive Fate
  | kept
  | settled
  | failed
  | retried
  deriving DecidableEq, Repr

/-- What a fate is, from `w` to `w'`. -/
def Fate.Of (id : String) (w w' : World) : Fate → Prop
  | .kept => w'.db.orders.lookup id = w.db.orders.lookup id ∧
    w'.db.settlements.lookup id = w.db.settlements.lookup id ∧ paymentsOf id w' = paymentsOf id w
  | .settled => statusOf w' id = some .settled ∧ (w'.db.settlements.lookup id).isSome = true ∧
    paymentsOf id w' = paymentsOf id w
  | .failed => statusOf w' id = some .settlementFailed ∧ paymentsOf id w' = paymentsOf id w
  | .retried => statusOf w' id = some .paymentReceived ∧ paymentsOf id w' ≠ paymentsOf id w

/-- What becomes of an order after `success`, the row of its settlement having been looked
for. -/
def recorded (active : List Collaborator) : Fate :=
  if active = [] then .failed else .settled

theorem recorded_ne_retried (active : List Collaborator) : recorded active ≠ .retried := by
  unfold recorded
  split <;> decide

/-- What becomes of an order after `notFound`. -/
def rechecked (row : Option Settlement) (active : List Collaborator) : StatusAnswer → Fate
  | some .success => if row ≠ none ∧ active ≠ [] then .retried else recorded active
  | some .failed => .failed
  | some .notFound => .retried
  | none => .retried

/-- What becomes of an order, by the answers and the rows. -/
def StatusCalls.fate (calls : StatusCalls) (row : Option Settlement)
    (active : List Collaborator) : Fate :=
  match calls.first with
  | some .success => if row = none then recorded active else .settled
  | some .failed => .failed
  | some .notFound => rechecked row active calls.second
  | none => .kept

theorem Fate.Of.spared {w₀ w w' w₁ : World} {x : Fate} (h : x.Of id w w')
    (h₀ : Spared id w₀ w) (h₁ : Spared id w' w₁) : x.Of id w₀ w₁ := by
  have hs : statusOf w₁ id = statusOf w' id := by rw [statusOf, h₁.order, statusOf]
  cases x with
  | kept =>
    obtain ⟨ho, hr, he⟩ := h
    exact ⟨h₁.order.trans (ho.trans h₀.order), h₁.settlement.trans (hr.trans h₀.settlement),
      h₁.events.trans (he.trans h₀.events)⟩
  | settled =>
    obtain ⟨ho, hr, he⟩ := h
    exact ⟨hs.trans ho, h₁.settlement ▸ hr, h₁.events.trans (he.trans h₀.events)⟩
  | failed => exact ⟨hs.trans h.1, h₁.events.trans (h.2.trans h₀.events)⟩
  | retried =>
    refine ⟨hs.trans h.1, ?_⟩
    rw [h₁.events, ← h₀.events]
    exact h.2

section Order

variable (cfg) {o : Order} {w : World} (ch : ℕ → Choice × StatusAnswer)

/-- A read of the database. -/
theorem eval_read {α : Type} {r : Request} {f : r.Ans → Method α} {a : r.Ans}
    (hr : r.reads = true) (hdb : r.thrown = .database)
    (ha : (effect cfg r { (ch 0).1 with fault := .none } w).1 = .ok a) :
    ((await r).bind f).eval (working cfg) ch w =
      (f a).eval (working cfg) (fun n => ch (n + 1)) w := by
  refine eval_ask (working cfg) ?_
  rw [working_database hdb]
  exact Prod.ext ha (effect_reads cfg hr _ w)

/-- An update of the order. -/
theorem eval_update {α : Type} {data : OrderUpdate} {f : Unit → Method α}
    (ho : w.db.orders.lookup id = some o) (href : data.paymentRef = none) :
    ((await (.orderUpdate id data)).bind f).eval (working cfg) ch w =
      (f ()).eval (working cfg) (fun n => ch (n + 1)) (w.setOrder id (data.applyTo o)) := by
  refine eval_ask (working cfg) ?_
  rw [working_database rfl, ← exec_of_fault_none cfg w rfl]
  exact exec_update_healthy cfg rfl ho href

theorem eval_setStatus (ho : w.db.orders.lookup id = some o) (status : OrderStatus) :
    (setStatus id status).eval (working cfg) ch w =
      (.ok (), fun n => ch (n + 1), w.setOrder id (OrderUpdate.applyTo { status } o)) := by
  have hx : (working cfg).exec (.orderUpdate id { status }) (ch 0) w =
      (.ok (), w.setOrder id (OrderUpdate.applyTo { status } o)) := by
    rw [working_database rfl, ← exec_of_fault_none cfg w rfl]
    exact exec_update_healthy cfg rfl ho rfl
  exact (eval_ask_eq (working cfg) _ ch w).trans (by rw [hx]; rfl)

/-- The creation of a settlement, whose order has none. -/
theorem eval_create {α : Type} {data : SettlementCreate} {f : Unit → Method α}
    (hn : w.db.settlements.lookup data.orderId = none) :
    ((await (.settlementCreate data)).bind f).eval (working cfg) ch w =
      (f ()).eval (working cfg) (fun n => ch (n + 1)) (w.addSettlement data) := by
  refine eval_ask (working cfg) ?_
  rw [working_database rfl]
  simp only [effect, Database.createSettlement, hn, World.write]
  rfl

theorem eval_create_taken {α : Type} {data : SettlementCreate} {f : Unit → Method α}
    (hs : w.db.settlements.lookup data.orderId ≠ none) :
    ((await (.settlementCreate data)).bind f).eval (working cfg) ch w =
      (.error .uniqueViolation, fun n => ch (n + 1), w) := by
  refine eval_ask_error (working cfg) ?_
  rw [working_database rfl]
  simp only [effect, Database.createSettlement, if_pos (Option.isSome_iff_ne_none.2 hs),
    World.write]
  rfl

theorem working_status (txHash : TxHash) (n : ℕ) (c : Choice × StatusAnswer) (w : World) :
    (working cfg).exec (.getTransaction txHash n) c w = (c.2.elim (.error .rpc) .ok, w) := by
  obtain ⟨c, a⟩ := c
  cases a <;> rfl

/-- A status call that is answered. -/
theorem eval_status {α : Type} {txHash : TxHash} {f : TxStatus → Method α} {status : TxStatus}
    (h : (ch 0).2 = some status) : ((getTransactionStatus txHash).bind f).eval (working cfg) ch w =
      (f status).eval (working cfg) (fun n => ch (n + 1)) w := by
  refine eval_ask (working cfg) ?_
  rw [working_status cfg, h]
  rfl

theorem eval_status_throws {α : Type} {txHash : TxHash} {f : TxStatus → Method α}
    (h : (ch 0).2 = none) : ((getTransactionStatus txHash).bind f).eval (working cfg) ch w =
      (.error .rpc, fun n => ch (n + 1), w) := by
  refine eval_ask_error (working cfg) ?_
  rw [working_status cfg, h]
  rfl

/-- The rows of a settlement, recorded for an order that has none. -/
theorem eval_recordSettlementSuccess (ho : w.db.orders.lookup id = some o) (amountUsd : Usd)
    (totalAmountBase : ℤ) (txHash : TxHash) (recipients : List RecipientInput)
    (collaborators : List Collaborator) (hn : w.db.settlements.lookup id = none) :
    ∃ ch' w', (recordSettlementSuccess id amountUsd totalAmountBase txHash recipients
        collaborators).eval (working cfg) ch w = (.ok (), ch', w') ∧ Fate.settled.Of id w w' := by
  refine ⟨_, _, (eval_create cfg ch (by exact hn)).trans
    ((eval_update cfg (o := o) _ (by exact ho) rfl).trans rfl), ?_, ?_, ?_⟩
  · exact statusOf_setOrder _ _ _
  · simp [working, machine, World.setOrder, World.addSettlement]
  · simp [paymentsOf, payments, working, machine, World.setOrder, World.addSettlement]

/-- The recording of a recovered settlement : it throws exactly when there is a row. -/
theorem eval_recordRecoveredSettlement (ho : w.db.orders.lookup id = some o) (txHash : TxHash) :
    (w.db.settlements.lookup id ≠ none ∧ w.db.activeCollaborators o.productId ≠ [] →
        ∃ ch', (recordRecoveredSettlement id txHash).eval (working cfg) ch w =
          (.error .uniqueViolation, ch', w)) ∧
      (w.db.settlements.lookup id = none ∨ w.db.activeCollaborators o.productId = [] →
        ∃ ch' w', (recordRecoveredSettlement id txHash).eval (working cfg) ch w =
          (.ok (), ch', w') ∧ (recorded (w.db.activeCollaborators o.productId)).Of id w w') := by
  obtain ⟨cs, hperm, heval⟩ : ∃ cs : List Collaborator,
      cs.Perm (w.db.activeCollaborators o.productId) ∧
        (recordRecoveredSettlement id txHash).eval (working cfg) ch w =
          (if cs.length = 0 then setStatus id .settlementFailed
            else recordSettlementSuccess id o.amountUsd o.amountUsd.toBase txHash
              (recipientInputs cs) cs).eval (working cfg) (fun n => ch (n + 2)) w := by
    have hfind : (recordRecoveredSettlement id txHash).eval (working cfg) ch w = _ :=
      eval_read cfg (r := .orderFindUnique id) (a := some (o, w.db.creatorOf o.productId)) ch
        rfl rfl (by simp [effect, ho])
    exact ⟨reorder (ch 1).1.order _, reorder_perm _ _, hfind.trans
      (eval_read cfg (r := .collaboratorFindMany o.productId) (fun n => ch (n + 1)) rfl rfl rfl)⟩
  rw [heval]
  by_cases hactive : w.db.activeCollaborators o.productId = []
  · obtain rfl : cs = [] := List.perm_nil.1 (hactive ▸ hperm)
    refine ⟨fun h => absurd hactive h.2, fun _ => ⟨_, _, eval_setStatus cfg _ ho _, ?_⟩⟩
    rw [recorded, if_pos hactive]
    exact ⟨statusOf_setOrder _ _ _, rfl⟩
  · have hcs : cs.length ≠ 0 := fun h => hactive
      (List.nil_perm.1 (List.length_eq_zero_iff.1 h ▸ hperm))
    rw [if_neg hcs, recorded, if_neg hactive]
    refine ⟨fun h => ⟨_, eval_create_taken cfg _ (by exact h.1)⟩, fun h => ?_⟩
    exact eval_recordSettlementSuccess cfg _ ho _ _ _ _ _ (h.resolve_right hactive)

/-! ### The status calls -/

/-- The second look : `none` sends the order to the retry. -/
theorem eval_recheckTransaction {s : StuckOrder} (ho : w.db.orders.lookup s.id = some o)
    (txHash : TxHash) {x : Fate} (hx : x = rechecked (w.db.settlements.lookup s.id)
      (w.db.activeCollaborators o.productId) (ch 0).2) :
    (x = .retried → ∃ ch', (recheckTransaction s txHash).eval (working cfg) ch w =
        (.ok none, ch', w)) ∧
      (x ≠ .retried → ∃ b ch' w', (recheckTransaction s txHash).eval (working cfg) ch w =
        (.ok (some b), ch', w') ∧ x.Of s.id w w') := by
  subst hx
  cases ha : (ch 0).2 with
  | none =>
    refine ⟨fun _ => ⟨_, (eval_tryCatch_error (eval_status_throws cfg ch ha)).trans rfl⟩, ?_⟩
    exact fun h => absurd rfl h
  | some status =>
    have hstatus : ∀ f : TxStatus → Method (Option Bool),
        ((getTransactionStatus txHash).bind f).eval (working cfg) ch w =
          (f status).eval (working cfg) (fun n => ch (n + 1)) w :=
      fun _ => eval_status cfg ch ha
    cases status with
    | notFound =>
      exact ⟨fun _ => ⟨_, eval_tryCatch_ok (hstatus _)⟩, fun h => absurd rfl h⟩
    | failed =>
      refine ⟨fun h => (nomatch h), fun _ => ⟨_, _, _, eval_tryCatch_ok ((hstatus _).trans
        (eval_bind_ok (eval_setStatus cfg _ ho _))), statusOf_setOrder _ _ _, rfl⟩⟩
    | success =>
      obtain ⟨htaken, hnew⟩ := eval_recordRecoveredSettlement cfg
        (fun n => ch (n + 1)) ho txHash
      by_cases hrow : w.db.settlements.lookup s.id ≠ none ∧
          w.db.activeCollaborators o.productId ≠ []
      · obtain ⟨ch', hr⟩ := htaken hrow
        refine ⟨fun _ => ⟨_, (eval_tryCatch_error ((hstatus _).trans (eval_bind_error hr))).trans
          rfl⟩, fun h => absurd (if_pos hrow) h⟩
      · obtain ⟨ch', w', hr, hw'⟩ := hnew (not_and_or.1 hrow |>.imp not_not.1 not_not.1)
        rw [rechecked, if_neg hrow]
        refine ⟨fun h => absurd h (recorded_ne_retried _), fun _ => ⟨true, ch', w', ?_, hw'⟩⟩
        exact eval_tryCatch_ok ((hstatus _).trans (eval_bind_ok hr))

theorem eval_recoverByTransaction {s : StuckOrder} (ho : w.db.orders.lookup s.id = some s.order)
    (txHash : TxHash) : ∃ b ch' w', (recoverByTransaction s txHash).eval (working cfg) ch w =
      (.ok b, ch', w') ∧ (StatusCalls.fate ⟨(ch 0).2, (ch 1).2⟩ (w.db.settlements.lookup s.id)
        (w.db.activeCollaborators s.order.productId)).Of s.id w w' := by
  cases ha : (ch 0).2 with
  | none =>
    exact ⟨_, _, _, (eval_tryCatch_error (eval_status_throws cfg ch ha)).trans rfl, rfl, rfl, rfl⟩
  | some status =>
    have hstatus : ∀ f : TxStatus → Method Bool,
        ((getTransactionStatus txHash).bind f).eval (working cfg) ch w =
          (f status).eval (working cfg) (fun n => ch (n + 1)) w :=
      fun _ => eval_status cfg ch ha
    cases status with
    | failed =>
      exact ⟨_, _, _, eval_tryCatch_ok ((hstatus _).trans
        (eval_bind_ok (eval_setStatus cfg _ ho _))), statusOf_setOrder _ _ _, rfl⟩
    | success =>
      have hfind := fun f => eval_read cfg (w := w) (α := Bool) (f := f)
        (r := .settlementFindUnique s.id) (fun n => ch (n + 1)) rfl rfl rfl
      cases hrow : w.db.settlements.lookup s.id with
      | some row =>
        rw [hrow] at hfind
        refine ⟨true, _, _, eval_tryCatch_ok ((hstatus _).trans ((hfind _).trans
          (eval_bind_ok (eval_setStatus cfg _ ho _)))), statusOf_setOrder _ _ _, ?_, rfl⟩
        exact Option.isSome_of_eq_some hrow
      | none =>
        rw [hrow] at hfind
        obtain ⟨ch', w', hr, hw'⟩ := (eval_recordRecoveredSettlement cfg
          (fun n => ch (n + 2)) ho txHash).2 (Or.inl hrow)
        exact ⟨true, ch', w', eval_tryCatch_ok ((hstatus _).trans ((hfind _).trans
          (eval_bind_ok hr))), hw'⟩
    | notFound =>
      obtain ⟨hretried, hother⟩ := eval_recheckTransaction cfg (fun n => ch (n + 1)) ho
        txHash rfl
      by_cases hx : rechecked (w.db.settlements.lookup s.id)
          (w.db.activeCollaborators s.order.productId) (ch 1).2 = .retried
      · obtain ⟨ch', hr⟩ := hretried hx
        refine ⟨true, _, _, eval_tryCatch_ok ((hstatus _).trans ((eval_bind_ok hr).trans
          ((eval_update cfg (o := s.order) _ ho rfl).trans rfl))), ?_⟩
        show Fate.Of _ _ _ (rechecked _ _ _)
        rw [hx]
        refine ⟨statusOf_setOrder _ _ _, fun he => ?_⟩
        have hlen := congrArg List.length he
        simp [paymentsOf, payments, working, machine, World.setOrder] at hlen
      · obtain ⟨b, ch', w', hr, hw'⟩ := hother hx
        exact ⟨b, ch', w', eval_tryCatch_ok ((hstatus _).trans (eval_bind_ok hr)), hw'⟩

end Order

/-! ## The pass -/

/-- The outcomes left and the world after the recovery of an order. -/
def recoverOne (cfg : StellarConfig) (x : (ℕ → Choice × StatusAnswer) × World) (s : StuckOrder) :
    (ℕ → Choice × StatusAnswer) × World :=
  ((recoverOrder s).eval (working cfg) x.1 x.2).2

variable (cfg) in
/-- The loop of the pass recovers one order after the other and always returns. -/
theorem eval_recoverAll : ∀ (l : List StuckOrder) (x : (ℕ → Choice × StatusAnswer) × World),
    ∃ n, (recoverAll l).eval (working cfg) x.1 x.2 = (.ok n, l.foldl (recoverOne cfg) x)
  | [], x => ⟨(0, 0), rfl⟩
  | s :: rest, x => by
    obtain ⟨n, hn⟩ := eval_recoverAll rest (recoverOne cfg x s)
    have hone : ∃ b, ((recoverOrder s).tryCatch fun _ => .ret false).eval (working cfg) x.1 x.2 =
        (.ok b, recoverOne cfg x s) := by
      rcases hx : (recoverOrder s).eval (working cfg) x.1 x.2 with ⟨e | b, x'⟩
      · exact ⟨false, by rw [eval_tryCatch_error hx, recoverOne, hx]; rfl⟩
      · exact ⟨b, by rw [eval_tryCatch_ok hx, recoverOne, hx]⟩
    obtain ⟨b, hb⟩ := hone
    exact ⟨_, (eval_bind_ok hb).trans ((eval_bind_ok hn).trans rfl)⟩

/-- The recoveries of other orders. -/
theorem spared_foldl (l : List StuckOrder) (hl : id ∉ l.map (·.id))
    (x : (ℕ → Choice × StatusAnswer) × World) :
    Spared id x.2 (l.foldl (recoverOne cfg) x).2 := by
  induction l generalizing x with
  | nil => exact .refl id x.2
  | cons s rest ih =>
    obtain ⟨hne, hrest⟩ : id ≠ s.id ∧ id ∉ rest.map (·.id) := by simpa using hl
    exact (spared_recoverOrder hne x.1 x.2).trans (ih hrest _)

/-- The answers that the recovery of an order gets when it comes after the orders `before`. -/
def callsAfter (cfg : StellarConfig) (before : List StuckOrder) (ch : ℕ → Choice × StatusAnswer)
    (w : World) : StatusCalls :=
  ⟨((before.foldl (recoverOne cfg) (ch, w)).1 0).2, ((before.foldl (recoverOne cfg) (ch, w)).1 1).2⟩

section Fate

variable {calls : StatusCalls} {w w' : World}

theorem honoured_kept (h : Fate.kept.Of id w w') (hs : statusOf w id = some .settlementPending)
    (hn : ¬ calls.Succeeds) : Honoured calls id w w' := by
  obtain ⟨ho, hrow, he⟩ := h
  refine ⟨fun hr => ?_, fun _ _ => ⟨ho, hrow, he⟩, fun hsucc => absurd hsucc hn⟩
  rcases hr with hr | hr
  · rw [statusOf, ho] at hr
    rw [statusOf, hr] at hs
    cases hs
  · exact absurd he hr

theorem honoured_settled (h : Fate.settled.Of id w w') (hsucc : calls.Succeeds) :
    Honoured calls id w w' := by
  obtain ⟨hs, hrow, he⟩ := h
  refine ⟨fun hr => ?_, fun _ hn => absurd hsucc hn, fun _ => ⟨hs, ?_⟩⟩
  · rcases hr with hr | hr
    · rw [hs] at hr
      cases hr
    · exact absurd he hr
  · exact List.count_eq_one_of_mem w'.db.settlements.keys_nodup (AList.lookup_isSome.1 hrow)

theorem honoured_failed (h : Fate.failed.Of id w w')
    (hs : statusOf w id = some .settlementPending) :
    Honoured calls id w w' ↔ ¬ calls.Throws ∧ ¬ calls.Succeeds := by
  obtain ⟨hs', he⟩ := h
  constructor
  · intro hh
    have hn : ¬ calls.Succeeds := fun hsucc => by
      rw [(hh.settled hsucc).1] at hs'
      cases hs'
    refine ⟨fun ht => ?_, hn⟩
    rw [statusOf, (hh.kept ht hn).1] at hs'
    rw [statusOf, hs'] at hs
    cases hs
  · rintro ⟨ht, hn⟩
    refine ⟨fun hr => ?_, fun h => absurd h ht, fun h => absurd h hn⟩
    rcases hr with hr | hr
    · rw [hs'] at hr
      cases hr
    · exact absurd he hr

theorem honoured_retried (h : Fate.retried.Of id w w') :
    Honoured calls id w w' ↔ calls.first = some .notFound ∧ calls.second = some .notFound := by
  refine ⟨fun hh => hh.retried (Or.inl h.1), fun ⟨h₁, h₂⟩ => ⟨fun _ => ⟨h₁, h₂⟩, ?_, ?_⟩⟩
  · simp [StatusCalls.Throws, h₁, h₂]
  · simp [StatusCalls.Succeeds, h₁, h₂]

/-- What the fate of an order is worth. -/
theorem honoured_iff {row : Option Settlement} {active : List Collaborator}
    (hs : statusOf w id = some .settlementPending) (h : (calls.fate row active).Of id w w') :
    Honoured calls id w w' ↔ calls.Sound row active := by
  obtain ⟨first, second⟩ := calls
  have hrecorded : StatusCalls.Succeeds ⟨first, second⟩ → (recorded active).Of id w w' →
      (Honoured ⟨first, second⟩ id w w' ↔ active ≠ []) := by
    intro hsucc h
    by_cases hactive : active = []
    · rw [recorded, if_pos hactive] at h
      rw [honoured_failed h hs]
      simp [hsucc, hactive]
    · rw [recorded, if_neg hactive] at h
      simp [honoured_settled h hsucc, hactive]
  cases first with
  | none =>
    have hn : ¬ StatusCalls.Succeeds ⟨none, second⟩ := by simp [StatusCalls.Succeeds]
    simp [honoured_kept h hs hn, StatusCalls.Sound, hn]
  | some status =>
    cases status with
    | failed =>
      rw [honoured_failed h hs]
      simp [StatusCalls.Sound, StatusCalls.Throws, StatusCalls.Succeeds]
    | success =>
      have hsucc : StatusCalls.Succeeds ⟨some .success, second⟩ := Or.inl rfl
      by_cases hrow : row = none
      · simp only [StatusCalls.fate, if_pos hrow] at h
        rw [hrecorded hsucc h]
        simp [StatusCalls.Sound, hsucc, hrow]
      · simp only [StatusCalls.fate, if_neg hrow] at h
        simp [honoured_settled h hsucc, StatusCalls.Sound, hrow]
    | notFound =>
      simp only [StatusCalls.fate] at h
      cases second with
      | none =>
        rw [honoured_retried h]
        simp [StatusCalls.Sound]
      | some status =>
        cases status with
        | failed =>
          rw [honoured_failed h hs]
          simp [StatusCalls.Sound, StatusCalls.Throws, StatusCalls.Succeeds]
        | notFound =>
          rw [honoured_retried h]
          simp [StatusCalls.Sound, StatusCalls.Succeeds]
        | success =>
          have hsucc : StatusCalls.Succeeds ⟨some .notFound, some .success⟩ :=
            Or.inr ⟨rfl, rfl⟩
          simp only [rechecked] at h
          split at h
          · next hrow =>
            rw [honoured_retried h]
            simp [StatusCalls.Sound, hsucc, hrow.1]
          · next hrow =>
            rw [hrecorded hsucc h]
            by_cases hnone : row = none
            · simp [StatusCalls.Sound, hsucc, hnone]
            · have hactive : active = [] := not_not.1 fun ha => hrow ⟨hnone, ha⟩
              simp [StatusCalls.Sound, hsucc, hnone, hactive]

end Fate

variable (cfg) in
/-- The recovery of an order of `settlementPending` with a transaction hash. -/
theorem fate_recoverOne {s : StuckOrder} (hs : s.order.status = .settlementPending)
    (htx : truthy s.order.txHash ≠ none) (x : (ℕ → Choice × StatusAnswer) × World)
    (ho : x.2.db.orders.lookup s.id = some s.order) :
    (StatusCalls.fate ⟨(x.1 0).2, (x.1 1).2⟩ (x.2.db.settlements.lookup s.id)
      (x.2.db.activeCollaborators s.order.productId)).Of s.id x.2 (recoverOne cfg x s).2 := by
  obtain ⟨txHash, htx⟩ := Option.ne_none_iff_exists'.1 htx
  obtain ⟨b, ch', w', heval, hfate⟩ := eval_recoverByTransaction cfg x.1 ho txHash
  have hrecover : recoverOrder s = recoverByTransaction s txHash := by
    simp only [recoverOrder, hs, recoverSettlementPending, htx]
  rw [recoverOne, hrecover, heval]
  exact hfate

/-- One recovery pass with a working database, whatever the RPC server answers : the pass
returns, and every order of `settlementPending` with a transaction hash is treated as its
answers ask for exactly under the condition `Sound`. -/
theorem pass_honoured (cfg : StellarConfig) (w : World) (ch : ℕ → Choice × StatusAnswer) :
    ∃ l n ch' w', l.Perm (w.db.ordersIn [.paymentReceived, .settlementPending]) ∧
      onApplicationBootstrap.eval (working cfg) ch w = (.ok n, ch', w') ∧
      ∀ before s after, l = before ++ s :: after → s.order.status = .settlementPending →
        truthy s.order.txHash ≠ none →
        (Honoured (callsAfter cfg before (fun n => ch (n + 1)) w) s.id w w' ↔
          (callsAfter cfg before (fun n => ch (n + 1)) w).Sound (w.db.settlements.lookup s.id)
            (w.db.activeCollaborators s.order.productId)) := by
  obtain ⟨l, hl, heval⟩ : ∃ l : List StuckOrder,
      l.Perm (w.db.ordersIn [.paymentReceived, .settlementPending]) ∧
        onApplicationBootstrap.eval (working cfg) ch w =
          (recoverAll l).eval (working cfg) (fun n => ch (n + 1)) w :=
    ⟨reorder (ch 0).1.order _, reorder_perm _ _,
      eval_read cfg (r := .orderFindMany _) ch rfl rfl rfl⟩
  obtain ⟨n, hn⟩ := eval_recoverAll cfg l (fun n => ch (n + 1), w)
  refine ⟨l, n, _, _, hl, heval.trans hn, fun before s after he hs htx => ?_⟩
  have ho : w.db.orders.lookup s.id = some s.order := by
    refine lookup_of_mem_ordersIn (hl.mem_iff.1 ?_)
    rw [he]
    exact List.mem_append_right _ List.mem_cons_self
  -- the orders before it and after it have other ids
  obtain ⟨-, hnodup⟩ := Recovery.stuckOrders hl ho (by simp [hs])
  rw [he, List.map_append, List.map_cons, List.nodup_append] at hnodup
  obtain ⟨-, hcons, hdisjoint⟩ := hnodup
  have hbefore : s.id ∉ before.map (·.id) := fun h =>
    hdisjoint _ h _ List.mem_cons_self rfl
  have h₀ : Spared s.id w (before.foldl (recoverOne cfg) (fun n => ch (n + 1), w)).2 :=
    spared_foldl before hbefore (fun n => ch (n + 1), w)
  have hfate := fate_recoverOne cfg hs htx
    (before.foldl (recoverOne cfg) (fun n => ch (n + 1), w)) (h₀.order.trans ho)
  rw [h₀.settlement, Database.activeCollaborators, h₀.collaborators] at hfate
  have hstatus : statusOf w s.id = some .settlementPending := by rw [statusOf, ho, ← hs]; rfl
  refine honoured_iff hstatus (hfate.spared h₀ ?_)
  rw [he, List.foldl_append, List.foldl_cons]
  exact spared_foldl after (List.nodup_cons.1 hcons).1 _

/-- An order of `settlementPending` with a transaction hash. -/
def demoSent : World :=
  demoWorld [demoCollaborator "A" 10000]
    [("order", { demoOrder .settlementPending with txHash := some (.placeholder "tx") })]

/-- The query of the pass, then `notFound`, then the answer `a` to every call. -/
def demoAnswers (a : StatusAnswer) : ℕ → Choice × StatusAnswer
  | 0 => ({}, none)
  | 1 => ({}, some .notFound)
  | _ => ({}, a)

/-- The second call finds the transaction applied : the order is settled. -/
theorem pass_honoured_late : ∃ n ch' w',
    onApplicationBootstrap.eval (working demoConfig) (demoAnswers (some .success)) demoSent =
      (.ok n, ch', w') ∧ statusOf w' "order" = some .settled ∧
        w'.db.settlements.keys.count "order" = 1 := by
  obtain ⟨l, n, ch', w', hl, heval, h⟩ := pass_honoured demoConfig demoSent
    (demoAnswers (some .success))
  obtain rfl : l = [⟨"order", { demoOrder .settlementPending with
      txHash := some (.placeholder "tx") }, "alice"⟩] := List.perm_singleton.1 hl
  have hh := (h [] _ [] rfl rfl (by decide)).2 ⟨by decide, fun _ => by decide⟩
  exact ⟨n, ch', w', heval, hh.settled (Or.inr ⟨rfl, rfl⟩)⟩

/-- The second call throws : the order is retried all the same. -/
theorem pass_retries : ∃ w', w' = (onApplicationBootstrap.eval (working demoConfig)
      (demoAnswers none) demoSent).2.2 ∧
    callsAfter demoConfig [] (fun n => demoAnswers none (n + 1)) demoSent =
      ⟨some .notFound, none⟩ ∧
    statusOf w' "order" = some .paymentReceived ∧ (paymentsOf "order" w').length = 1 :=
  ⟨_, rfl, by decide, by decide, by decide⟩

end Kreav
