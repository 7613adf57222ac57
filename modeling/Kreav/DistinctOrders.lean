import Kreav.OrderChain
import Kreav.SettlementSteps

/-!
# Runs for distinct orders

Runs of `handlePaymentReceived` for orders that are pairwise distinct, without faults, each
with collaborators the contract accepts (`Payable`) and with a platform wallet that holds
what all of them cost. They share the platform account and its sequence numbers.
`Permitted` is the condition on the steps : a transaction is sent with the number after the
last one, so that no other run took the number since `getAccount`, and the last poll
finds the transaction applied. Then every order is settled (`distinct_orders`).

The wallet holds at any time what the orders that are not settled yet cost (`Covered`), so
that every queued transaction succeeds.
-/

open Async Prog CheckedInt

namespace Kreav

namespace Distinct

/-- Collaborators whom the contract accepts as recipients and who can be paid. -/
structure Payable (cfg : StellarConfig) (trustline : String → Bool)
    (collaborators : List Collaborator) : Prop where
  ne_nil : collaborators ≠ []
  length_le : collaborators.length ≤ maxRecipients
  pos : ∀ c ∈ collaborators, 0 < c.revenuePercentage
  sum : (collaborators.map (·.revenuePercentage)).sum = 10000
  nodup : (collaborators.map (·.walletAddress)).Nodup
  isAddress : ∀ c ∈ collaborators, cfg.isAddress c.walletAddress = true
  trustline : ∀ c ∈ collaborators, trustline c.walletAddress = true

/-- The deployment and the orders. The token contract carries out a transfer that the
source can pay to an account with a trustline. -/
structure Setup (cfg : StellarConfig) (payloads : List PaymentReceivedPayload) : Prop where
  publicKey : cfg.publicKey = cfg.platformWalletAddress
  accepts : ∀ (trustline : String → Bool) (l : TokenLedger.Ledger String)
    (source destination : String) (amount : ℤ), 0 < amount → amount ≤ l.balance source →
      trustline destination = true →
        (cfg.sac trustline).accepts cfg.usdc l source destination amount = true
  nodup : (payloads.map (·.orderId)).Nodup
  pos : ∀ p ∈ payloads, 0 < p.amountUsd.toBase

/-- What the orders that are not settled cost. -/
def owed (settlement : Finset String) : List PaymentReceivedPayload → ℤ
  | [] => 0
  | p :: rest =>
    (if p.orderId ∈ settlement then 0 else p.amountUsd.toBase) + owed settlement rest

/-- A transaction that settles one of the orders when it is applied. -/
structure Sound (payloads : List PaymentReceivedPayload) (trustline : String → Bool) (tx : Tx) :
    Prop where
  payload : ∃ p ∈ payloads, tx.orderRef = p.orderId ∧ tx.totalAmount.val = p.amountUsd.toBase
  valid : Valid tx.recipients
  trustline : ∀ r ∈ tx.recipients, trustline r.address = true

/-- The wallet covers the orders that are not settled, and what is queued or applied
settles them. -/
structure Covered (cfg : StellarConfig) (payloads : List PaymentReceivedPayload) (c : Chain) :
    Prop where
  wallet : c.contract.platformWallet = some cfg.platformWalletAddress
  token : c.contract.usdcSac = some cfg.usdc
  orders : ∀ p ∈ payloads, Untouched p.orderId c ∨ ∃ tx, Sent p.orderId tx c
  queued : ∀ tx, .settle tx ∈ c.mempool → Sound payloads c.trustline tx
  applied : ∀ p ∈ payloads, ∀ r ∈ c.results, r.1.orderRef = p.orderId → r.2 = true
  funds : owed c.contract.settlement payloads ≤
    (c.contract.ledger cfg.usdc).balance cfg.platformWalletAddress

/-- The collaborators of every order are payable. -/
def Staffed (cfg : StellarConfig) (payloads : List PaymentReceivedPayload)
    (trustline : String → Bool) (db : Database) : Prop :=
  ∀ p ∈ payloads, ∀ o, db.orders.lookup p.orderId = some o →
    Payable cfg trustline (db.activeCollaborators o.productId)

/-- The condition on the steps of the runs. -/
def Permitted (w : World) : Request → Choice → Prop
  | .getTransaction txHash attempt, c =>
    c.fault = .none ∧ (attempt + 1 = pollMaxAttempts →
      c.lag = false ∧ ∀ tx, txHash = .onChain tx → w.chain.result tx ≠ none)
  | .sendTransaction tx, c => c.Healthy ∧ tx.seq = w.chain.sequence + 1
  | _, c => c.Healthy

/-- The steps of the outside : ledgers close and apply what is queued, other transactions
of the platform account join the queue, other accounts' operations take nothing from
the platform and no trustline away, and product owners replace collaborators by payable
ones. -/
def Outside (cfg : StellarConfig) (payloads : List PaymentReceivedPayload) (w : World) :
    Env → Prop
  | .network (.close fails) => fails = false
  | .network (.drop _) => False
  | .network (.submit (.settle _)) => False
  | .network (.submit (.other _)) => True
  | .network (.accounts ledger trustline) =>
    (w.chain.contract.ledger cfg.usdc).balance cfg.platformWalletAddress ≤
        (ledger cfg.usdc).balance cfg.platformWalletAddress ∧
      ∀ a, w.chain.trustline a = true → trustline a = true
  | .updateProduct productId rows =>
    Staffed cfg payloads w.chain.trustline (w.db.replaceCollaborators productId rows)

instance : (w : World) → (r : Request) → (c : Choice) → Decidable (Permitted w r c)
  | w, .getTransaction (.onChain tx) attempt, c =>
    decidable_of_iff (c.fault = .none ∧ (attempt + 1 = pollMaxAttempts →
      c.lag = false ∧ w.chain.result tx ≠ none)) (by simp [Permitted])
  | _, .getTransaction (.placeholder _) attempt, c =>
    decidable_of_iff (c.fault = .none ∧ (attempt + 1 = pollMaxAttempts → c.lag = false))
      (by simp [Permitted])
  | w, .sendTransaction tx, c =>
    inferInstanceAs (Decidable (c.Healthy ∧ tx.seq = w.chain.sequence + 1))
  | _, .productFindUnique _, c | _, .userFindUnique _, c | _, .orderCreate _, c
  | _, .orderFindWaiting _, c | _, .walletFindAddress _, c | _, .walletCreate _ _ _, c
  | _, .orderFindFirst _, c | _, .orderFindUnique _, c | _, .orderFindMany _, c
  | _, .walletFindFirst _, c | _, .collaboratorFindMany _, c | _, .settlementFindUnique _, c
  | _, .settlementCreate _, c | _, .getUsdcBalance _, c | _, .getAccount, c
  | _, .simulateSettle _, c | _, .simulateIsSettled _, c | _, .orderUpdate _ _, c =>
    inferInstanceAs (Decidable c.Healthy)

variable {cfg : StellarConfig} {payloads : List PaymentReceivedPayload}

/-! ## The orders' cost -/

theorem owed_nonneg {settlement : Finset String} : ∀ {payloads : List PaymentReceivedPayload},
    (∀ p ∈ payloads, 0 < p.amountUsd.toBase) → 0 ≤ owed settlement payloads
  | [], _ => le_rfl
  | p :: rest, h => by
    have hrest : 0 ≤ owed settlement rest := owed_nonneg fun q hq =>
      h q (List.mem_cons_of_mem p hq)
    have hp := h p (by simp)
    unfold owed
    split <;> omega

theorem owed_insert_le {settlement : Finset String} (id : String) :
    ∀ {payloads : List PaymentReceivedPayload}, (∀ p ∈ payloads, 0 < p.amountUsd.toBase) →
      owed (insert id settlement) payloads ≤ owed settlement payloads
  | [], _ => le_rfl
  | p :: rest, h => by
    have hrest : owed (insert id settlement) rest ≤ owed settlement rest :=
      owed_insert_le id fun q hq => h q (List.mem_cons_of_mem p hq)
    have hp := h p (by simp)
    unfold owed
    by_cases hs : p.orderId ∈ settlement
    · rw [if_pos hs, if_pos (Finset.mem_insert_of_mem hs)]
      omega
    · rw [if_neg hs]
      split <;> omega

/-- Settling an order takes its cost off. -/
theorem owed_insert {settlement : Finset String} {p : PaymentReceivedPayload}
    (hs : p.orderId ∉ settlement) : ∀ {payloads : List PaymentReceivedPayload},
    (∀ p ∈ payloads, 0 < p.amountUsd.toBase) → p ∈ payloads →
      owed (insert p.orderId settlement) payloads + p.amountUsd.toBase ≤ owed settlement payloads
  | q :: rest, h, hp => by
    have hpos : ∀ q ∈ rest, 0 < q.amountUsd.toBase := fun r hr => h r (List.mem_cons_of_mem q hr)
    have hq := h q (by simp)
    unfold owed
    rcases List.mem_cons.1 hp with rfl | hp
    · have hrest : owed (insert p.orderId settlement) rest ≤ owed settlement rest :=
        owed_insert_le p.orderId hpos
      rw [if_neg hs, if_pos (Finset.mem_insert_self _ _)]
      omega
    · have hrest := owed_insert hs hpos hp
      by_cases hqs : q.orderId ∈ settlement
      · rw [if_pos hqs, if_pos (Finset.mem_insert_of_mem hqs)]
        omega
      · rw [if_neg hqs]
        split <;> omega

/-- An order that is not settled costs at most what the wallet holds. -/
theorem Covered.funded {c : Chain} (h : Covered cfg payloads c) (S : Setup cfg payloads)
    {p : PaymentReceivedPayload} (hp : p ∈ payloads) (hs : p.orderId ∉ c.contract.settlement) :
    p.amountUsd.toBase ≤ (c.contract.ledger cfg.usdc).balance cfg.platformWalletAddress := by
  have hins := owed_insert hs S.pos hp
  have hnn : 0 ≤ owed (insert p.orderId c.contract.settlement) payloads := owed_nonneg S.pos
  have hfunds := h.funds
  omega

/-- A sound transaction of an order that is not settled succeeds. -/
theorem Covered.invoke {c : Chain} (h : Covered cfg payloads c) (S : Setup cfg payloads) {tx : Tx}
    (htx : Sound payloads c.trustline tx) (hs : tx.orderRef ∉ c.contract.settlement) :
    ∃ contract, c.invokeSettle cfg tx = .ok contract := by
  obtain ⟨p, hp, href, htotal⟩ := htx.payload
  have hpos := S.pos p hp
  have hle := toBase_le_maxTotal p.amountUsd
  have hfund := h.funded S hp (href ▸ hs)
  exact settle_complete (fun a => c.trustline a = true) h.wallet h.token
    (by simp [S.publicKey]) hs (by omega) (by omega) htx.valid htx.trustline
    (fun l q n h0 hn hq => S.accepts c.trustline l _ q n h0 hn hq) (by omega)

/-! ## The network keeps the orders covered -/

theorem Sound.mono {trustline trustline' : String → Bool} {tx : Tx}
    (h : Sound payloads trustline tx) (ht : ∀ a, trustline a = true → trustline' a = true) :
    Sound payloads trustline' tx :=
  ⟨h.payload, h.valid, fun r hr => ht _ (h.trustline r hr)⟩

/-- The transaction that a ledger takes next is not applied yet. -/
theorem Covered.head_fresh {c : Chain} (h : Covered cfg payloads c) {tx : Tx}
    {rest : List PlatformTx} (hm : c.mempool = .settle tx :: rest) :
    tx.orderRef ∉ c.contract.settlement := by
  obtain ⟨p, hp, href, -⟩ := (h.queued tx (by simp [hm])).payload
  rcases h.orders p hp with hu | ⟨tx', ht⟩
  · exact absurd href (hu.head hm).1
  · rcases ht.head hm with ⟨rfl, -, hn⟩ | ⟨hne, -⟩
    · rw [href, ht.marker, hn]
      simp
    · exact absurd href hne

theorem Covered.closes {c c' : Chain} (h : Covered cfg payloads c) (S : Setup cfg payloads)
    (hc : c.Closes cfg false c') : Covered cfg payloads c' := by
  have horders : ∀ p ∈ payloads, Untouched p.orderId c' ∨ ∃ tx, Sent p.orderId tx c' :=
    fun p hp => (h.orders p hp).imp (fun hu => hu.closes hc) fun ⟨tx, ht⟩ => ⟨tx, ht.closes hc⟩
  have hrest : ∀ {t : PlatformTx} {rest : List PlatformTx}, c.mempool = t :: rest →
      ∀ tx, .settle tx ∈ rest → Sound payloads c.trustline tx := fun hm tx ht =>
    h.queued tx (by rw [hm]; exact List.mem_cons_of_mem _ ht)
  cases hc with
  | idle _ => exact h
  | other hm => exact ⟨h.wallet, h.token, horders, hrest hm, h.applied, h.funds⟩
  | again hm _ => exact ⟨h.wallet, h.token, horders, hrest hm, h.applied, h.funds⟩
  | @failed tx rest hm _ hs =>
    obtain ⟨contract, hok⟩ := h.invoke S (h.queued tx (by simp [hm])) (h.head_fresh hm)
    rcases hs with hs | ⟨e, hs⟩
    · cases hs
    · rw [hok] at hs
      cases hs
  | @settled tx rest contract hm _ _ hs =>
    obtain ⟨p, hp, href, htotal⟩ := (h.queued tx (by simp [hm])).payload
    obtain ⟨w, u, split, hset⟩ := settle_eq_ok hs
    obtain rfl : cfg.platformWalletAddress = w :=
      Option.some.inj (h.wallet.symm.trans hset.wallet_eq)
    obtain rfl : cfg.usdc = u := Option.some.inj (h.token.symm.trans hset.sac_eq)
    refine ⟨hset.wallet_eq', hset.sac_eq', horders, hrest hm, ?_, ?_⟩
    · intro q hq r hr hrq
      rcases List.mem_cons.1 hr with rfl | hr
      · rfl
      · exact h.applied q hq r hr hrq
    · have hpool := (feeAndPool_bounds split.fee_eq hset.pos.le).2
      have hnn := calculateCreatorAmounts_nonneg split.amounts_eq hset.valid hpool.1
      have hallot : 0 ≤ allotted cfg.platformWalletAddress (tx.recipients.zip split.amounts) := by
        refine List.sum_nonneg fun x hx => ?_
        obtain ⟨r, hr, rfl⟩ := List.mem_map.1 hx
        have := hnn r.2 (List.of_mem_zip hr).2
        split <;> omega
      have hbal := hset.balance cfg.platformWalletAddress
      rw [if_pos rfl] at hbal
      have howed := owed_insert (p := p) (href ▸ hset.fresh) S.pos hp
      have hfunds := h.funds
      show owed contract.settlement payloads ≤
        (contract.ledger cfg.usdc).balance cfg.platformWalletAddress
      rw [hset.settlement, hbal, href]
      omega

/-- A sound transaction of an order without one joins the queue. -/
theorem Covered.accepted {c : Chain} (h : Covered cfg payloads c) {tx : Tx}
    (htx : Sound payloads c.trustline tx) (hu : Untouched tx.orderRef c) :
    Covered cfg payloads (c.accepted tx) where
  wallet := h.wallet
  token := h.token
  orders p hp := by
    by_cases href : tx.orderRef = p.orderId
    · exact Or.inr ⟨tx, (href ▸ hu).accepted href⟩
    · exact (h.orders p hp).imp (fun hu => hu.accepted_ne href)
        fun ⟨tx', ht⟩ => ⟨tx', ht.accepted_ne href⟩
  queued tx' ht := by
    have ht : .settle tx' ∈ if .settle tx ∈ c.mempool then c.mempool
      else c.mempool ++ [.settle tx] := ht
    split at ht
    · exact h.queued tx' ht
    · rcases List.mem_append.1 ht with ht | ht
      · exact h.queued tx' ht
      · obtain rfl : tx' = tx := by simpa using ht
        exact htx
  applied := h.applied
  funds := h.funds

theorem mem_submit_other {seq : ℕ} {c : Chain} {tx : Tx}
    (h : .settle tx ∈ (c.submit (.other seq)).2.mempool) : .settle tx ∈ c.mempool := by
  unfold Chain.submit at h
  split at h
  · exact h
  split at h
  · simpa using h
  · exact h

theorem submit_trustline (t : PlatformTx) (c : Chain) :
    (c.submit t).2.trustline = c.trustline := by
  unfold Chain.submit
  split
  · rfl
  split <;> rfl

/-- The steps of the outside send nothing for an order. -/
theorem Outside.foreign {w : World} {e : Env} (h : Outside cfg payloads w e) (id : String) :
    Foreign id e := by
  cases e with
  | updateProduct productId rows => trivial
  | network step =>
    cases step with
    | submit t =>
      cases t with
      | settle tx => exact h.elim
      | other seq => trivial
    | _ => trivial

theorem Covered.step {w : World} {step : NetworkStep} (h : Covered cfg payloads w.chain)
    (S : Setup cfg payloads) (ho : Outside cfg payloads w (.network step)) :
    Covered cfg payloads (w.chain.step cfg step) := by
  have horders : ∀ p ∈ payloads, Untouched p.orderId (w.chain.step cfg step) ∨
      ∃ tx, Sent p.orderId tx (w.chain.step cfg step) := fun p hp =>
    (h.orders p hp).imp (fun hu => hu.step (ho.foreign p.orderId))
      fun ⟨tx, ht⟩ => ⟨tx, ht.step (ho.foreign p.orderId)⟩
  cases step with
  | close fails =>
    obtain rfl : fails = false := ho
    exact h.closes S (w.chain.close_closes cfg false)
  | drop n => exact ho.elim
  | accounts ledger trustline =>
    exact ⟨h.wallet, h.token, horders, fun tx ht => (h.queued tx ht).mono ho.2, h.applied,
      h.funds.trans ho.1⟩
  | submit t =>
    cases t with
    | settle tx => exact ho.elim
    | other seq =>
      obtain ⟨hc, hr⟩ := submit_keeps (.other seq) w.chain
      refine ⟨hc ▸ h.wallet, hc ▸ h.token, horders, fun tx ht => ?_, ?_, ?_⟩
      · exact (submit_trustline (.other seq) w.chain).symm ▸ h.queued tx (mem_submit_other ht)
      · exact fun p hp r hmem => h.applied p hp r (hr ▸ hmem)
      · show owed (w.chain.submit (.other seq)).2.contract.settlement payloads ≤
          ((w.chain.submit (.other seq)).2.contract.ledger cfg.usdc).balance _
        rw [hc]
        exact h.funds

/-! ## What the runs rely on -/

/-- What a run relies on : its order's rows and transaction, and trustlines. -/
structure Same (id : String) (w w' : World) : Prop where
  order : w'.db.orders.lookup id = w.db.orders.lookup id
  row : w'.db.settlements.lookup id = w.db.settlements.lookup id
  untouched : Untouched id w.chain → Untouched id w'.chain
  sent : ∀ {tx}, Sent id tx w.chain → Sent id tx w'.chain
  result : ∀ {tx b}, w.chain.result tx = some b → w'.chain.result tx = some b
  trustline : ∀ a, w.chain.trustline a = true → w'.chain.trustline a = true

theorem Same.refl (id : String) (w : World) : Same id w w :=
  ⟨rfl, rfl, fun h => h, fun h => h, fun h => h, fun _ h => h⟩

theorem Same.trans {id : String} {w w' w'' : World} (h : Same id w w') (h' : Same id w' w'') :
    Same id w w'' :=
  ⟨h'.order.trans h.order, h'.row.trans h.row, fun u => h'.untouched (h.untouched u),
    fun s => h'.sent (h.sent s), fun r => h'.result (h.result r),
    fun a ht => h'.trustline a (h.trustline a ht)⟩

theorem same_setOrder {id id' : String} (h : id ≠ id') (w : World) (o : Order) :
    Same id w (w.setOrder id' o) :=
  ⟨w.setOrder_lookup_ne o h, rfl, fun h => h, fun h => h, fun h => h, fun _ h => h⟩

theorem same_addSettlement {id : String} (w : World) {data : SettlementCreate}
    (h : id ≠ data.orderId) : Same id w (w.addSettlement data) :=
  ⟨rfl, AList.lookup_insert_ne h, fun h => h, fun h => h, fun h => h, fun _ h => h⟩

theorem same_accepted {id : String} (w : World) {tx : Tx} (h : id ≠ tx.orderRef) :
    Same id w (w.setChain (w.chain.accepted tx)) :=
  ⟨rfl, rfl, fun hu => hu.accepted_ne h.symm, fun hs => hs.accepted_ne h.symm, fun h => h,
    fun _ h => h⟩

/-- The orders are covered and their collaborators payable. -/
structure Ready (cfg : StellarConfig) (payloads : List PaymentReceivedPayload) (w : World) :
    Prop where
  covered : Covered cfg payloads w.chain
  staffed : Staffed cfg payloads w.chain.trustline w.db

theorem Payable.mono {trustline trustline' : String → Bool} {collaborators : List Collaborator}
    (h : Payable cfg trustline collaborators)
    (ht : ∀ a, trustline a = true → trustline' a = true) :
    Payable cfg trustline' collaborators :=
  { h with trustline := fun c hc => ht _ (h.trustline c hc) }

theorem Payable.perm {trustline : String → Bool} {collaborators collaborators' : List Collaborator}
    (h : Payable cfg trustline collaborators) (hp : collaborators'.Perm collaborators) :
    Payable cfg trustline collaborators' where
  ne_nil hn := h.ne_nil (List.Perm.eq_nil (hn ▸ hp.symm))
  length_le := hp.length_eq ▸ h.length_le
  pos c hc := h.pos c (hp.mem_iff.1 hc)
  sum := (hp.map _).sum_eq.trans h.sum
  nodup := (hp.map _).nodup_iff.2 h.nodup
  isAddress c hc := h.isAddress c (hp.mem_iff.1 hc)
  trustline c hc := h.trustline c (hp.mem_iff.1 hc)

theorem ready_env {w : World} {e : Env} (S : Setup cfg payloads) (h : Ready cfg payloads w)
    (ho : Outside cfg payloads w e) : Ready cfg payloads ((machine cfg).env e w) ∧
      ∀ id, Same id w ((machine cfg).env e w) := by
  cases e with
  | updateProduct productId rows =>
    exact ⟨⟨h.covered, ho⟩, fun id => ⟨rfl, rfl, fun h => h, fun h => h, fun h => h,
      fun _ h => h⟩⟩
  | network step =>
    have ht : ∀ a, w.chain.trustline a = true → (w.chain.step cfg step).trustline a = true := by
      intro a ha
      cases step with
      | close fails =>
        have hc : (w.chain.step cfg (.close fails)).trustline = w.chain.trustline := by
          show (w.chain.close cfg fails).trustline = w.chain.trustline
          have hcl := w.chain.close_closes cfg fails
          generalize w.chain.close cfg fails = c' at hcl
          cases hcl <;> rfl
        rw [hc]
        exact ha
      | drop n => exact ha
      | submit t => exact (submit_trustline t w.chain).symm ▸ ha
      | accounts ledger trustline => exact ho.2 a ha
    refine ⟨⟨h.covered.step S ho, fun p hp o hl => (h.staffed p hp o hl).mono ht⟩, fun id => ?_⟩
    exact ⟨rfl, rfl, fun h => h.step (ho.foreign id), fun h => h.step (ho.foreign id),
      (w.chain.step_extends cfg step).result, ht⟩

/-- The terms on which the runs share the world : run `i` relies on its own order. -/
def discipline (S : Setup cfg payloads) : Discipline (machine cfg) :=
  Discipline.apart (machine cfg) (Ready cfg payloads)
    (fun i w w' => ∀ p ∈ payloads[i]?, Same p.orderId w w') Permitted (Outside cfg payloads)
    (fun _ w p _ => Same.refl p.orderId w) (fun h h' p hp => (h p hp).trans (h' p hp))
    fun hi ho => ⟨(ready_env S hi ho).1, fun _ p _ => (ready_env S hi ho).2 p.orderId⟩

/-! ## One run -/

section Run

variable (S : Setup cfg payloads) {i : ℕ} {p : PaymentReceivedPayload} (hi : payloads[i]? = some p)

include hi in
/-- A change that leaves the other orders alone is a change of the run. -/
theorem guar {w w' : World} (h : ∀ id, id ≠ p.orderId → Same id w w') :
    (discipline S).guar i w w' := by
  intro j hj q hq
  refine h q.orderId fun he => hj ?_
  have hlt : j < (payloads.map (·.orderId)).length := by
    simpa using (List.getElem?_eq_some_iff.1 hq).1
  refine (List.getElem?_inj hlt S.nodup).1 ?_
  rw [List.getElem?_map, List.getElem?_map, hi, Option.mem_def.1 hq]
  exact congrArg some he

include hi in
/-- What only depends on the order of the run holds on. -/
theorem assertion {L : World → Prop} (hL : ∀ {w w'}, L w → Same p.orderId w w' → L w') :
    (discipline S).Assertion i fun w => Ready cfg payloads w ∧ L w where
  inv h := h.1
  rely h hr hi' := ⟨hi', hL h.2 (hr p hi)⟩

theorem Ready.setOrder {w : World} (h : Ready cfg payloads w) {id : String} {o : Order}
    (ho : w.db.orders.lookup id = some o) (data : OrderUpdate) :
    Ready cfg payloads (w.setOrder id (data.applyTo o)) := by
  refine ⟨h.covered, fun q hq o' hl => ?_⟩
  by_cases he : q.orderId = id
  · rw [he, World.setOrder_lookup] at hl
    obtain rfl := Option.some.inj hl
    exact h.staffed q hq o (he ▸ ho)
  · rw [w.setOrder_lookup_ne _ he] at hl
    exact h.staffed q hq o' hl

/-- The order has no settlement and no transaction. -/
structure Fresh (id productId : String) (w : World) : Prop where
  order : ∃ o, w.db.orders.lookup id = some o ∧ o.productId = productId
  row : w.db.settlements.lookup id = none
  chain : Untouched id w.chain

/-- The collaborators were read. -/
structure Chosen (cfg : StellarConfig) (id : String) (collaborators : List Collaborator)
    (w : World) : Prop where
  order : ∃ o, w.db.orders.lookup id = some o
  row : w.db.settlements.lookup id = none
  chain : Untouched id w.chain
  payable : Payable cfg w.chain.trustline collaborators

/-- The transaction is sent. -/
structure Awaiting (id : String) (tx : Tx) (w : World) : Prop where
  order : ∃ o, w.db.orders.lookup id = some o
  row : w.db.settlements.lookup id = none
  chain : Sent id tx w.chain

/-- The transaction succeeded, and is about to be recorded. -/
structure Confirmed (id : String) (w : World) : Prop where
  order : ∃ o, w.db.orders.lookup id = some o
  row : w.db.settlements.lookup id = none

theorem Fresh.same {id productId : String} {w w' : World} (h : Fresh id productId w)
    (hs : Same id w w') : Fresh id productId w' :=
  ⟨hs.order ▸ h.order, hs.row.trans h.row, hs.untouched h.chain⟩

theorem Chosen.same {id : String} {collaborators : List Collaborator} {w w' : World}
    (h : Chosen cfg id collaborators w) (hs : Same id w w') : Chosen cfg id collaborators w' :=
  ⟨hs.order ▸ h.order, hs.row.trans h.row, hs.untouched h.chain, h.payable.mono hs.trustline⟩

theorem Awaiting.same {id : String} {tx : Tx} {w w' : World} (h : Awaiting id tx w)
    (hs : Same id w w') : Awaiting id tx w' :=
  ⟨hs.order ▸ h.order, hs.row.trans h.row, hs.sent h.chain⟩

theorem Confirmed.same {id : String} {w w' : World} (h : Confirmed id w) (hs : Same id w w') :
    Confirmed id w' :=
  ⟨hs.order ▸ h.order, hs.row.trans h.row⟩

/-- The transaction that is built is sound. -/
theorem Chosen.build {collaborators : List Collaborator} {w : World} (hp : p ∈ payloads)
    (hpos : 0 < p.amountUsd.toBase) (h : Chosen cfg p.orderId collaborators w)
    (sequence now : ℕ) : ∃ tx, buildSettle cfg sequence now p.orderId p.amountUsd.toBase
      (recipientInputs collaborators) = some tx ∧ tx.orderRef = p.orderId ∧
        Sound payloads w.chain.trustline tx := by
  have hle : ∀ c ∈ collaborators, c.revenuePercentage ≤ 10000 := by
    intro c hc
    rw [← h.payable.sum]
    refine List.single_le_sum ?_ _ (List.mem_map_of_mem hc)
    intro x hx
    obtain ⟨c, hc, rfl⟩ := List.mem_map.1 hx
    exact (h.payable.pos c hc).le
  obtain ⟨recipients, hr⟩ : ∃ recipients,
      (recipientInputs collaborators).mapM (·.toScVal cfg) = some recipients :=
    toScVal_mapM_complete (by
      intro r hr
      obtain ⟨c, hc, rfl⟩ := List.mem_map.1 hr
      exact ⟨h.payable.isAddress c hc, h.payable.pos c hc, hle c hc⟩)
  have hmax := toBase_le_maxTotal p.amountUsd
  rw [maxTotal] at hmax
  obtain ⟨total, ht, -⟩ : ∃ s : I128, Bounded.ofInt? p.amountUsd.toBase = some s ∧
      s.val = p.amountUsd.toBase := Bounded.ofInt?_of_mem (by omega)
  have hb : buildSettle cfg sequence now p.orderId p.amountUsd.toBase
      (recipientInputs collaborators) =
        some ⟨sequence + 1, now + settleTimeout, p.orderId, total, recipients⟩ := by
    simp [buildSettle, hr, ht]
  obtain ⟨-, -, htotal, haddr, hshare⟩ := buildSettle_eq_some hb
  dsimp only at htotal haddr hshare
  rw [recipientInputs_address] at haddr
  rw [recipientInputs_shareBps] at hshare
  refine ⟨_, hb, rfl, ⟨p, hp, rfl, htotal⟩, ⟨?_, ?_, ?_, ?_, ?_⟩, ?_⟩
  · rintro rfl
    exact h.payable.ne_nil (List.map_eq_nil_iff.1 haddr.symm)
  · have hlen := congrArg List.length haddr
    rw [List.length_map, List.length_map] at hlen
    exact hlen ▸ h.payable.length_le
  · intro r hr
    have hmem : r.shareBps.val ∈ recipients.map (·.shareBps.val) := List.mem_map_of_mem hr
    rw [hshare] at hmem
    obtain ⟨c, hc, he⟩ := List.mem_map.1 hmem
    exact he ▸ h.payable.pos c hc
  · exact haddr ▸ h.payable.nodup
  · exact hshare ▸ h.payable.sum
  · intro r hr
    have hmem : r.address ∈ recipients.map (·.address) := List.mem_map_of_mem hr
    rw [haddr] at hmem
    obtain ⟨c, hc, he⟩ := List.mem_map.1 hmem
    exact he ▸ h.payable.trustline c hc

include hi in
/-- A healthy read. -/
theorem triple_await {L : World → Prop} {r : Request} {Y : Failure → World → Prop}
    (hL : ∀ {w w'}, L w → Same p.orderId w w' → L w') (hr : r.reads = true)
    (hp : ∀ h n, r ≠ .getTransaction h n) :
    Triple (discipline S) i (fun w => Ready cfg payloads w ∧ L w) (await r)
      (fun a w => (Ready cfg payloads w ∧ L w) ∧ ∃ c, c.Healthy ∧ (effect cfg r c w).1 = .ok a)
      Y := by
  refine triple_read_healthy hr hp (assertion S hi hL) (fun _ _ => trivial)
    (fun w => guar S hi fun id _ => Same.refl id w) ?_
  intro w c h
  cases r with
  | getTransaction txHash n => exact absurd rfl (hp txHash n)
  | sendTransaction tx => cases hr
  | _ => exact h

include hi in
/-- An update of the order. -/
theorem triple_update {L : World → Prop} {data : OrderUpdate} {Q : World → Prop}
    {Y : Failure → World → Prop} (hL : ∀ {w w'}, L w → Same p.orderId w w' → L w')
    (href : data.paymentRef = none) (hrow : ∀ w, L w → ∃ o, w.db.orders.lookup p.orderId = some o)
    (hset : ∀ w o, L w → w.db.orders.lookup p.orderId = some o →
      Q (w.setOrder p.orderId (data.applyTo o))) :
    Triple (discipline S) i (fun w => Ready cfg payloads w ∧ L w)
      (await (.orderUpdate p.orderId data)) (fun _ w => Ready cfg payloads w ∧ Q w) Y :=
  triple_update_healthy (assertion S hi hL) (fun _ _ => trivial) (fun _ _ h => h) href
    (fun w h => hrow w h.2) fun w o _ h _ ho =>
      ⟨guar S hi fun _ hne => same_setOrder hne w _, h.1.setOrder ho data, hset w o h.2 ho⟩

/-! ### The checks -/

variable {collaborators : List Collaborator} {Y : Failure → World → Prop}

include hi in
theorem triple_findRecipientsMissingTrustline : ∀ rs : List RecipientInput,
    (∀ r ∈ rs, r.address ∈ collaborators.map (·.walletAddress)) →
      Triple (discipline S) i (fun w => Ready cfg payloads w ∧ Chosen cfg p.orderId collaborators w)
        (findRecipientsMissingTrustline rs) (fun missing w => missing = [] ∧
          Ready cfg payloads w ∧ Chosen cfg p.orderId collaborators w) Y
  | [], _ => Triple.ret fun _ h => ⟨rfl, h⟩
  | r :: rest, hrs => by
    refine Triple.bind (R := fun missing w => missing = [] ∧
      Ready cfg payloads w ∧ Chosen cfg p.orderId collaborators w) ?_ fun missing => ?_
    · refine Triple.tryCatch (Y := fun _ _ => False) ?_ fun _ _ h => h.elim
      refine Triple.bind (triple_await S hi Chosen.same rfl (by simp)) fun state => ?_
      intro w hw
      obtain ⟨hw, c, -, ha⟩ := hw
      obtain ⟨c', hc, he⟩ := List.mem_map.1 (hrs r (by simp))
      have htrust : state.hasUsdcTrustline = true := by
        rw [← Except.ok.inj ha]
        exact he ▸ hw.2.payable.trustline c' hc
      dsimp only
      rw [htrust]
      exact ⟨rfl, hw⟩
    · intro w hw
      obtain ⟨rfl, hw⟩ := hw
      exact Triple.bind (triple_findRecipientsMissingTrustline rest fun x hx =>
        hrs x (List.mem_cons_of_mem r hx)) (fun others w hw => by
          obtain ⟨rfl, hw⟩ := hw
          exact ⟨rfl, hw⟩) w hw

include hi in
theorem triple_checkSettled : Triple (discipline S) i
    (fun w => Ready cfg payloads w ∧ Chosen cfg p.orderId collaborators w)
    (checkSettled p.orderId) (fun settled w => settled = false ∧
      Ready cfg payloads w ∧ Chosen cfg p.orderId collaborators w) Y := by
  refine Triple.tryCatch (Y := fun _ _ => False) ?_ fun _ _ h => h.elim
  refine Triple.bind (R := fun _ w =>
    Ready cfg payloads w ∧ Chosen cfg p.orderId collaborators w)
    ((triple_await S hi Chosen.same rfl (by simp)).mono (fun _ h => h) (fun _ _ h => h.1)
      fun _ _ h => h) fun _ => ?_
  refine Triple.bind (triple_await S hi Chosen.same rfl (by simp)) fun sim => ?_
  intro w hw
  obtain ⟨hw, c, hc, ha⟩ := hw
  have hsim : sim = .value false := by
    have h := Except.ok.inj ha
    have hset : isSettled p.orderId w.chain.contract = false :=
      decide_eq_false hw.2.chain.marker
    simpa [hc.simulationFails, hc.restore, hset] using h.symm
  subst hsim
  exact ⟨rfl, hw⟩

include hi in
theorem triple_checkFloat : Triple (discipline S) i
    (fun w => Ready cfg payloads w ∧ Chosen cfg p.orderId collaborators w)
    (checkFloat cfg p.orderId p.amountUsd) (fun funded w => funded = true ∧
      Ready cfg payloads w ∧ Chosen cfg p.orderId collaborators w) Y := by
  refine Triple.tryCatch (Y := fun _ _ => False) ?_ fun _ _ h => h.elim
  refine Triple.bind (triple_await S hi Chosen.same rfl (by simp)) fun float => ?_
  intro w hw
  obtain ⟨hw, c, -, ha⟩ := hw
  have hfund := hw.1.covered.funded S (List.mem_of_getElem? hi) hw.2.chain.marker
  have hbal : float.balance =
      (w.chain.contract.ledger cfg.usdc).balance cfg.platformWalletAddress := by
    rw [← Except.ok.inj ha]
  dsimp only
  rw [if_neg (by omega)]
  exact ⟨rfl, hw⟩

/-! ### The transaction -/

include hi in
theorem triple_pollTransaction (tx : Tx) : Triple (discipline S) i
    (fun w => Ready cfg payloads w ∧ Awaiting p.orderId tx w) (pollTransaction (.onChain tx))
    (fun r w => r.status = .success ∧ Ready cfg payloads w ∧ Confirmed p.orderId w) Y := by
  -- the last poll finds the transaction applied, so no state is left after it
  have hsame : ∀ (left : ℕ) {w w'}, 0 < left ∧ Awaiting p.orderId tx w → Same p.orderId w w' →
      0 < left ∧ Awaiting p.orderId tx w' := fun _ _ _ h hs => ⟨h.1, h.2.same hs⟩
  have hpolls := triple_polls tx (F := fun _ => False) (fun left => assertion S hi (hsame left))
    (fun _ _ _ _ => trivial) (fun w => guar S hi fun id _ => Same.refl id w) (fun hal => hal.1)
    (fun h _ => And.intro h.1 (Confirmed.mk h.2.2.order h.2.2.row)) (fun h hr => ?_) ?_
    pollMaxAttempts 0 (zero_add _)
  · refine hpolls.mono (fun w h => ⟨h.1, by decide, h.2⟩) (fun r w h => ?_) fun _ _ h => ?_
    · split at h
      · next hs => exact ⟨hs, h⟩
      · exact h.elim
    · exact absurd h.2.2.1 (lt_irrefl 0)
  · have hres := h.1.covered.applied p (List.mem_of_getElem? hi) _ (Chain.mem_results hr)
      h.2.2.chain.ref
    cases hres
  · intro left attempt w c hn h hal hnone
    refine ⟨h.1, Nat.pos_of_ne_zero fun h0 => ?_, h.2.2⟩
    obtain ⟨hlag, hres⟩ := hal.2 (by omega)
    rcases hnone with hl | hnone
    · rw [hlag] at hl
      cases hl
    · exact hres tx rfl hnone

include hi in
theorem triple_submitSettle {tx : Tx} (href : tx.orderRef = p.orderId) :
    Triple (discipline S) i (fun w => Ready cfg payloads w ∧
        Chosen cfg p.orderId collaborators w ∧ Sound payloads w.chain.trustline tx)
      (submitSettle tx)
      (fun r w => r.status = .success ∧ Ready cfg payloads w ∧ Confirmed p.orderId w) Y := by
  have hsame : ∀ {w w'},
      Chosen cfg p.orderId collaborators w ∧ Sound payloads w.chain.trustline tx →
      Same p.orderId w w' →
        Chosen cfg p.orderId collaborators w' ∧ Sound payloads w'.chain.trustline tx :=
    fun h hs => ⟨h.1.same hs, h.2.mono hs.trustline⟩
  refine triple_submit (S := fun w => Ready cfg payloads w ∧
    Chosen cfg p.orderId collaborators w ∧ Sound payloads w.chain.trustline tx) ?_ ?_
    (triple_pollTransaction S hi tx)
  · refine (triple_await S hi hsame rfl (by simp)).mono (fun _ h => h) (fun simulated w h => ?_)
      fun _ _ h => h
    obtain ⟨hw, c, hc, ha⟩ := h
    obtain ⟨contract, hok⟩ := hw.1.covered.invoke S hw.2.2 (href.symm ▸ hw.2.1.chain.marker)
    have hsim : simulated = true := by
      rw [← Except.ok.inj ha, hc.simulationFails, hok]
      rfl
    subst hsim
    exact hw
  · refine triple_sendTransaction (assertion S hi hsame) (fun _ _ => trivial)
      (fun w => guar S hi fun id _ => Same.refl id w)
      (fun w c _ hal => by simp [hal.1.fault]) ?_ ?_ fun w c _ hal hf => ?_
    · intro w c status _ hal _ _ hn
      exact absurd hal.2 (hn hal.1.refusal).2
    · intro w c status h hal hs _ _
      refine ⟨guar S hi fun id hne => same_accepted w (href ▸ hne), ?_⟩
      rw [hs]
      refine ⟨⟨?_, h.1.staffed⟩, h.2.1.order, h.2.1.row, h.2.1.chain.accepted href⟩
      exact h.1.covered.accepted h.2.2 (href.symm ▸ h.2.1.chain)
    · rw [hal.1.fault] at hf
      cases hf

include hi in
theorem triple_invokeSettle : Triple (discipline S) i
    (fun w => Ready cfg payloads w ∧ Chosen cfg p.orderId collaborators w)
    (invokeSettle cfg p.orderId p.amountUsd.toBase (recipientInputs collaborators))
    (fun r w => r.status = .success ∧ Ready cfg payloads w ∧ Confirmed p.orderId w) Y := by
  refine Triple.tryCatch (Y := fun _ _ => False) ?_ fun _ _ h => h.elim
  refine Triple.bind (R := fun _ w =>
    Ready cfg payloads w ∧ Chosen cfg p.orderId collaborators w)
    ((triple_await S hi Chosen.same rfl (by simp)).mono (fun _ h => h) (fun _ _ h => h.1)
      fun _ _ h => h) fun account => ?_
  obtain ⟨sequence, now⟩ := account
  intro w hw
  have hp := List.mem_of_getElem? hi
  obtain ⟨tx, hb, href, htx⟩ := hw.2.build hp (S.pos p hp) sequence now
  simp only [hb]
  exact triple_submitSettle S hi href w ⟨hw.1, hw.2, htx⟩

/-! ### The run -/

include hi in
theorem triple_recordSettlementSuccess (amountUsd : Usd) (totalAmountBase : ℤ) (txHash : TxHash)
    (recipients : List RecipientInput) : Triple (discipline S) i
      (fun w => Ready cfg payloads w ∧ Confirmed p.orderId w)
      (recordSettlementSuccess p.orderId amountUsd totalAmountBase txHash recipients collaborators)
      (fun _ w => Ready cfg payloads w ∧ statusOf w p.orderId = some .settled) Y := by
  refine Triple.bind (R := fun _ w => Ready cfg payloads w ∧
    ∃ o, w.db.orders.lookup p.orderId = some o) ?_ fun _ => ?_
  · exact triple_create_healthy (assertion S hi Confirmed.same) (fun _ _ => trivial)
      (fun _ _ h => h) (fun _ h => h.2.row) fun w h =>
        ⟨guar S hi fun _ hne => same_addSettlement w hne, ⟨h.1.covered, h.1.staffed⟩, h.2.order⟩
  · refine Triple.bind (triple_update S hi (fun h hs => hs.order ▸ h) rfl (fun _ h => h)
      (Q := fun w => statusOf w p.orderId = some .settled) fun w o _ _ => ?_) fun _ => ?_
    · exact statusOf_setOrder w p.orderId _
    · exact Triple.signal fun w h => ⟨guar S hi fun id _ => ⟨rfl, rfl, fun h => h, fun h => h,
        fun h => h, fun _ h => h⟩, ⟨h.1.covered, h.1.staffed⟩, h.2⟩

include hi in
/-- The first attempt succeeds. -/
theorem triple_settleWithRetry (left : ℕ) : Triple (discipline S) i
    (fun w => Ready cfg payloads w ∧ Chosen cfg p.orderId collaborators w)
    (settleWithRetry cfg p.orderId p.amountUsd (recipientInputs collaborators) collaborators
      (left + 1))
    (fun _ w => Ready cfg payloads w ∧ statusOf w p.orderId = some .settled) Y := by
  refine Triple.tryCatch (Y := fun _ _ => False) ?_ fun _ _ h => h.elim
  refine Triple.bind (triple_invokeSettle S hi) fun result => ?_
  intro w hw
  obtain ⟨hs, hw⟩ := hw
  simp only [hs]
  exact triple_recordSettlementSuccess S hi _ _ _ _ w hw

include hi in
theorem triple_settleCollaborators (order : Order) : Triple (discipline S) i
    (fun w => Ready cfg payloads w ∧ Chosen cfg p.orderId collaborators w)
    (settleCollaborators cfg p order collaborators)
    (fun _ w => Ready cfg payloads w ∧ statusOf w p.orderId = some .settled) Y := by
  refine Triple.bind (triple_findRecipientsMissingTrustline S hi _ fun r hr => ?_) fun missing => ?_
  · rw [← recipientInputs_address]
    exact List.mem_map_of_mem hr
  intro w hw
  obtain ⟨rfl, hw⟩ := hw
  refine (Triple.bind (triple_checkSettled S hi) fun settled => ?_) w hw
  intro w hw
  obtain ⟨rfl, hw⟩ := hw
  refine (Triple.bind (triple_checkFloat S hi) fun funded => ?_) w hw
  intro w hw
  obtain ⟨rfl, hw⟩ := hw
  exact triple_settleWithRetry S hi 2 w hw

include hi in
theorem triple_startSettlement (order : Order) : Triple (discipline S) i
    (fun w => Ready cfg payloads w ∧ Fresh p.orderId order.productId w)
    (startSettlement cfg p order)
    (fun _ w => Ready cfg payloads w ∧ statusOf w p.orderId = some .settled) Y := by
  refine Triple.bind (R := fun _ w => Ready cfg payloads w ∧ Fresh p.orderId order.productId w)
    (triple_update S hi Fresh.same rfl (fun w h => ?_) fun w o h ho => ?_) fun _ => ?_
  · obtain ⟨o, ho, -⟩ := h.order
    exact ⟨o, ho⟩
  · obtain ⟨o', ho', hprod⟩ := h.order
    obtain rfl : o = o' := Option.some.inj (ho.symm.trans ho')
    exact ⟨⟨_, w.setOrder_lookup _ _, hprod⟩, h.row, h.chain⟩
  refine Triple.bind (triple_await S hi Fresh.same rfl (by simp)) fun collaborators => ?_
  intro w hw
  obtain ⟨hw, c, -, ha⟩ := hw
  obtain ⟨o, ho, hprod⟩ := hw.2.order
  have hpay : Payable cfg w.chain.trustline collaborators := by
    rw [← Except.ok.inj ha, ← hprod]
    exact (hw.1.staffed p (List.mem_of_getElem? hi) o ho).perm (reorder_perm _ _)
  have hlen := hpay.length_le
  rw [if_neg (mt List.length_eq_zero_iff.1 hpay.ne_nil), if_neg (not_not.2 hpay.sum),
    if_neg (by omega)]
  exact triple_settleCollaborators S hi order w ⟨hw.1, ⟨o, ho⟩, hw.2.row, hw.2.chain, hpay⟩

include hi in
theorem triple_handlePaymentReceived : Triple (discipline S) i
    (fun w => Ready cfg payloads w ∧ Settleable w p.orderId ∧
      w.db.settlements.lookup p.orderId = none ∧ Untouched p.orderId w.chain)
    (handlePaymentReceived cfg p)
    (fun _ w => Ready cfg payloads w ∧ statusOf w p.orderId = some .settled)
    fun _ _ => False := by
  refine Triple.tryCatch (Y := fun _ _ => False) ?_ fun _ _ h => h.elim
  refine Triple.bind (triple_await S hi (fun h hs => ?_) rfl (by simp)) fun answer => ?_
  · obtain ⟨h1, h2, h3⟩ := h
    have hst := congrArg (Option.map (·.status)) hs.order
    refine ⟨?_, hs.row.trans h2, hs.untouched h3⟩
    rw [Settleable, statusOf, hst]
    exact h1
  intro w hw
  obtain ⟨⟨hready, hset, hrow, hchain⟩, c, -, ha⟩ := hw
  obtain ⟨o, ho⟩ := hset.exists_order
  obtain rfl : some (o, w.db.creatorOf o.productId) = answer := by
    rw [← Except.ok.inj ha, ho]
    rfl
  have hcan : canTransition o.status .settlementPending = true := by
    simpa [Settleable, statusOf, ho] using hset
  dsimp only
  rw [if_neg (by simp [hcan])]
  exact triple_startSettlement S hi o w ⟨hready, ⟨o, ho, rfl⟩, hrow, hchain⟩

end Run

theorem stable (S : Setup cfg payloads) (i : ℕ) : Stable (discipline S) i
    (fun (_ : Unit) w => Ready cfg payloads w ∧
      ∀ p ∈ payloads[i]?, statusOf w p.orderId = some .settled) fun _ _ => False where
  ret_inv h := h.1
  raise_inv h := h.elim
  ret_rely h hr hi := ⟨hi, fun p hp => by
    have hst := congrArg (Option.map (·.status)) (hr p hp).order
    exact hst.trans (h.2 p hp)⟩
  raise_rely h := h.elim

theorem owed_eq_sum {settlement : Finset String} : ∀ {payloads : List PaymentReceivedPayload},
    (∀ p ∈ payloads, p.orderId ∉ settlement) →
      owed settlement payloads = (payloads.map (·.amountUsd.toBase)).sum
  | [], _ => rfl
  | p :: rest, h => by
    have hrest := owed_eq_sum fun q hq => h q (List.mem_cons_of_mem p hq)
    rw [owed, if_neg (h p (by simp)), hrest, List.map_cons, List.sum_cons]

/-- The orders before the runs : each can be settled, and the wallet holds what they cost. -/
structure Start (cfg : StellarConfig) (payloads : List PaymentReceivedPayload) (w : World) :
    Prop where
  wallet : w.chain.contract.platformWallet = some cfg.platformWalletAddress
  token : w.chain.contract.usdcSac = some cfg.usdc
  queue : ∀ tx, .settle tx ∉ w.chain.mempool
  settleable : ∀ p ∈ payloads, Settleable w p.orderId
  row : ∀ p ∈ payloads, w.db.settlements.lookup p.orderId = none
  chain : ∀ p ∈ payloads, Untouched p.orderId w.chain
  staffed : Staffed cfg payloads w.chain.trustline w.db
  funds : (payloads.map (·.amountUsd.toBase)).sum ≤
    (w.chain.contract.ledger cfg.usdc).balance cfg.platformWalletAddress

theorem Start.ready {w : World} (h : Start cfg payloads w) : Ready cfg payloads w where
  staffed := h.staffed
  covered :=
    { wallet := h.wallet
      token := h.token
      orders := fun p hp => Or.inl (h.chain p hp)
      queued := fun tx ht => absurd ht (h.queue tx)
      applied := fun p hp r hr href => absurd href ((h.chain p hp).results r hr)
      funds := (owed_eq_sum fun p hp => (h.chain p hp).marker).le.trans h.funds }

end Distinct

/-- Runs for distinct orders that can be settled, whose steps meet `Permitted`. When all have
ended, every order is settled. -/
theorem distinct_orders (cfg : StellarConfig) (payloads : List PaymentReceivedPayload) (w : World)
    (as : List (Action Choice Env)) (hsetup : Distinct.Setup cfg payloads)
    (hstart : Distinct.Start cfg payloads w)
    (hrun : Config.Along (machine cfg)
      (Config.Meets Distinct.Permitted (Distinct.Outside cfg payloads)) as
        ⟨payloads.map (handlePaymentReceived cfg), w⟩)
    (hend : (Config.run (machine cfg) as ⟨payloads.map (handlePaymentReceived cfg), w⟩).Ended) :
    ∀ p ∈ payloads, statusOf (Config.run (machine cfg) as
      ⟨payloads.map (handlePaymentReceived cfg), w⟩).world p.orderId = some .settled := by
  have hsafe : Config.Safe (Distinct.discipline hsetup)
      (fun i _ w => Distinct.Ready cfg payloads w ∧
        ∀ p ∈ payloads[i]?, statusOf w p.orderId = some .settled) (fun _ _ _ => False)
      ⟨payloads.map (handlePaymentReceived cfg), w⟩ := by
    refine ⟨hstart.ready, fun i q hq => ?_⟩
    rw [List.getElem?_map] at hq
    obtain ⟨p, hi, rfl⟩ := Option.map_eq_some_iff.1 hq
    have hp := List.mem_of_getElem? hi
    refine ⟨trivial, ((Distinct.triple_handlePaymentReceived hsetup hi).mono (fun _ h => h) ?_
      fun _ _ h => h) w ⟨hstart.ready, hstart.settleable p hp, hstart.row p hp,
        hstart.chain p hp⟩⟩
    intro _ w h
    refine ⟨h.1, fun q hq => ?_⟩
    obtain rfl : p = q := Option.some.inj (hi.symm.trans hq)
    exact h.2
  intro p hp
  obtain ⟨i, hi⟩ := List.getElem?_of_mem hp
  have hrun' := hsafe.run (Distinct.stable hsetup) as hrun
  have hlt : i < (Config.run (machine cfg) as
      ⟨payloads.map (handlePaymentReceived cfg), w⟩).threads.length := by
    rw [Config.length_run, List.length_map]
    exact (List.getElem?_eq_some_iff.1 hi).1
  have hq := List.getElem?_eq_getElem hlt
  rcases hrun'.ended hq (hend _ (List.getElem_mem hlt)) with ⟨-, -, h⟩ | ⟨-, -, h⟩
  · exact h.2 p hi
  · exact h.elim

/-- Ledgers close without failures. -/
def Env.Closes : Env → Prop
  | .network (.close fails) => fails = false
  | _ => False

instance : (e : Env) → Decidable e.Closes
  | .network (.close fails) => inferInstanceAs (Decidable (fails = false))
  | .network (.submit _) | .network (.drop _) | .network (.accounts _ _)
  | .updateProduct _ _ => isFalse not_false

theorem Env.Closes.outside {cfg : StellarConfig} {payloads : List PaymentReceivedPayload}
    {w : World} {e : Env} (h : e.Closes) : Distinct.Outside cfg payloads w e := by
  cases e with
  | updateProduct productId rows => exact h.elim
  | network step =>
    cases step with
    | close fails => exact h
    | _ => exact h.elim

/-- Runs for the orders `a` and `b` of one collaborator. -/
def demoPair : Config backend World Unit :=
  ⟨[demoPayload "a", demoPayload "b"].map (handlePaymentReceived demoConfig),
    demoWorld [demoCollaborator "A" 10000]
      [("a", demoOrder .paymentReceived), ("b", demoOrder .paymentReceived)]⟩

/-- The second run reads the account when the first transaction is applied. -/
theorem distinct_orders_staggered : ∃ s, s = Config.run (machine demoConfig)
      (List.replicate 10 (.run 0 {}) ++ List.replicate 7 (.run 1 {}) ++
        .env (.network (.close false)) :: List.replicate 3 (.run 1 {}) ++
          .env (.network (.close false)) :: List.replicate 3 (.run 1 {}) ++
            List.replicate 3 (.run 0 {})) demoPair ∧
    ∀ p ∈ [demoPayload "a", demoPayload "b"], statusOf s.world p.orderId = some .settled := by
  refine ⟨_, rfl, distinct_orders demoConfig [demoPayload "a", demoPayload "b"] _ _ ?_ ?_ ?_
    (by decide)⟩
  · refine ⟨rfl, fun trustline l source destination amount _ hle ht => ?_, by decide, by decide⟩
    simp [demoConfig, hle, ht]
  · refine ⟨rfl, rfl, by simp [demoWorld], by decide, by decide,
      fun _ _ => untouched_demoWorld _ _ _, fun p hp o ho => ?_, by decide⟩
    have hprod : o.productId = "product" := by
      rcases List.mem_pair.1 hp with rfl | rfl <;> exact (Option.some.inj ho) ▸ rfl
    rw [hprod]
    exact ⟨by decide, by decide, by decide, by decide, by decide, by decide, by decide⟩
  · refine Config.Along.mono (P := Config.Meets Distinct.Permitted fun _ => Env.Closes) ?_
      (by decide)
    intro s a h
    cases a with
    | run i c => exact h
    | env e => exact h.outside

/-- Both runs read the account before either sends. The second transaction is rejected for
its number, and its order fails. -/
theorem distinct_orders_fail : ∃ as s, s = Config.run (machine demoConfig) as demoPair ∧
    Config.Along (machine demoConfig)
      (Config.Meets (fun _ _ c => c.Healthy) fun _ => Env.Closes) as demoPair ∧
    s.Ended ∧ statusOf s.world "a" = some .settled ∧
      statusOf s.world "b" = some .settlementFailed :=
  ⟨List.replicate 8 (.run 0 {}) ++ List.replicate 8 (.run 1 {}) ++
      List.replicate 2 (.run 0 {}) ++ List.replicate 3 (.run 1 {}) ++
        .env (.network (.close false)) :: List.replicate 3 (.run 0 {}),
    _, rfl, by decide, by decide, by decide, by decide⟩

end Kreav
