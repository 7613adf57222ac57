import Kreav.Lib.Protocols
import Kreav.WithdrawalSteps

/-!
# Reference numbers

`generateReference` takes the number after the newest reference of the day. The row with that
number is inserted two statements later. In between a request of any creator may read the
same reference, and the unique index on `reference` then fails the one that inserts last.
Nothing handles that.

`Alone` is the condition on the steps of a run : a request reads the newest reference while no
other is between this read and its insert, and rows are inserted at increasing times, since
the newest row is the one created last. Then every request that passes the balance check
gets a number of its own (`references_distinct`). `protocol` says which number a thread
holds, and `Inv` that it is above those of the rows.
-/

open Async Prog

namespace Kreav

/-- A call of `requestWithdrawal`. -/
structure WithdrawalRequestCall where
  walletAddress : String
  amount : ℤ
  destinationType : String
  destinationAccount : String

/-- The method of a call. -/
def WithdrawalRequestCall.method (cfg : WithdrawalConfig) (pc : WithdrawalRequestCall) :
    WithdrawalMethod Receipt :=
  requestWithdrawal cfg pc.walletAddress pc.amount pc.destinationType pc.destinationAccount

namespace ReferenceNumbers

/-! ## The protocol of a request -/

/-- The number after the newest reference of a day. -/
def nextNum : Option Reference → ℕ
  | some (.numbered _ lastNum) => lastNum + 1
  | some (.anchor _) => 1
  | none => 1

/-- Where a request stands with its reference. -/
inductive Phase
  | start
  /-- The thread has the day of its reference. -/
  | dated (day : ℕ)
  /-- The thread has read the newest reference and will insert a row with the next one. -/
  | holds (reference : Reference)
  | made (id : String) (reference : Reference)
  | done (id : String) (reference : Reference)

/-- The reference that a thread is about to insert. -/
def Phase.held : Phase → Option Reference
  | .holds reference => some reference
  | _ => none

/-- The row that a thread has inserted. -/
def Phase.row : Phase → Option (String × Reference)
  | .made id reference => some (id, reference)
  | .done id reference => some (id, reference)
  | _ => none

variable (cfg : WithdrawalConfig)

/-- How the answers take a request on. -/
inductive Reply : Phase → (r : WithdrawalRequest) → Except WithdrawalError r.Ans → Phase → Prop
  | walletCreator {a x} : Reply .start (.walletCreator a) (.ok x) .start
  | settledTotal {a x} : Reply .start (.settledTotal a) (.ok x) .start
  | completedTotal {a x} : Reply .start (.completedTotal a) (.ok x) .start
  | now {t} : Reply .start .now (.ok t) (.dated (cfg.localDay t))
  | lastReference {day last} : Reply (.dated day) (.lastReference day) (.ok last)
      (.holds (.numbered day (nextNum last)))
  | recentSettlement {reference a x} :
    Reply (.holds reference) (.recentSettlement a) (.ok x) (.holds reference)
  | create {data row} {reference : Reference} (hreference : data.reference = reference)
    (hfits : data.amount.natAbs < 10 ^ 18) :
    Reply (.holds reference) (.withdrawalCreate data) (.ok row) (.made row.id reference)
  | start {id reference x} : Reply (.made id reference)
      (.withdrawalUpdate id { status := some .processing }) (.ok x) (.done id reference)

/-- Requests are answered. -/
def protocol : Protocol withdrawals Phase where
  answers _ x := ∃ a, x = .ok a
  reply := Reply cfg
  event φ _ φ' := φ' = φ
  final _ := True
  rest := .start

/-- A receipt goes with the row of its thread. -/
def Returns (receipt : Receipt) (φ : Phase) : Prop :=
  φ = .done receipt.withdrawalId receipt.reference

/-- The errors of a request that does not pass the balance check. -/
def Refused (e : WithdrawalError) : Prop :=
  ∃ code message status, e = .domain code message status ∧
    (code = "WALLET_NOT_FOUND" ∨ code = "INSUFFICIENT_BALANCE")

/-- A request is refused before it has a reference. -/
def Raises (e : WithdrawalError) (φ : Phase) : Prop :=
  φ = .start ∧ Refused e

variable {cfg}

theorem follows_ask {r : WithdrawalRequest} {R : r.Ans → Phase → Prop} {φ : Phase}
    (h : ∀ a, ∃ φ', Reply cfg φ r (.ok a) φ' ∧ R a φ') :
    (awaitW r).Follows (protocol cfg) R Raises φ :=
  Follows.ask (fun a _ => h a) fun _ ⟨_, he⟩ => nomatch he

theorem follows_getWithdrawableBalance (walletAddress : String) :
    (getWithdrawableBalance walletAddress).Follows (protocol cfg) (fun _ φ => φ = .start) Raises
      .start := by
  refine Follows.bind (R := fun _ φ => φ = .start)
    (follows_ask fun _ => ⟨_, .walletCreator, rfl⟩) fun creatorId φ hφ => ?_
  subst hφ
  cases creatorId with
  | none => rfl
  | some creatorId =>
    refine Follows.bind (R := fun _ φ => φ = .start)
      (follows_ask fun _ => ⟨_, .settledTotal, rfl⟩) fun settled φ hφ => ?_
    subst hφ
    refine Follows.bind (R := fun _ φ => φ = .start)
      (follows_ask fun _ => ⟨_, .completedTotal, rfl⟩) fun withdrawn φ hφ => ?_
    exact hφ

theorem follows_generateReference :
    (generateReference cfg).Follows (protocol cfg) (fun reference φ => φ = .holds reference) Raises
      .start := by
  refine Follows.bind (R := fun t φ => φ = .dated (cfg.localDay t))
    (follows_ask fun _ => ⟨_, .now, rfl⟩) fun t φ hφ => ?_
  subst hφ
  refine Follows.bind (R := fun last φ => φ = .holds (.numbered (cfg.localDay t) (nextNum last)))
    (follows_ask fun _ => ⟨_, .lastReference, rfl⟩) fun last φ hφ => ?_
  subst hφ
  rcases last with - | - | - <;> rfl

theorem follows_findRecentSettlementTxHash (walletAddress : String) (reference : Reference) :
    (findRecentSettlementTxHash walletAddress).Follows (protocol cfg)
      (fun _ φ => φ = .holds reference) Raises (.holds reference) := by
  refine Follows.bind (R := fun _ φ => φ = .holds reference)
    (follows_ask fun _ => ⟨_, .recentSettlement, rfl⟩) fun recent φ hφ => ?_
  exact hφ

theorem follows_method (pc : WithdrawalRequestCall) (hfits : pc.amount.natAbs < 10 ^ 18) :
    (pc.method cfg).Follows (protocol cfg) Returns Raises .start := by
  refine Follows.bind (R := fun _ φ => φ = .start)
    (follows_ask fun _ => ⟨_, .walletCreator, rfl⟩) fun creatorId φ hφ => ?_
  subst hφ
  cases creatorId with
  | none => exact ⟨rfl, _, _, _, rfl, .inl rfl⟩
  | some creatorId =>
    refine Follows.bind (follows_getWithdrawableBalance _) fun available φ hφ => ?_
    subst hφ
    dsimp only
    split
    · exact ⟨rfl, _, _, _, rfl, .inr rfl⟩
    refine Follows.bind follows_generateReference fun reference φ hφ => ?_
    subst hφ
    refine Follows.bind (follows_findRecentSettlementTxHash _ reference) fun hash φ hφ => ?_
    subst hφ
    refine Follows.bind (R := fun row φ => φ = .made row.id reference)
      (follows_ask fun _ => ⟨_, .create rfl hfits, rfl⟩) fun row φ hφ => ?_
    subst hφ
    refine Follows.bind (R := fun _ φ => φ = .done row.id reference)
      (follows_ask fun _ => ⟨_, .start, rfl⟩) fun _ φ hφ => ?_
    exact hφ

/-! ## What holds between requests -/

/-- Later numbers of a day are on later rows. -/
def Ordered (day : ℕ) (t : WithdrawalTable) : Prop :=
  ∀ r ∈ t.rows, ∀ r' ∈ t.rows, ∀ m n, r.reference = .numbered day m →
    r'.reference = .numbered day n → m < n → r.createdAt < r'.createdAt

/-- The reference is of the day, with a number above those of the rows. -/
def Next (day : ℕ) (t : WithdrawalTable) (reference : Reference) : Prop :=
  ∃ n, reference = .numbered day n ∧
    ∀ r ∈ t.rows, ∀ m, r.reference = .numbered day m → m < n

/-- One thread at most holds a reference, which is next, and each row that was inserted is
there with a reference of its own. -/
structure Inv (day : ℕ) (w : WithdrawalWorld) (φ : ℕ → Phase) : Prop where
  ordered : Ordered day w.withdrawals
  dated : ∀ {i d}, φ i = .dated d → d = day
  next : ∀ {i reference}, (φ i).held = some reference → Next day w.withdrawals reference
  alone : ∀ {i j reference reference'}, (φ i).held = some reference →
    (φ j).held = some reference' → i = j
  row : ∀ {i id reference}, (φ i).row = some (id, reference) →
    ∃ r ∈ w.withdrawals.rows, r.id = id ∧ r.reference = reference
  apart : ∀ {i j id id' reference}, (φ i).row = some (id, reference) →
    (φ j).row = some (id', reference) → i = j

namespace Inv

variable {day : ℕ} {w : WithdrawalWorld} {φ : ℕ → Phase} {i : ℕ}

/-- A thread whose new phase claims nothing that is not so. -/
theorem update (h : Inv day w φ) {ε : Phase} (hdated : ∀ d, ε = .dated d → d = day)
    (hheld : ∀ reference, ε.held = some reference → Next day w.withdrawals reference ∧
      ∀ j, j ≠ i → (φ j).held = none)
    (hrow : ∀ id reference, ε.row = some (id, reference) →
      (∃ r ∈ w.withdrawals.rows, r.id = id ∧ r.reference = reference) ∧
        ∀ j, j ≠ i → ∀ id', (φ j).row ≠ some (id', reference)) :
    Inv day w (Function.update φ i ε) := by
  have hcases : ∀ j, Function.update φ i ε j = ε ∧ j = i ∨
      Function.update φ i ε j = φ j ∧ j ≠ i := by
    intro j
    by_cases hj : j = i
    · exact .inl ⟨hj ▸ Function.update_self .., hj⟩
    · exact .inr ⟨Function.update_of_ne hj .., hj⟩
  refine ⟨h.ordered, fun {j d} hj => ?_, fun {j reference} hj => ?_,
    fun {j k reference reference'} hj hk => ?_, fun {j id reference} hj => ?_,
    fun {j k id id' reference} hj hk => ?_⟩
  all_goals rcases hcases j with ⟨hej, hij⟩ | ⟨hej, hij⟩ <;> rw [hej] at hj
  · exact hdated d hj
  · exact h.dated hj
  · exact (hheld _ hj).1
  · exact h.next hj
  · rcases hcases k with ⟨-, hik⟩ | ⟨hek, hik⟩
    · rw [hij, hik]
    · rw [hek, (hheld _ hj).2 k hik] at hk
      cases hk
  · rcases hcases k with ⟨hek, hik⟩ | ⟨hek, -⟩ <;> rw [hek] at hk
    · rw [(hheld _ hk).2 j hij] at hj
      cases hj
    · exact h.alone hj hk
  · exact (hrow _ _ hj).1
  · exact h.row hj
  · rcases hcases k with ⟨-, hik⟩ | ⟨hek, hik⟩
    · rw [hij, hik]
    · rw [hek] at hk
      exact absurd hk ((hrow _ _ hj).2 k hik _)
  · rcases hcases k with ⟨hek, hik⟩ | ⟨hek, -⟩ <;> rw [hek] at hk
    · exact absurd hj ((hrow _ _ hk).2 j hij _)
    · exact h.apart hj hk

/-- The thread that holds a reference has inserted its row, as the newest of the day. -/
theorem create (h : Inv day w φ) {t : WithdrawalTable} {row : Withdrawal}
    (hi : (φ i).held = some row.reference) (ht : t.rows = w.withdrawals.rows ++ [row])
    (hnewest : ∀ r ∈ w.withdrawals.rows, (∃ n, r.reference = .numbered day n) →
      r.createdAt < row.createdAt) :
    Inv day { w with withdrawals := t } (Function.update φ i (.made row.id row.reference)) := by
  obtain ⟨n, hn, hbelow⟩ := h.next hi
  have hidle : Inv day w (Function.update φ i .start) :=
    h.update (fun _ he => nomatch he) (fun _ he => nomatch he) fun _ _ he => nomatch he
  -- nobody else holds a reference
  have hnone : ∀ j, (Function.update φ i .start j).held = none := by
    intro j
    by_cases hj : j = i
    · rw [hj, Function.update_self]
      rfl
    · rw [Function.update_of_ne hj]
      by_contra hne
      obtain ⟨reference, hreference⟩ := Option.ne_none_iff_exists'.1 hne
      exact hj (h.alone hreference hi)
  have hmem : row ∈ t.rows := ht ▸ List.mem_append_right _ (List.mem_singleton.2 rfl)
  have hgrown : Inv day { w with withdrawals := t } (Function.update φ i .start) :=
    { ordered := by
        intro r hr r' hr' m k hm hk hmk
        have hr : r ∈ w.withdrawals.rows ++ [row] := ht ▸ hr
        have hr' : r' ∈ w.withdrawals.rows ++ [row] := ht ▸ hr'
        rcases List.mem_append.1 hr with hr | hr <;> rcases List.mem_append.1 hr' with hr' | hr'
        · exact h.ordered r hr r' hr' m k hm hk hmk
        · rw [List.mem_singleton.1 hr']
          exact hnewest r hr ⟨m, hm⟩
        · rw [List.mem_singleton.1 hr, hn] at hm
          have hlt := hbelow r' hr' k hk
          have hmn := (Reference.numbered.inj hm).2
          omega
        · rw [List.mem_singleton.1 hr] at hm
          rw [List.mem_singleton.1 hr', hm] at hk
          have hkm := (Reference.numbered.inj hk).2
          omega
      dated := hidle.dated
      next := fun {j _} hj => absurd (hj.symm.trans (hnone j)) (by simp)
      alone := fun {j _ _ _} hj => absurd (hj.symm.trans (hnone j)) (by simp)
      row := fun hj => by
        obtain ⟨r, hr, he⟩ := hidle.row hj
        exact ⟨r, ht ▸ List.mem_append_left _ hr, he⟩
      apart := hidle.apart }
  rw [← Function.update_idem (a := i) .start]
  refine hgrown.update (fun _ he => nomatch he) (fun _ he => nomatch he) fun id reference he => ?_
  obtain ⟨rfl, rfl⟩ := Prod.mk.inj (Option.some.inj he)
  refine ⟨⟨row, hmem, rfl, rfl⟩, fun j hj id' hj' => ?_⟩
  obtain ⟨r, hr, -, hreference⟩ := hidle.row hj'
  exact absurd (hbelow r hr n (hreference.trans hn)) (lt_irrefl n)

/-- An update keeps what the rows are known by. -/
theorem modify (h : Inv day w φ) (p : Withdrawal → Bool) (data : WithdrawalUpdate)
    (amount : Option Usd) :
    Inv day { w with withdrawals := w.withdrawals.modify p data amount } φ := by
  have hrows : ∀ r ∈ (w.withdrawals.modify p data amount).rows, ∃ r' ∈ w.withdrawals.rows,
      r'.reference = r.reference ∧ r'.createdAt = r.createdAt := by
    intro r hr
    obtain ⟨r', hr', rfl⟩ := WithdrawalTable.mem_modify.1 hr
    refine ⟨r', hr', ?_⟩
    split <;> exact ⟨rfl, rfl⟩
  refine ⟨fun r hr r' hr' m n hm hn hmn => ?_, h.dated, fun {j reference} hj => ?_, h.alone,
    fun {j id reference} hj => ?_, h.apart⟩
  · obtain ⟨s, hs, hsr, hst⟩ := hrows r hr
    obtain ⟨s', hs', hsr', hst'⟩ := hrows r' hr'
    rw [← hst, ← hst']
    exact h.ordered s hs s' hs' m n (hsr.trans hm) (hsr'.trans hn) hmn
  · obtain ⟨n, hn, hbelow⟩ := h.next hj
    refine ⟨n, hn, fun r hr m hm => ?_⟩
    obtain ⟨s, hs, hsr, -⟩ := hrows r hr
    exact hbelow s hs m (hsr.trans hm)
  · obtain ⟨r, hr, he⟩ := h.row hj
    refine ⟨_, WithdrawalTable.mem_modify.2 ⟨r, hr, rfl⟩, ?_⟩
    split <;> exact he

end Inv

/-! ## Answers -/

/-- The number after the newest reference is above those of all rows of the day. -/
theorem effect_lastReference {day : ℕ} {w : WithdrawalWorld} (h : Ordered day w.withdrawals)
    (c : WithdrawalChoice) : ∃ last, withdrawalEffect (.lastReference day) c w = (.ok last, w) ∧
      Next day w.withdrawals (.numbered day (nextNum last)) := by
  refine ⟨_, rfl, _, rfl, fun r hr m hm => ?_⟩
  generalize hl : reorder c.order _ = l
  have hmem : ∀ r, r ∈ l ↔ r ∈ w.withdrawals.rows ∧ ∃ n, r.reference = .numbered day n := by
    intro r
    rw [← hl, (reorder_perm _ _).mem_iff, List.mem_filter]
    refine and_congr_right fun _ => ?_
    cases r.reference <;> simp
  have hr' := (hmem r).2 ⟨hr, m, hm⟩
  cases ho : List.argmax (·.createdAt) l with
  | none =>
    rw [List.argmax_eq_none.1 ho] at hr'
    cases hr'
  | some newest =>
    obtain ⟨hnewest, n, hn⟩ := (hmem newest).1 (List.argmax_mem ho)
    have hle : r.createdAt ≤ newest.createdAt := List.le_of_mem_argmax hr' ho
    have hnot : ¬ n < m := fun hlt =>
      absurd (h newest hnewest r hr n m hn hm hlt) (not_lt.2 hle)
    rw [Option.map_some, hn]
    show m < n + 1
    omega

/-- An insert that meets the unique indexes. -/
theorem create_ok {t : WithdrawalTable} {id : String} (createdAt : ℕ) {data : WithdrawalCreate}
    (hfits : data.amount.natAbs < 10 ^ 18) (hid : id ∉ t.rows.map (·.id))
    (hreference : data.reference ∉ t.rows.map (·.reference)) :
    ∃ row t', t.create id createdAt data = .ok (row, t') ∧ row.reference = data.reference ∧
      row.createdAt = createdAt ∧ t'.rows = t.rows ++ [row] := by
  unfold WithdrawalTable.create WithdrawalTable.add
  simp only [Usd.ofCents?, dif_pos hfits, dif_pos (And.intro hid hreference)]
  exact ⟨_, _, rfl, rfl, rfl, List.concat_eq_append⟩

/-! ## The condition on the steps -/

/-- A reference of the day. -/
def isOf (day : ℕ) : Reference → Bool
  | .numbered day' _ => day' = day
  | .anchor _ => false

theorem isOf_iff {day : ℕ} (reference : Reference) :
    isOf day reference = true ↔ ∃ n, reference = .numbered day n := by
  cases reference <;> simp [isOf]

variable {day : ℕ}

/-- What a request is answered with : the day is `day`, and a row gets a new id and a time
after those of the rows of the day. -/
def Timely (cfg : WithdrawalConfig) (day : ℕ) (w : WithdrawalWorld) :
    WithdrawalRequest → WithdrawalChoice → Prop
  | .now, c => cfg.localDay c.now = day
  | .withdrawalCreate _, c => c.uuid ∉ w.withdrawals.rows.map (·.id) ∧
      ∀ r ∈ w.withdrawals.rows, (∃ n, r.reference = .numbered day n) → r.createdAt < c.now
  | _, _ => True

instance (w : WithdrawalWorld) : (r : WithdrawalRequest) → (c : WithdrawalChoice) →
    Decidable (Timely cfg day w r c)
  | .now, _ => inferInstanceAs (Decidable (_ = _))
  | .withdrawalCreate _, c => decidable_of_iff (c.uuid ∉ w.withdrawals.rows.map (·.id) ∧
      ∀ r ∈ w.withdrawals.rows, isOf day r.reference = true → r.createdAt < c.now)
    (and_congr_right fun _ => forall₂_congr fun r _ => imp_congr_left (isOf_iff r.reference))
  | .withdrawalUpdate _ _, _ | .withdrawalUpdateMany _ _ _, _ | .walletCreator _, _
  | .walletOf _, _ | .settledTotal _, _ | .completedTotal _, _ | .lastReference _, _
  | .recentSettlement _, _ | .withdrawalFindUnique _, _ | .randomDigits, _
  | .withdrawInteractive _ _ _, _ | .getTransaction _ _, _ | .submitWithdrawPayment _ _, _ =>
    isTrue trivial

/-- The read of the newest reference. -/
def isRead : WithdrawalRequest → Bool
  | .lastReference _ => true
  | _ => false

/-- The requests between the read of the newest reference and the insert. -/
def isBetween : WithdrawalRequest → Bool
  | .recentSettlement _ => true
  | .withdrawalCreate _ => true
  | _ => false

/-- The condition on the steps of a run : no fault, a timely answer, and no other thread
between its read of the newest reference and its insert when a thread makes this read. -/
def Alone (cfg : WithdrawalConfig) (day : ℕ) (s : Config withdrawals WithdrawalWorld Receipt) :
    Action WithdrawalChoice WithdrawalEnv → Prop
  | .run i c => ∀ r, s.Waits i r → c.fault = .none ∧ Timely cfg day s.world r c ∧
      (isRead r = true → ∀ j, j ≠ i → ∀ r', s.Waits j r' → isBetween r' = false)
  | .env _ => True

instance (s : Config withdrawals WithdrawalWorld Receipt)
    (a : Action WithdrawalChoice WithdrawalEnv) : Decidable (Alone cfg day s a) :=
  match a with
  | .run i c => decidable_of_iff (∀ r ∈ s.threads[i]?.bind Prog.request, c.fault = .none ∧
      Timely cfg day s.world r c ∧ (isRead r = true → ∀ j < s.threads.length, j ≠ i →
        ∀ r' ∈ s.threads[j]?.bind Prog.request, isBetween r' = false))
    (by
      have hothers : (∀ j < s.threads.length, j ≠ i → ∀ r' ∈ s.threads[j]?.bind Prog.request,
          isBetween r' = false) ↔ ∀ j, j ≠ i → ∀ r', s.Waits j r' → isBetween r' = false := by
        constructor
        · intro h j hj r' hw
          obtain ⟨p, hp, hr⟩ := hw
          exact h j (List.getElem?_eq_some_iff.1 hp).1 hj r' (Config.waits_iff.1 ⟨p, hp, hr⟩)
        · exact fun h j _ hj r' hr' => h j hj r' (Config.waits_iff.2 hr')
      exact forall_congr' fun r => imp_congr Config.waits_iff.symm
        (and_congr_right fun _ => and_congr_right fun _ => imp_congr_right fun _ => hothers))
  | .env _ => isTrue trivial

/-- The answer to a request that no fault hits. -/
theorem Inv.exec {w : WithdrawalWorld} {φ : ℕ → Phase} {i : ℕ} (h : Inv day w φ)
    {r : WithdrawalRequest} {c : WithdrawalChoice} {x : Except WithdrawalError r.Ans} {φ₀ : Phase}
    (hr : Reply cfg (φ i) r x φ₀) (hfault : c.fault = .none) (htimely : Timely cfg day w r c)
    (hread : isRead r = true → ∀ j, j ≠ i → (φ j).held = none) :
    (∃ a, (withdrawalExec r c w).1 = .ok a) ∧
      ∀ φ', Reply cfg (φ i) r (withdrawalExec r c w).1 φ' →
        Inv day (withdrawalExec r c w).2 (Function.update φ i φ') := by
  rw [withdrawalExec_none hfault]
  -- an answer that leaves the world and the phase
  have hsame : ∀ {φ'}, φ' = φ i → Inv day w (Function.update φ i φ') := by
    rintro φ' rfl
    rwa [Function.update_eq_self]
  generalize hφ : φ i = ε at hr hsame ⊢
  cases hr with
  | walletCreator =>
    refine ⟨⟨_, rfl⟩, fun φ' hφ' => ?_⟩
    cases hφ'
    exact hsame rfl
  | settledTotal =>
    refine ⟨⟨_, rfl⟩, fun φ' hφ' => ?_⟩
    cases hφ'
    exact hsame rfl
  | completedTotal =>
    refine ⟨⟨_, rfl⟩, fun φ' hφ' => ?_⟩
    cases hφ'
    exact hsame rfl
  | now =>
    refine ⟨⟨_, rfl⟩, fun φ' hφ' => ?_⟩
    cases hφ'
    exact h.update (fun d hd => (Phase.dated.inj hd) ▸ htimely) (fun _ he => by cases he)
      fun _ _ he => by cases he
  | lastReference =>
    obtain rfl := h.dated hφ
    obtain ⟨last, heffect, hnext⟩ := effect_lastReference h.ordered c
    rw [heffect]
    refine ⟨⟨_, rfl⟩, fun φ' hφ' => ?_⟩
    cases hφ'
    refine h.update (fun _ he => by cases he) (fun reference he => ?_) fun _ _ he => by cases he
    exact ⟨(Option.some.inj he) ▸ hnext, hread rfl⟩
  | recentSettlement =>
    refine ⟨⟨_, rfl⟩, fun φ' hφ' => ?_⟩
    cases hφ'
    exact hsame rfl
  | @create data _ reference hreference hfits =>
    have hheld : (φ i).held = some reference := by rw [hφ]; rfl
    obtain ⟨n, hn, hbelow⟩ := h.next hheld
    have hfree : data.reference ∉ w.withdrawals.rows.map (·.reference) := by
      intro hmem
      obtain ⟨r, hr, he⟩ := List.mem_map.1 hmem
      exact absurd (hbelow r hr n (he.trans (hreference.trans hn))) (lt_irrefl n)
    obtain ⟨row, t, hcreate, hrow, htime, hrows⟩ :=
      create_ok c.now hfits htimely.1 hfree
    have heffect : withdrawalEffect (.withdrawalCreate data) c w =
        (.ok row, { w with withdrawals := t }) := by
      simp only [withdrawalEffect, hcreate]
    rw [heffect]
    refine ⟨⟨_, rfl⟩, fun φ' hφ' => ?_⟩
    cases hφ'
    obtain rfl : row.reference = reference := hrow.trans hreference
    exact h.create hheld hrows fun r hr hday => htime ▸ htimely.2 r hr hday
  | @start id reference =>
    have hrow : (φ i).row = some (id, reference) := by rw [hφ]; rfl
    obtain ⟨r, hr, hid, hreference⟩ := h.row hrow
    rw [withdrawalEffect_update c hr hid rfl]
    refine ⟨⟨_, rfl⟩, fun φ' hφ' => ?_⟩
    cases hφ'
    refine (h.modify _ _ none).update (fun _ he => by cases he) (fun _ he => by cases he)
      fun id' reference' he => ?_
    obtain ⟨rfl, rfl⟩ := Prod.mk.inj (Option.some.inj he)
    exact ⟨(h.modify _ _ none).row hrow, fun j hj id'' hj' => hj (h.apart hj' hrow)⟩

/-! ## Runs -/

theorem answer_exists (r : WithdrawalRequest) : Nonempty r.Ans := by
  cases r with
  | withdrawalCreate data =>
    exact ⟨⟨"", "", usd 0, "", "", .numbered 0 0, .requested, none, none, none, 0, none⟩⟩
  | getTransaction token id => exact ⟨⟨"", none, none, none, none, none⟩⟩
  | withdrawalUpdate id data => exact ⟨()⟩
  | withdrawalUpdateMany t creatorId data => exact ⟨()⟩
  | settledTotal a => exact ⟨(0 : ℤ)⟩
  | completedTotal a => exact ⟨(0 : ℤ)⟩
  | now => exact ⟨(0 : ℕ)⟩
  | randomDigits => exact ⟨""⟩
  | withdrawInteractive token account amount => exact ⟨""⟩
  | submitWithdrawPayment xdr account => exact ⟨""⟩
  | walletCreator a => exact ⟨(none : Option String)⟩
  | walletOf a => exact ⟨(none : Option String)⟩
  | lastReference day => exact ⟨(none : Option Reference)⟩
  | recentSettlement a => exact ⟨(none : Option TxHash)⟩
  | withdrawalFindUnique id => exact ⟨(none : Option Withdrawal)⟩

/-- What is known of a run between its actions. -/
structure Tracked (cfg : WithdrawalConfig) (day : ℕ)
    (s : Config withdrawals WithdrawalWorld Receipt) (φ : ℕ → Phase) : Prop where
  follows : s.Follows (protocol cfg) Returns Raises φ
  absent : ∀ {i}, s.threads[i]? = none → φ i = .start
  inv : Inv day s.world φ

namespace Tracked

variable {s : Config withdrawals WithdrawalWorld Receipt} {φ : ℕ → Phase}

/-- A thread that holds a reference is between its read and its insert. -/
theorem between (h : Tracked cfg day s φ) {i : ℕ} {reference : Reference}
    (hi : (φ i).held = some reference) : ∃ r, s.Waits i r ∧ isBetween r = true := by
  obtain hφ : φ i = .holds reference := by
    cases hφ : φ i with
    | holds held =>
      rw [hφ] at hi
      rw [Option.some.inj hi]
    | _ =>
      rw [hφ] at hi
      cases hi
  cases hp : s.threads[i]? with
  | none => exact absurd ((h.absent hp).symm.trans hφ) (by simp)
  | some p =>
    obtain ⟨hsus, hfollows⟩ := h.follows i p hp
    rw [hφ] at hfollows
    cases p with
    | ret receipt => cases hfollows
    | raise e => cases hfollows.1
    | emit v p => exact v.elim
    | call r k =>
      obtain ⟨a⟩ := answer_exists r
      obtain ⟨φ', hreply, -⟩ := hfollows (.ok a) ⟨a, rfl⟩
      refine ⟨r, ⟨_, hp, rfl⟩, ?_⟩
      cases hreply <;> rfl

/-- One action that meets the condition. -/
theorem act (h : Tracked cfg day s φ) {a : Action WithdrawalChoice WithdrawalEnv}
    (ha : Alone cfg day s a) : ∃ ψ, Tracked cfg day (s.act withdrawalMachine a) ψ := by
  cases a with
  | env e =>
    refine ⟨φ, h.follows, h.absent, ?_⟩
    obtain ⟨orderId, amountUsd, txHash, collaborators⟩ := e
    have hinv := h.inv
    simp only [Config.act, withdrawalMachine]
    split
    · exact ⟨hinv.ordered, hinv.dated, hinv.next, hinv.alone, hinv.row, hinv.apart⟩
    · exact hinv
  | run i c =>
    cases hp : s.threads[i]? with
    | none => exact ⟨φ, by simpa only [Config.act, hp] using h⟩
    | some p =>
      cases p with
      | call r k =>
        have hw : s.Waits i r := ⟨_, hp, rfl⟩
        obtain ⟨hfault, htimely, hread⟩ := ha r hw
        obtain ⟨a⟩ := answer_exists r
        obtain ⟨φ₀, hreply, -⟩ := (h.follows i _ hp).2 (.ok a) ⟨a, rfl⟩
        have hheld : isRead r = true → ∀ j, j ≠ i → (φ j).held = none := by
          intro hr j hj
          by_contra hne
          obtain ⟨reference, hreference⟩ := Option.ne_none_iff_exists'.1 hne
          obtain ⟨r', hw', hbetween⟩ := h.between hreference
          exact absurd (hread hr j hj r' hw') (by simp [hbetween])
        obtain ⟨hanswer, hinv⟩ := h.inv.exec hreply hfault htimely hheld
        obtain ⟨φ', hφ', hfollows⟩ :=
          h.follows.act_run (M := withdrawalMachine) (fun _ _ _ h => h) hp hanswer
        refine ⟨_, hfollows, fun {j} hj => ?_, ?_⟩
        · rw [List.getElem?_eq_none_iff, Config.length_act, ← List.getElem?_eq_none_iff] at hj
          rw [Function.update_of_ne fun he => by rw [he, hp] at hj; cases hj]
          exact h.absent hj
        · rw [Config.act_run withdrawalMachine c hp, Prog.resume, withdrawalMethod_flush]
          exact hinv φ' hφ'
      | emit v p => exact v.elim
      | _ =>
        refine ⟨φ, ?_⟩
        obtain ⟨hi, hget⟩ := List.getElem?_eq_some_iff.1 hp
        rw [Config.act_run withdrawalMachine c hp, Prog.resume, ← hget, List.set_getElem_self hi]
        exact h

end Tracked

end ReferenceNumbers

open ReferenceNumbers

/-- A request that has ended has returned a receipt for its row, or was refused, and no two
requests have the same reference. -/
structure DistinctReferences (s : Config withdrawals WithdrawalWorld Receipt) : Prop where
  ended : ∀ (i : ℕ) (p : WithdrawalMethod Receipt), s.threads[i]? = some p → p.Ended →
    (∃ receipt, p = .ret receipt ∧ ∃ row ∈ s.world.withdrawals.rows,
      row.id = receipt.withdrawalId ∧ row.reference = receipt.reference) ∨
    ∃ e, p = .raise e ∧ Refused e
  distinct : ∀ (i j : ℕ) (receipt receipt' : Receipt), s.threads[i]? = some (.ret receipt) →
    s.threads[j]? = some (.ret receipt') → receipt.reference = receipt'.reference → i = j

/-- Requests of any creators on one day, interleaved in any way. When no request reads the
newest reference between another's read and insert, and rows are inserted at
increasing times, each request that passes the balance check returns a receipt, for a row
with a reference of its own. -/
theorem references_distinct (cfg : WithdrawalConfig) (day : ℕ) (calls : List WithdrawalRequestCall)
    (hfits : ∀ pc ∈ calls, pc.amount.natAbs < 10 ^ 18) (w : WithdrawalWorld)
    (hw : Ordered day w.withdrawals) (as : List (Action WithdrawalChoice WithdrawalEnv))
    (hrun : Config.Along withdrawalMachine (Alone cfg day) as ⟨calls.map (·.method cfg), w⟩) :
    DistinctReferences (Config.run withdrawalMachine as ⟨calls.map (·.method cfg), w⟩) := by
  have hstart : Tracked cfg day ⟨calls.map (·.method cfg), w⟩ fun _ => .start :=
    { follows := fun i p hp => by
        obtain ⟨pc, hpc, rfl⟩ := List.mem_map.1 (List.mem_of_getElem? hp)
        exact ⟨withdrawalMethod_suspended _, follows_method pc (hfits pc hpc)⟩
      absent := fun _ => rfl
      inv :=
        { ordered := hw
          dated := fun he => nomatch he
          next := fun he => nomatch he
          alone := fun he => nomatch he
          row := fun he => nomatch he
          apart := fun he => nomatch he } }
  obtain ⟨φ, h⟩ := Config.inv_run (I := fun s => ∃ φ, Tracked cfg day s φ)
    (fun _ _ ⟨_, h⟩ ha => h.act ha) as _ ⟨_, hstart⟩ hrun
  have hreturned : ∀ (i : ℕ) (receipt : Receipt),
      (Config.run withdrawalMachine as ⟨calls.map (·.method cfg), w⟩).threads[i]? =
        some (.ret receipt) → (φ i).row = some (receipt.withdrawalId, receipt.reference) := by
    intro i receipt hp
    have hφ : φ i = .done receipt.withdrawalId receipt.reference := (h.follows i _ hp).2
    rw [hφ]
    rfl
  refine ⟨fun i p hp hend => ?_, fun i j receipt receipt' hi hj he => ?_⟩
  · cases p with
    | ret receipt => exact .inl ⟨receipt, rfl, h.inv.row (hreturned i receipt hp)⟩
    | raise e => exact .inr ⟨e, rfl, (h.follows i _ hp).2.2⟩
    | emit v p => exact v.elim
    | call r k => exact hend.elim
  · exact h.inv.apart (hreturned i receipt hi) (he ▸ hreturned j receipt' hj)

/-- Two requests for the $9.50 of `alice`. -/
def demoRequests : List WithdrawalRequestCall :=
  [⟨"A", 950, "BANK", "1"⟩, ⟨"A", 950, "BANK", "1"⟩]

/-- Steps of the thread `i`, whose row gets the id `id` at the time `now`. -/
def demoSteps (n i : ℕ) (id : String) (now : ℕ) : List (Action WithdrawalChoice WithdrawalEnv) :=
  List.replicate n (.run i { uuid := id, now })

/-- One request after the other. -/
theorem references_distinct_apart : DistinctReferences (Config.run withdrawalMachine
    (demoSteps 9 0 "1" 0 ++ demoSteps 9 1 "2" 1)
    ⟨demoRequests.map (·.method demoWithdrawalConfig), demoCredited⟩) :=
  references_distinct demoWithdrawalConfig 0 demoRequests (by decide) demoCredited
    (fun _ hr => nomatch hr) _ (by decide)

/-- The second request reads the newest reference before the first inserts its row. Both take
the number 1, and the second insert violates the unique index. -/
theorem references_collide :
    (Config.run withdrawalMachine
      (demoSteps 6 0 "1" 0 ++ demoSteps 6 1 "2" 1 ++ demoSteps 3 0 "1" 0 ++ demoSteps 2 1 "2" 1)
      ⟨demoRequests.map (·.method demoWithdrawalConfig), demoCredited⟩).threads[1]? =
        some (.raise .uniqueViolation) :=
  rfl

end Kreav
