import Kreav.BackendSteps
import Kreav.Lib.Lifetimes
import Kreav.SorobanRpc

/-!
# Archived ledger entries

The contract's code, its instance storage and each settlement marker are ledger entries with
a time to live. An invocation that reads an archived entry is refused until the entry is
restored. `initialize` and `settle` keep code and instance alive for `ttlInstance` ledgers,
and a marker lives `ttlPersistent` ledgers.

`sorobanIsSettled` takes any archived entry for the marker. Its answers are right exactly
for an order that is settled, and while neither code nor instance is archived
(`sorobanIsSettled_correct`), which `ttlInstance` ledgers without a call cannot change
(`live_of_active`).
-/

open Async Prog

namespace Kreav

/-- Ledgers the instance storage lives after it was extended. -/
def ttlInstance : ℕ :=
  535680

/-- Ledgers a settlement marker lives. -/
def ttlPersistent : ℕ :=
  518400

/-! ## The contract on the ledger -/

/-- The ledger entries of the contract. -/
inductive LedgerEntry
  | contractCode
  | contractInstance
  | settlement (orderRef : String)
  deriving DecidableEq, Repr

/-- The contract and the lifetimes of its entries, in ledgers. -/
structure Hosted where
  contract : ContractState String
  entries : Lifetimes LedgerEntry

/-- The entries an invocation reads. -/
def Invocation.reads : Invocation String → List LedgerEntry
  | .initializeContract _ _ _ => [.contractCode, .contractInstance]
  | .settle _ orderRef _ _ => [.contractCode, .contractInstance, .settlement orderRef]
  | .isSettled orderRef => [.contractCode, .contractInstance, .settlement orderRef]

/-- The lifetimes after an invocation that returned `Ok`. -/
def Invocation.extend : Invocation String → Lifetimes LedgerEntry → Lifetimes LedgerEntry
  | .initializeContract _ _ _, l =>
    (l.extend .contractCode ttlInstance).extend .contractInstance ttlInstance
  | .settle _ orderRef _ _, l =>
    ((l.create (.settlement orderRef) ttlPersistent).extend .contractCode ttlInstance).extend
      .contractInstance ttlInstance
  | .isSettled _, l => l

/-- What happens to the contract. -/
inductive HostStep
  | invoke (sac : Sac String) (i : Invocation String)
  | pass (ledgers : ℕ)
  /-- Anyone may restore an entry or keep it alive. -/
  | restore (e : LedgerEntry) (ttl : ℕ)

namespace Hosted

/-- The code and the instance were deployed, a marker exists once it is set. -/
def Exists (h : Hosted) : LedgerEntry → Prop
  | .contractCode => True
  | .contractInstance => True
  | .settlement orderRef => orderRef ∈ h.contract.settlement

instance (h : Hosted) : (e : LedgerEntry) → Decidable (h.Exists e)
  | .contractCode => isTrue trivial
  | .contractInstance => isTrue trivial
  | .settlement orderRef => inferInstanceAs (Decidable (orderRef ∈ h.contract.settlement))

/-- An entry among these exists but has expired. -/
def NeedsRestore (h : Hosted) (es : List LedgerEntry) : Prop :=
  ∃ e ∈ es, h.Exists e ∧ h.entries.Expired e

instance (h : Hosted) (es : List LedgerEntry) : Decidable (h.NeedsRestore es) :=
  inferInstanceAs (Decidable (∃ e ∈ es, _))

/-- An invocation. One that reads an archived entry is refused. -/
def invoke (sac : Sac String) (i : Invocation String) (h : Hosted) : Outcome × Hosted :=
  if h.NeedsRestore i.reads then (.halted .trap, h)
  else
    let (outcome, contract) := Kreav.invoke sac i h.contract
    (outcome, ⟨contract, if outcome = .ok then i.extend h.entries else h.entries⟩)

/-- One step of the network. -/
def step (h : Hosted) : HostStep → Hosted
  | .invoke sac i => (h.invoke sac i).2
  | .pass ledgers => { h with entries := h.entries.pass ledgers }
  | .restore e ttl => { h with entries := h.entries.extend e ttl }

/-- Steps, one after the other. -/
def run (steps : List HostStep) (h : Hosted) : Hosted :=
  steps.foldl step h

/-- The orders whose `settle` succeeded. -/
def settledRefs : List HostStep → Hosted → List String
  | [], _ => []
  | .invoke sac i :: steps, h =>
    (okSettle i (h.invoke sac i).1).map (·.orderRef) ++
      settledRefs steps (h.step (.invoke sac i))
  | s :: steps, h => settledRefs steps (h.step s)

/-- The ledgers that go by. -/
def ledgersIn : List HostStep → ℕ
  | [] => 0
  | .pass ledgers :: steps => ledgers + ledgersIn steps
  | _ :: steps => ledgersIn steps

@[simp] theorem run_nil (h : Hosted) : h.run [] = h :=
  rfl

@[simp] theorem run_cons (s : HostStep) (steps : List HostStep) (h : Hosted) :
    h.run (s :: steps) = (h.step s).run steps :=
  rfl

/-! ## Markers -/

theorem invoke_of_needsRestore {sac : Sac String} {i : Invocation String} {h : Hosted}
    (hn : h.NeedsRestore i.reads) : h.invoke sac i = (.halted .trap, h) :=
  if_pos hn

theorem invoke_of_not_needsRestore {sac : Sac String} {i : Invocation String} {h : Hosted}
    (hn : ¬ h.NeedsRestore i.reads) : h.invoke sac i =
      ((Kreav.invoke sac i h.contract).1, ⟨(Kreav.invoke sac i h.contract).2,
        if (Kreav.invoke sac i h.contract).1 = .ok then i.extend h.entries else h.entries⟩) :=
  if_neg hn

/-- One invocation sets the marker of the order it settles. -/
theorem mem_settlement_invoke (sac : Sac String) (i : Invocation String) (h : Hosted)
    (ref : String) : ref ∈ (h.invoke sac i).2.contract.settlement ↔
      ref ∈ h.contract.settlement ∨ ref ∈ (okSettle i (h.invoke sac i).1).map (·.orderRef) := by
  by_cases hn : h.NeedsRestore i.reads
  · rw [invoke_of_needsRestore hn]
    simp [okSettle_of_ne]
  rw [invoke_of_not_needsRestore hn]
  rcases invoke_cases sac i h.contract with ⟨hne, hs⟩ | ⟨auth, w, u, rfl, ho, -, hs⟩ |
    ⟨auth, ref', total, rs, w, u, split, rfl, ho, hs⟩
  · rw [okSettle_of_ne hne, hs]
    simp
  · rw [ho, hs]
    simp [okSettle]
  · rw [ho]
    simp only [okSettle, hs.settlement, Finset.mem_insert, List.map_cons, List.map_nil,
      List.mem_singleton]
    exact or_comm

/-- A marker is set exactly when a `settle` for the order succeeded. -/
theorem mem_settlement_run (ref : String) : ∀ (steps : List HostStep) (h : Hosted),
    ref ∈ (h.run steps).contract.settlement ↔
      ref ∈ h.contract.settlement ∨ ref ∈ settledRefs steps h
  | [], h => by simp [settledRefs]
  | .invoke sac i :: steps, h => by
    rw [run_cons, mem_settlement_run ref steps, settledRefs, List.mem_append, ← or_assoc]
    exact or_congr_left (mem_settlement_invoke sac i h ref)
  | .pass ledgers :: steps, h => mem_settlement_run ref steps (h.step (.pass ledgers))
  | .restore e ttl :: steps, h => mem_settlement_run ref steps (h.step (.restore e ttl))

/-! ## Lifetimes of code and instance -/

/-- Neither code nor instance is archived. -/
def Live (h : Hosted) : Prop :=
  ¬ h.entries.Expired .contractCode ∧ ¬ h.entries.Expired .contractInstance

instance (h : Hosted) : Decidable h.Live :=
  inferInstanceAs (Decidable (¬ _ ∧ ¬ _))

theorem le_liveUntil_extend (i : Invocation String) (l : Lifetimes LedgerEntry) {e : LedgerEntry}
    (he : ∀ ref, e ≠ .settlement ref) : l.liveUntil e ≤ (i.extend l).liveUntil e := by
  cases i with
  | initializeContract auth w u =>
    exact (l.le_liveUntil_extend .contractCode e _).trans (Lifetimes.le_liveUntil_extend ..)
  | settle auth ref total rs =>
    refine le_trans ?_ (Lifetimes.le_liveUntil_extend ..)
    refine le_trans ?_ (Lifetimes.le_liveUntil_extend ..)
    rw [Lifetimes.liveUntil_create_ne (he ref)]
  | isSettled ref => exact le_rfl

theorem now_extend (i : Invocation String) (l : Lifetimes LedgerEntry) :
    (i.extend l).now = l.now := by
  cases i <;> rfl

/-- An invocation takes no ledger and shortens the life of neither code nor instance. -/
theorem invoke_entries (sac : Sac String) (i : Invocation String) (h : Hosted) {e : LedgerEntry}
    (he : ∀ ref, e ≠ .settlement ref) :
    (h.invoke sac i).2.entries.now = h.entries.now ∧
      h.entries.liveUntil e ≤ (h.invoke sac i).2.entries.liveUntil e := by
  by_cases hn : h.NeedsRestore i.reads
  · rw [invoke_of_needsRestore hn]
    exact ⟨rfl, le_rfl⟩
  · rw [invoke_of_not_needsRestore hn]
    dsimp only
    split
    · exact ⟨now_extend i _, le_liveUntil_extend i _ he⟩
    · exact ⟨rfl, le_rfl⟩

theorem run_entries {e : LedgerEntry} (he : ∀ ref, e ≠ .settlement ref) :
    ∀ (steps : List HostStep) (h : Hosted),
      (h.run steps).entries.now = h.entries.now + ledgersIn steps ∧
        h.entries.liveUntil e ≤ (h.run steps).entries.liveUntil e
  | [], h => ⟨rfl, le_rfl⟩
  | s :: steps, h => by
    obtain ⟨hnow, hle⟩ := run_entries he steps (h.step s)
    rw [run_cons, hnow]
    cases s with
    | invoke sac i =>
      obtain ⟨hnow', hle'⟩ := invoke_entries sac i h he
      exact ⟨congrArg (· + ledgersIn steps) hnow', hle'.trans hle⟩
    | pass ledgers => exact ⟨Nat.add_assoc .., hle⟩
    | restore e' ttl => exact ⟨rfl, (Lifetimes.le_liveUntil_extend ..).trans hle⟩

/-- What `initialize` and `settle` extend lives on. -/
theorem le_liveUntil_instance (l : Lifetimes LedgerEntry) {e : LedgerEntry}
    (he : e = .contractCode ∨ e = .contractInstance) : l.now + ttlInstance ≤
      ((l.extend .contractCode ttlInstance).extend .contractInstance ttlInstance).liveUntil e := by
  rcases he with rfl | rfl
  · refine le_trans ?_ (Lifetimes.le_liveUntil_extend ..)
    rw [Lifetimes.liveUntil_extend_self]
    exact le_max_right _ _
  · rw [Lifetimes.liveUntil_extend_self]
    exact le_max_right _ _

theorem liveUntil_extend_of_ok {sac : Sac String} {i : Invocation String} {h : Hosted}
    (ho : (h.invoke sac i).1 = .ok) {e : LedgerEntry}
    (he : e = .contractCode ∨ e = .contractInstance) :
    h.entries.now + ttlInstance ≤ (h.invoke sac i).2.entries.liveUntil e := by
  have hn : ¬ h.NeedsRestore i.reads := by
    intro hn
    rw [invoke_of_needsRestore hn] at ho
    cases ho
  rw [invoke_of_not_needsRestore hn] at ho ⊢
  simp only at ho
  rw [if_pos ho]
  cases i with
  | initializeContract auth w u => exact le_liveUntil_instance h.entries he
  | settle auth ref total rs =>
    exact le_liveUntil_instance (h.entries.create (.settlement ref) ttlPersistent) he
  | isSettled ref => simp [Kreav.invoke] at ho

/-- After an `initialize` or a `settle` that succeeded, code and instance are live for
`ttlInstance` ledgers. -/
theorem live_of_active {sac : Sac String} {i : Invocation String} {h : Hosted}
    (ho : (h.invoke sac i).1 = .ok) (steps : List HostStep)
    (hle : ledgersIn steps ≤ ttlInstance) : ((h.invoke sac i).2.run steps).Live := by
  have hone : ∀ e, e = LedgerEntry.contractCode ∨ e = .contractInstance →
      ¬ ((h.invoke sac i).2.run steps).entries.Expired e := by
    intro e he
    have hmarker : ∀ ref, e ≠ .settlement ref := by
      rintro ref rfl
      simp at he
    have hlive := liveUntil_extend_of_ok ho he
    obtain ⟨hnow, hkeep⟩ := run_entries hmarker steps (h.invoke sac i).2
    have hnow' := (invoke_entries sac i h hmarker).1
    refine Lifetimes.not_expired_of_le ?_
    omega
  exact ⟨hone _ (Or.inl rfl), hone _ (Or.inr rfl)⟩

end Hosted

/-! ## The answers of `sorobanIsSettled` -/

/-- A call returns this answer while the contract is as in `h` : its simulation reports a
restore exactly when an entry that `is_settled` reads is archived. -/
def Answers (cfg : StellarConfig) (h : Hosted) (orderRef : String) (answer : Bool) : Prop :=
  ∃ (w : World) (ch : ℕ → Choice), w.chain.contract = h.contract ∧
    (ch 1).restore = decide (h.NeedsRestore (Invocation.isSettled orderRef).reads) ∧
    ((sorobanIsSettled orderRef).eval (machine cfg) ch w).1 = .ok answer

/-- A call that returns answers `true` for an archived entry, and else as the marker is. -/
theorem eval_sorobanIsSettled {cfg : StellarConfig} {orderRef : String} {w : World}
    {ch : ℕ → Choice} {answer : Bool}
    (h : ((sorobanIsSettled orderRef).eval (machine cfg) ch w).1 = .ok answer) :
    answer = ((ch 1).restore || isSettled orderRef w.chain.contract) := by
  obtain ⟨account, w', hx, h⟩ := eval_ask_ok h
  obtain rfl : w = w' := (exec_reads cfg rfl _ w).symm.trans (congrArg Prod.snd hx)
  obtain ⟨(sim : IsSettledSimulation), w', hx, h⟩ := eval_ask_ok h
  have hsim : sim = if (ch 1).simulationFails then .error else if (ch 1).restore then .restore
      else .value (isSettled orderRef w.chain.contract) :=
    (Except.ok.inj (exec_ok cfg (congrArg Prod.fst hx)).2).symm
  split at hsim
  · subst hsim
    exact nomatch (show Except.error Failure.isSettledSimulation = .ok answer from h)
  split at hsim
  · next hr =>
    subst hsim
    rw [hr, Bool.true_or]
    exact (Except.ok.inj h).symm
  · next hr =>
    subst hsim
    rw [Bool.not_eq_true] at hr
    rw [hr, Bool.false_or]
    exact (Except.ok.inj h).symm

theorem answers_iff (cfg : StellarConfig) (h : Hosted) (orderRef : String) (answer : Bool) :
    Answers cfg h orderRef answer ↔
      answer = (decide (h.NeedsRestore (Invocation.isSettled orderRef).reads) ||
        isSettled orderRef h.contract) := by
  constructor
  · rintro ⟨w, ch, hw, hr, he⟩
    rw [eval_sorobanIsSettled he, hr, hw]
  · intro ha
    refine ⟨{ demoWorld [] [] with chain := { (demoWorld [] []).chain with
      contract := h.contract } },
      fun _ => { restore := decide (h.NeedsRestore (Invocation.isSettled orderRef).reads) },
      rfl, rfl, ?_⟩
    subst ha
    by_cases hn : h.NeedsRestore (Invocation.isSettled orderRef).reads <;>
      simp [sorobanIsSettled, Prog.ask, Prog.bind, Prog.eval, machine, exec, effect, hn]

/-- After any history of a deployed contract, a call that returns says whether the order is
settled, exactly when it is settled or neither code nor instance is archived. -/
theorem sorobanIsSettled_correct (cfg : StellarConfig) (ledger : String → TokenLedger.Ledger String)
    (entries : Lifetimes LedgerEntry) (steps : List HostStep) (orderRef : String) :
    (∀ answer, Answers cfg (Hosted.run steps ⟨deployed ledger, entries⟩) orderRef answer →
      (answer = true ↔ orderRef ∈ Hosted.settledRefs steps ⟨deployed ledger, entries⟩)) ↔
    (orderRef ∈ Hosted.settledRefs steps ⟨deployed ledger, entries⟩ ∨
      (Hosted.run steps ⟨deployed ledger, entries⟩).Live) := by
  have hmem := Hosted.mem_settlement_run orderRef steps ⟨deployed ledger, entries⟩
  have hfresh : orderRef ∉ (deployed ledger).settlement := Finset.notMem_empty _
  rw [or_iff_right hfresh] at hmem
  simp only [answers_iff, forall_eq, Bool.or_eq_true, decide_eq_true_eq, isSettled, hmem]
  by_cases hs : orderRef ∈ Hosted.settledRefs steps ⟨deployed ledger, entries⟩
  · simp [hs]
  · simp only [hs, or_false, iff_false, false_or]
    simp only [Hosted.NeedsRestore, Invocation.reads, List.mem_cons, List.not_mem_nil, or_false,
      exists_eq_or_imp, exists_eq_left, Hosted.Exists, hmem, hs, true_and, false_and, Hosted.Live,
      not_or]

/-- The contract is initialized and then left alone for one ledger more than its instance
lives. The order is not settled, and a call answers that it is. -/
theorem sorobanIsSettled_archived :
    ∃ h, h = Hosted.run
        [.invoke (demoConfig.sac fun _ => true) (.initializeContract (fun _ => true) "P" "USDC"),
          .pass (ttlInstance + 1)]
        ⟨deployed fun _ => TokenLedger.Ledger.single "P" 10000000000000, ⟨0, fun _ => 4096⟩⟩ ∧
      h.contract.settlement = ∅ ∧ Answers demoConfig h "order" true :=
  ⟨_, rfl, by decide, (answers_iff _ _ _ _).2 (by decide)⟩

end Kreav
