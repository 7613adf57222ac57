import Kreav.ContractSplit
import Kreav.Lib.Triples
import Kreav.Products
import Kreav.SettlementRows

/-!
# The split of a product

The collaborators a body lists reach the contract as the recipients of every order of the
product. `resolveCollaborators` makes sure of their sum and of positive shares
(`Resolved`). It checks neither how many there are nor that they are distinct, so the
contract and the checks before it accept the stored split exactly when the body lists at
most `maxRecipients` collaborators with distinct addresses (`accepted_iff_listed`).
-/

open Async Prog Rounding

namespace Kreav

/-! ## Accepted splits -/

/-- A payment of the product's order passes the checks of its collaborators, and the
contract's check of the recipients. -/
structure SplitAccepted (rows : List Collaborator) : Prop where
  nonempty : rows.length ≠ 0
  sum : (rows.map (·.revenuePercentage)).sum = 10000
  length_le : ¬ maxRecipients < rows.length
  recipients : ∃ recipients allocationSum, SameRecipients (recipientInputs rows) recipients ∧
    validateRecipients recipients = .ok allocationSum

/-- Positive shares that add up. -/
structure Complete (rows : List Collaborator) : Prop where
  sum : (rows.map (·.revenuePercentage)).sum = 10000
  pos : ∀ c ∈ rows, 0 < c.revenuePercentage

theorem Complete.perm {rows rows' : List Collaborator} (h : Complete rows)
    (hp : rows'.Perm rows) : Complete rows' where
  sum := (hp.map _).sum_eq.trans h.sum
  pos c hc := h.pos c (hp.mem_iff.1 hc)

theorem exists_recipients : ∀ {rows : List Collaborator},
    (∀ c ∈ rows, 0 < c.revenuePercentage ∧ c.revenuePercentage ≤ 10000) →
      ∃ recipients, SameRecipients (recipientInputs rows) recipients
  | [], _ => ⟨[], rfl⟩
  | c :: rest, h => by
    obtain ⟨hpos, hle⟩ := h c (by simp)
    obtain ⟨recipients, hr⟩ := exists_recipients fun x hx => h x (List.mem_cons_of_mem c hx)
    exact ⟨⟨c.walletAddress, ⟨c.revenuePercentage, by omega, by omega⟩⟩ :: recipients,
      congrArg ((c.walletAddress, c.revenuePercentage) :: ·) hr⟩

/-- Of a complete split, what is left to check are the number and the addresses. -/
theorem Complete.accepted_iff {rows : List Collaborator} (h : Complete rows) :
    SplitAccepted rows ↔
      rows.length ≤ maxRecipients ∧ (rows.map (·.walletAddress)).Nodup := by
  have haddress : ∀ {recipients}, SameRecipients (recipientInputs rows) recipients →
      recipients.map (·.address) = rows.map (·.walletAddress) := fun hs =>
    hs.address.symm.trans (recipientInputs_address rows)
  have hshares : ∀ {recipients}, SameRecipients (recipientInputs rows) recipients →
      recipients.map (·.shareBps.val) = rows.map (·.revenuePercentage) := fun hs =>
    hs.shareBps.symm.trans (recipientInputs_shareBps rows)
  constructor
  · intro ha
    obtain ⟨recipients, sum, hs, hv⟩ := ha.recipients
    have hvalid := validateRecipients_eq_ok.1 ⟨sum, hv⟩
    exact ⟨not_lt.1 ha.length_le, haddress hs ▸ hvalid.nodup⟩
  · rintro ⟨hlen, hnodup⟩
    have hle : ∀ c ∈ rows, 0 < c.revenuePercentage ∧ c.revenuePercentage ≤ 10000 := by
      intro c hc
      refine ⟨h.pos c hc, h.sum ▸ List.single_le_sum ?_ _ (List.mem_map_of_mem hc)⟩
      intro x hx
      obtain ⟨c', hc', rfl⟩ := List.mem_map.1 hx
      exact (h.pos c' hc').le
    obtain ⟨recipients, hs⟩ := exists_recipients hle
    have hne : rows ≠ [] := by
      rintro rfl
      exact absurd h.sum (by decide)
    have hlength : recipients.length = rows.length := by
      simpa using congrArg List.length (haddress hs)
    have hvalid : Valid recipients := by
      refine ⟨?_, by omega, fun r hr => ?_, haddress hs ▸ hnodup, hshares hs ▸ h.sum⟩
      · rw [← List.length_pos_iff, hlength]
        exact List.length_pos_iff.2 hne
      · have hmem : r.shareBps.val ∈ rows.map (·.revenuePercentage) :=
          hshares hs ▸ List.mem_map_of_mem hr
        obtain ⟨c, hc, he⟩ := List.mem_map.1 hmem
        exact he ▸ h.pos c hc
    obtain ⟨sum, hv⟩ := validateRecipients_eq_ok.2 hvalid
    exact ⟨mt List.length_eq_zero_iff.1 hne, h.sum, not_lt.2 hlen, recipients, sum, hs, hv⟩

/-! ## What `resolveCollaborators` returns -/

namespace Products

/-- A rounded sum of shares below `10 ^ 19` is exact. -/
theorem foldl_percentage {cs : List CollaboratorCreate} : ∀ {acc : ℤ}, 0 ≤ acc →
    (∀ c ∈ cs, 0 ≤ c.revenuePercentage) →
    cs.foldl (fun acc c => roundSig precision (acc + c.revenuePercentage)) acc < 10 ^ 19 →
    cs.foldl (fun acc c => roundSig precision (acc + c.revenuePercentage)) acc =
      acc + (cs.map (·.revenuePercentage)).sum ∧ acc < 10 ^ 19 := by
  induction cs with
  | nil => exact fun {acc} _ _ h => ⟨by simp, h⟩
  | cons c cs ih =>
    intro acc hacc hpos hlt
    have hc := hpos c (by simp)
    obtain ⟨heq, hround⟩ := ih (roundSig_nonneg precision (by omega : 0 ≤ acc +
      c.revenuePercentage)) (fun x hx => hpos x (List.mem_cons_of_mem c hx)) hlt
    have hsmall : acc + c.revenuePercentage < 10 ^ 19 := by
      by_contra hbig
      exact absurd (le_roundSig (not_lt.1 hbig)) (not_le.2 hround)
    have hexact : roundSig precision (acc + c.revenuePercentage) = acc + c.revenuePercentage :=
      roundSig_of_lt (by decide) (by simp only [precision]; omega)
    refine ⟨?_, by omega⟩
    rw [List.foldl_cons, heq, hexact, List.map_cons, List.sum_cons]
    omega

/-- The rows that a call may store : they are complete, and they are what the body lists,
or one row when it lists none. -/
structure Resolved (call : ProductCall) (cs : List CollaboratorCreate) : Prop where
  sum : (cs.map (·.revenuePercentage)).sum = 10000
  pos : ∀ c ∈ cs, 0 < c.revenuePercentage
  listed : cs = call.listed.map parseCollaborator ∨ call.listed = [] ∧ cs.length = 1

theorem resolved_listed {call : ProductCall} {cs : List CollaboratorCreate}
    (hlisted : cs = call.listed.map parseCollaborator) (hsum : percentageSum cs = 10000)
    (hpos : cs.find? (fun c => c.revenuePercentage ≤ 0) = none) : Resolved call cs where
  sum := by
    have hnn : ∀ c ∈ cs, 0 ≤ c.revenuePercentage := by
      intro c hc
      rw [hlisted] at hc
      obtain ⟨dto, -, rfl⟩ := List.mem_map.1 hc
      exact Int.natCast_nonneg _
    have h := (foldl_percentage le_rfl hnn (by rw [← percentageSum, hsum]; decide)).1
    rw [← percentageSum, hsum] at h
    omega
  pos c hc := by
    have h := List.find?_eq_none.1 hpos c hc
    simpa using h
  listed := Or.inl hlisted

theorem resolved_sole {call : ProductCall} (h : call.listed = []) (walletAddress : String) :
    Resolved call [⟨walletAddress, "Creator", 10000⟩] :=
  ⟨rfl, by simp, Or.inr ⟨h, rfl⟩⟩

/-! ## The stored rows -/

/-- A product has no collaborators, or those of one of the calls. -/
structure Stored (calls : List ProductCall) (w : World) : Prop where
  rows : ∀ id, w.db.activeCollaborators id = [] ∨ ∃ call ∈ calls, ∃ cs, Resolved call cs ∧
    w.db.activeCollaborators id = cs.map (·.stored id)
  product : ∀ c ∈ w.db.collaborators, (w.db.products.lookup c.productId).isSome = true

/-- The request stores what its call may store. -/
def Stores (call : ProductCall) : CatalogRequest → Prop
  | .productCreate _ rows => Resolved call rows
  | .collaboratorReplace _ rows => Resolved call rows
  | _ => True

variable {cfg : StellarConfig} {calls : List ProductCall}

theorem filter_stored (id id' : String) (cs : List CollaboratorCreate) :
    (cs.map (·.stored id)).filter (fun c => c.productId = id' ∧ c.status = .active) =
      if id = id' then cs.map (·.stored id) else [] := by
  split
  · next h =>
    subst h
    refine List.filter_eq_self.2 fun c hc => ?_
    obtain ⟨c, -, rfl⟩ := List.mem_map.1 hc
    simp [CollaboratorCreate.stored]
  · next h =>
    refine List.filter_eq_nil_iff.2 fun c hc => ?_
    obtain ⟨c, -, rfl⟩ := List.mem_map.1 hc
    simp [CollaboratorCreate.stored, h]

theorem lookup_insert_isSome {id id' : String} {p : Product} {products : AList fun _ => Product}
    (h : (products.lookup id').isSome = true) :
    ((products.insert id p).lookup id').isSome = true := by
  by_cases hid : id' = id
  · subst hid
    rw [AList.lookup_insert]
    rfl
  · rwa [AList.lookup_insert_ne hid]

theorem cents_priceColumn {cents : ℕ} {a : Usd} (h : priceColumn cents = .ok a) :
    a.cents = cents := by
  unfold priceColumn Usd.ofCents? at h
  split at h
  · exact congrArg Usd.cents (Except.ok.inj h).symm
  · cases h

theorem createProduct_eq_ok {id : String} {data : ProductCreate} {cs : List CollaboratorCreate}
    {db db' : Database} (h : db.createProduct id data cs = .ok db') :
    db.products.lookup id = none ∧ db'.orders = db.orders ∧
      db'.collaborators = db.collaborators ++ cs.map (·.stored id) ∧
      ∃ p : Product, p.creatorId = data.creatorId ∧ p.priceUsd.cents = data.priceUsd ∧
        db'.products = db.products.insert id p := by
  unfold Database.createProduct at h
  split at h
  · cases h
  · next priceUsd hprice =>
    by_cases hu : data.creatorId ∉ db.users
    · simp [hu] at h
    by_cases hs : (db.products.lookup id).isSome = true
    · simp [hu, hs] at h
    by_cases hr : ∃ c ∈ cs, ¬ c.InRange
    · simp only [hu, hs, hr, if_true, if_false, reduceCtorEq] at h
    rw [if_neg hu, if_neg hs, if_neg hr] at h
    obtain rfl := Except.ok.inj h
    exact ⟨by simpa using hs, rfl, rfl, _, rfl, cents_priceColumn hprice, rfl⟩

theorem replaceAll_eq_ok {id : String} {cs : List CollaboratorCreate} {db db' : Database}
    (h : db.replaceAll id cs = .ok db') : (db.products.lookup id).isSome = true ∧
      db' = db.replaceCollaborators id (cs.map (·.stored id)) := by
  unfold Database.replaceAll at h
  by_cases hs : (db.products.lookup id).isNone = true
  · simp [hs] at h
  by_cases hr : ∃ c ∈ cs, ¬ c.InRange
  · simp only [hs, hr, if_true, if_false, reduceCtorEq] at h
  rw [if_neg hs, if_neg hr] at h
  rw [Option.isNone_iff_eq_none] at hs
  exact ⟨Option.isSome_iff_ne_none.2 hs, (Except.ok.inj h).symm⟩

theorem updateProduct_eq_ok {id : String} {data : ProductUpdate} {db db' : Database}
    (h : db.updateProduct id data = .ok db') :
    db'.collaborators = db.collaborators ∧ db'.orders = db.orders ∧
      ∃ p₀ p : Product, db.products.lookup id = some p₀ ∧ p.creatorId = p₀.creatorId ∧
        (data.priceUsd = none → p.priceUsd = p₀.priceUsd) ∧
        (∀ cents ∈ data.priceUsd, p.priceUsd.cents = cents) ∧
        db'.products = db.products.insert id p := by
  unfold Database.updateProduct at h
  split at h
  · cases h
  next p₀ hp₀ =>
  split at h
  · cases h
  next priceUsd hprice =>
  split at h
  · cases h
  obtain rfl := Except.ok.inj h
  refine ⟨rfl, rfl, p₀, _, hp₀, ?_, fun hn => ?_, fun cents hc => ?_, rfl⟩
  · rfl
  · rw [hn] at hprice
    exact (Except.ok.inj hprice).symm
  · rw [Option.mem_def.1 hc] at hprice
    exact cents_priceColumn hprice

theorem Stored.create {id : String} {data : ProductCreate} {cs : List CollaboratorCreate}
    {w : World} {db' : Database} {call : ProductCall} (h : Stored calls w) (hcall : call ∈ calls)
    (hcs : Resolved call cs) (hok : w.db.createProduct id data cs = .ok db') :
    Stored calls { w with db := db' } := by
  obtain ⟨hnone, -, hrows, p, -, -, hproducts⟩ := createProduct_eq_ok hok
  have hactive : ∀ id', db'.activeCollaborators id' =
      w.db.activeCollaborators id' ++ if id = id' then cs.map (·.stored id) else [] := by
    intro id'
    rw [Database.activeCollaborators, hrows, List.filter_append, filter_stored]
    rfl
  refine ⟨fun id' => ?_, fun c hc => ?_⟩
  · show db'.activeCollaborators id' = [] ∨ ∃ call ∈ calls, ∃ cs, Resolved call cs ∧
      db'.activeCollaborators id' = cs.map (·.stored id')
    rw [hactive]
    by_cases hid : id = id'
    · subst hid
      -- the id is new, so no row has it yet
      have hold : w.db.activeCollaborators id = [] := by
        refine List.filter_eq_nil_iff.2 fun c hc => ?_
        have hsome := h.product c hc
        rw [decide_eq_true_eq]
        rintro ⟨hp, -⟩
        rw [hp, hnone] at hsome
        cases hsome
      rw [hold, if_pos rfl, List.nil_append]
      exact Or.inr ⟨call, hcall, cs, hcs, rfl⟩
    · rw [if_neg hid, List.append_nil]
      exact h.rows id'
  · show (db'.products.lookup c.productId).isSome = true
    rw [hproducts]
    rcases List.mem_append.1 (hrows ▸ hc) with hc | hc
    · exact lookup_insert_isSome (h.product c hc)
    · obtain ⟨c, -, rfl⟩ := List.mem_map.1 hc
      rw [show (c.stored id).productId = id from rfl, AList.lookup_insert]
      rfl

theorem Stored.replace {id : String} {cs : List CollaboratorCreate} {w : World}
    {db' : Database} {call : ProductCall} (h : Stored calls w) (hcall : call ∈ calls)
    (hcs : Resolved call cs) (hok : w.db.replaceAll id cs = .ok db') :
    Stored calls { w with db := db' } := by
  obtain ⟨hsome, rfl⟩ := replaceAll_eq_ok hok
  have hself : (cs.map (·.stored id)).filter (·.productId = id) = cs.map (·.stored id) := by
    refine List.filter_eq_self.2 fun c hc => ?_
    obtain ⟨c, -, rfl⟩ := List.mem_map.1 hc
    simp [CollaboratorCreate.stored]
  refine ⟨fun id' => ?_, fun c hc => ?_⟩
  · have hactive : (w.db.replaceCollaborators id (cs.map (·.stored id))).activeCollaborators id' =
        (w.db.collaborators.filter (·.productId ≠ id)).filter
          (fun c => c.productId = id' ∧ c.status = .active) ++
            if id = id' then cs.map (·.stored id) else [] := by
      rw [Database.activeCollaborators, Database.replaceCollaborators, hself, List.filter_append,
        filter_stored]
    show (w.db.replaceCollaborators id (cs.map (·.stored id))).activeCollaborators id' = [] ∨
      ∃ call ∈ calls, ∃ cs', Resolved call cs' ∧
        (w.db.replaceCollaborators id (cs.map (·.stored id))).activeCollaborators id' =
          cs'.map (·.stored id')
    rw [hactive, List.filter_filter]
    by_cases hid : id = id'
    · subst hid
      have hnil : w.db.collaborators.filter (fun c => decide (c.productId = id ∧
          c.status = .active) && decide (c.productId ≠ id)) = [] := by
        refine List.filter_eq_nil_iff.2 fun c _ => ?_
        simp only [Bool.and_eq_true, decide_eq_true_eq]
        exact fun ⟨⟨hp, _⟩, hn⟩ => hn hp
      rw [hnil, if_pos rfl, List.nil_append]
      exact Or.inr ⟨call, hcall, cs, hcs, rfl⟩
    · rw [if_neg hid, List.append_nil]
      have hsame : w.db.collaborators.filter (fun c => decide (c.productId = id' ∧
          c.status = .active) && decide (c.productId ≠ id)) = w.db.activeCollaborators id' := by
        refine List.filter_congr fun c _ => ?_
        by_cases hp : c.productId = id'
        · simp [hp, Ne.symm hid]
        · simp [hp]
      rw [hsame]
      exact h.rows id'
  · rcases List.mem_append.1 hc with hc | hc
    · exact h.product c (List.mem_filter.1 hc).1
    · have hp := (List.mem_filter.1 hc).2
      rw [decide_eq_true_eq] at hp
      exact hp ▸ hsome

/-- A request that stores what its call may store keeps the stored rows as they should be,
whether it throws or not. -/
theorem Stored.exec {w : World} {call : ProductCall} (h : Stored calls w) (hcall : call ∈ calls)
    {r : CatalogRequest} (hr : Stores call r) (c : Choice) :
    Stored calls (catalogExec cfg r c w).2 := by
  have heffect : Stored calls (catalogEffect cfg r c w).2 := by
    cases r with
    | productCreate data rows =>
      simp only [catalogEffect]
      cases hok : w.db.createProduct c.uuid data rows with
      | error e => exact h
      | ok db' => exact h.create hcall hr hok
    | collaboratorReplace productId rows =>
      simp only [catalogEffect]
      cases hok : w.db.replaceAll productId rows with
      | error e => exact h
      | ok db' => exact h.replace hcall hr hok
    | productUpdate id data =>
      simp only [catalogEffect]
      cases hok : w.db.updateProduct id data with
      | error e => exact h
      | ok db' =>
        obtain ⟨hrows, -, p₀, p, -, -, -, -, hproducts⟩ := updateProduct_eq_ok hok
        refine ⟨fun id' => ?_, fun x hx => ?_⟩
        · have hactive : db'.activeCollaborators id' = w.db.activeCollaborators id' := by
            rw [Database.activeCollaborators, hrows]
            rfl
          show db'.activeCollaborators id' = [] ∨ ∃ call ∈ calls, ∃ cs, Resolved call cs ∧
            db'.activeCollaborators id' = cs.map (·.stored id')
          rw [hactive]
          exact h.rows id'
        · show (db'.products.lookup x.productId).isSome = true
          rw [hproducts]
          exact lookup_insert_isSome (h.product x (hrows ▸ hx))
    | _ => exact h
  rcases catalogExec_world cfg r c w with hw | hw <;> rw [hw]
  · exact h
  · exact heffect

/-! ## Calls -/

/-- Any calls of the products controller among any changes elsewhere. -/
def discipline (cfg : StellarConfig) (calls : List ProductCall) :
    Discipline (catalogMachine cfg) :=
  Discipline.apart (catalogMachine cfg) (Stored calls) (fun _ _ _ => True) (fun _ _ _ => True)
    (fun _ _ => True) (fun _ _ => trivial) (fun _ _ => trivial)
    fun h _ => ⟨⟨h.rows, h.product⟩, fun _ => trivial⟩

variable {i : ℕ} {call : ProductCall}

theorem triple_await (hcall : call ∈ calls) {r : CatalogRequest} (hr : Stores call r) :
    Triple (discipline cfg calls) i (Stored calls) (awaitC r) (fun _ => Stored calls)
      fun _ => Stored calls :=
  Triple.ask ⟨fun h => h, fun _ _ h => h⟩ (fun _ _ => trivial) (fun _ _ _ _ _ _ => trivial)
    (fun _ c _ h _ _ => h.exec hcall hr c) fun _ c _ h _ _ => h.exec hcall hr c

theorem triple_assertCollaboratorsEligible (hcall : call ∈ calls) : ∀ wallets : List String,
    Triple (discipline cfg calls) i (Stored calls) (assertCollaboratorsEligible wallets)
      (fun _ => Stored calls) fun _ => Stored calls
  | [] => Triple.ret fun _ h => h
  | address :: rest => by
    refine Triple.bind (triple_await hcall (r := .walletFindAddress address) trivial)
      fun registered => ?_
    split
    · exact Triple.raise fun _ h => h
    refine Triple.bind (R := fun _ => Stored calls) (Triple.tryCatch (Y := fun _ => Stored calls)
      (triple_await hcall (r := .getUsdcBalance address) trivial) fun _ =>
        Triple.raise fun _ h => h) fun state => ?_
    split
    · exact Triple.raise fun _ h => h
    · exact triple_assertCollaboratorsEligible hcall rest

theorem triple_resolveCollaborators (hcall : call ∈ calls)
    {input : Option (List CreateCollaboratorDto)} (hinput : input.getD [] = call.listed)
    (creatorId : String) :
    Triple (discipline cfg calls) i (Stored calls) (resolveCollaborators input creatorId)
      (fun cs w => Stored calls w ∧ Resolved call cs) fun _ => Stored calls := by
  have hsole : call.listed = [] → Triple (discipline cfg calls) i (Stored calls)
      (soleCollaborator creatorId) (fun cs w => Stored calls w ∧ Resolved call cs)
        fun _ => Stored calls := by
    intro hnil
    refine Triple.bind (triple_await hcall (r := .walletFindLatest creatorId) trivial)
      fun wallet => ?_
    cases wallet with
    | none => exact Triple.raise fun _ h => h
    | some walletAddress =>
      refine Triple.bind (R := fun _ => Stored calls) (Triple.tryCatch
        (Y := fun _ => Stored calls) (triple_await hcall (r := .getUsdcBalance walletAddress)
          trivial) fun _ => Triple.raise fun _ h => h) fun state => ?_
      dsimp only
      split
      · exact Triple.raise fun _ h => h
      · exact Triple.ret fun _ h => ⟨h, resolved_sole hnil walletAddress⟩
  match input, hinput with
  | none, hinput => exact hsole hinput.symm
  | some [], hinput => exact hsole hinput.symm
  | some (dto :: rest), hinput =>
    simp only [resolveCollaborators, checkCollaborators]
    split
    · exact Triple.raise fun _ h => h
    · next hsum =>
      split
      · exact Triple.raise fun _ h => h
      · next hpos =>
        refine Triple.bind (triple_assertCollaboratorsEligible hcall _) fun _ =>
          Triple.ret fun _ h => ⟨h, resolved_listed ?_ (not_not.1 hsum) hpos⟩
        rw [← hinput, Option.getD_some]

theorem triple_patchCollaborators (hcall : call ∈ calls) {id creatorId : String}
    {input : Option (List CreateCollaboratorDto)} (hinput : input.getD [] = call.listed) :
    Triple (discipline cfg calls) i (Stored calls) (patchCollaborators id creatorId input)
      (fun _ => Stored calls) fun _ => Stored calls := by
  match input, hinput with
  | none, _ => exact Triple.ret fun _ h => h
  | some [], _ => exact Triple.ret fun _ h => h
  | some (dto :: rest), hinput =>
    refine Triple.bind (triple_resolveCollaborators hcall hinput creatorId) fun cs => ?_
    intro w hw
    exact triple_await hcall (r := .collaboratorReplace id cs) hw.2 w hw.1

/-- A call keeps the stored rows as they should be. -/
theorem triple_method (hcall : call ∈ calls) :
    Triple (discipline cfg calls) i (Stored calls) call.method (fun _ => Stored calls)
      fun _ => Stored calls := by
  cases call with
  | create dto creatorId =>
    simp only [ProductCall.method]
    split
    · exact Triple.raise fun _ h => h
    refine Triple.bind (R := fun _ => Stored calls) ?_ fun _ => Triple.ret fun _ h => h
    refine Triple.bind (triple_resolveCollaborators hcall rfl creatorId) fun cs => ?_
    intro w hw
    exact triple_await hcall (r := .productCreate _ cs) hw.2 w hw.1
  | update id dto creatorId =>
    simp only [ProductCall.method]
    split
    · exact Triple.raise fun _ h => h
    refine Triple.bind (R := fun _ => Stored calls) ?_ fun _ => ?_
    · refine Triple.bind (triple_await hcall (r := .productFindUnique id) trivial)
        fun product => ?_
      cases product with
      | none => exact Triple.raise fun _ h => h
      | some product =>
        dsimp only
        split
        · exact Triple.raise fun _ h => h
        · exact Triple.ret fun _ h => h
    refine Triple.bind (R := fun _ => Stored calls) ?_ fun priceUsd => ?_
    · rcases dto.priceUsd with - | - | price
      · exact Triple.ret fun _ h => h
      · exact Triple.raise fun _ h => h
      · exact Triple.ret fun _ h => h
    exact Triple.bind (triple_patchCollaborators hcall rfl) fun _ =>
      triple_await hcall (r := .productUpdate id _) trivial

/-- The service emits nothing. -/
theorem suspended (p : CatalogMethod Unit) : p.Suspended := by
  cases p with
  | emit v p => exact v.elim
  | _ => trivial

theorem stable : Stable (discipline cfg calls) i (fun _ : Unit => Stored calls)
    fun _ => Stored calls where
  ret_inv h := h
  raise_inv h := h
  ret_rely _ _ h := h
  raise_rely _ _ h := h

end Products

/-- Any calls of the products controller, with any faults, on a catalog without collaborators.
They overlap in any way, but for the transactions that replace collaborators. A product that has
collaborators has those that one of the calls listed, or its creator alone when that call listed
none. Its split is accepted, in any order of the rows, exactly when the call listed at most
`maxRecipients` collaborators with distinct addresses. -/
theorem accepted_iff_listed (cfg : StellarConfig) (calls : List ProductCall) (w : World)
    (as : List (Action Choice Elsewhere)) (id : String) (hw : w.db.collaborators = [])
    (hid : (Config.run (catalogMachine cfg) as
      ⟨calls.map (·.method), w⟩).world.db.activeCollaborators id ≠ []) :
    ∃ call ∈ calls, ∃ rows, rows = (Config.run (catalogMachine cfg) as
        ⟨calls.map (·.method), w⟩).world.db.activeCollaborators id ∧
      (rows.map (fun c => (c.walletAddress, c.revenuePercentage)) = call.listed.map
          (fun dto => (dto.walletAddress, (hundredths dto.revenuePercentage : ℤ))) ∨
        call.listed = [] ∧ rows.length = 1) ∧
      ∀ n, SplitAccepted (reorder n rows) ↔ call.listed.length ≤ maxRecipients ∧
        (call.listed.map (·.walletAddress)).Nodup := by
  have hstart : Config.Safe (Products.discipline cfg calls) (fun _ _ => Products.Stored calls)
      (fun _ _ => Products.Stored calls) ⟨calls.map (·.method), w⟩ := by
    have hstored : Products.Stored calls w :=
      ⟨fun id' => Or.inl (by rw [Database.activeCollaborators, hw]; rfl), by simp [hw]⟩
    refine ⟨hstored, fun i p hp => ⟨Products.suspended p, ?_⟩⟩
    obtain ⟨call, hcall, rfl⟩ := List.mem_map.1 (List.mem_of_getElem? hp)
    exact Products.triple_method hcall w hstored
  have hrun : Products.Stored calls (Config.run (catalogMachine cfg) as
      ⟨calls.map (·.method), w⟩).world := by
    refine (hstart.run (fun _ => Products.stable) as (Config.along_of_forall ?_ as _)).1
    rintro s (⟨i, c⟩ | e)
    · exact fun _ _ => trivial
    · trivial
  obtain ⟨call, hcall, cs, hcs, hrows⟩ := (hrun.rows id).resolve_left hid
  have haddress : (cs.map (·.stored id)).map (·.walletAddress) = cs.map (·.walletAddress) := by
    rw [List.map_map]
    rfl
  refine ⟨call, hcall, _, rfl, ?_, fun n => ?_⟩
  · rw [hrows]
    rcases hcs.listed with hlisted | ⟨hnil, hone⟩
    · left
      rw [hlisted, List.map_map, List.map_map]
      rfl
    · exact Or.inr ⟨hnil, by rw [List.length_map, hone]⟩
  · have hcomplete : Complete (cs.map (·.stored id)) := by
      refine ⟨?_, fun c hc => ?_⟩
      · rw [List.map_map]
        exact hcs.sum
      · obtain ⟨c', hc', rfl⟩ := List.mem_map.1 hc
        exact hcs.pos c' hc'
    have hperm := reorder_perm n (cs.map (·.stored id))
    rw [hrows, (hcomplete.perm hperm).accepted_iff, hperm.length_eq, (hperm.map _).nodup_iff,
      haddress, List.length_map]
    rcases hcs.listed with hlisted | ⟨hnil, hone⟩
    · rw [hlisted, List.length_map, List.map_map]
      rfl
    · obtain ⟨c, rfl⟩ := List.length_eq_one_iff.1 hone
      simp [hnil, maxRecipients]

/-- The body of a product for ten dollars. -/
def demoBody (collaborators : List CreateCollaboratorDto) : CreateProductDto :=
  ⟨"Presets", none, "https://drive", "10.00", some collaborators⟩

/-- A registered wallet. -/
def demoAddress : String :=
  "GCHOG4QF27OG5WHBY4AIBGEI4LSOTCY3Y4VX22AUNLHTDBWMLZW5OBU3"

/-- A call that stores a product with these collaborators, each with the wallet of `alice`. -/
def demoListing (collaborators : List CreateCollaboratorDto) : Config catalog World Unit :=
  ⟨[(ProductCall.create (demoBody collaborators) "alice").method],
    { demoWorld [] [] with db := { (demoWorld [] []).db with
      wallets := [⟨"alice", demoAddress, .freighter, 0⟩] } }⟩

end Kreav
