import Kreav.CreatorCalls
import Kreav.ProductUpdates
import Kreav.Receipts
import Kreav.SiteRoundTrip

/-!
# The rows of other creators

No call of a creator touches a row of another (`call_keeps_others`) : withdrawals by their
creator, products and their collaborators by the creator of the product, and the rows of the
mini-sites by their user. It does not matter which ids the call brings.

The services find out in different ways whose row it is. A withdrawal is created for the
creator of the caller's own wallet, read with a check of its creator before it is completed,
and polled with the creator in the condition of the update. A product is loaded and checked
before it is written. A mini-site is written under the id of the session.
-/

open Async Prog

namespace Kreav

/-! ## Rows of others -/

/-- Every row that fails the test keeps its place and its value under `f`. -/
theorem filter_map_of {α : Type} {f : α → α} {p : α → Bool} {l : List α}
    (hp : ∀ x ∈ l, p (f x) = p x) (hf : ∀ x ∈ l, p x = true → f x = x) :
    (l.map f).filter p = l.filter p := by
  induction l with
  | nil => rfl
  | cons x rest ih =>
    have ih := ih (fun y hy => hp y (List.mem_cons_of_mem _ hy))
      fun y hy => hf y (List.mem_cons_of_mem _ hy)
    rw [List.map_cons, List.filter_cons, List.filter_cons, hp x List.mem_cons_self, ih]
    split
    · next hx => rw [hf x List.mem_cons_self hx]
    · rfl

namespace Ownership

variable {A : String}

/-! ## Withdrawals -/

/-- Besides withdrawals of `A`, the world is the same. -/
structure WithdrawalsKept (A : String) (w w' : WithdrawalWorld) : Prop where
  db : w'.db = w.db
  rows : w'.withdrawals.rows.filter (·.creatorId ≠ A) =
    w.withdrawals.rows.filter (·.creatorId ≠ A)

theorem WithdrawalsKept.refl (w : WithdrawalWorld) : WithdrawalsKept A w w :=
  ⟨rfl, rfl⟩

theorem WithdrawalsKept.of_eq {w w' : WithdrawalWorld} (h : w' = w) : WithdrawalsKept A w w' := by
  rw [h]
  exact .refl w

theorem WithdrawalsKept.trans {w w' w'' : WithdrawalWorld} (h : WithdrawalsKept A w w')
    (h' : WithdrawalsKept A w' w'') : WithdrawalsKept A w w'' :=
  ⟨h'.db.trans h.db, h'.rows.trans h.rows⟩

/-- The request writes rows of `A` at most. -/
def OwnRows (A : String) (w : WithdrawalWorld) : WithdrawalRequest → Prop
  | .withdrawalCreate data => data.creatorId = A
  | .withdrawalUpdate id _ => ∀ r ∈ w.withdrawals.rows, r.id = id → r.creatorId = A
  | .withdrawalUpdateMany _ creatorId _ => creatorId = A
  | _ => True

theorem rows_modify {t : WithdrawalTable} {p : Withdrawal → Bool} {data : WithdrawalUpdate}
    {amount : Option Usd} (hp : ∀ r ∈ t.rows, p r = true → r.creatorId = A) :
    (t.modify p data amount).rows.filter (·.creatorId ≠ A) =
      t.rows.filter (·.creatorId ≠ A) := by
  refine filter_map_of (fun r hr => ?_) fun r hr hne => ?_
  · split
    · rfl
    · rfl
  · by_cases h : p r = true
    · exact absurd (hp r hr h) (of_decide_eq_true hne)
    · rw [if_neg h]

theorem kept_of_changes {c : WithdrawalChoice} {r : WithdrawalRequest} {w w' : WithdrawalWorld}
    (h : WithdrawalChanges c w r w') (hr : OwnRows A w r) : WithdrawalsKept A w w' := by
  cases h with
  | nothing => exact .refl w
  | @create data r t hf hcreated =>
    refine ⟨rfl, ?_⟩
    have hA : r.creatorId = A := hcreated.creatorId.trans hr
    rw [hcreated.rows, List.filter_append, List.filter_singleton]
    simp [hA]
  | update hf ha hmem hid =>
    exact ⟨rfl, rows_modify fun x hx h => hr x hx (of_decide_eq_true h)⟩
  | updateMany hf ha =>
    refine ⟨rfl, rows_modify fun x hx h => ?_⟩
    exact (of_decide_eq_true h).2.trans hr

/-- A request for rows of `A`, in a world that has kept those of others. -/
theorem ensures_request {r : WithdrawalRequest} {w₀ w : WithdrawalWorld}
    (hw : WithdrawalsKept A w₀ w) (hr : OwnRows A w r) :
    (awaitW r).Ensures withdrawalMachine w (fun _ => WithdrawalsKept A w₀)
      (WithdrawalsKept A w₀) := by
  have hkept : ∀ c, WithdrawalsKept A w₀ (withdrawalExec r c w).2 := fun c =>
    hw.trans (kept_of_changes (withdrawalExec_changes r c w) hr)
  refine Ensures.ask (fun c a v h => ?_) fun c e v h => ?_
  · have hv := hkept c
    rwa [show withdrawalExec r c w = _ from h] at hv
  · have hv := hkept c
    rwa [show withdrawalExec r c w = _ from h] at hv

/-- A query leaves the world, and its answer is that of one of its outcomes. -/
theorem ensures_query {r : WithdrawalRequest} (hr : r.writes = false) (w : WithdrawalWorld) :
    (awaitW r).Ensures withdrawalMachine w
      (fun a v => v = w ∧ ∃ c, (withdrawalEffect r c w).1 = .ok a) fun v => v = w := by
  refine Ensures.ask (fun c a v h => ?_) fun c e v h => ?_
  · have hexec : withdrawalExec r c w = (.ok a, v) := h
    have hw := withdrawalExec_query hr c w
    rw [hexec] at hw
    exact ⟨hw, c, congrArg Prod.fst (withdrawalEffect_of_ok hexec)⟩
  · have hexec : withdrawalExec r c w = (.error e, v) := h
    have hw := withdrawalExec_query hr c w
    rwa [hexec] at hw

/-- What the queries keep. -/
theorem ofQueries (w₀ : WithdrawalWorld) : OfQueries fun _ (p : WithdrawalMethod _) =>
    ∀ w, WithdrawalsKept A w₀ w → p.Ensures withdrawalMachine w (fun _ => WithdrawalsKept A w₀)
      (WithdrawalsKept A w₀) where
  toCompositional := Ensures.compositional _ _
  query hr w hw := (ensures_query hr w).mono (fun _ _ hv => hv.1 ▸ hw) fun _ hv => hv ▸ hw

theorem ensures_interactive (cfg : WithdrawalConfig) (amount : ℤ) (token : Option String)
    (w : WithdrawalWorld) : (interactive cfg A amount token).Ensures withdrawalMachine w
      (fun _ => WithdrawalsKept A w) (WithdrawalsKept A w) :=
  (ofQueries w).interactive (fun _ _ hA _ hw => ensures_request hw hA) amount token w (.refl w)

theorem ensures_transaction (cfg : WithdrawalConfig) (id : String) (token : Option String)
    (w : WithdrawalWorld) : (transaction cfg A id token).Ensures withdrawalMachine w
      (fun _ => WithdrawalsKept A w) (WithdrawalsKept A w) :=
  (ofQueries w).transaction (fun _ _ _ _ _ hw => ensures_request hw rfl) token w (.refl w)

theorem ensures_submitPayment (cfg : WithdrawalConfig) (signedXdr id : String)
    (w : WithdrawalWorld) : (submitPayment cfg A signedXdr id).Ensures withdrawalMachine w
      (fun _ => WithdrawalsKept A w) (WithdrawalsKept A w) :=
  (ofQueries w).submitPayment (fun _ _ hw => ensures_request hw rfl) signedXdr w (.refl w)

/-- The wallet of a creator, if it is found, is one of its wallets. -/
theorem ensures_getAddress (w : WithdrawalWorld) :
    (getAddressForCreator A).Ensures withdrawalMachine w
      (fun address v => v = w ∧ ∃ x ∈ w.db.wallets, x.creatorId = A ∧ x.walletAddress = address)
      fun v => v = w := by
  refine Ensures.bind (ensures_query (r := .walletOf A) rfl w) ?_
  rintro found v ⟨rfl, c, hfound⟩
  cases found with
  | none => exact Ensures.raise rfl
  | some address =>
    obtain ⟨x, hx, rfl⟩ := Option.map_eq_some_iff.1 (Except.ok.inj hfound)
    have hmem := (reorder_perm _ _).mem_iff.1 (List.mem_of_mem_head? hx)
    obtain ⟨hmem, hA⟩ := List.mem_filter.1 hmem
    exact Ensures.ret ⟨rfl, x, hmem, of_decide_eq_true hA, rfl⟩

/-- A new row of `A`, the only one with its id. -/
theorem ensures_create {w₀ w : WithdrawalWorld} (hw : WithdrawalsKept A w₀ w)
    {data : WithdrawalCreate} (hA : data.creatorId = A) :
    (awaitW (.withdrawalCreate data)).Ensures withdrawalMachine w
      (fun (row : Withdrawal) v => WithdrawalsKept A w₀ v ∧
        ∀ r ∈ v.withdrawals.rows, r.id = row.id → r.creatorId = A) (WithdrawalsKept A w₀) := by
  have hkept : ∀ c, WithdrawalsKept A w₀ (withdrawalExec (.withdrawalCreate data) c w).2 :=
    fun c => hw.trans (kept_of_changes (withdrawalExec_changes _ c w) hA)
  refine Ensures.ask (fun c row v h => ?_) fun c e v h => ?_
  · have hexec : withdrawalExec (.withdrawalCreate data) c w = (.ok row, v) := h
    have hv := hkept c
    rw [hexec] at hv
    refine ⟨hv, fun r hr hid => ?_⟩
    obtain ⟨t, hcreated, rfl⟩ := withdrawalExec_create_ok hexec
    rcases List.mem_append.1 (hcreated.rows ▸ hr) with hr | hr
    · exact absurd (hid ▸ List.mem_map_of_mem hr) hcreated.fresh
    · rw [List.mem_singleton.1 hr, hcreated.creatorId, hA]
  · have hexec : withdrawalExec (.withdrawalCreate data) c w = (.error e, v) := h
    have hv := hkept c
    rwa [hexec] at hv

/-- A withdrawal is created for the creator of the wallet. -/
theorem ensures_requestWithdrawal (cfg : WithdrawalConfig) {w : WithdrawalWorld} {x : Wallet}
    (haddr : (w.db.wallets.map (·.walletAddress)).Nodup) (hx : x ∈ w.db.wallets)
    (hA : x.creatorId = A) (amount : ℤ) (destinationType destinationAccount : String) :
    (requestWithdrawal cfg x.walletAddress amount destinationType destinationAccount).Ensures
      withdrawalMachine w (fun _ => WithdrawalsKept A w) (WithdrawalsKept A w) := by
  have hK := ofQueries (A := A) w
  have hfind := ensures_query (r := .walletCreator x.walletAddress) rfl w
  refine Ensures.bind (hfind.mono (fun _ _ h => h) fun _ => .of_eq) ?_
  rintro found v ⟨rfl, c, hfound⟩
  rw [Receipts.effect_walletCreator haddr hx, hA] at hfound
  obtain rfl := Except.ok.inj hfound
  refine Ensures.bind (hK.getWithdrawableBalance _ v (.refl v)) fun available v₁ h₁ => ?_
  split
  · exact Ensures.raise h₁
  · refine Ensures.bind (hK.generateReference v₁ h₁) fun reference v₂ h₂ => ?_
    refine Ensures.bind (hK.findRecentSettlementTxHash _ v₂ h₂) fun hash v₃ h₃ => ?_
    refine Ensures.bind (ensures_create h₃ rfl) fun row v₄ h₄ => ?_
    exact Ensures.bind (ensures_request h₄.1 h₄.2) fun _ v₅ h₅ => Ensures.ret h₅

theorem ensures_postWithdrawal (cfg : WithdrawalConfig) {w : WithdrawalWorld}
    (haddr : (w.db.wallets.map (·.walletAddress)).Nodup) (amount : ℤ)
    (destinationType destinationAccount : String) :
    (postWithdrawal cfg A amount destinationType destinationAccount).Ensures withdrawalMachine w
      (fun _ => WithdrawalsKept A w) (WithdrawalsKept A w) := by
  refine Ensures.bind ((ensures_getAddress w).mono (fun _ _ h => h) fun _ => .of_eq) ?_
  rintro address v ⟨rfl, x, hx, hA, rfl⟩
  exact ensures_requestWithdrawal cfg haddr hx hA amount destinationType destinationAccount

/-- A withdrawal that is read is one of `A`, before it is completed. -/
theorem ensures_getWithdrawal (hne : A ≠ "") (id : String) (w : WithdrawalWorld) :
    (getWithdrawal id (some A)).Ensures withdrawalMachine w (fun _ => WithdrawalsKept A w)
      (WithdrawalsKept A w) := by
  have hK := ofQueries (A := A) w
  have hfind := ensures_query (r := .withdrawalFindUnique id) rfl w
  refine Ensures.bind (hfind.mono (fun _ _ h => h) fun _ => .of_eq) ?_
  rintro found v ⟨rfl, c, hfound⟩
  cases found with
  | none => exact Ensures.raise (.refl v)
  | some row =>
    have hrow : row ∈ v.withdrawals.rows := List.mem_of_find?_eq_some (Except.ok.inj hfound)
    dsimp only
    split
    · exact Ensures.raise (.refl v)
    next howner =>
    have hA : row.creatorId = A := by
      simpa [hne] using howner
    have hown : ∀ r ∈ v.withdrawals.rows, r.id = row.id → r.creatorId = A := fun r hr hid => by
      rw [WithdrawalTable.eq_of_id hr hrow hid, hA]
    split
    · have hnow := fun v' => (ensures_query (r := .now) rfl v').mono (fun _ _ h => h)
        fun _ => WithdrawalsKept.of_eq (A := A)
      refine Ensures.bind (hnow v) ?_
      rintro now _ ⟨rfl, -⟩
      split
      · refine Ensures.bind (hnow _) ?_
        rintro completedAt _ ⟨rfl, -⟩
        exact Ensures.bind (ensures_request (.refl _) hown) fun _ v₁ h₁ => hK.receiptOf _ _ _ v₁ h₁
      · exact hK.receiptOf _ _ _ _ (.refl _)
    · exact hK.receiptOf _ _ _ _ (.refl _)

theorem withdrawalListExec_world (r : WithdrawalListRequest) (c : WithdrawalChoice)
    (w : WithdrawalWorld) : (withdrawalListExec r c w).2 = w := by
  unfold withdrawalListExec
  split
  · rfl
  · cases r with
    | withdrawalFindMany creatorId skip take => rfl
    | withdrawalCount creatorId => rfl

theorem ensures_listRequest (r : WithdrawalListRequest) (w : WithdrawalWorld) :
    (awaitList r).Ensures withdrawalListMachine w (fun _ v => v = w) fun v => v = w :=
  Ensures.of_relates (Relates.ask fun c w => (withdrawalListExec_world r c w).symm) w

/-- The list changes nothing. -/
theorem ensures_getWithdrawals (page limit : ℕ) (w : WithdrawalWorld) :
    (getWithdrawals A page limit).Ensures withdrawalListMachine w (fun _ v => v = w)
      fun v => v = w := by
  refine Ensures.bind (ensures_getAddress w).lift ?_
  rintro address v ⟨rfl, -⟩
  refine Ensures.bind (ensures_query (r := .walletCreator address) rfl v).lift ?_
  rintro found _ ⟨rfl, -⟩
  cases found with
  | none => exact Ensures.ret rfl
  | some creatorId =>
    refine Ensures.bind (ensures_listRequest _ _) ?_
    rintro rows _ rfl
    refine Ensures.bind (ensures_listRequest _ _) ?_
    rintro total _ rfl
    exact Ensures.ret rfl

/-! ## Products -/

end Ownership

/-- A product of another creator. -/
def Database.foreign (A : String) (db : Database) (productId : String) : Bool :=
  (db.products.lookup productId).any (·.creatorId ≠ A)

namespace Ownership

variable {A : String}

/-- Products of others, and their collaborators, are the same. -/
structure CatalogKept (A : String) (db db' : Database) : Prop where
  products : ∀ id p, p.creatorId ≠ A →
    (db'.products.lookup id = some p ↔ db.products.lookup id = some p)
  collaborators : db'.collaborators.filter (db'.foreign A ·.productId) =
    db.collaborators.filter (db.foreign A ·.productId)

theorem CatalogKept.refl (db : Database) : CatalogKept A db db :=
  ⟨fun _ _ _ => Iff.rfl, rfl⟩

theorem CatalogKept.of_eq {w w' : World} (h : w' = w) : CatalogKept A w.db w'.db := by
  rw [h]
  exact .refl w.db

theorem CatalogKept.trans {db db' db'' : Database} (h : CatalogKept A db db')
    (h' : CatalogKept A db' db'') : CatalogKept A db db'' :=
  ⟨fun id p hp => (h'.products id p hp).trans (h.products id p hp),
    h'.collaborators.trans h.collaborators⟩

theorem foreign_eq_true {db : Database} {id : String} :
    db.foreign A id = true ↔ ∃ p, db.products.lookup id = some p ∧ p.creatorId ≠ A := by
  simp only [Database.foreign, Option.any_eq_true, decide_eq_true_eq]

/-- The product is one of `A`. -/
def Owns (A : String) (db : Database) (id : String) : Prop :=
  ∃ p, db.products.lookup id = some p ∧ p.creatorId = A

theorem Owns.not_foreign {db : Database} {id : String} (h : Owns A db id) :
    db.foreign A id = false := by
  obtain ⟨p, hp, hA⟩ := h
  simp [Database.foreign, hp, hA]

/-- A change of one product, which is none of others before and after, and of its
collaborators. -/
theorem kept_of_product {db db' : Database} (id : String) (hold : db.foreign A id = false)
    (hnew : db'.foreign A id = false)
    (hproducts : ∀ id' ≠ id, db'.products.lookup id' = db.products.lookup id')
    (hcollaborators : db'.collaborators.filter (·.productId ≠ id) =
      db.collaborators.filter (·.productId ≠ id)) : CatalogKept A db db' := by
  have hforeign : ∀ id', db'.foreign A id' = db.foreign A id' := by
    intro id'
    by_cases h : id' = id
    · rw [h, hold, hnew]
    · rw [Database.foreign, hproducts id' h, Database.foreign]
  have hother : ∀ id', db.foreign A id' = true → id' ≠ id := by
    rintro id' h rfl
    rw [hold] at h
    cases h
  refine ⟨fun id' p hp => ?_, ?_⟩
  · by_cases h : id' = id
    · subst h
      have hnone : ∀ {db : Database}, db.foreign A id' = false →
          db.products.lookup id' ≠ some p := by
        intro db hf hlookup
        rw [foreign_eq_true.2 ⟨p, hlookup, hp⟩] at hf
        cases hf
      exact iff_of_false (hnone hnew) (hnone hold)
    · rw [hproducts id' h]
  · -- the rows of others are among those of other products
    have hsplit : ∀ l : List Collaborator, l.filter (db.foreign A ·.productId) =
        (l.filter (·.productId ≠ id)).filter (db.foreign A ·.productId) := by
      intro l
      rw [List.filter_filter]
      refine List.filter_congr fun c _ => ?_
      by_cases h : db.foreign A c.productId = true
      · simp [h, hother _ h]
      · simp [h]
    simp only [hforeign]
    rw [hsplit, hcollaborators, ← hsplit]

theorem kept_createProduct {id : String} {data : ProductCreate} {rows : List CollaboratorCreate}
    {db db' : Database} (h : db.createProduct id data rows = .ok db') (hA : data.creatorId = A) :
    CatalogKept A db db' := by
  obtain ⟨hnone, -, hrows, p, hcreator, -, hproducts⟩ := Products.createProduct_eq_ok h
  refine kept_of_product id ?_ ?_ (fun id' hne => ?_) ?_
  · simp [Database.foreign, hnone]
  · simp [Database.foreign, hproducts, hcreator, hA]
  · rw [hproducts, AList.lookup_insert_ne hne]
  · have hstored : (rows.map (·.stored id)).filter (·.productId ≠ id) = [] := by
      simp [CollaboratorCreate.stored]
    rw [hrows, List.filter_append, hstored, List.append_nil]

theorem kept_updateProduct {id : String} {data : ProductUpdate} {db db' : Database}
    (h : db.updateProduct id data = .ok db') (hA : Owns A db id) : CatalogKept A db db' := by
  obtain ⟨hrows, -, p₀, p, hp₀, hcreator, -, -, hproducts⟩ := Products.updateProduct_eq_ok h
  obtain ⟨q, hq, hqA⟩ := hA
  obtain rfl : p₀ = q := Option.some.inj (hp₀.symm.trans hq)
  refine kept_of_product id (Owns.not_foreign ⟨p₀, hq, hqA⟩) ?_ (fun id' hne => ?_) ?_
  · simp [Database.foreign, hproducts, hcreator, hqA]
  · rw [hproducts, AList.lookup_insert_ne hne]
  · rw [hrows]

theorem kept_replaceAll {id : String} {rows : List CollaboratorCreate} {db db' : Database}
    (h : db.replaceAll id rows = .ok db') (hA : Owns A db id) :
    CatalogKept A db db' ∧ db'.products = db.products := by
  obtain ⟨-, rfl⟩ := Products.replaceAll_eq_ok h
  refine ⟨kept_of_product id hA.not_foreign hA.not_foreign (fun _ _ => rfl) ?_, rfl⟩
  have hnew : ((rows.map (·.stored id)).filter (·.productId = id)).filter
      (·.productId ≠ id) = [] := by
    simp
  have hold : (db.collaborators.filter (·.productId ≠ id)).filter (·.productId ≠ id) =
      db.collaborators.filter (·.productId ≠ id) := by
    rw [List.filter_filter]
    simp only [Bool.and_self]
  rw [Database.replaceCollaborators, List.filter_append, hnew, hold, List.append_nil]

theorem kept_setProductStatus {id : String} {status : ProductStatus} {db db' : Database}
    (h : db.setProductStatus id status = .ok db') (hA : Owns A db id) : CatalogKept A db db' := by
  obtain ⟨p, hp, hpA⟩ := hA
  rw [Database.setProductStatus, hp] at h
  obtain rfl := Except.ok.inj h
  refine kept_of_product id (Owns.not_foreign ⟨p, hp, hpA⟩) ?_ (fun id' hne => ?_) rfl
  · simp [Database.foreign, hpA]
  · exact AList.lookup_insert_ne hne

/-- A database write that is refused changes nothing. -/
theorem insertC_db {P : Database → Prop} {α : Type} {w : World} {a : α}
    {x : Except DbError Database} (hw : P w.db) (h : ∀ db, x = .ok db → P db) :
    P (w.insertC a x).2.db := by
  cases x with
  | ok db => exact h db rfl
  | error e => exact hw

section Catalog

variable {cfg : StellarConfig} {w : World}

/-- The request writes a product of `A`, or makes one. -/
def OwnProduct (A : String) (db : Database) : CatalogRequest → Prop
  | .productCreate data _ => data.creatorId = A
  | .productUpdate id _ => Owns A db id
  | .collaboratorReplace productId _ => Owns A db productId
  | _ => True

theorem catalogEffect_kept {r : CatalogRequest} (hr : OwnProduct A w.db r) (c : Choice) :
    CatalogKept A w.db (catalogEffect cfg r c w).2.db := by
  have hw := CatalogKept.refl (A := A) w.db
  cases r with
  | productCreate data rows => exact insertC_db hw fun db h => kept_createProduct h hr
  | productUpdate id data => exact insertC_db hw fun db h => kept_updateProduct h hr
  | collaboratorReplace id rows => exact insertC_db hw fun db h => (kept_replaceAll h hr).1
  | _ => exact hw

/-- What holds of the database before a request and after its effect holds after the request,
hit by a fault or not. -/
theorem ensures_request_db {P : Database → Prop} {r : CatalogRequest} (hw : P w.db)
    (hr : ∀ c, P (catalogEffect cfg r c w).2.db) :
    (awaitC r).Ensures (catalogMachine cfg) w (fun _ v => P v.db) fun v => P v.db := by
  have hexec : ∀ c, P (catalogExec cfg r c w).2.db := by
    intro c
    rcases catalogExec_world cfg r c w with h | h
    · rwa [h]
    · rw [h]
      exact hr c
  refine Ensures.ask (fun c a v h => ?_) fun c e v h => ?_
  · have hv := hexec c
    rwa [show catalogExec cfg r c w = (.ok a, v) from h] at hv
  · have hv := hexec c
    rwa [show catalogExec cfg r c w = (.error e, v) from h] at hv

theorem ensures_catalog {r : CatalogRequest} (hr : OwnProduct A w.db r) :
    (awaitC r).Ensures (catalogMachine cfg) w (fun _ v => CatalogKept A w.db v.db)
      fun v => CatalogKept A w.db v.db :=
  ensures_request_db (.refl w.db) (catalogEffect_kept hr)

theorem ensures_loadOwnedProduct (id : String) :
    (Products.loadOwnedProduct id A).Ensures (catalogMachine cfg) w
      (fun _ v => v = w ∧ Owns A w.db id) fun v => v = w := by
  intro ch
  have hw := ProductUpdates.relates_loadOwnedProduct cfg id A ch w
  rcases hp : (Products.loadOwnedProduct id A).eval (catalogMachine cfg) ch w with
    ⟨e | p, rest, v⟩
  · exact .inl ⟨e, rest, v, rfl, by rw [hw, hp]⟩
  · obtain ⟨-, hlookup, hA⟩ := ProductUpdates.owned_of_eval (congrArg Prod.fst hp)
    exact .inr ⟨p, rest, v, rfl, by rw [hw, hp], p, hlookup, hA⟩

theorem relates_resolveCollaborators (input : Option (List CreateCollaboratorDto)) :
    (Products.resolveCollaborators input A).Relates (catalogMachine cfg) Eq := by
  have hK := ProductUpdates.compositional cfg
  have hsole : (Products.soleCollaborator A).Relates (catalogMachine cfg) Eq := by
    refine hK.bind (ProductUpdates.relates_read rfl) fun wallet => ?_
    cases wallet with
    | none => exact hK.raise _
    | some walletAddress =>
      refine hK.bind (hK.tryCatch (ProductUpdates.relates_read rfl) fun _ => hK.raise _)
        fun state => ?_
      dsimp only
      split
      · exact hK.raise _
      · exact hK.ret _
  unfold Products.resolveCollaborators
  split
  · exact ProductUpdates.relates_checkCollaborators _
  · exact hsole
  · exact hsole

theorem ensures_createProduct (dto : CreateProductDto) :
    (ProductCall.create dto A).method.Ensures (catalogMachine cfg) w
      (fun _ v => CatalogKept A w.db v.db) fun v => CatalogKept A w.db v.db := by
  simp only [ProductCall.method]
  split
  · exact Ensures.raise (.refl w.db)
  · refine Ensures.bind (R := fun _ v => CatalogKept A w.db v.db) ?_ fun _ v h => Ensures.ret h
    refine Ensures.bind ((Ensures.of_relates (relates_resolveCollaborators _) w).mono
      (fun _ _ h => h) fun _ => .of_eq) ?_
    rintro rows _ rfl
    exact ensures_catalog rfl

/-- The collaborators of an own product are replaced, and no product. -/
theorem ensures_patchCollaborators {id : String} (hown : Owns A w.db id)
    (input : Option (List CreateCollaboratorDto)) :
    (Products.patchCollaborators id A input).Ensures (catalogMachine cfg) w
      (fun _ v => CatalogKept A w.db v.db ∧ v.db.products = w.db.products)
      fun v => CatalogKept A w.db v.db := by
  unfold Products.patchCollaborators
  split
  · refine Ensures.bind ((Ensures.of_relates (relates_resolveCollaborators _) w).mono
      (fun _ _ h => h) fun _ => .of_eq) ?_
    rintro rows w rfl
    refine (ensures_request_db (P := fun db => CatalogKept A w.db db ∧
      db.products = w.db.products) ⟨.refl w.db, rfl⟩ fun c => ?_).mono (fun _ _ h => h)
        fun _ h => h.1
    exact insertC_db (P := fun db => CatalogKept A w.db db ∧ db.products = w.db.products)
      ⟨.refl w.db, rfl⟩ fun db h => kept_replaceAll h hown
  · exact Ensures.ret ⟨.refl w.db, rfl⟩
  · exact Ensures.ret ⟨.refl w.db, rfl⟩

theorem ensures_updateProduct (id : String) (dto : UpdateProductDto) :
    (ProductCall.update id dto A).method.Ensures (catalogMachine cfg) w
      (fun _ v => CatalogKept A w.db v.db) fun v => CatalogKept A w.db v.db := by
  simp only [ProductCall.method]
  split
  · exact Ensures.raise (.refl w.db)
  refine Ensures.bind ((ensures_loadOwnedProduct id).mono (fun _ _ h => h) fun _ => .of_eq) ?_
  rintro product w ⟨rfl, hown⟩
  have hprice : (Products.patchPrice dto.priceUsd).Ensures (catalogMachine cfg) w
      (fun _ v => v = w) fun v => CatalogKept A w.db v.db := by
    unfold Products.patchPrice
    split
    · exact Ensures.ret rfl
    · exact Ensures.raise (.refl w.db)
    · exact Ensures.ret rfl
  refine Ensures.bind hprice ?_
  rintro priceUsd w rfl
  refine Ensures.bind (ensures_patchCollaborators hown dto.collaborators) ?_
  rintro _ v ⟨hkept, hproducts⟩
  have hown' : Owns A v.db id := by
    rwa [Owns, hproducts]
  exact (ensures_catalog (r := .productUpdate id _) hown').mono (fun _ _ h => hkept.trans h)
    fun _ h => hkept.trans h

/-- Archiving and restoring. -/
theorem ensures_setStatus (id : String) (status : ProductStatus) :
    (Products.setStatus id A status).Ensures (productStatusMachine cfg) w
      (fun _ v => CatalogKept A w.db v.db) fun v => CatalogKept A w.db v.db := by
  refine Ensures.bind ((ensures_loadOwnedProduct id).mono (fun _ _ h => h) fun _ => .of_eq).lift ?_
  rintro product w ⟨rfl, hown⟩
  have hexec : ∀ c, CatalogKept A w.db
      (productStatusExec (.productSetStatus id status) c w).2.db := by
    intro c
    have heffect : CatalogKept A w.db (w.insertC () (w.db.setProductStatus id status)).2.db :=
      insertC_db (.refl w.db) fun db h => kept_setProductStatus h hown
    simp only [productStatusExec]
    split
    · exact heffect
    · exact .refl w.db
    · exact heffect
  refine Ensures.ask (fun c a v h => ?_) fun c e v h => ?_
  · have hv := hexec c
    rwa [show productStatusExec (.productSetStatus id status) c w = (.ok a, v) from h] at hv
  · have hv := hexec c
    rwa [show productStatusExec (.productSetStatus id status) c w = (.error e, v) from h] at hv

end Catalog

/-! ## Mini-sites -/

/-- Rows of one owner do not change those of others. -/
theorem filter_replaced_others {α : Type} (owner : α → String) {old rows : List α}
    (h : ∀ r ∈ rows, owner r = A) :
    (old.filter (owner · ≠ A) ++ rows).filter (owner · ≠ A) = old.filter (owner · ≠ A) := by
  have hrows : rows.filter (owner · ≠ A) = [] := by
    simpa using h
  have hold : (old.filter (owner · ≠ A)).filter (owner · ≠ A) = old.filter (owner · ≠ A) := by
    rw [List.filter_filter]
    simp only [Bool.and_self]
  rw [List.filter_append, hrows, hold, List.append_nil]

/-- Rows of other users are the same. -/
structure SiteKept (A : String) (t t' : SiteRows) : Prop where
  socialLinks : t'.socialLinks.filter (·.userId ≠ A) = t.socialLinks.filter (·.userId ≠ A)
  customLinks : t'.customLinks.filter (·.userId ≠ A) = t.customLinks.filter (·.userId ≠ A)
  featuredProducts : t'.featuredProducts.filter (·.userId ≠ A) =
    t.featuredProducts.filter (·.userId ≠ A)

theorem siteKept_replaced (dto : SiteDto) (t : SiteRows) :
    SiteKept A t (SiteService.replaced A dto t) := by
  refine ⟨filter_replaced_others _ fun r hr => ?_, filter_replaced_others _ fun r hr => ?_,
    filter_replaced_others _ fun r hr => ?_⟩
  · obtain ⟨_, _, _, _, rfl⟩ := SiteService.mem_socialEntries.1 hr
    rfl
  · obtain ⟨_, _, rfl⟩ := List.mem_mapIdx.1 hr
    rfl
  · obtain ⟨_, _, rfl⟩ := List.mem_mapIdx.1 hr
    rfl

/-! ## Every call -/

/-- The rows that belong to creators other than `A` are the same. -/
structure OthersKept (A : String) (t t' : Tables) : Prop where
  withdrawals : t'.withdrawals.rows.filter (·.creatorId ≠ A) =
    t.withdrawals.rows.filter (·.creatorId ≠ A)
  catalog : CatalogKept A t.world.db t'.world.db
  site : SiteKept A t.site.toSiteRows t'.site.toSiteRows

theorem othersKept_withdrawals {S : Sig} {E α : Type}
    {M : Machine S WithdrawalWorld WithdrawalChoice E} {p : Prog S α} {o : Outcomes} {t : Tables}
    (h : p.Ensures M t.withdrawalWorld (fun _ => WithdrawalsKept A t.withdrawalWorld)
      (WithdrawalsKept A t.withdrawalWorld)) : OthersKept A t (t.runWithdrawals M p o) := by
  obtain ⟨hdb, hrows⟩ := h.world o.withdrawals
  refine ⟨hrows, ?_, ⟨rfl, rfl, rfl⟩⟩
  have hcatalog : (t.runWithdrawals M p o).world.db = t.world.db := hdb
  rw [hcatalog]
  exact .refl _

theorem othersKept_catalog {S : Sig} {E α : Type} {M : Machine S World Choice E} {p : Prog S α}
    {o : Outcomes} {t : Tables} (h : p.Ensures M t.world
      (fun _ v => CatalogKept A t.world.db v.db) fun v => CatalogKept A t.world.db v.db) :
    OthersKept A t (t.runCatalog M p o) :=
  ⟨rfl, h.world o.catalog, ⟨rfl, rfl, rfl⟩⟩

theorem othersKept_site (dto : SiteDto) (o : Outcomes) (t : Tables) :
    OthersKept A t (t.runSite (SiteService.updateSite A dto) o) := by
  rcases SiteService.eval_updateSite A dto o.site ⟨t.world.db, t.site⟩ with
    ⟨e, rest, h⟩ | ⟨rest, w, h, hdb, hrows⟩
  · have hrun : t.runSite (SiteService.updateSite A dto) o = t := by
      rw [Tables.runSite, Tables.siteDatabase, h]
      rfl
    rw [hrun]
    exact ⟨rfl, .refl _, ⟨rfl, rfl, rfl⟩⟩
  · have hrun : t.runSite (SiteService.updateSite A dto) o =
        { t with world := { t.world with db := w.db }, site := w.site } := by
      rw [Tables.runSite, Tables.siteDatabase, h]
      rfl
    rw [hrun]
    refine ⟨rfl, ?_, ?_⟩
    · rw [show w.db = t.world.db from hdb]
      exact .refl _
    · rw [show w.site.toSiteRows = _ from hrows]
      exact siteKept_replaced dto _

/-- No call of a creator creates, changes or deletes a row of another. -/
theorem call_keeps_others (cfg : CallConfig) (A : String) (hne : A ≠ "") (t : Tables)
    (haddr : (t.world.db.wallets.map (·.walletAddress)).Nodup) (o : Outcomes)
    (call : CreatorCall) : OthersKept A t (call.run cfg A o t) := by
  cases call with
  | postWithdrawal amount destinationType destinationAccount =>
    exact othersKept_withdrawals (ensures_postWithdrawal _ haddr _ _ _)
  | getWithdrawal id => exact othersKept_withdrawals (ensures_getWithdrawal hne id _)
  | getWithdrawals page limit =>
    exact othersKept_withdrawals ((ensures_getWithdrawals page limit _).mono
      (fun _ _ => .of_eq) fun _ => .of_eq)
  | interactive amount token => exact othersKept_withdrawals (ensures_interactive _ _ _ _)
  | transaction id token => exact othersKept_withdrawals (ensures_transaction _ _ _ _)
  | submitPayment signedXdr id => exact othersKept_withdrawals (ensures_submitPayment _ _ _ _)
  | createProduct dto => exact othersKept_catalog (ensures_createProduct dto)
  | updateProduct id dto => exact othersKept_catalog (ensures_updateProduct id dto)
  | archive id => exact othersKept_catalog (ensures_setStatus id _)
  | restore id => exact othersKept_catalog (ensures_setStatus id _)
  | updateSite dto => exact othersKept_site dto o t

/-- The creator `bob` asks for a withdrawal of `alice`. -/
theorem call_keeps_others_demo : OthersKept "bob" demoTables
    (CreatorCall.run demoCallConfig "bob" demoOutcomes demoTables (.getWithdrawal "withdrawal")) :=
  call_keeps_others demoCallConfig "bob" (by decide) demoTables (List.nodup_singleton _)
    demoOutcomes (.getWithdrawal "withdrawal")

end Ownership

end Kreav
