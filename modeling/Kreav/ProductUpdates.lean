import Kreav.ProductSplit

/-!
# Updates of a product

`Products.update` replaces the collaborators in one transaction and writes the product row in
a statement after it. When that statement fails, the collaborators stay replaced. The body
can make it fail : no validator bounds a price, and null passes for a title.

`update_atomic_iff` : an update that throws leaves the product and its collaborators as they
were, except where it stops `Halfway`, or where a write is committed and its answer is lost
(`Unacknowledged`). `Products.create` has no such state, as it writes both in one statement.
-/

open Async Prog

namespace Kreav

namespace ProductUpdates

/-- The product row and its collaborator rows are as they were. -/
def Unchanged (id : String) (db db' : Database) : Prop :=
  db'.products.lookup id = db.products.lookup id ∧
    db'.collaborators.filter (·.productId = id) = db.collaborators.filter (·.productId = id)

instance (id : String) (db db' : Database) : Decidable (Unchanged id db db') :=
  inferInstanceAs (Decidable (_ ∧ _))

theorem Unchanged.refl (id : String) (db : Database) : Unchanged id db db :=
  ⟨rfl, rfl⟩

/-! ## What an update writes -/

variable (cfg : StellarConfig) (id : String) (dto : UpdateProductDto) (creatorId : String)
  (ch : ℕ → Choice) (w : World)

/-- The collaborators that a body lists. -/
def listed : List CollaboratorCreate :=
  (dto.collaborators.getD []).map Products.parseCollaborator

/-- Their wallets, each once. -/
def wallets : List String :=
  ((listed dto).map (·.walletAddress)).eraseDups

/-- The columns that a body sets. -/
def columns : ProductUpdate :=
  ⟨dto.title, dto.description, dto.fileUrl, dto.priceUsd.join.map hundredths⟩

/-- The price of a body fits its column. -/
def PriceFits : Prop :=
  ∀ cents ∈ (columns dto).priceUsd, cents < 10 ^ 18

instance : Decidable (PriceFits dto) :=
  inferInstanceAs (Decidable (∀ cents ∈ (columns dto).priceUsd, _))

/-- The product row after the write. -/
def patched (p : Product) : Product where
  creatorId := p.creatorId
  title := dto.title.join.getD p.title
  description := dto.description.getD p.description
  fileUrl := dto.fileUrl.getD p.fileUrl
  priceUsd := ((columns dto).priceUsd.bind fun cents => Usd.ofCents? cents).getD p.priceUsd
  status := p.status

/-- The write of the product row fails, for what the body has or for a fault. -/
def WriteFails (c : Choice) : Prop :=
  dto.title = some none ∨ ¬ PriceFits dto ∨ c.fault ≠ .none

instance (c : Choice) : Decidable (WriteFails dto c) :=
  inferInstanceAs (Decidable (_ ∨ _))

/-- Every wallet is registered, has a trustline, and both are read without a fault. -/
def Eligible (w : World) : List String → (ℕ → Choice) → Prop
  | [], _ => True
  | address :: rest, ch => ((ch 0).fault = .none ∧
      address ∈ w.db.wallets.map (·.walletAddress)) ∧
    ((ch 1).fault = .none ∧ w.chain.trustline address = true) ∧
    Eligible w rest fun n => ch (n + 2)

/-- An explicit list passes its checks. -/
def Checked (w : World) (parsed : List CollaboratorCreate) (ch : ℕ → Choice) : Prop :=
  Products.percentageSum parsed = 10000 ∧ (∀ c ∈ parsed, 0 < c.revenuePercentage) ∧
    Eligible w (parsed.map (·.walletAddress)).eraseDups ch

/-- The update gets to its writes : the product is the caller's, the price is not null, and
the collaborators that the body lists pass their checks. -/
structure Reaches : Prop where
  found : (ch 0).fault = .none
  owned : ∃ p, w.db.products.lookup id = some p ∧ p.creatorId = creatorId
  price : dto.priceUsd ≠ some none
  checked : listed dto ≠ [] → Checked w (listed dto) fun n => ch (n + 1)

/-- The outcome of the replacement of the collaborators. -/
def replaceChoice : Choice :=
  ch (2 * (wallets dto).length + 1)

/-- The outcome of the write of the product row. -/
def writeChoice : Choice :=
  ch (if listed dto = [] then 1 else 2 * (wallets dto).length + 2)

/-- The collaborators are replaced by others, and then the update throws. -/
structure Halfway : Prop where
  reaches : Reaches id dto creatorId ch w
  lists : listed dto ≠ []
  committed : (replaceChoice dto ch).fault ≠ .lost
  differs : (listed dto).map (·.stored id) ≠ w.db.collaborators.filter (·.productId = id)
  throws : (replaceChoice dto ch).fault = .unacked ∨ WriteFails dto (writeChoice dto ch)

/-- The product row is written and changes, and the answer is lost. -/
structure Unacknowledged : Prop where
  reaches : Reaches id dto creatorId ch w
  replaced : listed dto ≠ [] → (replaceChoice dto ch).fault = .none
  fault : (writeChoice dto ch).fault = .unacked
  accepted : dto.title ≠ some none ∧ PriceFits dto
  differs : (w.db.products.lookup id).map (patched dto) ≠ w.db.products.lookup id

/-! ## Statements -/

variable {cfg id dto creatorId ch w}

theorem replaceAll_ok {rows : List CollaboratorCreate} {db : Database}
    (hp : (db.products.lookup id).isSome = true) (hr : ∀ c ∈ rows, c.InRange) :
    db.replaceAll id rows = .ok (db.replaceCollaborators id (rows.map (·.stored id))) := by
  have hnone : ¬ (db.products.lookup id).isNone = true := by
    rw [Option.isNone_iff_eq_none]
    exact Option.isSome_iff_ne_none.1 hp
  have hall : ¬ ∃ c ∈ rows, ¬ c.InRange := fun ⟨c, hc, hn⟩ => hn (hr c hc)
  rw [Database.replaceAll, if_neg hnone, if_neg hall]

/-- The collaborators after a replacement. -/
theorem filter_replaceCollaborators (db : Database) (rows : List CollaboratorCreate) :
    (db.replaceCollaborators id (rows.map (·.stored id))).collaborators.filter
      (·.productId = id) = rows.map (·.stored id) := by
  have hstored : ∀ c ∈ rows.map (·.stored id), c.productId = id := by
    intro c hc
    obtain ⟨c, -, rfl⟩ := List.mem_map.1 hc
    rfl
  have hold : (db.collaborators.filter (·.productId ≠ id)).filter (·.productId = id) = [] := by
    refine List.filter_eq_nil_iff.2 fun c hc => ?_
    simpa using (List.mem_filter.1 hc).2
  have hnew : (rows.map (·.stored id)).filter (·.productId = id) = rows.map (·.stored id) :=
    List.filter_eq_self.2 fun c hc => decide_eq_true (hstored c hc)
  simp only [Database.replaceCollaborators, List.filter_append, hold, hnew, List.nil_append]

/-- The price of a write that is accepted. -/
theorem price_ok (hfits : PriceFits dto) (p : Product) :
    ((columns dto).priceUsd.map priceColumn).getD (.ok p.priceUsd) =
      .ok (patched dto p).priceUsd := by
  cases hc : (columns dto).priceUsd with
  | none => simp [patched, hc]
  | some cents =>
    have hlt : ((cents : ℤ)).natAbs < 10 ^ 18 := hfits cents hc
    have hof : Usd.ofCents? cents = some ⟨cents, hlt⟩ := dif_pos hlt
    simp only [patched, hc, Option.map_some, Option.getD_some, priceColumn, hof, Option.elim_some,
      Option.bind_some]

theorem updateProduct_ok {db : Database} {p : Product} (hp : db.products.lookup id = some p)
    (htitle : dto.title ≠ some none) (hfits : PriceFits dto) :
    db.updateProduct id (columns dto) =
      .ok { db with products := db.products.insert id (patched dto p) } := by
  have hprice := price_ok hfits p
  have htitle' : (columns dto).title ≠ some none := htitle
  simp only [Database.updateProduct, hp, hprice, if_neg htitle']
  rfl

theorem updateProduct_error {db : Database} {p : Product} (hp : db.products.lookup id = some p)
    (h : dto.title = some none ∨ ¬ PriceFits dto) :
    ∃ e, db.updateProduct id (columns dto) = .error e := by
  by_cases hfits : PriceFits dto
  · have htitle : (columns dto).title = some none := h.resolve_right (not_not_intro hfits)
    simp only [Database.updateProduct, hp, price_ok hfits p, if_pos htitle]
    exact ⟨_, rfl⟩
  · obtain ⟨cents, hc, hbig⟩ : ∃ cents, (columns dto).priceUsd = some cents ∧
        ¬ cents < 10 ^ 18 := by
      simpa [PriceFits] using hfits
    have hbig' : ¬ ((cents : ℤ)).natAbs < 10 ^ 18 := hbig
    simp only [Database.updateProduct, hp, hc, Option.map_some, Option.getD_some, priceColumn,
      Usd.ofCents?, dif_neg hbig', Option.elim_none]
    exact ⟨_, rfl⟩

/-! ## The run of an update -/

theorem exec_registered {c : Choice} {address : String} (hf : c.fault = .none) :
    (catalogMachine cfg).exec (.walletFindAddress address) c w =
      (.ok (decide (address ∈ w.db.wallets.map (·.walletAddress))), w) :=
  catalogExec_none hf w

theorem exec_balance {c : Choice} {address : String} (hf : c.fault = .none) :
    (catalogMachine cfg).exec (.getUsdcBalance address) c w =
      (.ok ⟨(w.chain.contract.ledger cfg.usdc).balance address, w.chain.trustline address⟩, w) :=
  catalogExec_none hf w

variable (cfg w) in
/-- A request that a fault hits throws, and has its effect or none. -/
theorem exec_fault (r : CatalogRequest) {c : Choice} (hf : c.fault ≠ .none) :
    ∃ w', (catalogMachine cfg).exec r c w = (.error r.thrown, w') ∧
      (w' = w ∨ w' = (catalogEffect cfg r c w).2) := by
  cases hc : c.fault with
  | none => exact absurd hc hf
  | lost => exact ⟨w, catalogExec_lost hc w, .inl rfl⟩
  | unacked => exact ⟨(catalogEffect cfg r c w).2, catalogExec_unacked hc w, .inr rfl⟩

theorem eval_eligible : ∀ {wallets : List String} {ch : ℕ → Choice}, Eligible w wallets ch →
    (Products.assertCollaboratorsEligible wallets).eval (catalogMachine cfg) ch w =
      (.ok (), fun n => ch (n + 2 * wallets.length), w)
  | [], _, _ => rfl
  | address :: rest, ch, ⟨⟨hf, hregistered⟩, ⟨hf', htrust⟩, hrest⟩ => by
    have hfind : (catalogMachine cfg).exec (.walletFindAddress address) (ch 0) w =
        (.ok (decide (address ∈ w.db.wallets.map (·.walletAddress))), w) := exec_registered hf
    have hbalance : (awaitC (.getUsdcBalance address)).eval (catalogMachine cfg)
        (fun n => ch (n + 1)) w = (.ok ⟨(w.chain.contract.ledger cfg.usdc).balance address, true⟩,
          fun n => ch (n + 2), w) := by
      rw [eval_ask_eq, exec_balance hf', htrust]
    have hshift : (fun n => ch (n + 2 * rest.length + 2)) =
        fun n => ch (n + 2 * (address :: rest).length) := by
      funext n
      rw [List.length_cons, Nat.mul_succ, Nat.add_assoc]
    rw [decide_eq_true hregistered] at hfind
    refine (eval_ask _ hfind).trans ((eval_bind_ok (eval_tryCatch_ok hbalance)).trans ?_)
    exact (eval_eligible hrest).trans (by rw [hshift])

theorem eligible_of_eval : ∀ {wallets : List String} {ch : ℕ → Choice},
    ((Products.assertCollaboratorsEligible wallets).eval (catalogMachine cfg) ch w).1 = .ok () →
      Eligible w wallets ch
  | [], _, _ => trivial
  | address :: rest, ch, h => by
    unfold Products.assertCollaboratorsEligible at h
    obtain ⟨registered, w₁, hfind, h⟩ := eval_ask_ok h
    by_cases hf : (ch 0).fault = .none
    swap
    · obtain ⟨w', hx, -⟩ := exec_fault cfg w (.walletFindAddress address) hf
      rw [hx] at hfind
      cases hfind
    rw [exec_registered hf] at hfind
    obtain ⟨hregistered, rfl⟩ := Prod.mk.inj hfind
    obtain rfl := Except.ok.inj hregistered
    split at h
    · cases h
    next hregistered' =>
    obtain ⟨state, ch₁, w₂, hstate, h⟩ := eval_bind_returns h
    by_cases hf' : (ch 1).fault = .none
    swap
    · obtain ⟨w', hx, -⟩ := exec_fault cfg w (.getUsdcBalance address) hf'
      have hbalance : (awaitC (.getUsdcBalance address)).eval (catalogMachine cfg)
          (fun n => ch (n + 1)) w = (.error .horizon, fun n => ch (n + 2), w') := by
        rw [eval_ask_eq, hx]
        rfl
      cases (eval_tryCatch_error hbalance).symm.trans hstate
    have hbalance : (awaitC (.getUsdcBalance address)).eval (catalogMachine cfg)
        (fun n => ch (n + 1)) w = (.ok ⟨(w.chain.contract.ledger cfg.usdc).balance address,
          w.chain.trustline address⟩, fun n => ch (n + 2), w) := by
      rw [eval_ask_eq, exec_balance hf']
    obtain ⟨hok, hrest⟩ := Prod.mk.inj ((eval_tryCatch_ok hbalance).symm.trans hstate)
    obtain ⟨rfl, rfl⟩ := Prod.mk.inj hrest
    obtain rfl := Except.ok.inj hok
    split at h
    · cases h
    next htrust =>
    exact ⟨⟨hf, by simpa using hregistered'⟩, ⟨hf', by simpa using htrust⟩, eligible_of_eval h⟩

theorem eval_checkCollaborators {parsed : List CollaboratorCreate} (h : Checked w parsed ch) :
    (Products.checkCollaborators parsed).eval (catalogMachine cfg) ch w =
      (.ok parsed, fun n => ch (n + 2 * (parsed.map (·.walletAddress)).eraseDups.length), w) := by
  obtain ⟨hsum, hpos, heligible⟩ := h
  have hfind : parsed.find? (fun c => c.revenuePercentage ≤ 0) = none :=
    List.find?_eq_none.2 fun c hc => by simpa using hpos c hc
  unfold Products.checkCollaborators
  rw [if_neg (not_not_intro hsum), hfind]
  exact eval_bind_ok (eval_eligible heligible)

theorem checked_of_eval {parsed rows : List CollaboratorCreate}
    (h : ((Products.checkCollaborators parsed).eval (catalogMachine cfg) ch w).1 = .ok rows) :
    Checked w parsed ch := by
  unfold Products.checkCollaborators at h
  split at h
  · cases h
  next hsum =>
  split at h
  · cases h
  next hfind =>
  obtain ⟨_, ch₁, w₁, heligible, -⟩ := eval_bind_returns h
  refine ⟨not_not.1 hsum, fun c hc => ?_, eligible_of_eval (congrArg Prod.fst heligible)⟩
  simpa using List.find?_eq_none.1 hfind c hc

/-- The requests that change no row. -/
def isRead : CatalogRequest → Bool
  | .productCreate _ _ => false
  | .productUpdate _ _ => false
  | .collaboratorReplace _ _ => false
  | _ => true

theorem relates_read {r : CatalogRequest} (hr : isRead r = true) :
    (awaitC r).Relates (catalogMachine cfg) Eq := by
  refine Relates.ask fun c w => ?_
  have heffect : (catalogEffect cfg r c w).2 = w := by
    cases r with
    | productCreate data rows => cases hr
    | productUpdate id data => cases hr
    | collaboratorReplace productId rows => cases hr
    | _ => rfl
  rcases catalogExec_world cfg r c w with hw | hw
  · exact hw.symm
  · exact (hw.trans heffect).symm

variable (cfg) in
/-- What sequencing reads leaves. -/
theorem compositional : Compositional fun _ (p : CatalogMethod _) =>
    p.Relates (catalogMachine cfg) Eq :=
  Relates.compositional _ (fun _ => rfl) Eq.trans

theorem relates_eligible : ∀ wallets : List String,
    (Products.assertCollaboratorsEligible wallets).Relates (catalogMachine cfg) Eq
  | [] => fun _ _ => rfl
  | address :: rest => by
    refine (compositional cfg).bind (relates_read rfl) fun registered => ?_
    split
    · exact (compositional cfg).raise _
    refine (compositional cfg).bind ((compositional cfg).tryCatch (relates_read rfl)
      fun _ => (compositional cfg).raise _) fun state => ?_
    split
    · exact (compositional cfg).raise _
    · exact relates_eligible rest

theorem relates_checkCollaborators (parsed : List CollaboratorCreate) :
    (Products.checkCollaborators parsed).Relates (catalogMachine cfg) Eq := by
  unfold Products.checkCollaborators
  split
  · exact (compositional cfg).raise _
  split
  · exact (compositional cfg).raise _
  · exact (compositional cfg).bind (relates_eligible _) fun _ => (compositional cfg).ret _

theorem exec_find {c : Choice} (hf : c.fault = .none) :
    (catalogMachine cfg).exec (.productFindUnique id) c w =
      (.ok (w.db.products.lookup id), w) :=
  catalogExec_none hf w

theorem eval_loadOwnedProduct (hf : (ch 0).fault = .none) {p : Product}
    (hp : w.db.products.lookup id = some p) (howner : p.creatorId = creatorId) :
    (Products.loadOwnedProduct id creatorId).eval (catalogMachine cfg) ch w =
      (.ok p, fun n => ch (n + 1), w) := by
  have hfind : (catalogMachine cfg).exec (.productFindUnique id) (ch 0) w = (.ok (some p), w) :=
    (exec_find hf).trans (by rw [hp])
  refine (eval_ask _ hfind).trans ?_
  simp only [howner, ne_eq, not_true_eq_false, if_false]
  rfl

theorem owned_of_eval {p : Product}
    (h : ((Products.loadOwnedProduct id creatorId).eval (catalogMachine cfg) ch w).1 = .ok p) :
    (ch 0).fault = .none ∧ w.db.products.lookup id = some p ∧ p.creatorId = creatorId := by
  obtain ⟨found, w₁, hfind, h⟩ := eval_ask_ok h
  by_cases hf : (ch 0).fault = .none
  swap
  · obtain ⟨w', hx, -⟩ := exec_fault cfg w (.productFindUnique id) hf
    rw [hx] at hfind
    cases hfind
  rw [exec_find hf] at hfind
  obtain ⟨hfound, rfl⟩ := Prod.mk.inj hfind
  obtain rfl := Except.ok.inj hfound
  split at h
  · cases h
  next product hproduct =>
  split at h
  · cases h
  next howner =>
  obtain rfl : product = p := Except.ok.inj h
  exact ⟨hf, hproduct, not_not.1 howner⟩

variable (cfg id creatorId) in
theorem relates_loadOwnedProduct :
    (Products.loadOwnedProduct id creatorId).Relates (catalogMachine cfg) Eq := by
  refine (compositional cfg).bind (relates_read rfl) fun found => ?_
  split
  · exact (compositional cfg).raise _
  split
  · exact (compositional cfg).raise _
  · exact (compositional cfg).ret _

/-- The replacement of the collaborators. -/
def replaceRows (id : String) (rows : List CollaboratorCreate) : CatalogMethod Unit :=
  awaitC (.collaboratorReplace id rows)

/-- The write of the product row. -/
def writeProduct (id : String) (dto : UpdateProductDto) : CatalogMethod Unit :=
  awaitC (.productUpdate id (columns dto))

/-- The writes of an update. -/
def writes (id : String) (dto : UpdateProductDto) : CatalogMethod Unit :=
  if listed dto = [] then writeProduct id dto
  else (replaceRows id (listed dto)).bind fun _ => writeProduct id dto

/-- The number of requests before the writes. -/
def readCount (dto : UpdateProductDto) : ℕ :=
  if listed dto = [] then 1 else 2 * (wallets dto).length + 1

theorem writes_of_nil (h : listed dto = []) :
    writes id dto = writeProduct id dto :=
  if_pos h

theorem writes_of_ne (h : listed dto ≠ []) :
    writes id dto = (replaceRows id (listed dto)).bind fun _ => writeProduct id dto :=
  if_neg h

theorem eval_patchPrice (h : dto.priceUsd ≠ some none) (ch : ℕ → Choice) (w : World) :
    (Products.patchPrice dto.priceUsd).eval (catalogMachine cfg) ch w =
      (.ok (columns dto).priceUsd, ch, w) := by
  unfold columns
  generalize dto.priceUsd = price at h ⊢
  rcases price with - | - | s
  · rfl
  · exact absurd rfl h
  · rfl

/-- A body without collaborators. -/
theorem patchCollaborators_of_nil (h : listed dto = []) :
    Products.patchCollaborators id creatorId dto.collaborators = .ret () := by
  unfold listed at h
  rcases hc : dto.collaborators with - | - | ⟨d, ds⟩
  · rfl
  · rfl
  · simp [hc] at h

theorem patchCollaborators_of_ne (h : listed dto ≠ []) :
    Products.patchCollaborators id creatorId dto.collaborators =
      (Products.checkCollaborators (listed dto)).bind (replaceRows id) := by
  unfold listed at h ⊢
  rcases hc : dto.collaborators with - | - | ⟨d, ds⟩
  · simp [hc] at h
  · simp [hc] at h
  · rfl

theorem eval_update (h : Reaches id dto creatorId ch w) :
    (Products.update id dto creatorId).eval (catalogMachine cfg) ch w =
      (writes id dto).eval (catalogMachine cfg) (fun n => ch (n + readCount dto)) w := by
  obtain ⟨p, hp, howner⟩ := h.owned
  refine (eval_bind_ok (eval_loadOwnedProduct h.found hp howner)).trans
    ((eval_bind_ok (eval_patchPrice h.price _ w)).trans ?_)
  show ((Products.patchCollaborators id creatorId dto.collaborators).bind fun _ =>
    writeProduct id dto).eval _ _ w = _
  by_cases hnil : listed dto = []
  · have hcount : readCount dto = 1 := if_pos hnil
    rw [writes_of_nil hnil, patchCollaborators_of_nil hnil, hcount]
    rfl
  · have hcount : readCount dto = 2 * (wallets dto).length + 1 := if_neg hnil
    rw [writes_of_ne hnil, patchCollaborators_of_ne hnil, hcount, bind_assoc]
    exact eval_bind_ok (eval_checkCollaborators (h.checked hnil))

variable (cfg) in
/-- An update that does not get to its writes throws and leaves the world. -/
theorem eval_update_of_not (h : ¬ Reaches id dto creatorId ch w) :
    ∃ e ch', (Products.update id dto creatorId).eval (catalogMachine cfg) ch w =
      (.error e, ch', w) := by
  have hwhole : Products.update id dto creatorId =
      (Products.loadOwnedProduct id creatorId).bind fun _ =>
        (Products.patchPrice dto.priceUsd).bind fun priceUsd =>
          (Products.patchCollaborators id creatorId dto.collaborators).bind fun _ =>
            awaitC (.productUpdate id ⟨dto.title, dto.description, dto.fileUrl, priceUsd⟩) := rfl
  have hload := relates_loadOwnedProduct cfg id creatorId ch w
  rcases heval : (Products.loadOwnedProduct id creatorId).eval (catalogMachine cfg) ch w with
    ⟨e | p, ch₁, w₁⟩
  · rw [heval] at hload
    obtain rfl : w = w₁ := hload
    exact ⟨e, ch₁, hwhole ▸ eval_bind_error heval⟩
  obtain ⟨hf, hp, howner⟩ := owned_of_eval (congrArg Prod.fst heval)
  have hloaded : (Products.loadOwnedProduct id creatorId).eval (catalogMachine cfg) ch w =
      (.ok p, fun n => ch (n + 1), w) := eval_loadOwnedProduct hf hp howner
  have howned := eval_bind_ok (f := fun _ => (Products.patchPrice dto.priceUsd).bind fun priceUsd =>
    (Products.patchCollaborators id creatorId dto.collaborators).bind fun _ =>
      (awaitC (.productUpdate id ⟨dto.title, dto.description, dto.fileUrl, priceUsd⟩) :
        CatalogMethod Unit)) hloaded
  by_cases hprice : dto.priceUsd = some none
  · refine ⟨.decimal, fun n => ch (n + 1), howned.trans ?_⟩
    rw [hprice]
    rfl
  have hnil : listed dto ≠ [] := fun hnil =>
    h ⟨hf, ⟨p, hp, howner⟩, hprice, fun hne => absurd hnil hne⟩
  have hunchecked : ¬ Checked w (listed dto) fun n => ch (n + 1) := fun hchecked =>
    h ⟨hf, ⟨p, hp, howner⟩, hprice, fun _ => hchecked⟩
  have hcheck : w = ((Products.checkCollaborators (listed dto)).eval (catalogMachine cfg)
      (fun n => ch (n + 1)) w).2.2 := relates_checkCollaborators (listed dto) _ w
  rcases heval' : (Products.checkCollaborators (listed dto)).eval (catalogMachine cfg)
    (fun n => ch (n + 1)) w with ⟨e | rows, ch₂, w₂⟩
  swap
  · exact absurd (checked_of_eval (congrArg Prod.fst heval')) hunchecked
  rw [heval'] at hcheck
  obtain rfl : w = w₂ := hcheck
  refine ⟨e, ch₂, howned.trans ((eval_bind_ok (eval_patchPrice hprice _ w)).trans ?_)⟩
  show ((Products.patchCollaborators id creatorId dto.collaborators).bind fun _ =>
    writeProduct id dto).eval _ _ w = _
  rw [patchCollaborators_of_ne hnil, bind_assoc]
  exact eval_bind_error heval'

/-! ## The writes -/

variable {p : Product}

variable (cfg) in
theorem eval_writeProduct (hp : w.db.products.lookup id = some p)
    (h : ¬ WriteFails dto (ch 0)) :
    ∃ ch' w', (writeProduct id dto).eval (catalogMachine cfg) ch w = (.ok (), ch', w') := by
  obtain ⟨htitle, hfits, hf⟩ : dto.title ≠ some none ∧ PriceFits dto ∧ (ch 0).fault = .none := by
    simpa only [WriteFails, not_or, not_not] using h
  have hexec : (catalogMachine cfg).exec (.productUpdate id (columns dto)) (ch 0) w =
      (.ok (), { w with db := { w.db with
        products := w.db.products.insert id (patched dto p) } }) := by
    refine (catalogExec_none hf w).trans ?_
    rw [catalogEffect, updateProduct_ok hp htitle hfits]
    rfl
  exact ⟨fun n => ch (n + 1), _, eval_ask_of hexec⟩

variable (cfg) in
/-- A write that fails keeps the collaborators, and the product unless it is committed. -/
theorem eval_writeProduct_error (hp : w.db.products.lookup id = some p)
    (h : WriteFails dto (ch 0)) :
    ∃ e ch' w', (writeProduct id dto).eval (catalogMachine cfg) ch w = (.error e, ch', w') ∧
      w'.db.collaborators = w.db.collaborators ∧
      w'.db.products.lookup id =
        if (ch 0).fault = .unacked ∧ dto.title ≠ some none ∧ PriceFits dto then
          some (patched dto p) else some p := by
  by_cases haccepted : dto.title ≠ some none ∧ PriceFits dto
  · obtain ⟨htitle, hfits⟩ := haccepted
    have hf : (ch 0).fault ≠ .none :=
      (h.resolve_left htitle).resolve_left (not_not_intro hfits)
    have hok := updateProduct_ok hp htitle hfits
    cases hc : (ch 0).fault with
    | none => exact absurd hc hf
    | lost =>
      refine ⟨.database .unavailable, fun n => ch (n + 1), w, ?_, rfl, ?_⟩
      · exact eval_ask_of (catalogExec_lost hc w)
      · rw [hp, if_neg fun h => by cases h.1]
    | unacked =>
      refine ⟨.database .unavailable, fun n => ch (n + 1), { w with db := { w.db with
        products := w.db.products.insert id (patched dto p) } }, ?_, rfl, ?_⟩
      · refine eval_ask_of ((catalogExec_unacked hc w).trans ?_)
        rw [catalogEffect, hok]
        rfl
      · rw [if_pos ⟨rfl, htitle, hfits⟩]
        exact AList.lookup_insert _
  · have hbad : dto.title = some none ∨ ¬ PriceFits dto := by
      by_contra hgood
      exact haccepted ⟨fun ht => hgood (.inl ht), not_not.1 fun hf => hgood (.inr hf)⟩
    obtain ⟨e, he⟩ := updateProduct_error hp hbad
    rw [if_neg fun h => haccepted h.2, ← hp]
    have heffect : catalogEffect cfg (.productUpdate id (columns dto)) (ch 0) w =
        (.error (.database e), w) := by
      simp only [catalogEffect, he]
      rfl
    have hexec : ∃ e', (catalogMachine cfg).exec (.productUpdate id (columns dto)) (ch 0) w =
        (.error e', w) := by
      by_cases hf : (ch 0).fault = .none
      · exact ⟨.database e, (catalogExec_none hf w).trans heffect⟩
      · obtain ⟨w', hx, hw⟩ := exec_fault cfg w (.productUpdate id (columns dto)) hf
        rw [heffect, or_self] at hw
        rw [hx, hw]
        exact ⟨_, rfl⟩
    obtain ⟨e', hexec⟩ := hexec
    exact ⟨e', fun n => ch (n + 1), w, eval_ask_of hexec, rfl, rfl⟩

variable (cfg id dto creatorId ch w) in
/-- An update that throws leaves the product and its collaborators. -/
def Atomic : Prop :=
  ∀ e, ((Products.update id dto creatorId).eval (catalogMachine cfg) ch w).1 = .error e →
    Unchanged id w.db ((Products.update id dto creatorId).eval (catalogMachine cfg) ch w).2.2.db

/-- The write of the product row, after collaborators that are `rows` now. -/
theorem write_atomic_iff {w₁ : World} (hproducts : w₁.db.products = w.db.products)
    (hp : w.db.products.lookup id = some p) :
    (∀ e, ((writeProduct id dto).eval (catalogMachine cfg) ch w₁).1 = .error e →
      Unchanged id w.db ((writeProduct id dto).eval (catalogMachine cfg) ch w₁).2.2.db) ↔
    (WriteFails dto (ch 0) → w₁.db.collaborators.filter (·.productId = id) =
      w.db.collaborators.filter (·.productId = id)) ∧
    ¬ ((ch 0).fault = .unacked ∧ (dto.title ≠ some none ∧ PriceFits dto) ∧
      (w.db.products.lookup id).map (patched dto) ≠ w.db.products.lookup id) := by
  have hp₁ : w₁.db.products.lookup id = some p := hproducts ▸ hp
  by_cases hfails : WriteFails dto (ch 0)
  · obtain ⟨e, ch', w', heval, hrows, hlookup⟩ := eval_writeProduct_error cfg hp₁ hfails
    rw [heval, hp, Option.map_some]
    have hkept : Unchanged id w.db w'.db ↔
        (w₁.db.collaborators.filter (·.productId = id) =
          w.db.collaborators.filter (·.productId = id)) ∧
        ¬ ((ch 0).fault = .unacked ∧ (dto.title ≠ some none ∧ PriceFits dto) ∧
          some (patched dto p) ≠ some p) := by
      rw [Unchanged, hrows, hlookup, hp, and_comm]
      refine and_congr_right fun _ => ?_
      split
      · next h => simp [h.1, h.2]
      · next h => exact iff_of_true rfl fun h' => h ⟨h'.1, h'.2.1⟩
    rw [← imp_iff_right hfails (b := _ = _)] at hkept
    exact ⟨fun h => hkept.1 (h e rfl), fun h e' _ => hkept.2 h⟩
  · obtain ⟨ch', w', heval⟩ := eval_writeProduct cfg hp₁ hfails
    rw [heval]
    refine ⟨fun _ => ⟨fun h => absurd h hfails, fun h => hfails ?_⟩, fun _ e he => by cases he⟩
    exact .inr (.inr fun hf => by rw [hf] at h; cases h.1)

variable (dto) in
theorem nonneg_listed : ∀ c ∈ listed dto, 0 ≤ c.revenuePercentage := by
  intro c hc
  obtain ⟨d, -, rfl⟩ := List.mem_map.1 hc
  exact Int.natCast_nonneg _

/-- The shares of a checked list add up to 100, without rounding. -/
theorem sum_of_checked (h : Checked w (listed dto) ch) :
    ((listed dto).map (·.revenuePercentage)).sum = 10000 := by
  have hfold := (Products.foldl_percentage le_rfl (nonneg_listed dto)
    (by rw [← Products.percentageSum, h.1]; decide)).1
  rw [← Products.percentageSum, h.1, zero_add] at hfold
  exact hfold.symm

/-- The shares of a checked list fit their column. -/
theorem inRange_of_checked (h : Checked w (listed dto) ch) : ∀ c ∈ listed dto, c.InRange := by
  intro c hc
  have hle : c.revenuePercentage ≤ 10000 := by
    rw [← sum_of_checked h]
    refine List.single_le_sum (fun x hx => ?_) _ (List.mem_map_of_mem hc)
    obtain ⟨c', hc', rfl⟩ := List.mem_map.1 hx
    exact nonneg_listed dto c' hc'
  have := nonneg_listed dto c hc
  unfold CollaboratorCreate.InRange
  omega

/-- The world after the collaborators are replaced. -/
def replacedWorld (id : String) (dto : UpdateProductDto) (w : World) : World :=
  { w with db := w.db.replaceCollaborators id ((listed dto).map (·.stored id)) }

variable (cfg) in
theorem effect_replace (hp : w.db.products.lookup id = some p)
    (hr : ∀ c ∈ listed dto, c.InRange) (c : Choice) :
    catalogEffect cfg (.collaboratorReplace id (listed dto)) c w =
      (.ok (), replacedWorld id dto w) := by
  have hsome : (w.db.products.lookup id).isSome = true := by rw [hp]; rfl
  simp only [catalogEffect, replaceAll_ok hsome hr]
  rfl

theorem filter_replacedWorld (id : String) (dto : UpdateProductDto) (w : World) :
    (replacedWorld id dto w).db.collaborators.filter (·.productId = id) =
      (listed dto).map (·.stored id) :=
  filter_replaceCollaborators w.db (listed dto)

/-- The two writes. -/
theorem writes_atomic_iff (hlists : listed dto ≠ []) (hr : ∀ c ∈ listed dto, c.InRange)
    (hp : w.db.products.lookup id = some p) :
    (∀ e, ((writes id dto).eval (catalogMachine cfg) ch w).1 = .error e →
      Unchanged id w.db ((writes id dto).eval (catalogMachine cfg) ch w).2.2.db) ↔
    ¬ ((ch 0).fault ≠ .lost ∧
      (listed dto).map (·.stored id) ≠ w.db.collaborators.filter (·.productId = id) ∧
      ((ch 0).fault = .unacked ∨ WriteFails dto (ch 1))) ∧
    ¬ ((ch 0).fault = .none ∧ (ch 1).fault = .unacked ∧
      (dto.title ≠ some none ∧ PriceFits dto) ∧
      (w.db.products.lookup id).map (patched dto) ≠ w.db.products.lookup id) := by
  have heffect := effect_replace cfg hp hr (ch 0)
  rw [writes_of_ne hlists]
  cases hc : (ch 0).fault with
  | none =>
    have hexec : (catalogMachine cfg).exec (.collaboratorReplace id (listed dto)) (ch 0) w =
        (.ok (), replacedWorld id dto w) := (catalogExec_none hc w).trans heffect
    have hrun : ((replaceRows id (listed dto)).bind fun _ => writeProduct id dto).eval
        (catalogMachine cfg) ch w = (writeProduct id dto).eval (catalogMachine cfg)
          (fun n => ch (n + 1)) (replacedWorld id dto w) := eval_ask _ hexec
    have hproducts : (replacedWorld id dto w).db.products = w.db.products := rfl
    rw [hrun, write_atomic_iff hproducts hp, filter_replacedWorld]
    refine and_congr ?_ (by simp)
    simp only [zero_add]
    constructor
    · rintro h ⟨-, hdiffers, hthrows⟩
      exact hdiffers (h (hthrows.resolve_left (by simp)))
    · intro h hfails
      by_contra hdiffers
      exact h ⟨by simp, hdiffers, .inr hfails⟩
  | lost =>
    have hexec : (catalogMachine cfg).exec (.collaboratorReplace id (listed dto)) (ch 0) w =
        (.error (.database .unavailable), w) := catalogExec_lost hc w
    have hrun : ((replaceRows id (listed dto)).bind fun _ => writeProduct id dto).eval
        (catalogMachine cfg) ch w = (.error (.database .unavailable), fun n => ch (n + 1), w) :=
      eval_ask_error _ hexec
    rw [hrun]
    simp [Unchanged.refl]
  | unacked =>
    have hexec : (catalogMachine cfg).exec (.collaboratorReplace id (listed dto)) (ch 0) w =
        (.error (.database .unavailable), replacedWorld id dto w) := by
      refine (catalogExec_unacked hc w).trans ?_
      rw [heffect]
      rfl
    have hrun : ((replaceRows id (listed dto)).bind fun _ => writeProduct id dto).eval
        (catalogMachine cfg) ch w =
          (.error (.database .unavailable), fun n => ch (n + 1), replacedWorld id dto w) :=
      eval_ask_error _ hexec
    rw [hrun, Unchanged, filter_replacedWorld]
    simp [replacedWorld, Database.replaceCollaborators]

end ProductUpdates

/-! ## Runs -/

open ProductUpdates

/-- `alice` raises the price of her product above its column, and lists its collaborator. -/
def demoUpdate : UpdateProductDto where
  title := none
  description := none
  fileUrl := none
  priceUsd := some (some "99999999999999999999")
  collaborators := some [⟨demoAddress, "Author", "100"⟩]

/-- The product of `alice`, whose collaborators are other ones. -/
def demoCatalog : World :=
  let w := demoWorld [demoCollaborator "bob" 10000] []
  { w with db := { w.db with wallets := [⟨"alice", demoAddress, .freighter, 0⟩] } }

end Kreav
