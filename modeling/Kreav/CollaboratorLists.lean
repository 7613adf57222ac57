import Kreav.ProductUpdates
import Kreav.Lib.ReadCommitted
import Mathlib.Algebra.BigOperators.Ring.Finset

/-!
# Concurrent replacements of collaborators

`Products.update` replaces the collaborators of a product by a `deleteMany` and a `createMany`
in one transaction, at the isolation level READ COMMITTED and without a lock on the product.
The statements of several updates interleave as `ReadCommitted.step` says.

`oneList_iff` : once all have committed, the ACTIVE collaborators are the list of one of the
updates exactly when the `deleteMany` that starts last starts after the others have committed.
Otherwise the shares of two lists are there, and add up to too much. So the split that such
updates leave is accepted exactly when the last one ran alone and lists at most
`maxRecipients` distinct addresses. With `accepted_iff_listed`, which is about calls whose
transactions do not overlap, that is `split_accepted_iff`.
-/

open Async ReadCommitted

namespace Kreav

namespace CollaboratorLists

open ProductUpdates

/-- The update gets to the replacement of the collaborators by the list of its body. -/
def Replaces (id : String) (dto : UpdateProductDto) : Prop :=
  listed dto ≠ [] ∧ ∃ creatorId ch w, Reaches id dto creatorId ch w

/-- The `where` of `deleteMany`. -/
def ofProduct (id : String) (c : Collaborator) : Bool :=
  c.productId = id

/-- The rows of the `createMany` of each update. -/
def created (id : String) (calls : List UpdateProductDto) (i : Fin calls.length) :
    List Collaborator :=
  (listed (calls.get i)).map (·.stored id)

/-- The ACTIVE collaborators are the list of one update, and their shares add up to 100. -/
def OneList (id : String) (calls : List UpdateProductDto) (db : Database) : Prop :=
  (∃ dto ∈ calls, (db.activeCollaborators id).Perm ((listed dto).map (·.stored id))) ∧
    ((db.activeCollaborators id).map (·.revenuePercentage)).sum = 10000

variable {id : String} {calls : List UpdateProductDto} {dto : UpdateProductDto} {db : Database}

theorem created_scope (i : Fin calls.length) : ∀ c ∈ created id calls i, ofProduct id c = true := by
  intro c hc
  obtain ⟨c, -, rfl⟩ := List.mem_map.1 hc
  exact decide_eq_true rfl

theorem created_active {c : Collaborator} (i : Fin calls.length) (hc : c ∈ created id calls i) :
    c.status = .active := by
  obtain ⟨c, -, rfl⟩ := List.mem_map.1 hc
  rfl

/-- The shares of a list that passes its checks. -/
theorem sum_of_replaces (h : Replaces id dto) :
    (((listed dto).map (·.stored id)).map (·.revenuePercentage)).sum = 10000 := by
  obtain ⟨hlists, creatorId, ch, w, hreaches⟩ := h
  rw [List.map_map]
  exact sum_of_checked (hreaches.checked hlists)

theorem weight_of_replaces (h : Replaces id dto) :
    (((listed dto).map (·.stored id)).map (·.revenuePercentage.toNat)).sum = 10000 := by
  have hnn : ∀ c ∈ (listed dto).map (·.stored id), (c.revenuePercentage.toNat : ℤ) =
      c.revenuePercentage := by
    intro c hc
    obtain ⟨d, hd, rfl⟩ := List.mem_map.1 hc
    exact Int.toNat_of_nonneg (nonneg_listed dto d hd)
  zify
  rw [List.map_map, ← sum_of_replaces h]
  exact congrArg _ (List.map_congr_left hnn)

variable {s : Table (Fin calls.length) Collaborator} {as : List (Step (Fin calls.length))}

/-- The ACTIVE collaborators once all updates have committed. -/
theorem activeCollaborators_live
    (hrun : run (ofProduct id) (created id calls) as (start db.collaborators) = some s)
    (hall : ∀ i, s.phase i = .committed) (i : Fin calls.length) :
    ({ db with collaborators := s.live } : Database).activeCollaborators id =
      s.live.filter (ofProduct id) := by
  refine List.filter_congr fun c hc => ?_
  rw [ofProduct, decide_eq_decide]
  refine ⟨fun h => h.1, fun h => ⟨h, ?_⟩⟩
  obtain ⟨j, hj⟩ := mem_rows_of_mem_live created_scope hrun hall i hc (decide_eq_true h)
  exact created_active j hj

/-- The ACTIVE collaborators are the list of one update exactly when the `deleteMany` that
starts last starts after all other updates have committed. -/
theorem oneList_iff {id : String} {calls : List UpdateProductDto} (db : Database)
    (hcalls : ∀ dto ∈ calls, Replaces id dto) (as : List (Step (Fin calls.length)))
    {s : Table (Fin calls.length) Collaborator}
    (hrun : run (ofProduct id) (created id calls) as (start db.collaborators) = some s)
    (hall : ∀ i, s.phase i = .committed) :
    OneList id calls { db with collaborators := s.live } ↔
      LastAlone (ofProduct id) (created id calls) as (start db.collaborators) := by
  have hweight (i : Fin calls.length) :
      ((created id calls i).map (·.revenuePercentage.toNat)).sum = 10000 :=
    weight_of_replaces (hcalls _ (List.get_mem calls i))
  rw [← replaced_iff created_scope hweight (by decide) hrun hall]
  constructor
  · rintro ⟨⟨dto, hdto, hperm⟩, -⟩
    obtain ⟨i, rfl⟩ := List.get_of_mem hdto
    exact ⟨i, by rwa [activeCollaborators_live hrun hall i] at hperm⟩
  · rintro ⟨i, hperm⟩
    rw [OneList, activeCollaborators_live hrun hall i]
    refine ⟨⟨calls.get i, List.get_mem calls i, hperm⟩, ?_⟩
    rw [(hperm.map _).sum_eq]
    exact sum_of_replaces (hcalls _ (List.get_mem calls i))

/-- Such a run ends like the one transaction of the update whose `deleteMany` starts last. -/
theorem live_replaceCollaborators
    (hrun : run (ofProduct id) (created id calls) as (start db.collaborators) = some s)
    (hall : ∀ i, s.phase i = .committed)
    (h : LastAlone (ofProduct id) (created id calls) as (start db.collaborators)) :
    ∃ dto ∈ calls, s.live.Perm
      (db.replaceCollaborators id ((listed dto).map (·.stored id))).collaborators := by
  obtain ⟨i, hi⟩ := lastAlone_iff.1 h
  obtain ⟨hperm, -⟩ := live_of_lastOf created_scope hrun hall hi
  refine ⟨calls.get i, List.get_mem calls i, hperm.trans (.of_eq ?_)⟩
  have hnew : ((listed (calls.get i)).map (·.stored id)).filter (·.productId = id) =
      created id calls i := List.filter_eq_self.2 (created_scope i)
  rw [Database.replaceCollaborators, hnew]
  congr 1
  refine List.filter_congr fun c _ => ?_
  simp [ofProduct]

/-- The list of an update is a complete split. -/
theorem complete_created (hcalls : ∀ dto ∈ calls, Replaces id dto) (i : Fin calls.length) :
    Complete (created id calls i) where
  sum := sum_of_replaces (hcalls _ (List.get_mem calls i))
  pos c hc := by
    obtain ⟨hlists, creatorId, ch, w, hreaches⟩ := hcalls _ (List.get_mem calls i)
    obtain ⟨d, hd, rfl⟩ := List.mem_map.1 hc
    exact (hreaches.checked hlists).2.1 d hd

/-- The rows of a split that is accepted weigh 100%. -/
theorem weight_of_accepted {rows : List Collaborator} (h : SplitAccepted rows)
    (hpos : ∀ c ∈ rows, 0 ≤ c.revenuePercentage) :
    (rows.map (·.revenuePercentage.toNat)).sum = 10000 := by
  zify
  rw [List.map_map, ← h.sum]
  exact congrArg _ (List.map_congr_left fun c hc => Int.toNat_of_nonneg (hpos c hc))

/-- The split that overlapping updates leave is accepted exactly when the `deleteMany` that
starts last starts after the others have committed, and its update lists at most
`maxRecipients` distinct addresses. -/
theorem accepted_iff_lastOf (hne : calls ≠ []) (hcalls : ∀ dto ∈ calls, Replaces id dto)
    (hrun : run (ofProduct id) (created id calls) as (start db.collaborators) = some s)
    (hall : ∀ i, s.phase i = .committed) (n : ℕ) :
    SplitAccepted (reorder n
        (({ db with collaborators := s.live } : Database).activeCollaborators id)) ↔
      ∃ i, LastOf (ofProduct id) (created id calls) as (start db.collaborators) i ∧
        (listed (calls.get i)).length ≤ maxRecipients ∧
          ((listed (calls.get i)).map (·.walletAddress)).Nodup := by
  have hone : ∀ i, LastOf (ofProduct id) (created id calls) as (start db.collaborators) i →
      (SplitAccepted (reorder n
          (({ db with collaborators := s.live } : Database).activeCollaborators id)) ↔
        (listed (calls.get i)).length ≤ maxRecipients ∧
          ((listed (calls.get i)).map (·.walletAddress)).Nodup) := by
    intro i hi
    have hperm := reorder_perm n (created id calls i)
    have haddress : (created id calls i).map (·.walletAddress) =
        (listed (calls.get i)).map (·.walletAddress) := by
      rw [created, List.map_map]
      rfl
    rw [activeCollaborators_live hrun hall i, (live_of_lastOf created_scope hrun hall hi).2,
      ((complete_created hcalls i).perm hperm).accepted_iff, hperm.length_eq,
      (hperm.map _).nodup_iff, haddress, created, List.length_map]
  constructor
  · intro h
    have hperm := reorder_perm n
      (({ db with collaborators := s.live } : Database).activeCollaborators id)
    let i₀ : Fin calls.length := ⟨0, List.length_pos_iff.2 hne⟩
    have hrows : ∀ c ∈ s.live.filter (ofProduct id), 0 ≤ c.revenuePercentage := by
      intro c hc
      obtain ⟨hc, hscope⟩ := List.mem_filter.1 hc
      obtain ⟨j, hj⟩ := mem_rows_of_mem_live created_scope hrun hall i₀ hc hscope
      exact ((complete_created hcalls j).pos c hj).le
    rw [activeCollaborators_live hrun hall i₀] at h hperm
    have hsum := weight_of_accepted h fun c hc => hrows c (hperm.mem_iff.1 hc)
    rw [(hperm.map _).sum_eq] at hsum
    obtain ⟨i, hi⟩ := lastAlone_iff.1 ((weight_iff created_scope
      (fun j => weight_of_replaces (hcalls _ (List.get_mem calls j))) (by decide) hrun hall i₀).1
        hsum)
    refine ⟨i, hi, (hone i hi).1 ?_⟩
    rw [activeCollaborators_live hrun hall i₀]
    exact h
  · rintro ⟨i, hi, hlist⟩
    exact (hone i hi).2 hlist

end CollaboratorLists

open CollaboratorLists ProductUpdates

/-- When a paid order's split is accepted. Calls of the products controller, with any faults
and on a catalog without collaborators, overlap in any way but for the transactions that
replace collaborators : a product that has collaborators has those that one of the calls
listed, or its creator alone, and in any order of the rows its split is accepted exactly when
the call listed at most `maxRecipients` collaborators with distinct addresses. The
transactions of updates of one product overlap : once all have committed, its split is
accepted exactly when the `deleteMany` that starts last starts after the other updates have
committed, and the list of its update is as above. -/
theorem split_accepted_iff (cfg : StellarConfig) :
    (∀ (calls : List ProductCall) (w : World) (as : List (Action Choice Elsewhere)) (id : String),
      w.db.collaborators = [] → (Config.run (catalogMachine cfg) as
        ⟨calls.map (·.method), w⟩).world.db.activeCollaborators id ≠ [] →
      ∃ call ∈ calls, ∃ rows, rows = (Config.run (catalogMachine cfg) as
          ⟨calls.map (·.method), w⟩).world.db.activeCollaborators id ∧
        (rows.map (fun c => (c.walletAddress, c.revenuePercentage)) = call.listed.map
            (fun dto => (dto.walletAddress, (hundredths dto.revenuePercentage : ℤ))) ∨
          call.listed = [] ∧ rows.length = 1) ∧
        ∀ n, SplitAccepted (reorder n rows) ↔ call.listed.length ≤ maxRecipients ∧
          (call.listed.map (·.walletAddress)).Nodup) ∧
    ∀ (id : String) (calls : List UpdateProductDto) (db : Database)
      (as : List (Step (Fin calls.length))) (s : Table (Fin calls.length) Collaborator),
      calls ≠ [] → (∀ dto ∈ calls, Replaces id dto) →
        run (ofProduct id) (created id calls) as (start db.collaborators) = some s →
          (∀ i, s.phase i = .committed) → ∀ n,
            (SplitAccepted (reorder n
                (({ db with collaborators := s.live } : Database).activeCollaborators id)) ↔
              ∃ i, LastOf (ofProduct id) (created id calls) as (start db.collaborators) i ∧
                (listed (calls.get i)).length ≤ maxRecipients ∧
                  ((listed (calls.get i)).map (·.walletAddress)).Nodup) :=
  ⟨fun calls w as id hw hid => accepted_iff_listed cfg calls w as id hw hid,
    fun _ _ _ _ _ hne hcalls hrun hall n => accepted_iff_lastOf hne hcalls hrun hall n⟩

/-- A product with one collaborator. -/
theorem split_accepted_sole : ∃ rows n, rows = (Config.run (catalogMachine demoConfig)
      (List.replicate 3 (.run 0 { uuid := "presets" }))
        (demoListing [⟨demoAddress, "Author", "100"⟩])).world.db.activeCollaborators "presets" ∧
    SplitAccepted (reorder n rows) := by
  obtain ⟨call, hcall, rows, hrows, -, h⟩ := (split_accepted_iff demoConfig).1
    [.create (demoBody [⟨demoAddress, "Author", "100"⟩]) "alice"]
    (demoListing [⟨demoAddress, "Author", "100"⟩]).world
    (List.replicate 3 (.run 0 { uuid := "presets" })) "presets" (by decide) (by decide)
  obtain rfl := List.mem_singleton.1 hcall
  exact ⟨rows, 0, hrows, (h 0).2 (by decide)⟩

/-- A product with the same collaborator twice is stored, and the contract rejects it. -/
theorem split_accepted_twice : ∃ rows, rows = (Config.run (catalogMachine demoConfig)
      (List.replicate 3 (.run 0 { uuid := "presets" }))
        (demoListing [⟨demoAddress, "Author", "50"⟩, ⟨demoAddress, "Editor", "50"⟩])
          ).world.db.activeCollaborators "presets" ∧
    rows.length = 2 ∧ ¬ SplitAccepted rows := by
  refine ⟨_, rfl, by decide, fun h => ?_⟩
  obtain ⟨recipients, sum, hs, hv⟩ := h.recipients
  have hnodup := (validateRecipients_eq_ok.1 ⟨sum, hv⟩).nodup
  rw [← hs.address] at hnodup
  exact absurd hnodup (by decide)

/-- An update that lists one collaborator, in this role. -/
def demoReplacement (role : String) : UpdateProductDto where
  title := none
  description := none
  fileUrl := none
  priceUsd := none
  collaborators := some [⟨demoAddress, role, "100"⟩]

/-- Two updates of one product, each with a list of one collaborator. -/
def demoReplacements : List UpdateProductDto :=
  [demoReplacement "Author", demoReplacement "Editor"]

theorem demoReplacement_replaces (role : String) :
    Replaces "product" (demoReplacement role) := by
  have hsum : Products.percentageSum (listed (demoReplacement role)) =
      Products.percentageSum (listed (demoReplacement "Author")) := rfl
  refine ⟨List.cons_ne_nil _ _, "alice", fun _ => {}, demoCatalog, ?_⟩
  refine
    { found := rfl
      owned := ⟨demoProduct, rfl, rfl⟩
      price := by simp [demoReplacement]
      checked := fun _ => ⟨hsum.trans (by decide), fun c hc => ?_,
        ⟨rfl, List.mem_singleton_self _⟩, ⟨rfl, rfl⟩, trivial⟩ }
  obtain rfl := List.mem_singleton.1 hc
  have hshare : 0 < hundredths "100" := by decide
  exact Int.natCast_pos.2 hshare

theorem demoReplacements_replaces : ∀ dto ∈ demoReplacements, Replaces "product" dto := by
  intro dto hdto
  rcases List.mem_pair.1 hdto with rfl | rfl
  · exact demoReplacement_replaces "Author"
  · exact demoReplacement_replaces "Editor"

/-- The transaction of an update. Its `deleteMany` gets to the row `v`. -/
def demoTransaction (i : Fin demoReplacements.length) (v : ℕ) :
    List (Step (Fin demoReplacements.length)) :=
  [.delete i, .lock i v, .insert i, .commit i]

/-- The first of them. -/
def demoFirst : Fin demoReplacements.length :=
  ⟨0, by decide⟩

/-- The second of them. -/
def demoSecond : Fin demoReplacements.length :=
  ⟨1, by decide⟩

/-- What a run of the two updates leaves of the table. -/
def demoReplaced (as : List (Step (Fin demoReplacements.length))) :
    Option (Table (Fin demoReplacements.length) Collaborator) :=
  run (ofProduct "product") (created "product" demoReplacements) as
    (start demoCatalog.db.collaborators)

/-- One update after the other. -/
theorem oneList_apart : ∃ s,
    demoReplaced (demoTransaction demoFirst 0 ++ demoTransaction demoSecond 1) = some s ∧
      OneList "product" demoReplacements { demoCatalog.db with collaborators := s.live } := by
  refine ⟨_, rfl, (oneList_iff demoCatalog.db demoReplacements_replaces
    (demoTransaction demoFirst 0 ++ demoTransaction demoSecond 1) rfl (by decide)).2 ?_⟩
  exact ⟨demoTransaction demoFirst 0, demoSecond, (demoTransaction demoSecond 1).tail, _, rfl,
    by simp [demoTransaction], rfl, by decide⟩

/-- The second `deleteMany` starts before the first update commits. It waits for the old row,
skips it, and does not see the new one. -/
theorem not_oneList : (∀ dto ∈ demoReplacements, Replaces "product" dto) ∧ ∃ s,
    demoReplaced [.delete demoFirst, .lock demoFirst 0, .insert demoFirst, .delete demoSecond,
      .commit demoFirst, .lock demoSecond 0, .insert demoSecond, .commit demoSecond] = some s ∧
      (∀ i, s.phase i = .committed) ∧
      ¬ OneList "product" demoReplacements { demoCatalog.db with collaborators := s.live } := by
  refine ⟨demoReplacements_replaces, _, rfl, by decide, fun h => ?_⟩
  exact absurd h.2 (by decide)

end Kreav
