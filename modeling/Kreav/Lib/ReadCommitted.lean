import Mathlib.Data.List.Perm.Basic
import Mathlib.Logic.Function.Basic
import Mathlib.Algebra.BigOperators.Group.List.Basic
import Mathlib.Algebra.GroupWithZero.Nat

/-!
# Replacements under read committed

Transactions of a `DELETE` of the rows in a scope and an `INSERT` of rows of their own, at the
isolation level READ COMMITTED. A statement sees the rows that were committed before it
started. The `DELETE` then gets to each row it has seen, in any order : it waits while another
transaction that is not over has the row, and skips it when that one has committed.

`replaced_iff` : when all of them have committed, the rows in the scope are those of one
transaction exactly when all others had committed as the last `DELETE` started
(`LastAlone`).
-/

set_option linter.unusedSectionVars false

namespace ReadCommitted

/-- A row, with the transaction that inserts it. -/
structure Version (T R : Type*) where
  row : R
  creator : Option T

/-- Where a transaction stands. -/
inductive Phase
  | idle
  /-- Its `DELETE` has these versions to get to. -/
  | deleting (pending : List ℕ)
  | inserted
  | committed
  | aborted
  deriving DecidableEq

/-- The versions that the `DELETE` has still to get to. -/
def Phase.pending : Phase → List ℕ
  | deleting pending => pending
  | _ => []

/-- A transaction that is under way. -/
def Phase.running : Phase → Bool
  | deleting _ => true
  | inserted => true
  | _ => false

theorem Phase.ne_of_running {p q : Phase} (hp : p.running = true) (hq : q.running = false) :
    p ≠ q := by
  rintro rfl
  rw [hp] at hq
  cases hq

/-- All versions of all rows, the transaction that deletes each, and the transactions. -/
structure Table (T R : Type*) where
  versions : List (Version T R)
  deleter : ℕ → Option T
  phase : T → Phase

variable {T R : Type*}

namespace Table

variable (s : Table T R)

/-- The transaction that inserts the version has committed. -/
def Settled (x : Version T R) : Prop :=
  ∀ t ∈ x.creator, s.phase t = .committed

/-- A transaction that deletes the version has committed. -/
def Gone (v : ℕ) : Prop :=
  ∃ t ∈ s.deleter v, s.phase t = .committed

instance (x : Version T R) : Decidable (s.Settled x) :=
  inferInstanceAs (Decidable (∀ t ∈ x.creator, s.phase t = .committed))

instance (v : ℕ) : Decidable (s.Gone v) :=
  inferInstanceAs (Decidable (∃ t ∈ s.deleter v, s.phase t = .committed))

/-- What a statement that starts now sees. -/
def Sees (x : Version T R) (v : ℕ) : Prop :=
  s.Settled x ∧ ¬ s.Gone v

instance (x : Version T R) (v : ℕ) : Decidable (s.Sees x v) :=
  inferInstanceAs (Decidable (_ ∧ _))

/-- The rows of the table. -/
def live : List R :=
  (s.versions.zipIdx.filter fun x => s.Sees x.1 x.2).map (·.1.row)

/-- The versions that a `DELETE` that starts now sees in its scope. -/
def targets (scope : R → Bool) : List ℕ :=
  (s.versions.zipIdx.filter fun x => s.Sees x.1 x.2 ∧ scope x.1.row).map (·.2)

/-- The versions that the `DELETE` of a transaction has still to get to. -/
def pending (t : T) : List ℕ :=
  (s.phase t).pending

variable [DecidableEq T]

/-- Another transaction that is under way has the version. -/
def Blocked (t : T) (v : ℕ) : Prop :=
  ∃ u ∈ s.deleter v, u ≠ t ∧ (s.phase u).running = true

instance (t : T) (v : ℕ) : Decidable (s.Blocked t v) :=
  inferInstanceAs (Decidable (∃ u ∈ s.deleter v, _))

/-- The transaction goes on to a phase. -/
def enter (t : T) (p : Phase) : Table T R :=
  { s with phase := Function.update s.phase t p }

/-- New versions. -/
def append (versions : List (Version T R)) : Table T R :=
  { s with versions := s.versions ++ versions }

/-- Delete the version, unless it is deleted. -/
def take (t : T) (v : ℕ) : Table T R :=
  if s.Gone v then s else { s with deleter := Function.update s.deleter v (some t) }

end Table

/-- A step of a transaction. -/
inductive Step (T : Type*)
  | delete (t : T)
  /-- The `DELETE` gets to a version. -/
  | lock (t : T) (v : ℕ)
  | insert (t : T)
  | commit (t : T)
  | abort (t : T)

variable (scope : R → Bool) (rows : T → List R)

/-- The versions that a transaction inserts. -/
def written (t : T) : List (Version T R) :=
  (rows t).map fun r => ⟨r, some t⟩

variable [DecidableEq T]

/-- One step of a transaction, if it can be made. -/
def step : Step T → Table T R → Option (Table T R)
  | .delete t, s =>
    if s.phase t = .idle then some (s.enter t (.deleting (s.targets scope))) else none
  | .lock t v, s =>
    if v ∈ s.pending t ∧ ¬ s.Blocked t v then
      some ((s.take t v).enter t (.deleting ((s.pending t).erase v)))
    else none
  | .insert t, s =>
    if s.phase t = .deleting [] then
      some ((s.append (written rows t)).enter t .inserted)
    else none
  | .commit t, s => if s.phase t = .inserted then some (s.enter t .committed) else none
  | .abort t, s => if (s.phase t).running = true then some (s.enter t .aborted) else none

/-- Steps, one after the other, if each can be made. -/
def run : List (Step T) → Table T R → Option (Table T R)
  | [], s => some s
  | a :: as, s => (step scope rows a s).bind (run as)

/-- The rows that are there at the start. -/
def start (init : List R) : Table T R :=
  ⟨init.map fun r => ⟨r, none⟩, fun _ => none, fun _ => .idle⟩

/-- The `DELETE` that starts last starts when all other transactions have committed. -/
def LastAlone (as : List (Step T)) (s : Table T R) : Prop :=
  ∃ as₁ i as₂ base, as = as₁ ++ .delete i :: as₂ ∧ (∀ t, .delete t ∉ as₂) ∧
    run scope rows as₁ s = some base ∧ ∀ t, t ≠ i → base.phase t = .committed

/-- The `DELETE` of `i` starts last, and when all other transactions have committed. -/
def LastOf (as : List (Step T)) (s : Table T R) (i : T) : Prop :=
  ∃ as₁ as₂ base, as = as₁ ++ .delete i :: as₂ ∧ (∀ t, .delete t ∉ as₂) ∧
    run scope rows as₁ s = some base ∧ ∀ t, t ≠ i → base.phase t = .committed

/-! ## The invariant -/

variable {scope rows} {s s' base : Table T R} {a : Step T} {t u : T} {v : ℕ} {p : Phase}

theorem lastAlone_iff {as : List (Step T)} :
    LastAlone scope rows as s ↔ ∃ i, LastOf scope rows as s i :=
  ⟨fun ⟨as₁, i, as₂, base, h⟩ => ⟨i, as₁, as₂, base, h⟩,
    fun ⟨i, as₁, as₂, base, h⟩ => ⟨as₁, i, as₂, base, h⟩⟩

namespace Table

@[simp] theorem phase_enter_self : (s.enter t p).phase t = p :=
  Function.update_self ..

theorem phase_enter (h : u ≠ t) : (s.enter t p).phase u = s.phase u :=
  Function.update_of_ne h ..

@[simp] theorem pending_enter_self : (s.enter t p).pending t = p.pending :=
  congrArg Phase.pending phase_enter_self

theorem pending_enter (h : u ≠ t) : (s.enter t p).pending u = s.pending u :=
  congrArg Phase.pending (phase_enter h)

@[simp] theorem versions_enter : (s.enter t p).versions = s.versions :=
  rfl

@[simp] theorem deleter_enter : (s.enter t p).deleter = s.deleter :=
  rfl

@[simp] theorem versions_take : (s.take t v).versions = s.versions := by
  unfold take
  split <;> rfl

@[simp] theorem phase_take : (s.take t v).phase = s.phase := by
  unfold take
  split <;> rfl

theorem deleter_take_of_ne {v' : ℕ} (h : v' ≠ v) : (s.take t v).deleter v' = s.deleter v' := by
  unfold take
  split
  · rfl
  · exact Function.update_of_ne h ..

theorem deleter_take_of_gone (h : s.Gone v) : (s.take t v).deleter = s.deleter := by
  rw [take, if_pos h]

theorem deleter_take (h : ¬ s.Gone v) : (s.take t v).deleter v = some t := by
  rw [take, if_neg h]
  exact Function.update_self ..

theorem phase_of_mem_pending (h : v ∈ s.pending t) : s.phase t = .deleting (s.pending t) := by
  unfold pending at *
  cases hp : s.phase t with
  | deleting pending => rfl
  | _ =>
    rw [hp] at h
    cases h

end Table

open Table

/-- What a step can do. -/
theorem step_cases (h : step scope rows a s = some s') :
    (∃ t, a = .delete t ∧ s.phase t = .idle ∧ s' = s.enter t (.deleting (s.targets scope))) ∨
    (∃ t v, a = .lock t v ∧ v ∈ s.pending t ∧ ¬ s.Blocked t v ∧
      s' = (s.take t v).enter t (.deleting ((s.pending t).erase v))) ∨
    (∃ t, a = .insert t ∧ s.phase t = .deleting [] ∧
      s' = (s.append (written rows t)).enter t .inserted) ∨
    (∃ t, a = .commit t ∧ s.phase t = .inserted ∧ s' = s.enter t .committed) ∨
    ∃ t, a = .abort t ∧ (s.phase t).running = true ∧ s' = s.enter t .aborted := by
  cases a with
  | delete t =>
    obtain ⟨ht, h⟩ := Option.ite_none_right_eq_some.1 h
    exact .inl ⟨t, rfl, ht, (Option.some.inj h).symm⟩
  | lock t v =>
    obtain ⟨⟨hv, hb⟩, h⟩ := Option.ite_none_right_eq_some.1 h
    exact .inr (.inl ⟨t, v, rfl, hv, hb, (Option.some.inj h).symm⟩)
  | insert t =>
    obtain ⟨ht, h⟩ := Option.ite_none_right_eq_some.1 h
    exact .inr (.inr (.inl ⟨t, rfl, ht, (Option.some.inj h).symm⟩))
  | commit t =>
    obtain ⟨ht, h⟩ := Option.ite_none_right_eq_some.1 h
    exact .inr (.inr (.inr (.inl ⟨t, rfl, ht, (Option.some.inj h).symm⟩)))
  | abort t =>
    obtain ⟨ht, h⟩ := Option.ite_none_right_eq_some.1 h
    exact .inr (.inr (.inr (.inr ⟨t, rfl, ht, (Option.some.inj h).symm⟩)))

/-- A step enters a phase, from one that is not over. Only a `DELETE` starts. -/
theorem step_phase (h : step scope rows a s = some s') :
    ∃ t p, s.phase t ≠ .committed ∧ (s.phase t = .idle → a = .delete t) ∧
      s'.phase = Function.update s.phase t p := by
  obtain ⟨t, rfl, ht, rfl⟩ | ⟨t, v, rfl, hv, -, rfl⟩ | ⟨t, rfl, ht, rfl⟩ | ⟨t, rfl, ht, rfl⟩ |
    ⟨t, rfl, ht, rfl⟩ := step_cases h
  · exact ⟨t, _, by simp [ht], fun _ => rfl, rfl⟩
  · have ht := phase_of_mem_pending hv
    refine ⟨t, .deleting ((s.pending t).erase v), by simp [ht], by simp [ht], ?_⟩
    rw [enter, phase_take]
  · exact ⟨t, _, by simp [ht], by simp [ht], rfl⟩
  · exact ⟨t, _, by simp [ht], by simp [ht], rfl⟩
  · exact ⟨t, _, Phase.ne_of_running ht rfl, fun hi => absurd hi (Phase.ne_of_running ht rfl), rfl⟩

theorem idle_step (h : step scope rows a s = some s') (ha : a ≠ .delete u)
    (hu : s.phase u = .idle) : s'.phase u = .idle := by
  obtain ⟨t, p, -, hidle, hs'⟩ := step_phase h
  have hne : u ≠ t := fun he => ha (he ▸ hidle (he ▸ hu))
  rw [hs', Function.update_of_ne hne, hu]

/-- A transaction that is not idle any more has started its `DELETE`. -/
theorem delete_mem : ∀ {as : List (Step T)} {s s' : Table T R},
    run scope rows as s = some s' → s.phase u = .idle → s'.phase u ≠ .idle → .delete u ∈ as
  | [], _, _, hs, hu, hu' => absurd (Option.some.inj hs ▸ hu) hu'
  | a :: as, _, _, hs, hu, hu' => by
    obtain ⟨s₁, hstep, hrun⟩ := Option.bind_eq_some_iff.1 hs
    by_cases ha : a = .delete u
    · exact ha ▸ List.mem_cons_self
    · exact List.mem_cons_of_mem a (delete_mem hrun (idle_step hstep ha hu) hu')

theorem run_append (as₁ as₂ : List (Step T)) (s : Table T R) :
    run scope rows (as₁ ++ as₂) s = (run scope rows as₁ s).bind (run scope rows as₂) := by
  induction as₁ generalizing s with
  | nil => rfl
  | cons a as ih =>
    rw [List.cons_append, run, run, Option.bind_assoc]
    exact congrArg _ (funext ih)

theorem mem_targets : v ∈ s.targets scope ↔
    ∃ x, s.versions[v]? = some x ∧ s.Sees x v ∧ scope x.row = true := by
  simp only [targets, List.mem_map, List.mem_filter, decide_eq_true_eq, Prod.exists,
    List.mk_mem_zipIdx_iff_getElem?, exists_eq_right]

theorem settled_enter (ht : s.phase t ≠ .committed) {x : Version T R} (hx : s.Settled x) :
    (s.enter t p).Settled x := by
  intro u hu
  have hne : u ≠ t := fun he => ht (he ▸ hx u hu)
  rw [phase_enter hne, hx u hu]

/-- A version that a `DELETE` may have got to. -/
def Seen (scope : R → Bool) (s : Table T R) (v : ℕ) : Prop :=
  ∃ x, s.versions[v]? = some x ∧ s.Settled x ∧ scope x.row = true

/-- The invariant of the table. -/
structure Inv (scope : R → Bool) (rows : T → List R) (init : List R) (s : Table T R) : Prop where
  initial : s.versions.filter (·.creator = none) = init.map fun r => ⟨r, none⟩
  created : ∀ t, s.phase t ≠ .aborted → s.versions.filter (·.creator = some t) =
    if s.phase t = .inserted ∨ s.phase t = .committed then written rows t else []
  row : ∀ x ∈ s.versions, ∀ t ∈ x.creator, x.row ∈ rows t
  pending : ∀ t, ∀ v ∈ s.pending t, Seen scope s v
  deleter : ∀ v, s.deleter v ≠ none → Seen scope s v

variable {init : List R}

theorem inv_start : Inv scope rows init (start init) where
  initial := List.filter_eq_self.2 fun x hx => by
    obtain ⟨r, -, rfl⟩ := List.mem_map.1 hx
    rfl
  created t _ := by
    refine (List.filter_eq_nil_iff.2 fun x hx => ?_).trans (if_neg ?_).symm
    · obtain ⟨r, -, rfl⟩ := List.mem_map.1 hx
      simp
    · simp [start]
  row x hx t ht := by
    obtain ⟨r, -, rfl⟩ := List.mem_map.1 hx
    cases ht
  pending _ _ hv := by cases hv
  deleter _ hv := absurd rfl hv

theorem Inv.enter (h : Inv scope rows init s) (ht : s.phase t ≠ .committed)
    (hcreated : p ≠ .aborted → s.versions.filter (·.creator = some t) =
      if p = .inserted ∨ p = .committed then written rows t else [])
    (hpending : ∀ v ∈ p.pending, Seen scope s v) : Inv scope rows init (s.enter t p) where
  initial := h.initial
  created u hu := by
    by_cases hne : u = t
    · subst hne
      rw [phase_enter_self] at hu ⊢
      exact hcreated hu
    · rw [phase_enter hne] at hu ⊢
      exact h.created u hu
  row := h.row
  pending u v hv := by
    have hseen : Seen scope s v := by
      by_cases hne : u = t
      · subst hne
        rw [pending_enter_self] at hv
        exact hpending v hv
      · rw [pending_enter hne] at hv
        exact h.pending u v hv
    obtain ⟨x, hx, hsettled, hscope⟩ := hseen
    exact ⟨x, hx, settled_enter ht hsettled, hscope⟩
  deleter v hv := by
    obtain ⟨x, hx, hsettled, hscope⟩ := h.deleter v hv
    exact ⟨x, hx, settled_enter ht hsettled, hscope⟩

theorem seen_take {v' : ℕ} : Seen scope (s.take t v) v' ↔ Seen scope s v' := by
  simp only [Seen, Settled, versions_take, phase_take]

theorem Inv.take (h : Inv scope rows init s) (hv : v ∈ s.pending t) :
    Inv scope rows init (s.take t v) where
  initial := by rw [versions_take, h.initial]
  created u hu := by
    rw [phase_take] at hu ⊢
    rw [versions_take, h.created u hu]
  row := by
    rw [versions_take]
    exact h.row
  pending u v' hv' := by
    rw [Table.pending, phase_take] at hv'
    exact seen_take.2 (h.pending u v' hv')
  deleter v' hv' := by
    rw [seen_take]
    by_cases hne : v' = v
    · subst hne
      exact h.pending t v' hv
    · rw [deleter_take_of_ne hne] at hv'
      exact h.deleter v' hv'

theorem seen_append {versions : List (Version T R)} (h : Seen scope s v) :
    Seen scope (s.append versions) v := by
  obtain ⟨x, hx, hsettled, hscope⟩ := h
  obtain ⟨hlt, -⟩ := List.getElem?_eq_some_iff.1 hx
  exact ⟨x, (List.getElem?_append_left hlt).trans hx, hsettled, hscope⟩

theorem creator_written {x : Version T R} (hx : x ∈ written rows t) :
    x.creator = some t ∧ x.row ∈ rows t := by
  obtain ⟨r, hr, rfl⟩ := List.mem_map.1 hx
  exact ⟨rfl, hr⟩

theorem row_written (t : T) : (written rows t).map (·.row) = rows t := by
  rw [written, List.map_map]
  exact List.map_id _

theorem filter_written_self : (written rows t).filter (·.creator = some t) = written rows t :=
  List.filter_eq_self.2 fun _ hx => decide_eq_true (creator_written hx).1

theorem filter_written {o : Option T} (h : o ≠ some t) :
    (written rows t).filter (·.creator = o) = [] :=
  List.filter_eq_nil_iff.2 fun x hx hc => h (by
    rw [← (creator_written hx).1, ← of_decide_eq_true hc])

theorem Inv.insert (h : Inv scope rows init s) (ht : s.phase t = .deleting []) :
    Inv scope rows init ((s.append (written rows t)).enter t .inserted) where
  initial := by
    show (s.versions ++ written rows t).filter (·.creator = none) = _
    rw [List.filter_append, filter_written (by simp), List.append_nil, h.initial]
  created u hu := by
    show (s.versions ++ written rows t).filter (·.creator = some u) = _
    rw [List.filter_append]
    by_cases hne : u = t
    · subst hne
      have hnone := h.created u (by simp [ht])
      rw [if_neg (by simp [ht])] at hnone
      rw [hnone, filter_written_self, phase_enter_self]
      simp
    · rw [phase_enter hne] at hu ⊢
      have hother : some u ≠ some t := fun he => hne (Option.some.inj he)
      rw [filter_written hother, List.append_nil]
      exact h.created u hu
  row x hx u hu := by
    rcases List.mem_append.1 hx with hx | hx
    · exact h.row x hx u hu
    · obtain ⟨hcreator, hrow⟩ := creator_written hx
      obtain rfl : t = u := Option.some.inj (hcreator.symm.trans hu)
      exact hrow
  pending u v hv := by
    have hv' : v ∈ s.pending u := by
      by_cases hne : u = t
      · subst hne
        rw [pending_enter_self] at hv
        cases hv
      · rwa [pending_enter hne] at hv
    obtain ⟨x, hx, hsettled, hscope⟩ := seen_append (h.pending u v hv')
    exact ⟨x, hx, settled_enter (by simp [Table.append, ht]) hsettled, hscope⟩
  deleter v hv := by
    obtain ⟨x, hx, hsettled, hscope⟩ := seen_append (h.deleter v hv)
    exact ⟨x, hx, settled_enter (by simp [Table.append, ht]) hsettled, hscope⟩

theorem Inv.step (h : Inv scope rows init s) (hs : step scope rows a s = some s') :
    Inv scope rows init s' := by
  obtain ⟨t, rfl, ht, rfl⟩ | ⟨t, v, rfl, hv, -, rfl⟩ | ⟨t, rfl, ht, rfl⟩ | ⟨t, rfl, ht, rfl⟩ |
    ⟨t, rfl, ht, rfl⟩ := step_cases hs
  · refine h.enter (by simp [ht]) (fun _ => ?_) fun v hv => ?_
    · simpa [ht] using h.created t (by simp [ht])
    · obtain ⟨x, hx, hsees, hscope⟩ := mem_targets.1 hv
      exact ⟨x, hx, hsees.1, hscope⟩
  · have ht := phase_of_mem_pending hv
    refine (h.take hv).enter (by simp [ht]) (fun _ => ?_) fun v' hv' => ?_
    · rw [versions_take]
      simpa [ht] using h.created t (by simp [ht])
    · exact seen_take.2 (h.pending t v' (List.mem_of_mem_erase hv'))
  · exact h.insert ht
  · refine h.enter (by simp [ht]) (fun _ => ?_) fun v hv => by cases hv
    simpa [ht] using h.created t (by simp [ht])
  · exact h.enter (Phase.ne_of_running ht rfl) (fun hp => absurd rfl hp) fun v hv => by cases hv

theorem inv_run : ∀ {as : List (Step T)} {s s' : Table T R}, Inv scope rows init s →
    run scope rows as s = some s' → Inv scope rows init s'
  | [], _, _, h, hs => Option.some.inj hs ▸ h
  | _ :: _, _, _, h, hs => by
    obtain ⟨s₁, hstep, hrun⟩ := Option.bind_eq_some_iff.1 hs
    exact inv_run (h.step hstep) hrun

/-! ## After the last `DELETE` -/

/-- What holds after the `DELETE` of `i` starts in `base`, as long as no other starts : the
versions it sees get deleted, and no version of a transaction that had not committed does. -/
structure After (scope : R → Bool) (base : Table T R) (i : T) (s : Table T R) : Prop where
  versions : ∃ added, s.versions = base.versions ++ added ∧ ∀ x ∈ added, ¬ base.Settled x
  committed : ∀ t, base.phase t = .committed → s.phase t = .committed
  gone : ∀ v, base.Gone v → s.Gone v
  free : ∀ v x, s.versions[v]? = some x → ¬ base.Settled x →
    s.deleter v = none ∧ ∀ t, v ∉ s.pending t
  started : s.phase i ≠ .idle
  target : ∀ v ∈ base.targets scope, v ∈ s.pending i ∨ s.phase i = .aborted ∨
    s.deleter v = some i ∨ s.Gone v

variable {i : T}

theorem Seen.settled (h : Seen scope s v) {x : Version T R} (hx : s.versions[v]? = some x) :
    s.Settled x := by
  obtain ⟨y, hy, hsettled, -⟩ := h
  obtain rfl := Option.some.inj (hx.symm.trans hy)
  exact hsettled

theorem gone_enter (ht : s.phase t ≠ .committed) (h : s.Gone v) : (s.enter t p).Gone v := by
  obtain ⟨u, hu, hc⟩ := h
  have hne : u ≠ t := fun he => ht (he ▸ hc)
  exact ⟨u, hu, (phase_enter hne).trans hc⟩

theorem gone_take {v' : ℕ} (h : s.Gone v') : (s.take t v).Gone v' := by
  obtain ⟨u, hu, hc⟩ := h
  refine ⟨u, ?_, by rw [phase_take, hc]⟩
  by_cases hne : v' = v
  · subst hne
    rwa [deleter_take_of_gone ⟨u, hu, hc⟩]
  · rwa [deleter_take_of_ne hne]

theorem after_start (h : Inv scope rows init base) (hi : base.phase i = .idle) :
    After scope base i (base.enter i (.deleting (base.targets scope))) where
  versions := ⟨[], (List.append_nil _).symm, by simp⟩
  committed t ht := by
    have hne : t ≠ i := fun he => by simp [he, hi] at ht
    rw [phase_enter hne, ht]
  gone v hv := gone_enter (by simp [hi]) hv
  free v x hx hunsettled := by
    refine ⟨by_contra fun hd => hunsettled ((h.deleter v hd).settled hx), fun t hv => ?_⟩
    by_cases hne : t = i
    · subst hne
      rw [pending_enter_self] at hv
      obtain ⟨y, hy, hsees, hscope⟩ := mem_targets.1 hv
      exact hunsettled (Seen.settled ⟨y, hy, hsees.1, hscope⟩ hx)
    · rw [pending_enter hne] at hv
      exact hunsettled ((h.pending t v hv).settled hx)
  started := by simp
  target v hv := Or.inl (by rwa [pending_enter_self])

theorem After.enter (h : After scope base i s) (ht : s.phase t ≠ .committed)
    (ht' : s.phase t ≠ .aborted) (hp : p ≠ .idle) (hpending : ∀ v ∈ p.pending, v ∈ s.pending t)
    (htarget : t = i → ∀ v ∈ s.pending i, v ∈ p.pending ∨ p = .aborted ∨
      s.deleter v = some i ∨ s.Gone v) : After scope base i (s.enter t p) where
  versions := h.versions
  committed u hu := by
    have hc := h.committed u hu
    have hne : u ≠ t := fun he => ht (he ▸ hc)
    rw [phase_enter hne, hc]
  gone v hv := gone_enter ht (h.gone v hv)
  free v x hx hunsettled := by
    obtain ⟨hd, hv⟩ := h.free v x hx hunsettled
    refine ⟨hd, fun u hu => ?_⟩
    by_cases hne : u = t
    · subst hne
      rw [pending_enter_self] at hu
      exact hv u (hpending v hu)
    · rw [pending_enter hne] at hu
      exact hv u hu
  started := by
    by_cases hne : i = t
    · subst hne
      rwa [phase_enter_self]
    · rw [phase_enter hne]
      exact h.started
  target v hv := by
    by_cases hne : i = t
    · subst hne
      rw [pending_enter_self, phase_enter_self]
      rcases h.target v hv with hv | ha | hd | hg
      · rcases htarget rfl v hv with hv | ha | hd | hg
        · exact .inl hv
        · exact .inr (.inl ha)
        · exact .inr (.inr (.inl hd))
        · exact .inr (.inr (.inr (gone_enter ht hg)))
      · exact absurd ha ht'
      · exact .inr (.inr (.inl hd))
      · exact .inr (.inr (.inr (gone_enter ht hg)))
    · rw [pending_enter hne, phase_enter hne]
      rcases h.target v hv with hv | ha | hd | hg
      · exact .inl hv
      · exact .inr (.inl ha)
      · exact .inr (.inr (.inl hd))
      · exact .inr (.inr (.inr (gone_enter ht hg)))

/-- A version that is not blocked and was deleted by `i`. -/
theorem over_of_not_blocked (h : After scope base i s) (hd : s.deleter v = some i)
    (hb : ¬ s.Blocked t v) : i = t ∨ s.phase i = .aborted ∨ s.Gone v := by
  by_cases hne : i = t
  · exact .inl hne
  have hover : (s.phase i).running = false := by
    by_contra hr
    exact hb ⟨i, hd, hne, by simpa using hr⟩
  cases hp : s.phase i with
  | idle => exact absurd hp h.started
  | deleting pending => rw [hp] at hover; cases hover
  | inserted => rw [hp] at hover; cases hover
  | committed => exact .inr (.inr ⟨i, hd, hp⟩)
  | aborted => exact .inr (.inl rfl)

theorem After.take (h : After scope base i s) (hv : v ∈ s.pending t) (hb : ¬ s.Blocked t v) :
    After scope base i (s.take t v) where
  versions := by
    rw [versions_take]
    exact h.versions
  committed u hu := by rw [phase_take, h.committed u hu]
  gone v' hv' := gone_take (h.gone v' hv')
  free v' x hx hunsettled := by
    rw [versions_take] at hx
    obtain ⟨hd, hp⟩ := h.free v' x hx hunsettled
    have hne : v' ≠ v := fun he => hp t (he ▸ hv)
    refine ⟨(deleter_take_of_ne hne).trans hd, fun u hu => hp u ?_⟩
    rwa [Table.pending, phase_take] at hu
  started := by
    rw [phase_take]
    exact h.started
  target v' hv' := by
    rw [Table.pending, phase_take]
    rcases h.target v' hv' with hv' | ha | hd | hg
    · exact .inl hv'
    · exact .inr (.inl ha)
    · by_cases hg : s.Gone v'
      · exact .inr (.inr (.inr (gone_take hg)))
      by_cases hne : v' = v
      · subst hne
        rcases over_of_not_blocked h hd hb with rfl | ha | hg'
        · exact .inr (.inr (.inl (deleter_take hg)))
        · exact .inr (.inl ha)
        · exact absurd hg' hg
      · exact .inr (.inr (.inl ((deleter_take_of_ne hne).trans hd)))
    · exact .inr (.inr (.inr (gone_take hg)))

theorem After.insert (h : After scope base i s) (hinv : Inv scope rows init s)
    (ht : s.phase t = .deleting []) : After scope base i (s.append (written rows t)) where
  versions := by
    obtain ⟨added, hversions, hadded⟩ := h.versions
    refine ⟨added ++ written rows t, ?_, fun x hx => ?_⟩
    · rw [Table.append, hversions, List.append_assoc]
    · rcases List.mem_append.1 hx with hx | hx
      · exact hadded x hx
      · intro hsettled
        have hc := h.committed t (hsettled t (creator_written hx).1)
        rw [ht] at hc
        cases hc
  committed := h.committed
  gone := h.gone
  free v x hx hunsettled := by
    by_cases hlt : v < s.versions.length
    · exact h.free v x ((List.getElem?_append_left hlt).symm.trans hx) hunsettled
    · have hunseen : ¬ Seen scope s v := fun ⟨y, hy, _⟩ =>
        hlt (List.getElem?_eq_some_iff.1 hy).choose
      exact ⟨by_contra fun hd => hunseen (hinv.deleter v hd),
        fun u hu => hunseen (hinv.pending u v hu)⟩
  started := h.started
  target := h.target

theorem After.step (h : After scope base i s) (hinv : Inv scope rows init s)
    (ha : ∀ t, a ≠ .delete t) (hs : step scope rows a s = some s') : After scope base i s' := by
  obtain ⟨t, rfl, -, -⟩ | ⟨t, v, rfl, hv, hb, rfl⟩ | ⟨t, rfl, ht, rfl⟩ | ⟨t, rfl, ht, rfl⟩ |
    ⟨t, rfl, ht, rfl⟩ := step_cases hs
  · exact absurd rfl (ha t)
  · have ht := phase_of_mem_pending hv
    refine (h.take hv hb).enter (by simp [ht]) (by simp [ht]) (by simp) (fun v' hv' => ?_)
      fun he v' hv' => ?_
    · rw [Table.pending, phase_take]
      exact List.mem_of_mem_erase hv'
    · subst he
      rw [Table.pending, phase_take] at hv'
      by_cases hne : v' = v
      · subst hne
        by_cases hg : s.Gone v'
        · exact .inr (.inr (.inr (gone_take hg)))
        · exact .inr (.inr (.inl (deleter_take hg)))
      · exact .inl ((List.mem_erase_of_ne hne).2 hv')
  · have ht' : (s.append (written rows t)).phase t = .deleting [] := ht
    refine (h.insert hinv ht).enter (by simp [ht']) (by simp [ht']) (by simp)
      (fun v hv => by cases hv) fun he v hv => ?_
    subst he
    rw [Table.pending, ht'] at hv
    cases hv
  · refine h.enter (by simp [ht]) (by simp [ht]) (by simp) (fun v hv => by cases hv)
      fun he v hv => ?_
    subst he
    rw [Table.pending, ht] at hv
    cases hv
  · exact h.enter (Phase.ne_of_running ht rfl) (Phase.ne_of_running ht rfl) (by simp)
      (fun v hv => by cases hv) fun _ _ _ => .inr (.inl rfl)

theorem after_run : ∀ {as : List (Step T)} {s s' : Table T R}, After scope base i s →
    Inv scope rows init s → (∀ t, .delete t ∉ as) → run scope rows as s = some s' →
    After scope base i s'
  | [], _, _, h, _, _, hs => Option.some.inj hs ▸ h
  | a :: as, _, _, h, hinv, has, hs => by
    obtain ⟨s₁, hstep, hrun⟩ := Option.bind_eq_some_iff.1 hs
    have ha : ∀ t, a ≠ .delete t := fun t he => has t (he ▸ List.mem_cons_self)
    exact after_run (h.step hinv ha hstep) (hinv.step hstep)
      (fun t ht => has t (List.mem_cons_of_mem a ht)) hrun

/-! ## The rows at the end -/

/-- The last `DELETE` of a run. -/
theorem exists_last {as : List (Step T)} (h : ∃ t, .delete t ∈ as) :
    ∃ as₁ i as₂, as = as₁ ++ .delete i :: as₂ ∧ ∀ t, .delete t ∉ as₂ := by
  induction as with
  | nil => obtain ⟨t, ht⟩ := h; cases ht
  | cons a as ih =>
    by_cases hlater : ∃ t, .delete t ∈ as
    · obtain ⟨as₁, i, as₂, rfl, hlast⟩ := ih hlater
      exact ⟨a :: as₁, i, as₂, rfl, hlast⟩
    · obtain ⟨t, ht⟩ := h
      have ha : .delete t = a := (List.mem_cons.1 ht).resolve_right fun ht => hlater ⟨t, ht⟩
      exact ⟨[], t, as, by rw [ha]; rfl, fun u hu => hlater ⟨u, hu⟩⟩

/-- The state at a `DELETE` of a run, and what holds after it. -/
theorem after_of_run {as₁ as₂ : List (Step T)}
    (hrun : run scope rows (as₁ ++ .delete i :: as₂) (start init) = some s)
    (hlast : ∀ t, .delete t ∉ as₂) : ∃ base, run scope rows as₁ (start init) = some base ∧
      base.phase i = .idle ∧ After scope base i s := by
  rw [run_append] at hrun
  obtain ⟨base, hbase, hrun⟩ := Option.bind_eq_some_iff.1 hrun
  obtain ⟨s₁, hstep, hrun⟩ := Option.bind_eq_some_iff.1 hrun
  have hinv := inv_run inv_start hbase
  have hinv₁ := hinv.step hstep
  obtain ⟨hi, hstep⟩ := Option.ite_none_right_eq_some.1 hstep
  obtain rfl := Option.some.inj hstep
  exact ⟨base, hbase, hi, after_run (after_start hinv hi) hinv₁ hlast hrun⟩

theorem filter_live (s : Table T R) {q : R → Bool} {r : Version T R → Bool}
    (h : ∀ x v, s.versions[v]? = some x → ((s.Sees x v ∧ q x.row = true) ↔ r x = true)) :
    s.live.filter q = (s.versions.filter r).map (·.row) := by
  have hcongr : (s.versions.zipIdx.filter fun x => s.Sees x.1 x.2).filter (q ∘ (·.1.row)) =
      s.versions.zipIdx.filter (r ∘ Prod.fst) := by
    rw [List.filter_filter]
    refine List.filter_congr fun x hx => ?_
    have hx' := h x.1 x.2 (List.mk_mem_zipIdx_iff_getElem?.1 hx)
    rw [Bool.eq_iff_iff, Bool.and_eq_true, decide_eq_true_eq, and_comm]
    exact hx'
  have hversions : (s.versions.zipIdx.filter (r ∘ Prod.fst)).map Prod.fst =
      s.versions.filter r := by
    rw [← List.filter_map, List.zipIdx_map_fst]
  rw [live, List.filter_map, hcongr, ← hversions, List.map_map]
  rfl

/-- The rows in the scope are those of the transactions that had not committed when the last
`DELETE` started. -/
theorem live_scope (h : After scope base i s) (hinv : Inv scope rows init s)
    (hrows : ∀ t, ∀ r ∈ rows t, scope r = true) (hall : ∀ t, s.phase t = .committed) :
    s.live.filter scope = (s.versions.filter fun x => ¬ base.Settled x).map (·.row) := by
  refine filter_live s fun x v hx => ?_
  rw [decide_eq_true_eq]
  constructor
  · rintro ⟨⟨-, hgone⟩, hscope⟩ hsettled
    obtain ⟨added, hversions, hadded⟩ := h.versions
    have hbase : base.versions[v]? = some x := by
      by_cases hlt : v < base.versions.length
      · rw [← List.getElem?_append_left hlt, ← hversions, hx]
      · rw [hversions, List.getElem?_append_right (Nat.not_lt.1 hlt)] at hx
        exact absurd hsettled (hadded x (List.mem_of_getElem? hx))
    by_cases hg : base.Gone v
    · exact hgone (h.gone v hg)
    rcases h.target v (mem_targets.2 ⟨x, hbase, ⟨hsettled, hg⟩, hscope⟩) with hv | ha | hd | hg
    · rw [Table.pending, hall] at hv
      cases hv
    · rw [hall] at ha
      cases ha
    · exact hgone ⟨i, hd, hall i⟩
    · exact hgone hg
  · intro hunsettled
    obtain ⟨t, ht⟩ : ∃ t, x.creator = some t := by
      by_contra hnone
      exact hunsettled fun t ht => absurd ⟨t, ht⟩ hnone
    refine ⟨⟨fun u _ => hall u, ?_⟩, hrows t _ (hinv.row x (List.mem_of_getElem? hx) t ht)⟩
    rintro ⟨u, hu, -⟩
    rw [(h.free v x hx hunsettled).1] at hu
    cases hu

/-- The rows outside the scope stay. -/
theorem live_frame (hinv : Inv scope rows init s) (hrows : ∀ t, ∀ r ∈ rows t, scope r = true)
    (hall : ∀ t, s.phase t = .committed) :
    s.live.filter (fun r => !scope r) = init.filter fun r => !scope r := by
  have hkept : s.live.filter (fun r => !scope r) =
      (s.versions.filter fun x => x.creator = none ∧ (!scope x.row) = true).map (·.row) := by
    refine filter_live s fun x v hx => ?_
    rw [decide_eq_true_eq]
    refine and_congr_left fun hscope => ⟨fun _ => ?_, fun _ => ⟨fun u _ => hall u, ?_⟩⟩
    · cases hc : x.creator with
      | none => rfl
      | some t => simp [hrows t _ (hinv.row x (List.mem_of_getElem? hx) t hc)] at hscope
    · rintro ⟨u, hu, -⟩
      obtain ⟨y, hy, -, hin⟩ := hinv.deleter v (by rw [hu]; simp)
      obtain rfl := Option.some.inj (hx.symm.trans hy)
      simp [hin] at hscope
  have hinit : (s.versions.filter fun x => x.creator = none ∧ (!scope x.row) = true) =
      (s.versions.filter (·.creator = none)).filter fun x => !scope x.row := by
    rw [List.filter_filter]
    exact List.filter_congr fun x _ => by simp [and_comm]
  rw [hkept, hinit, hinv.initial, List.filter_map, List.map_map]
  exact List.map_id _

/-- The rows of one transaction, when all others had committed. -/
theorem live_alone (h : After scope base i s) (hinv : Inv scope rows init s)
    (hrows : ∀ t, ∀ r ∈ rows t, scope r = true) (hall : ∀ t, s.phase t = .committed)
    (hi : base.phase i = .idle) (halone : ∀ t, t ≠ i → base.phase t = .committed) :
    s.live.filter scope = rows i := by
  have hown : (s.versions.filter fun x => ¬ base.Settled x) =
      s.versions.filter (·.creator = some i) := by
    refine List.filter_congr fun x _ => decide_eq_decide.2 ⟨fun hx => ?_, fun hx hsettled => ?_⟩
    · by_contra hne
      exact hx fun t ht => halone t fun he => hne (he ▸ ht)
    · have hc := hsettled i hx
      rw [hi] at hc
      cases hc
  rw [live_scope h hinv hrows hall, hown, hinv.created i (by simp [hall]),
    if_pos (.inr (hall i)), row_written]

theorem sum_filter_add_le {α : Type*} {p q r : α → Bool} (hp : ∀ x, p x = true → r x = true)
    (hq : ∀ x, q x = true → r x = true) (hpq : ∀ x, p x = true → q x = false) (f : α → ℕ) :
    ∀ l : List α, ((l.filter p).map f).sum + ((l.filter q).map f).sum ≤
      ((l.filter r).map f).sum
  | [] => Nat.le_refl 0
  | x :: l => by
    have ih := sum_filter_add_le hp hq hpq f l
    have hxp := hp x
    have hxq := hq x
    have hxpq := hpq x
    cases hpx : p x <;> cases hqx : q x <;> cases hrx : r x <;> simp_all
    all_goals omega

/-- Two transactions that had not committed both leave their rows. -/
theorem sum_of_not_alone (h : After scope base i s) (hinv : Inv scope rows init s)
    (hrows : ∀ t, ∀ r ∈ rows t, scope r = true) (hall : ∀ t, s.phase t = .committed)
    (hi : base.phase i = .idle) (hu : u ≠ i) (hu' : base.phase u ≠ .committed)
    (weight : R → ℕ) : ((rows i).map weight).sum + ((rows u).map weight).sum ≤
      ((s.live.filter scope).map weight).sum := by
  have hunsettled (t : T) (ht : base.phase t ≠ .committed) (x : Version T R)
      (hx : decide (x.creator = some t) = true) : decide (¬ base.Settled x) = true :=
    decide_eq_true fun hsettled => ht (hsettled t (of_decide_eq_true hx))
  have hown (t : T) : (((s.versions.filter (·.creator = some t)).map (·.row)).map weight).sum =
      ((rows t).map weight).sum := by
    rw [hinv.created t (by simp [hall]), if_pos (.inr (hall t)), row_written]
  have hle := sum_filter_add_le (hunsettled i (by simp [hi])) (hunsettled u hu')
    (fun x hx => decide_eq_false fun hx' => hu (Option.some.inj
      (hx'.symm.trans (of_decide_eq_true hx)))) (fun x => weight x.row) s.versions
  rw [live_scope h hinv hrows hall, ← hown i, ← hown u]
  simpa only [List.map_map, Function.comp_def] using hle

variable {as : List (Step T)}

/-- The last `DELETE` of a run in which a transaction commits. -/
theorem exists_after (hrun : run scope rows as (start init) = some s)
    (ht : s.phase t = .committed) : ∃ as₁ i as₂ base, as = as₁ ++ .delete i :: as₂ ∧
      (∀ u, .delete u ∉ as₂) ∧ run scope rows as₁ (start init) = some base ∧
      base.phase i = .idle ∧ After scope base i s := by
  obtain ⟨as₁, i, as₂, rfl, hlast⟩ := exists_last ⟨t, delete_mem hrun rfl (by simp [ht])⟩
  obtain ⟨base, hbase, hi, hafter⟩ := after_of_run hrun hlast
  exact ⟨as₁, i, as₂, base, rfl, hlast, hbase, hi, hafter⟩

/-- The rows in the scope are rows of the transactions. -/
theorem mem_rows_of_mem_live (hrows : ∀ t, ∀ r ∈ rows t, scope r = true)
    (hrun : run scope rows as (start init) = some s) (hall : ∀ t, s.phase t = .committed)
    (t : T) {r : R} (hr : r ∈ s.live) (hscope : scope r = true) : ∃ u, r ∈ rows u := by
  obtain ⟨as₁, i, as₂, base, -, -, -, -, hafter⟩ := exists_after hrun (hall t)
  have hinv := inv_run inv_start hrun
  have hmem := List.mem_filter.2 ⟨hr, hscope⟩
  rw [live_scope hafter hinv hrows hall] at hmem
  obtain ⟨x, hx, rfl⟩ := List.mem_map.1 hmem
  obtain ⟨hx, hunsettled⟩ := List.mem_filter.1 hx
  by_contra hnone
  exact of_decide_eq_true hunsettled fun u hu => absurd ⟨u, hinv.row x hx u hu⟩ hnone

/-- The transaction whose `DELETE` starts last has replaced the rows of all others. -/
theorem live_of_lastOf (hrows : ∀ t, ∀ r ∈ rows t, scope r = true)
    (hrun : run scope rows as (start init) = some s) (hall : ∀ t, s.phase t = .committed) {i : T}
    (h : LastOf scope rows as (start init) i) :
    s.live.Perm ((init.filter fun r => !scope r) ++ rows i) ∧ s.live.filter scope = rows i := by
  obtain ⟨as₁, as₂, base, rfl, hlast, hbase, halone⟩ := h
  obtain ⟨base', hbase', hi, hafter⟩ := after_of_run hrun hlast
  obtain rfl := Option.some.inj (hbase.symm.trans hbase')
  have hinv := inv_run inv_start hrun
  have hscope := live_alone hafter hinv hrows hall hi halone
  refine ⟨?_, hscope⟩
  rw [← hscope, ← live_frame hinv hrows hall]
  refine (List.filter_append_perm (fun r => !scope r) s.live).symm.trans ?_
  simp

/-- The rows in the scope weigh what those of one transaction do exactly when all others had
committed as the last `DELETE` started. -/
theorem weight_iff (hrows : ∀ t, ∀ r ∈ rows t, scope r = true) {weight : R → ℕ} {n : ℕ}
    (hweight : ∀ t, ((rows t).map weight).sum = n) (hn : 0 < n)
    (hrun : run scope rows as (start init) = some s) (hall : ∀ t, s.phase t = .committed) (t : T) :
    ((s.live.filter scope).map weight).sum = n ↔ LastAlone scope rows as (start init) := by
  constructor
  · intro hsum
    obtain ⟨as₁, i, as₂, base, rfl, hlast, hbase, hi, hafter⟩ := exists_after hrun (hall t)
    refine ⟨as₁, i, as₂, base, rfl, hlast, hbase, fun u hu => by_contra fun hu' => ?_⟩
    have hle := sum_of_not_alone hafter (inv_run inv_start hrun) hrows hall hi hu hu' weight
    rw [hsum, hweight, hweight] at hle
    omega
  · intro h
    obtain ⟨i, hi⟩ := lastAlone_iff.1 h
    rw [(live_of_lastOf hrows hrun hall hi).2, hweight]

/-- The rows in the scope are those of one transaction exactly when all others had committed
as the last `DELETE` started. -/
theorem replaced_iff (hrows : ∀ t, ∀ r ∈ rows t, scope r = true) {weight : R → ℕ} {n : ℕ}
    (hweight : ∀ t, ((rows t).map weight).sum = n) (hn : 0 < n)
    (hrun : run scope rows as (start init) = some s) (hall : ∀ t, s.phase t = .committed) :
    (∃ t, (s.live.filter scope).Perm (rows t)) ↔ LastAlone scope rows as (start init) := by
  constructor
  · rintro ⟨t, hperm⟩
    refine (weight_iff hrows hweight hn hrun hall t).1 ?_
    rw [(hperm.map weight).sum_eq, hweight]
  · intro h
    obtain ⟨i, hi⟩ := lastAlone_iff.1 h
    exact ⟨i, .of_eq (live_of_lastOf hrows hrun hall hi).2⟩

end ReadCommitted
