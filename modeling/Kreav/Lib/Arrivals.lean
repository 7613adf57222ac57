import Kreav.Lib.Protocols

/-!
# Calls that arrive during a run

A call may arrive at any point of a run, and a crash may end all threads (`Turn`). The
program of a call joins the threads at its beginning. `Config.turns` are runs of such
turns, and `Config.During` says that every turn of a run meets a condition on the state
before it.

`Protocol.Invariant.turns` : an invariant of the world and the phases of the threads holds
after every such run when a call that arrives has a phase to start in.
-/

namespace Async

variable {S : Sig} {W C E K α σ : Type}

/-- An action, a call that arrives, or a crash. -/
inductive Turn (C E K : Type)
  | act (a : Action C E)
  | call (k : K)
  | crash

namespace Config

/-- One turn. -/
def turn (M : Machine S W C E) (start : K → Prog S α) (s : Config S W α) :
    Turn C E K → Config S W α
  | .act a => s.act M a
  | .call k => ⟨s.threads ++ [start k], s.world⟩
  | .crash => ⟨[], s.world⟩

/-- The turns of a run, in order. -/
def turns (M : Machine S W C E) (start : K → Prog S α) (ts : List (Turn C E K))
    (s : Config S W α) : Config S W α :=
  ts.foldl (turn M start) s

variable {M : Machine S W C E} {start : K → Prog S α}

@[simp] theorem turns_cons (t : Turn C E K) (ts : List (Turn C E K)) (s : Config S W α) :
    s.turns M start (t :: ts) = (s.turn M start t).turns M start ts :=
  rfl

/-- Every turn of the run meets `P` in the state it is taken in. -/
def During (M : Machine S W C E) (start : K → Prog S α)
    (P : Config S W α → Turn C E K → Prop) : List (Turn C E K) → Config S W α → Prop
  | [], _ => True
  | t :: ts, s => P s t ∧ During M start P ts (s.turn M start t)

variable {P : Config S W α → Turn C E K → Prop}

instance decidableDuring [∀ s t, Decidable (P s t)] : (ts : List (Turn C E K)) →
    (s : Config S W α) → Decidable (During M start P ts s)
  | [], _ => isTrue trivial
  | t :: ts, s =>
    have := decidableDuring ts (s.turn M start t)
    inferInstanceAs (Decidable (P s t ∧ During M start P ts _))

theorem during_of_forall (hP : ∀ s t, P s t) : ∀ (ts : List (Turn C E K)) (s : Config S W α),
    During M start P ts s
  | [], _ => trivial
  | t :: ts, s => ⟨hP s t, during_of_forall hP ts (s.turn M start t)⟩

theorem during_append : ∀ {ts ts' : List (Turn C E K)} {s : Config S W α},
    During M start P (ts ++ ts') s ↔
      During M start P ts s ∧ During M start P ts' (s.turns M start ts)
  | [], _, _ => ⟨fun h => ⟨trivial, h⟩, fun h => h.2⟩
  | t :: ts, ts', s => by
    simp only [List.cons_append, During, turns_cons, during_append, and_assoc]

theorem during_replicate {t : Turn C E K} (h : ∀ s, P s t) : ∀ (n : ℕ) (s : Config S W α),
    During M start P (List.replicate n t) s
  | 0, _ => trivial
  | n + 1, s => ⟨h s, during_replicate h n _⟩

theorem During.mono {P' : Config S W α → Turn C E K → Prop} (hP : ∀ s t, P s t → P' s t) :
    ∀ {ts : List (Turn C E K)} {s : Config S W α}, During M start P ts s →
      During M start P' ts s
  | [], _, _ => trivial
  | _ :: _, _, h => ⟨hP _ _ h.1, h.2.mono hP⟩

/-- A condition on the turns themselves besides. -/
theorem During.and {Q : Turn C E K → Prop} : ∀ {ts : List (Turn C E K)} {s : Config S W α},
    During M start P ts s → (∀ t ∈ ts, Q t) → During M start (fun s t => P s t ∧ Q t) ts s
  | [], _, _, _ => trivial
  | t :: _, _, h, hQ =>
    ⟨⟨h.1, hQ t List.mem_cons_self⟩, h.2.and fun t' ht' => hQ t' (List.mem_cons_of_mem t ht')⟩

/-- An invariant that every turn meeting `P` keeps holds after every such run. -/
theorem inv_turns {I : Config S W α → Prop}
    (hturn : ∀ s t, I s → P s t → I (s.turn M start t)) :
    ∀ (ts : List (Turn C E K)) (s : Config S W α), I s → During M start P ts s →
      I (s.turns M start ts)
  | [], _, h, _ => h
  | t :: ts, s, h, hP => inv_turns hturn ts (s.turn M start t) (hturn s t h hP.1) hP.2

/-- What every request and every event keeps, an answer to a thread keeps. -/
theorem run_world {R : W → W → Prop} (hrefl : ∀ w, R w w)
    (htrans : ∀ {w w' w''}, R w w' → R w' w'' → R w w'')
    (hexec : ∀ r c w, R w (M.exec r c w).2) (hlog : ∀ v w, R w (M.log v w))
    (s : Config S W α) (i : ℕ) (c : C) : R s.world (s.act M (.run i c)).world := by
  have hflush : ∀ (p : Prog S α) (w : W), R w (p.flush M w).2 := by
    intro p
    induction p with
    | emit v p ih => exact fun w => htrans (hlog v w) (ih _)
    | _ => exact fun w => hrefl w
  cases hp : s.threads[i]? with
  | none =>
    simp only [act, hp]
    exact hrefl _
  | some p =>
    rw [act_run M c hp]
    cases p with
    | call r k => exact htrans (hexec r c _) (hflush _ _)
    | _ => exact hrefl _

/-- The same with the steps of the outside, for a turn. -/
theorem turn_world {R : W → W → Prop} (hrefl : ∀ w, R w w)
    (htrans : ∀ {w w' w''}, R w w' → R w' w'' → R w w'')
    (hexec : ∀ r c w, R w (M.exec r c w).2) (hlog : ∀ v w, R w (M.log v w))
    (henv : ∀ e w, R w (M.env e w)) (s : Config S W α) (t : Turn C E K) :
    R s.world (s.turn M start t).world := by
  cases t with
  | call k => exact hrefl _
  | crash => exact hrefl _
  | act a =>
    cases a with
    | env e => exact henv e s.world
    | run i c => exact run_world hrefl htrans hexec hlog s i c

/-- One more thread, with a phase to start in. -/
theorem Tracks.call {A : Protocol S σ} {s : Config S W α} {φ : ℕ → σ} (h : s.Tracks A φ)
    {p : Prog S α} {φ' : σ} (hsus : p.Suspended) (hp : p.Conforms A φ') :
    (⟨s.threads ++ [p], s.world⟩ : Config S W α).Tracks A
      (Function.update φ s.threads.length φ') := by
  have hlen : (s.threads ++ [p]).length = s.threads.length + 1 := by simp
  refine ⟨fun {i q} hq => ?_, fun {i} hi => ?_⟩
  · rcases Nat.lt_trichotomy i s.threads.length with hlt | rfl | hgt
    · rw [List.getElem?_append_left hlt] at hq
      rw [Function.update_of_ne (Nat.ne_of_lt hlt)]
      exact h.thread hq
    · obtain rfl : p = q := by simpa using hq
      rw [Function.update_self]
      exact ⟨hsus, hp⟩
    · rw [List.getElem?_eq_none (hlen ▸ hgt)] at hq
      cases hq
  · have hle : (s.threads ++ [p]).length ≤ i := List.getElem?_eq_none_iff.1 hi
    rw [Function.update_of_ne (by omega), h.absent (List.getElem?_eq_none (by omega))]

end Config

/-- The invariant holds after every run with arrivals whose turns meet the condition. -/
theorem Protocol.Invariant.turns {A : Protocol S σ} {M : Machine S W C E} {start : K → Prog S α}
    {P : Config S W α → Turn C E K → Prop} {I : W → (ℕ → σ) → Prop}
    (h : A.Invariant M (fun s a => P s (.act a)) I)
    (hcall : ∀ s φ i k, I s.world φ → P s (.call k) → φ i = A.rest →
      ∃ φ', (start k).Suspended ∧ (start k).Conforms A φ' ∧ I s.world (Function.update φ i φ'))
    (hcrash : ∀ s φ, I s.world φ → P s .crash → I s.world fun _ => A.rest)
    (ts : List (Turn C E K)) {s : Config S W α} {φ : ℕ → σ} (hs : s.Tracks A φ)
    (hI : I s.world φ) (hP : Config.During M start P ts s) :
    ∃ ψ, (s.turns M start ts).Tracks A ψ ∧ I (s.turns M start ts).world ψ := by
  refine Config.inv_turns (I := fun s => ∃ ψ, s.Tracks A ψ ∧ I s.world ψ) ?_ ts s ⟨φ, hs, hI⟩ hP
  rintro s t ⟨φ, hs, hI⟩ ht
  cases t with
  | act a => exact h.act hs hI ht
  | call k =>
    have hrest := hs.absent (List.getElem?_eq_none (Nat.le_refl _))
    obtain ⟨φ', hsus, hp, hI'⟩ := hcall s φ s.threads.length k hI ht hrest
    exact ⟨_, hs.call hsus hp, hI'⟩
  | crash =>
    refine ⟨_, ⟨fun {i p} hp => ?_, fun _ => rfl⟩, hcrash s φ hI ht⟩
    simp [Config.turn] at hp

/-! ## Calls that arrive once -/

/-- The keys of the calls, in the order they arrive. -/
def arrived {κ : Type} (key : K → κ) (ts : List (Turn C E K)) : List κ :=
  ts.filterMap fun
    | .call k => some (key k)
    | _ => none

/-- The same when each key arrives at most once. The invariant has the keys so far. -/
theorem Protocol.Invariant.turns_fresh {κ : Type} {key : K → κ} {A : Protocol S σ}
    {M : Machine S W C E} {start : K → Prog S α} {P : Config S W α → Turn C E K → Prop}
    {I : List κ → W → (ℕ → σ) → Prop}
    (h : ∀ used, A.Invariant M (fun s a => P s (.act a)) (I used))
    (hcall : ∀ used s φ i k, I used s.world φ → P s (.call k) → φ i = A.rest → key k ∉ used →
      ∃ φ', (start k).Suspended ∧ (start k).Conforms A φ' ∧
        I (key k :: used) s.world (Function.update φ i φ'))
    (hcrash : ∀ used s φ, I used s.world φ → P s .crash → I used s.world fun _ => A.rest) :
    ∀ (ts : List (Turn C E K)) {used : List κ} {s : Config S W α} {φ : ℕ → σ}, s.Tracks A φ →
      I used s.world φ → Config.During M start P ts s → (arrived key ts).Nodup →
        (∀ x ∈ arrived key ts, x ∉ used) →
          ∃ used' ψ, (s.turns M start ts).Tracks A ψ ∧ I used' (s.turns M start ts).world ψ
  | [], used, s, φ, hs, hI, _, _, _ => ⟨used, φ, hs, hI⟩
  | .act a :: ts, used, s, φ, hs, hI, hP, hn, hfresh => by
    obtain ⟨ψ, hψ, hI'⟩ := (h used).act hs hI hP.1
    exact turns_fresh h hcall hcrash ts hψ hI' hP.2 hn hfresh
  | .call k :: ts, used, s, φ, hs, hI, hP, hn, hfresh => by
    have hrest := hs.absent (List.getElem?_eq_none (Nat.le_refl _))
    obtain ⟨φ', hsus, hp, hI'⟩ := hcall used s φ s.threads.length k hI hP.1 hrest
      (hfresh _ List.mem_cons_self)
    obtain ⟨hk, hn⟩ := List.nodup_cons.1 hn
    refine turns_fresh h hcall hcrash ts (hs.call hsus hp) hI' hP.2 hn fun x hx hused => ?_
    rcases List.mem_cons.1 hused with rfl | hused
    · exact hk hx
    · exact hfresh x (List.mem_cons_of_mem _ hx) hused
  | .crash :: ts, used, s, φ, hs, hI, hP, hn, hfresh => by
    refine turns_fresh h hcall hcrash ts (s := ⟨[], s.world⟩) ⟨fun hp => ?_, fun _ => rfl⟩
      (hcrash used s φ hI hP.1) hP.2 hn hfresh
    simp at hp

end Async
