import Kreav.Lib.Triples
import Mathlib.Logic.Function.Basic

/-!
# Programs that follow a protocol

A `Protocol` is an automaton over requests, their answers and events. Its phases say where
a program stands, as far as some purpose needs to know. `Prog.Follows A Q X p φ` : from the
phase `φ` on, each answer and each event of `p` moves to a phase that the protocol has for
it, and `p` returns in a phase of `Q` and raises in one of `X`. There is one rule for each
construct.

`Config.Tracks` : each thread follows the protocol from its phase. `Protocol.Invariant` are
the obligations of an invariant that ties the world to the phases of all threads, one for
an answer, one for an event, one for a thread that ends and one for the outside, and
`Protocol.Invariant.act` puts them together.
-/

namespace Async

/-- An automaton that programs may follow. -/
structure Protocol (S : Sig) (σ : Type) where
  /-- The answers that a request may get. -/
  answers : (r : S.Req) → Except S.Error (S.Ans r) → Prop
  /-- The phases that an answer leads to. -/
  reply : σ → (r : S.Req) → Except S.Error (S.Ans r) → σ → Prop
  /-- The phases that an event leads to. -/
  event : σ → S.Event → σ → Prop
  /-- The phases that a program may end in. -/
  final : σ → Prop
  /-- The phase of a program that has ended. -/
  rest : σ

variable {S : Sig} {W C E σ α β : Type} {A : Protocol S σ}

namespace Prog

/-- From the phase `φ` on, the program follows the protocol. -/
def Follows (A : Protocol S σ) (Q : α → σ → Prop) (X : S.Error → σ → Prop) :
    Prog S α → σ → Prop
  | .ret a, φ => Q a φ
  | .raise e, φ => X e φ
  | .emit v p, φ => ∃ φ', A.event φ v φ' ∧ p.Follows A Q X φ'
  | .call r k, φ => ∀ x, A.answers r x → ∃ φ', A.reply φ r x φ' ∧ (k x).Follows A Q X φ'

namespace Follows

variable {Q : α → σ → Prop} {X : S.Error → σ → Prop} {φ : σ}

theorem mono {Q' : α → σ → Prop} {X' : S.Error → σ → Prop} {p : Prog S α}
    (h : p.Follows A Q X φ) (hQ : ∀ a φ, Q a φ → Q' a φ) (hX : ∀ e φ, X e φ → X' e φ) :
    p.Follows A Q' X' φ := by
  induction p generalizing φ with
  | ret a => exact hQ a φ h
  | raise e => exact hX e φ h
  | emit v p ih =>
    obtain ⟨φ', hv, hp⟩ := h
    exact ⟨φ', hv, ih hp⟩
  | call r k ih =>
    intro x hx
    obtain ⟨φ', hr, hk⟩ := h x hx
    exact ⟨φ', hr, ih x hk⟩

theorem bind {R : β → σ → Prop} {p : Prog S β} {f : β → Prog S α}
    (h : p.Follows A R X φ) (hf : ∀ b φ, R b φ → (f b).Follows A Q X φ) :
    (p.bind f).Follows A Q X φ := by
  induction p generalizing φ with
  | ret b => exact hf b φ h
  | raise e => exact h
  | emit v p ih =>
    obtain ⟨φ', hv, hp⟩ := h
    exact ⟨φ', hv, ih hp⟩
  | call r k ih =>
    intro x hx
    obtain ⟨φ', hr, hk⟩ := h x hx
    exact ⟨φ', hr, ih x hk⟩

theorem tryCatch {Y : S.Error → σ → Prop} {p : Prog S α} {f : S.Error → Prog S α}
    (h : p.Follows A Q Y φ) (hf : ∀ e φ, Y e φ → (f e).Follows A Q X φ) :
    (p.tryCatch f).Follows A Q X φ := by
  induction p generalizing φ with
  | ret a => exact h
  | raise e => exact hf e φ h
  | emit v p ih =>
    obtain ⟨φ', hv, hp⟩ := h
    exact ⟨φ', hv, ih hp⟩
  | call r k ih =>
    intro x hx
    obtain ⟨φ', hr, hk⟩ := h x hx
    exact ⟨φ', hr, ih x hk⟩

/-- One request : a phase for each answer and for each error. -/
theorem ask {r : S.Req} {Q : S.Ans r → σ → Prop}
    (hok : ∀ a, A.answers r (.ok a) → ∃ φ', A.reply φ r (.ok a) φ' ∧ Q a φ')
    (herr : ∀ e, A.answers r (.error e) → ∃ φ', A.reply φ r (.error e) φ' ∧ X e φ') :
    (Prog.ask r).Follows A Q X φ := by
  intro x hx
  cases x with
  | ok a => exact hok a hx
  | error e => exact herr e hx

theorem signal {Q : Unit → σ → Prop} {v : S.Event} {φ' : σ} (hv : A.event φ v φ')
    (hQ : Q () φ') : (Prog.signal v).Follows A Q X φ :=
  ⟨φ', hv, hQ⟩

end Follows

/-- The program stays in the phase, whatever it returns or raises. -/
def Stays (A : Protocol S σ) (φ : σ) (p : Prog S α) : Prop :=
  p.Follows A (fun _ φ' => φ' = φ) (fun _ φ' => φ' = φ) φ

theorem Stays.ask {r : S.Req} {φ : σ} (h : ∀ x, A.answers r x → A.reply φ r x φ) :
    (Prog.ask r).Stays A φ :=
  Follows.ask (fun _ ha => ⟨φ, h _ ha, rfl⟩) fun _ he => ⟨φ, h _ he, rfl⟩

theorem Stays.compositional (A : Protocol S σ) (φ : σ) :
    Compositional fun _ (p : Prog S _) => p.Stays A φ where
  ret _ := rfl
  raise _ := rfl
  bind hp hf := Follows.bind hp fun b φ' h => by
    subst h
    exact hf b
  tryCatch hp hf := Follows.tryCatch hp fun e φ' h => by
    subst h
    exact hf e

/-- A program that stays in a phase is one that ends there. -/
theorem Stays.follows {Q : α → σ → Prop} {X : S.Error → σ → Prop} {φ : σ} {p : Prog S α}
    (h : p.Stays A φ) (hQ : ∀ a, Q a φ) (hX : ∀ e, X e φ) : p.Follows A Q X φ :=
  h.mono (fun a _ he => he ▸ hQ a) fun e _ he => he ▸ hX e

/-- From the phase on, the program follows the protocol to its end. -/
def Conforms (A : Protocol S σ) (p : Prog S α) (φ : σ) : Prop :=
  p.Follows A (fun _ => A.final) (fun _ => A.final) φ

end Prog

/-- The protocol with requests in `R` alone. -/
def Protocol.restrict (A : Protocol S σ) (R : S.Req → Prop) : Protocol S σ :=
  { A with reply := fun φ r x φ' => R r ∧ A.reply φ r x φ' }

namespace Prog

theorem Follows.restrict {Q : α → σ → Prop} {X : S.Error → σ → Prop} {R : S.Req → Prop}
    {p : Prog S α} {φ : σ} (h : p.Follows A Q X φ) (hR : p.Uses R) :
    p.Follows (A.restrict R) Q X φ := by
  induction p generalizing φ with
  | ret a => exact h
  | raise e => exact h
  | emit v p ih =>
    obtain ⟨φ', hv, hp⟩ := h
    exact ⟨φ', hv, ih hp hR⟩
  | call r k ih =>
    intro x hx
    obtain ⟨φ', hr, hk⟩ := h x hx
    exact ⟨φ', ⟨hR.1, hr⟩, ih x hk (hR.2 x)⟩

/-- The events before the next request, when events do not lead to other phases. -/
theorem Follows.flush {M : Machine S W C E} (hA : ∀ φ v φ', A.event φ v φ' → φ' = φ)
    {Q : α → σ → Prop} {X : S.Error → σ → Prop} {p : Prog S α} {φ : σ} (h : p.Follows A Q X φ)
    (w : W) : (p.flush M w).1.Follows A Q X φ := by
  induction p generalizing w with
  | emit v p ih =>
    obtain ⟨φ', hv, hp⟩ := h
    obtain rfl := hA _ _ _ hv
    exact ih hp _
  | _ => exact h

theorem Conforms.flush {M : Machine S W C E} (hA : ∀ φ v φ', A.event φ v φ' → φ' = φ)
    {p : Prog S α} {φ : σ} (h : p.Conforms A φ) (w : W) : (p.flush M w).1.Conforms A φ :=
  Follows.flush hA h w

/-- A program that has ended conforms in every final phase. -/
theorem Ended.conforms {p : Prog S α} (h : p.Ended) {φ : σ} (hφ : A.final φ) :
    p.Conforms A φ := by
  cases p with
  | ret a => exact hφ
  | raise e => exact hφ
  | emit v p => exact h.elim
  | call r k => exact h.elim

theorem Ended.final {p : Prog S α} (h : p.Ended) {φ : σ} (hp : p.Conforms A φ) :
    A.final φ := by
  cases p with
  | ret a => exact hp
  | raise e => exact hp
  | emit v p => exact h.elim
  | call r k => exact h.elim

end Prog

/-- Every thread waits or has ended, and conforms to the protocol from its phase. -/
structure Config.Tracks (A : Protocol S σ) (s : Config S W α) (φ : ℕ → σ) : Prop where
  thread : ∀ {i : ℕ} {p : Prog S α}, s.threads[i]? = some p → p.Suspended ∧ p.Conforms A (φ i)
  absent : ∀ {i : ℕ}, s.threads[i]? = none → φ i = A.rest

/-- Programs that conform at rest, before any action. -/
theorem Config.tracks_map {κ : Type} {start : κ → Prog S α}
    (h : ∀ k, (start k).Suspended ∧ (start k).Conforms A A.rest) (calls : List κ) (w : W) :
    (⟨calls.map start, w⟩ : Config S W α).Tracks A fun _ => A.rest where
  thread hp := by
    obtain ⟨k, -, rfl⟩ := List.mem_map.1 (List.mem_of_getElem? hp)
    exact h k
  absent _ := rfl

/-- Programs that conform from phases of their own, before any action. -/
theorem Config.tracks_from {κ : Type} {start : κ → Prog S α} {φ : κ → σ} {calls : List κ}
    (h : ∀ k ∈ calls, (start k).Suspended ∧ (start k).Conforms A (φ k)) (w : W) :
    (⟨calls.map start, w⟩ : Config S W α).Tracks A fun i => calls[i]?.elim A.rest φ where
  thread {i p} hp := by
    simp only [List.getElem?_map, Option.map_eq_some_iff] at hp
    obtain ⟨k, hk, rfl⟩ := hp
    rw [hk]
    exact h k (List.mem_of_getElem? hk)
  absent {i} hi := by
    simp only [List.getElem?_map, Option.map_eq_none_iff] at hi
    rw [hi]
    rfl

/-- A request that a thread waits on has a phase for each of its answers. -/
theorem Config.Tracks.reply {s : Config S W α} {φ : ℕ → σ} (h : s.Tracks A φ) {i : ℕ}
    {r : S.Req} (hw : s.Waits i r) {x : Except S.Error (S.Ans r)} (hx : A.answers r x) :
    ∃ φ', A.reply (φ i) r x φ' := by
  obtain ⟨k, hp⟩ := hw.exists_call
  obtain ⟨φ', hφ', -⟩ := (h.thread hp).2 x hx
  exact ⟨φ', hφ'⟩

/-- A thread that has ended is in a final phase, and so is one that does not exist. -/
theorem Config.Tracks.final {s : Config S W α} {φ : ℕ → σ} (h : s.Tracks A φ) (hend : s.Ended)
    (hrest : A.final A.rest) (i : ℕ) : A.final (φ i) := by
  cases hp : s.threads[i]? with
  | none => exact (h.absent hp).symm ▸ hrest
  | some p => exact (hend p (List.mem_of_getElem? hp)).final (h.thread hp).2

/-- Every thread waits or has ended, and follows the protocol from its phase to one that goes
with what it returns or raises. -/
def Config.Follows (A : Protocol S σ) (Q : α → σ → Prop) (X : S.Error → σ → Prop)
    (s : Config S W α) (φ : ℕ → σ) : Prop :=
  ∀ (i : ℕ) (p : Prog S α), s.threads[i]? = some p → p.Suspended ∧ p.Follows A Q X (φ i)

/-- An answer to one thread, when events do not lead to other phases. -/
theorem Config.Follows.act_run {M : Machine S W C E} (hA : ∀ φ v φ', A.event φ v φ' → φ' = φ)
    {Q : α → σ → Prop} {X : S.Error → σ → Prop} {s : Config S W α} {φ : ℕ → σ}
    (h : s.Follows A Q X φ) {i : ℕ} {c : C} {r : S.Req} {k : Except S.Error (S.Ans r) → Prog S α}
    (hp : s.threads[i]? = some (.call r k)) (hans : A.answers r (M.exec r c s.world).1) :
    ∃ φ', A.reply (φ i) r (M.exec r c s.world).1 φ' ∧
      (s.act M (.run i c)).Follows A Q X (Function.update φ i φ') := by
  obtain ⟨φ', hreply, hk⟩ := (h i _ hp).2 _ hans
  refine ⟨φ', hreply, fun j q hq => ?_⟩
  rw [Config.act_run M c hp] at hq
  rcases Config.getElem?_set hp hq with ⟨rfl, rfl⟩ | ⟨hj, hq⟩
  · rw [Function.update_self]
    exact ⟨Prog.suspended_flush M _ _, Prog.Follows.flush hA hk _⟩
  · rw [Function.update_of_ne hj]
    exact h j q hq

/-! ### The phases after a step of one thread -/

namespace Phases

variable {T : σ → Prop} {φ : ℕ → σ} {i : ℕ} {φ' : σ}

/-- A property that the step has not given the thread. -/
theorem of_update (h : T φ' → T (φ i)) : ∀ j, T (Function.update φ i φ' j) → T (φ j) :=
  (Function.forall_update_iff φ fun j ψ => T ψ → T (φ j)).2 ⟨h, fun _ _ hj => hj⟩

/-- A property that no other thread has. -/
theorem eq_of_update (h : ∀ j, j ≠ i → ¬ T (φ j)) :
    ∀ j, T (Function.update φ i φ' j) → j = i :=
  (Function.forall_update_iff φ fun j ψ => T ψ → j = i).2
    ⟨fun _ => rfl, fun j hj ht => absurd ht (h j hj)⟩

/-- A property of some thread that the step has not taken away. -/
theorem exists_update (h : ∃ j, T (φ j)) (hi : T (φ i) → T φ') :
    ∃ j, T (Function.update φ i φ' j) := by
  obtain ⟨j, hj⟩ := h
  by_cases hij : j = i
  · subst hij
    exact ⟨j, by rw [Function.update_self]; exact hi hj⟩
  · exact ⟨j, by rwa [Function.update_of_ne hij]⟩

end Phases

variable {M : Machine S W C E}

/-- An answer to one thread. The others keep their phases, or they conform at rest. -/
theorem Config.Tracks.act_run {s : Config S W α} {φ ψ : ℕ → σ} (h : s.Tracks A φ) {i : ℕ} {c : C}
    {p : Prog S α} (hp : s.threads[i]? = some p) (hsus : (p.resume M c s.world).1.Suspended)
    (hψ : (p.resume M c s.world).1.Conforms A (ψ i))
    (hothers : ∀ j, j ≠ i → ψ j = φ j ∨
      ψ j = A.rest ∧ ∀ p, s.threads[j]? = some p → p.Conforms A A.rest) :
    (s.act M (.run i c)).Tracks A ψ := by
  have hi := (List.getElem?_eq_some_iff.1 hp).1
  rw [Config.act_run M c hp]
  refine ⟨fun {j q} hq => ?_, fun {j} hj => ?_⟩
  · rcases Config.getElem?_set hp hq with ⟨rfl, rfl⟩ | ⟨hj, hq⟩
    · exact ⟨hsus, hψ⟩
    · rcases hothers j hj with he | ⟨he, hc⟩
      · exact he ▸ h.thread hq
      · exact ⟨(h.thread hq).1, he ▸ hc q hq⟩
  · have hlen : s.threads.length ≤ j := by simpa using hj
    rcases hothers j (by omega) with he | ⟨he, -⟩
    · rw [he, h.absent (List.getElem?_eq_none hlen)]
    · exact he

/-- Thread `i`, which goes on with `p`, and the other threads have phases again, another
one its phase as before or that at rest, and `I` holds. -/
def Protocol.Advances (A : Protocol S σ) (s : Config S W α) (φ : ℕ → σ) (i : ℕ) (p : Prog S α)
    (I : (ℕ → σ) → Prop) : Prop :=
  ∃ ψ : ℕ → σ, p.Conforms A (ψ i) ∧ I ψ ∧ ∀ j, j ≠ i → ψ j = φ j ∨
    ψ j = A.rest ∧ ∀ p, s.threads[j]? = some p → p.Conforms A A.rest

theorem Protocol.Advances.update {s : Config S W α} {φ : ℕ → σ} {i : ℕ} {p : Prog S α} {φ' : σ}
    {I : (ℕ → σ) → Prop} (hp : p.Conforms A φ') (h : I (Function.update φ i φ')) :
    A.Advances s φ i p I :=
  ⟨_, by rwa [Function.update_self], h, fun _ hj => Or.inl (Function.update_of_ne hj ..)⟩

/-- The obligations of an invariant `I` of the world and the phases of all threads, along
actions that meet `P`. -/
structure Protocol.Invariant (A : Protocol S σ) (M : Machine S W C E)
    (P : Config S W α → Action C E → Prop) (I : W → (ℕ → σ) → Prop) : Prop where
  reply : ∀ {s : Config S W α} {φ : ℕ → σ} {i : ℕ} {r : S.Req}
    {k : Except S.Error (S.Ans r) → Prog S α} {c : C}, I s.world φ → s.Tracks A φ →
      s.threads[i]? = some (.call r k) → P s (.run i c) →
        A.answers r (M.exec r c s.world).1 ∧ ∀ φ', A.reply (φ i) r (M.exec r c s.world).1 φ' →
          (k (M.exec r c s.world).1).Conforms A φ' →
            A.Advances s φ i (k (M.exec r c s.world).1) (I (M.exec r c s.world).2)
  event : ∀ {w : W} {φ : ℕ → σ} {i : ℕ} {v : S.Event} {φ' : σ}, I w φ →
    A.event (φ i) v φ' → I (M.log v w) (Function.update φ i φ')
  ended : ∀ {w : W} {φ : ℕ → σ} {i : ℕ}, I w φ → A.final (φ i) →
    I w (Function.update φ i A.rest)
  outside : ∀ {s : Config S W α} {φ : ℕ → σ} {e : E}, I s.world φ → P s (.env e) →
    I (M.env e s.world) φ
  final_rest : A.final A.rest

namespace Protocol.Invariant

variable {P : Config S W α → Action C E → Prop} {I : W → (ℕ → σ) → Prop}

/-- The events before the next request. -/
theorem flush (h : A.Invariant M P I) {i : ℕ} {p : Prog S α} {w : W} {φ : ℕ → σ}
    (hI : I w φ) (hp : p.Conforms A (φ i)) :
    ∃ φ', (p.flush M w).1.Conforms A φ' ∧ I (p.flush M w).2 (Function.update φ i φ') := by
  induction p generalizing w φ with
  | emit v p ih =>
    obtain ⟨φ', hv, hp⟩ := hp
    obtain ⟨φ'', hp', hI'⟩ := ih (φ := Function.update φ i φ') (h.event hI hv) (by
      rw [Function.update_self]
      exact hp)
    rw [Function.update_idem] at hI'
    exact ⟨φ'', hp', hI'⟩
  | ret a => exact ⟨φ i, hp, by rwa [Function.update_eq_self]⟩
  | raise e => exact ⟨φ i, hp, by rwa [Function.update_eq_self]⟩
  | call r k _ => exact ⟨φ i, hp, by rwa [Function.update_eq_self]⟩

/-- The answer to a request and the events after it. The thread is at rest if it has ended
then. -/
theorem resume (h : A.Invariant M P I) {s : Config S W α} {i : ℕ} {c : C} {φ : ℕ → σ}
    {r : S.Req} {k : Except S.Error (S.Ans r) → Prog S α} (hs : s.Tracks A φ) (hI : I s.world φ)
    (hget : s.threads[i]? = some (.call r k)) (ha : P s (.run i c)) :
    A.Advances s φ i ((Prog.call r k).resume M c s.world).1
      (I ((Prog.call r k).resume M c s.world).2) := by
  obtain ⟨hans, hreply⟩ := h.reply hI hs hget ha
  obtain ⟨φ', hφ', hk⟩ := (hs.thread hget).2 _ hans
  obtain ⟨ψ, hψ, hI', hothers⟩ := hreply φ' hφ' hk
  obtain ⟨φ'', hp', hI''⟩ := h.flush (i := i) hI' hψ
  by_cases hend : ((k (M.exec r c s.world).1).flush M (M.exec r c s.world).2).1.Ended
  · have hrest := h.ended (i := i) hI'' (by
      rw [Function.update_self]
      exact hend.final hp')
    rw [Function.update_idem] at hrest
    refine ⟨_, ?_, hrest, fun j hj => ?_⟩
    · rw [Function.update_self]
      exact hend.conforms h.final_rest
    · rw [Function.update_of_ne hj]
      exact hothers j hj
  · refine ⟨_, ?_, hI'', fun j hj => ?_⟩
    · rw [Function.update_self]
      exact hp'
    · rw [Function.update_of_ne hj]
      exact hothers j hj

/-- One action keeps the invariant, with phases that the threads conform to. -/
theorem act (h : A.Invariant M P I) {s : Config S W α} {a : Action C E} {φ : ℕ → σ}
    (hs : s.Tracks A φ) (hI : I s.world φ) (ha : P s a) :
    ∃ ψ, (s.act M a).Tracks A ψ ∧ I (s.act M a).world ψ := by
  cases a with
  | env e => exact ⟨φ, ⟨hs.thread, hs.absent⟩, h.outside hI ha⟩
  | run i c =>
    cases hget : s.threads[i]? with
    | none =>
      refine ⟨φ, ?_, ?_⟩
      · simpa only [Config.act, hget] using hs
      · simpa only [Config.act, hget] using hI
    | some p =>
      have hsus := (hs.thread hget).1
      by_cases hend : p.Ended
      · -- nothing happens
        have hset : s.threads.set i p = s.threads := by
          obtain ⟨hi, rfl⟩ := List.getElem?_eq_some_iff.1 hget
          exact List.set_getElem_self hi
        rw [Config.act_run M c hget, Prog.resume_ended M hend, hset]
        exact ⟨φ, hs, hI⟩
      cases p with
      | emit v p => exact hsus.elim
      | ret a => exact absurd trivial hend
      | raise e => exact absurd trivial hend
      | call r k =>
        obtain ⟨ψ, hp', hI', hothers⟩ := h.resume hs hI hget ha
        refine ⟨ψ, hs.act_run hget (Prog.suspended_flush M _ _) hp' hothers, ?_⟩
        rw [Config.act_run M c hget]
        exact hI'

/-- Another machine that answers alike, with other steps of the outside. -/
theorem of_outside {E' : Type} {M' : Machine S W C E'}
    {P' : Config S W α → Action C E' → Prop} (h : A.Invariant M P I) (hexec : M'.exec = M.exec)
    (hlog : M'.log = M.log) (hP : ∀ s i c, P' s (.run i c) → P s (.run i c))
    (hout : ∀ {s : Config S W α} {φ : ℕ → σ} {e : E'}, I s.world φ → P' s (.env e) →
      I (M'.env e s.world) φ) : A.Invariant M' P' I where
  reply hI hs hget ha := by
    rw [hexec]
    exact h.reply hI hs hget (hP _ _ _ ha)
  event hI hv := by
    rw [hlog]
    exact h.event hI hv
  ended := h.ended
  outside := hout
  final_rest := h.final_rest

/-- The invariant holds after every run whose actions meet the condition. -/
theorem run (h : A.Invariant M P I) (as : List (Action C E)) {s : Config S W α} {φ : ℕ → σ}
    (hs : s.Tracks A φ) (hI : I s.world φ) (ha : Config.Along M P as s) :
    ∃ ψ, (s.run M as).Tracks A ψ ∧ I (s.run M as).world ψ :=
  Config.inv_run (I := fun s => ∃ ψ, s.Tracks A ψ ∧ I s.world ψ)
    (fun _ _ ⟨_, hs, hI⟩ ha => h.act hs hI ha) as s ⟨φ, hs, hI⟩ ha

end Protocol.Invariant

end Async
