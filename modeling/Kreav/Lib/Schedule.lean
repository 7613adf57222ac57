import Kreav.Lib.Async
import Mathlib.Data.List.Basic

/-!
# Runs of asynchronous programs

A `Machine` gives the meaning of a signature's requests : what a request answers and what
it does to the world, for each outcome `c` the outside may choose, and what an event
leaves behind. It also gives the steps the outside takes on its own.

`Prog.eval` runs one program alone. It is total and takes its outcomes from a stream.
`Config.run` runs many programs : each action either answers the request one thread waits
on, which then runs up to its next request, or is a step of the outside.
`Config.Along` says that every action of a run meets a condition on the state before it.

A run is judged by rely and guarantee. A `Discipline` fixes an invariant of the world at
the points where threads wait, the changes thread `i` tolerates (`rely`) and makes
(`guar`), the outcomes a run may choose (`allowed`), and what holds of every request a
thread issues (`duty`). `Prog.Safe` is the proof obligation of one thread, by recursion on
its tree, and `Config.Safe.run` puts the threads together.
-/

namespace Async

/-- What the requests, the events and the outside do to a world of type `W`. -/
structure Machine (S : Sig) (W C E : Type) where
  exec : (r : S.Req) → C → W → Except S.Error (S.Ans r) × W
  log : S.Event → W → W
  env : E → W → W

variable {S : Sig} {W C E α β : Type}

/-! ## One program -/

/-- The machine whose outcomes also say which steps the outside takes before a request. -/
def Machine.withSteps (M : Machine S W C E) : Machine S W (List E × C) E where
  exec r c w := M.exec r c.2 (c.1.foldl (fun w e => M.env e w) w)
  log := M.log
  env := M.env

namespace Prog

/-- Run `p` to its end, the `n`-th request with the outcome `ch n`. Returns the result,
the outcomes that were not used, and the world. -/
def eval (M : Machine S W C E) : Prog S α → (ℕ → C) → W → Except S.Error α × (ℕ → C) × W
  | .ret a, ch, w => (.ok a, ch, w)
  | .raise e, ch, w => (.error e, ch, w)
  | .emit v p, ch, w => p.eval M ch (M.log v w)
  | .call r k, ch, w =>
    (k (M.exec r (ch 0) w).1).eval M (fun n => ch (n + 1)) (M.exec r (ch 0) w).2

theorem eval_ask_eq (M : Machine S W C E) (r : S.Req) (ch : ℕ → C) (w : W) :
    (ask r).eval M ch w =
      ((M.exec r (ch 0) w).1, fun n => ch (n + 1), (M.exec r (ch 0) w).2) := by
  simp only [ask, eval]
  cases (M.exec r (ch 0) w).1 <;> rfl

/-- One request. -/
theorem eval_ask_of {M : Machine S W C E} {r : S.Req} {ch : ℕ → C} {w w' : W}
    {x : Except S.Error (S.Ans r)} (h : M.exec r (ch 0) w = (x, w')) :
    (ask r).eval M ch w = (x, fun n => ch (n + 1), w') := by
  rw [eval_ask_eq, h]

/-- A request that is answered. -/
theorem eval_ask (M : Machine S W C E) {r : S.Req} {a : S.Ans r} {f : S.Ans r → Prog S α}
    {ch : ℕ → C} {w w' : W} (h : M.exec r (ch 0) w = (.ok a, w')) :
    ((ask r).bind f).eval M ch w = (f a).eval M (fun n => ch (n + 1)) w' := by
  simp only [ask, bind, eval, h]

/-- A request that throws. -/
theorem eval_ask_error (M : Machine S W C E) {r : S.Req} {e : S.Error} {f : S.Ans r → Prog S α}
    {ch : ℕ → C} {w w' : W} (h : M.exec r (ch 0) w = (.error e, w')) :
    ((ask r).bind f).eval M ch w = (.error e, fun n => ch (n + 1), w') := by
  simp only [ask, bind, eval, h]

/-- A program that returns had its first request answered. -/
theorem eval_ask_ok {M : Machine S W C E} {r : S.Req} {f : S.Ans r → Prog S α} {ch : ℕ → C}
    {w : W} {b : α} (h : (((ask r).bind f).eval M ch w).1 = .ok b) :
    ∃ a w', M.exec r (ch 0) w = (.ok a, w') ∧
      ((f a).eval M (fun n => ch (n + 1)) w').1 = .ok b := by
  rcases hx : M.exec r (ch 0) w with ⟨e | a, w'⟩
  · simp only [ask, bind, eval, hx] at h
    cases h
  · rw [eval_ask M hx] at h
    exact ⟨a, w', rfl, h⟩

/-- A program that returns had its first request answered, and goes on from there. -/
theorem eval_ask_eq_ok {M : Machine S W C E} {r : S.Req} {f : S.Ans r → Prog S α}
    {ch ch' : ℕ → C} {w w' : W} {b : α}
    (h : ((ask r).bind f).eval M ch w = (.ok b, ch', w')) :
    ∃ a w₁, M.exec r (ch 0) w = (.ok a, w₁) ∧
      (f a).eval M (fun n => ch (n + 1)) w₁ = (.ok b, ch', w') := by
  rcases hx : M.exec r (ch 0) w with ⟨e | a, w₁⟩
  · rw [eval_ask_error M hx] at h
    cases h
  · rw [eval_ask M hx] at h
    exact ⟨a, w₁, rfl, h⟩

/-- The last request of a program leaves what it leaves. -/
theorem eval_ask_last (M : Machine S W C E) (r : S.Req) (b : α) (ch : ℕ → C) (w : W) :
    (((ask r).bind fun _ => ret b).eval M ch w).2.2 = (M.exec r (ch 0) w).2 := by
  rcases hx : M.exec r (ch 0) w with ⟨e | a, w'⟩
  · rw [eval_ask_error M hx]
  · rw [eval_ask M hx]
    rfl

theorem eval_bind_ok {M : Machine S W C E} {p : Prog S β} {f : β → Prog S α} {ch ch' : ℕ → C}
    {w w' : W} {b : β} (h : p.eval M ch w = (.ok b, ch', w')) :
    (p.bind f).eval M ch w = (f b).eval M ch' w' := by
  induction p generalizing ch w with
  | ret a =>
    simp only [eval, Prod.mk.injEq, Except.ok.injEq] at h
    obtain ⟨rfl, rfl, rfl⟩ := h
    rfl
  | raise e => simp [eval] at h
  | emit v p ih => exact ih h
  | call r k ih => exact ih _ h

theorem eval_bind_error {M : Machine S W C E} {p : Prog S β} {f : β → Prog S α}
    {ch ch' : ℕ → C} {w w' : W} {e : S.Error} (h : p.eval M ch w = (.error e, ch', w')) :
    (p.bind f).eval M ch w = (.error e, ch', w') := by
  induction p generalizing ch w with
  | ret a => simp [eval] at h
  | raise e' =>
    simp only [eval, Prod.mk.injEq, Except.error.injEq] at h
    obtain ⟨rfl, rfl, rfl⟩ := h
    rfl
  | emit v p ih => exact ih h
  | call r k ih => exact ih _ h

/-- A program that returns goes on where its first part has returned. -/
theorem eval_bind_eq_ok {M : Machine S W C E} {p : Prog S β} {f : β → Prog S α} {ch ch' : ℕ → C}
    {w w' : W} {b : α} (h : (p.bind f).eval M ch w = (.ok b, ch', w')) :
    ∃ a ch₁ w₁, p.eval M ch w = (.ok a, ch₁, w₁) ∧ (f a).eval M ch₁ w₁ = (.ok b, ch', w') := by
  rcases hp : p.eval M ch w with ⟨e | a, ch₁, w₁⟩
  · rw [eval_bind_error hp] at h
    cases h
  · rw [eval_bind_ok hp] at h
    exact ⟨a, ch₁, w₁, rfl, h⟩

/-- The first part of a program that returns returns. -/
theorem eval_bind_returns {M : Machine S W C E} {p : Prog S β} {f : β → Prog S α} {ch : ℕ → C}
    {w : W} {b : α} (h : ((p.bind f).eval M ch w).1 = .ok b) :
    ∃ a ch' w', p.eval M ch w = (.ok a, ch', w') ∧ ((f a).eval M ch' w').1 = .ok b := by
  rcases hx : (p.bind f).eval M ch w with ⟨x, ch', w'⟩
  rw [hx] at h
  obtain rfl : x = .ok b := h
  obtain ⟨a, ch₁, w₁, hp, hf⟩ := eval_bind_eq_ok hx
  exact ⟨a, ch₁, w₁, hp, congrArg Prod.fst hf⟩

theorem eval_tryCatch_ok {M : Machine S W C E} {p : Prog S α} {f : S.Error → Prog S α}
    {ch ch' : ℕ → C} {w w' : W} {a : α} (h : p.eval M ch w = (.ok a, ch', w')) :
    (p.tryCatch f).eval M ch w = (.ok a, ch', w') := by
  induction p generalizing ch w with
  | ret a' => exact h
  | raise e => simp [eval] at h
  | emit v p ih => exact ih h
  | call r k ih => exact ih _ h

theorem eval_tryCatch_error {M : Machine S W C E} {p : Prog S α} {f : S.Error → Prog S α}
    {ch ch' : ℕ → C} {w w' : W} {e : S.Error} (h : p.eval M ch w = (.error e, ch', w')) :
    (p.tryCatch f).eval M ch w = (f e).eval M ch' w' := by
  induction p generalizing ch w with
  | ret a => simp [eval] at h
  | raise e' =>
    simp only [eval, Prod.mk.injEq, Except.error.injEq] at h
    obtain ⟨rfl, rfl, rfl⟩ := h
    rfl
  | emit v p ih => exact ih h
  | call r k ih => exact ih _ h

/-- Perform the events before the next request or the end. -/
def flush (M : Machine S W C E) : Prog S α → W → Prog S α × W
  | .ret a, w => (.ret a, w)
  | .raise e, w => (.raise e, w)
  | .emit v p, w => p.flush M (M.log v w)
  | .call r k, w => (.call r k, w)

/-- Answer the request `p` waits on with the outcome `c`, and run up to the next one. -/
def resume (M : Machine S W C E) (c : C) : Prog S α → W → Prog S α × W
  | .call r k, w => (k (M.exec r c w).1).flush M (M.exec r c w).2
  | .ret a, w => (.ret a, w)
  | .raise e, w => (.raise e, w)
  | .emit v p, w => (.emit v p, w)

/-- The answer to the first request of a `try`. -/
theorem resume_ask (M : Machine S W C E) (r : S.Req) (f : S.Ans r → Prog S α)
    (h : S.Error → Prog S α) (c : C) (w : W) :
    (((ask r).bind f).tryCatch h).resume M c w =
      match M.exec r c w with
      | (.ok a, w') => ((f a).tryCatch h).flush M w'
      | (.error e, w') => (h e).flush M w' := by
  rcases hx : M.exec r c w with ⟨a | e, w'⟩ <;>
    simp only [ask, bind, tryCatch, resume, hx]

theorem suspended_flush (M : Machine S W C E) (p : Prog S α) (w : W) :
    (p.flush M w).1.Suspended := by
  induction p generalizing w with
  | ret a => trivial
  | raise e => trivial
  | emit v p ih => exact ih _
  | call r k _ => trivial

/-- An answer to a program that has ended does nothing. -/
theorem resume_ended (M : Machine S W C E) {p : Prog S α} (h : p.Ended) (c : C) (w : W) :
    p.resume M c w = (p, w) := by
  cases p with
  | ret a => rfl
  | raise e => rfl
  | emit v p => exact h.elim
  | call r k => exact h.elim

end Prog

/-! ## Many programs -/

/-- Threads, each where it waits or ended, over a shared world. -/
structure Config (S : Sig) (W α : Type) where
  threads : List (Prog S α)
  world : W

/-- Answer thread `i` with the outcome `c`, or let the outside take the step `e`. -/
inductive Action (C E : Type)
  | run (i : ℕ) (c : C)
  | env (e : E)

namespace Config

/-- One action. Naming a thread that does not exist does nothing. -/
def act (M : Machine S W C E) (s : Config S W α) : Action C E → Config S W α
  | .run i c =>
    match s.threads[i]? with
    | some p => ⟨s.threads.set i (p.resume M c s.world).1, (p.resume M c s.world).2⟩
    | none => s
  | .env e => { s with world := M.env e s.world }

/-- The actions of a run, in order. -/
def run (M : Machine S W C E) (as : List (Action C E)) (s : Config S W α) : Config S W α :=
  as.foldl (act M) s

@[simp] theorem run_cons (M : Machine S W C E) (a : Action C E) (as : List (Action C E))
    (s : Config S W α) : s.run M (a :: as) = (s.act M a).run M as :=
  rfl

theorem run_append (M : Machine S W C E) (as as' : List (Action C E)) (s : Config S W α) :
    s.run M (as ++ as') = (s.run M as).run M as' :=
  List.foldl_append

theorem act_run (M : Machine S W C E) {s : Config S W α} {i : ℕ} {p : Prog S α} (c : C)
    (hp : s.threads[i]? = some p) : s.act M (.run i c) =
      ⟨s.threads.set i (p.resume M c s.world).1, (p.resume M c s.world).2⟩ := by
  simp only [act, hp]

/-- Once a thread is set, a thread is the one set or one that was there. -/
theorem getElem?_set {l : List (Prog S α)} {i j : ℕ} {p q r : Prog S α} (hp : l[i]? = some p)
    (h : (l.set i q)[j]? = some r) : j = i ∧ r = q ∨ j ≠ i ∧ l[j]? = some r := by
  by_cases hij : i = j
  · subst hij
    rw [List.getElem?_set_self (List.getElem?_eq_some_iff.1 hp).1] at h
    exact Or.inl ⟨rfl, (Option.some.inj h).symm⟩
  · rw [List.getElem?_set_ne hij] at h
    exact Or.inr ⟨Ne.symm hij, h⟩

/-- After an action a thread has gone on with an answer, or it is where it was. -/
theorem getElem?_act (M : Machine S W C E) {s : Config S W α} {i : ℕ} {p : Prog S α}
    (hp : s.threads[i]? = some p) (a : Action C E) : ∃ q, (s.act M a).threads[i]? = some q ∧
      ((∃ c, a = .run i c ∧ q = (p.resume M c s.world).1) ∨ (∀ c, a ≠ .run i c) ∧ q = p) := by
  cases a with
  | env e => exact ⟨p, hp, Or.inr ⟨by simp, rfl⟩⟩
  | run j c =>
    by_cases hij : j = i
    · subst hij
      rw [act_run M c hp]
      exact ⟨_, List.getElem?_set_self (List.getElem?_eq_some_iff.1 hp).1, Or.inl ⟨c, rfl, rfl⟩⟩
    · refine ⟨p, ?_, Or.inr ⟨by simp [hij], rfl⟩⟩
      simp only [act]
      split
      · rw [List.getElem?_set_ne hij]
        exact hp
      · exact hp

theorem length_act (M : Machine S W C E) (s : Config S W α) (a : Action C E) :
    (s.act M a).threads.length = s.threads.length := by
  cases a with
  | env e => rfl
  | run i c =>
    simp only [act]
    split
    · exact List.length_set
    · rfl

/-- No thread is added or lost. -/
theorem length_run (M : Machine S W C E) : ∀ (as : List (Action C E)) (s : Config S W α),
    (s.run M as).threads.length = s.threads.length
  | [], _ => rfl
  | a :: as, s => (length_run M as (s.act M a)).trans (length_act M s a)

/-- Every action of the run meets `P` in the state it is taken in. -/
def Along (M : Machine S W C E) (P : Config S W α → Action C E → Prop) :
    List (Action C E) → Config S W α → Prop
  | [], _ => True
  | a :: as, s => P s a ∧ Along M P as (s.act M a)

theorem along_append {M : Machine S W C E} {P : Config S W α → Action C E → Prop} :
    ∀ {as as' : List (Action C E)} {s : Config S W α},
      Along M P (as ++ as') s ↔ Along M P as s ∧ Along M P as' (s.run M as)
  | [], _, _ => ⟨fun h => ⟨trivial, h⟩, fun h => h.2⟩
  | a :: as, as', s => by
    simp only [List.cons_append, Along, run_cons, along_append, and_assoc]

theorem along_of_forall {M : Machine S W C E} {P : Config S W α → Action C E → Prop}
    (hP : ∀ s a, P s a) : ∀ (as : List (Action C E)) (s : Config S W α), Along M P as s
  | [], _ => trivial
  | a :: as, s => ⟨hP s a, along_of_forall hP as (s.act M a)⟩

theorem along_and {M : Machine S W C E} {P P' : Config S W α → Action C E → Prop} :
    ∀ {as : List (Action C E)} {s : Config S W α},
      Along M (fun s a => P s a ∧ P' s a) as s ↔ Along M P as s ∧ Along M P' as s
  | [], _ => ⟨fun _ => ⟨trivial, trivial⟩, fun _ => trivial⟩
  | a :: as, s => by
    simp only [Along, along_and]
    exact and_and_and_comm

/-- A run that does not meet `P` throughout has a first action that does not. -/
theorem exists_of_not_along {M : Machine S W C E} {P : Config S W α → Action C E → Prop} :
    ∀ {as : List (Action C E)} {s : Config S W α}, ¬ Along M P as s →
      ∃ as₁ a as₂, as = as₁ ++ a :: as₂ ∧ Along M P as₁ s ∧ ¬ P (s.run M as₁) a
  | [], _, h => absurd trivial h
  | a :: as, s, h => by
    by_cases ha : P s a
    · obtain ⟨as₁, a', as₂, rfl, has, hP⟩ := exists_of_not_along fun has => h ⟨ha, has⟩
      exact ⟨a :: as₁, a', as₂, rfl, ⟨ha, has⟩, hP⟩
    · exact ⟨[], a, as, rfl, trivial, ha⟩

theorem Along.mono {M : Machine S W C E} {P P' : Config S W α → Action C E → Prop}
    (hP : ∀ s a, P s a → P' s a) : ∀ {as : List (Action C E)} {s : Config S W α},
      Along M P as s → Along M P' as s
  | [], _, _ => trivial
  | a :: _, s, h => ⟨hP s a h.1, h.2.mono hP⟩

/-- Thread `i` waits on the request `r`. -/
def Waits (s : Config S W α) (i : ℕ) (r : S.Req) : Prop :=
  ∃ p, s.threads[i]? = some p ∧ p.request = some r

theorem Waits.exists_call {s : Config S W α} {i : ℕ} {r : S.Req} (h : s.Waits i r) :
    ∃ k, s.threads[i]? = some (.call r k) := by
  obtain ⟨p, hp, hr⟩ := h
  cases p with
  | call r' k =>
    obtain rfl : r' = r := by simpa [Prog.request] using hr
    exact ⟨k, hp⟩
  | ret a => simp [Prog.request] at hr
  | raise e => simp [Prog.request] at hr
  | emit v p => simp [Prog.request] at hr

/-- The action answers only with outcomes in `allowed`, and the outside takes only steps
in `outside`. -/
def Meets (allowed : W → S.Req → C → Prop) (outside : W → E → Prop) (s : Config S W α) :
    Action C E → Prop
  | .run i c => ∀ r, s.Waits i r → allowed s.world r c
  | .env e => outside s.world e

/-- Every thread has returned or raised. -/
def Ended (s : Config S W α) : Prop :=
  ∀ p ∈ s.threads, p.Ended

instance (s : Config S W α) : Decidable s.Ended :=
  inferInstanceAs (Decidable (∀ p ∈ s.threads, p.Ended))

theorem waits_iff {s : Config S W α} {i : ℕ} {r : S.Req} :
    s.Waits i r ↔ r ∈ s.threads[i]?.bind Prog.request :=
  Option.bind_eq_some_iff.symm

section Decide

variable (allowed : W → S.Req → C → Prop) (outside : W → E → Prop)
  [∀ w r c, Decidable (allowed w r c)] [∀ w e, Decidable (outside w e)]

instance (s : Config S W α) (a : Action C E) : Decidable (s.Meets allowed outside a) :=
  match a with
  | .run i c => decidable_of_iff (∀ r ∈ s.threads[i]?.bind Prog.request, allowed s.world r c)
      (forall_congr' fun _ => imp_congr_left waits_iff.symm)
  | .env e => inferInstanceAs (Decidable (outside s.world e))

instance decidableAlong (M : Machine S W C E) : (as : List (Action C E)) →
    (s : Config S W α) → Decidable (Along M (Meets allowed outside) as s)
  | [], _ => isTrue trivial
  | a :: as, s =>
    have := decidableAlong M as (s.act M a)
    inferInstanceAs (Decidable (s.Meets allowed outside a ∧ Along M _ as (s.act M a)))

end Decide

instance decidableAlongOf (M : Machine S W C E) {P : Config S W α → Action C E → Prop}
    [∀ s a, Decidable (P s a)] : (as : List (Action C E)) → (s : Config S W α) →
      Decidable (Along M P as s)
  | [], _ => isTrue trivial
  | a :: as, s =>
    have : Decidable (Along M P as (s.act M a)) := decidableAlongOf M as (s.act M a)
    inferInstanceAs (Decidable (P s a ∧ Along M P as (s.act M a)))

/-- An invariant that every action meeting `P` keeps holds after every such run. -/
theorem inv_run {M : Machine S W C E} {P : Config S W α → Action C E → Prop}
    {I : Config S W α → Prop} (hstep : ∀ s a, I s → P s a → I (s.act M a)) :
    ∀ (as : List (Action C E)) (s : Config S W α), I s → Along M P as s → I (s.run M as)
  | [], _, h, _ => h
  | a :: as, s, h, hP => inv_run hstep as (s.act M a) (hstep s a h hP.1) hP.2

end Config

/-! ## Rely and guarantee -/

/-- The terms on which threads share a world. -/
structure Discipline (M : Machine S W C E) where
  /-- Holds whenever a thread waits. -/
  inv : W → Prop
  /-- The changes thread `i` tolerates while it waits. -/
  rely : ℕ → W → W → Prop
  /-- The changes thread `i` makes. -/
  guar : ℕ → W → W → Prop
  /-- The outcomes a request may get. -/
  allowed : W → S.Req → C → Prop
  /-- The steps the outside may take. -/
  outside : W → E → Prop
  /-- What holds of every request that is issued. -/
  duty : W → S.Req → Prop
  rely_refl : ∀ i w, rely i w w
  rely_trans : ∀ {i w w' w''}, rely i w w' → rely i w' w'' → rely i w w''
  guar_rely : ∀ {i j w w'}, i ≠ j → guar j w w' → rely i w w'
  outside_inv : ∀ {w e}, inv w → outside w e → inv (M.env e w)
  outside_rely : ∀ {i w e}, inv w → outside w e → rely i w (M.env e w)

variable {M : Machine S W C E}

/-- Thread `i` at `p` keeps the discipline from `w` on, ends in `Q` when it returns and in
`X` when it raises. Other threads may change the world wherever it waits. -/
def Prog.Safe (D : Discipline M) (i : ℕ) (Q : α → W → Prop) (X : S.Error → W → Prop) :
    Prog S α → W → Prop
  | .ret a, w => Q a w
  | .raise e, w => X e w
  | .emit v p, w => D.guar i w (M.log v w) ∧ p.Safe D i Q X (M.log v w)
  | .call r k, w => D.inv w ∧ ∀ w', D.rely i w w' → D.inv w' → D.duty w' r ∧
      ∀ c, D.allowed w' r c → D.guar i w' (M.exec r c w').2 ∧
        (k (M.exec r c w').1).Safe D i Q X (M.exec r c w').2

namespace Prog

variable {D : Discipline M} {i : ℕ} {Q : α → W → Prop} {X : S.Error → W → Prop}

theorem Safe.mono {Q' : α → W → Prop} {X' : S.Error → W → Prop} {p : Prog S α} {w : W}
    (h : p.Safe D i Q X w) (hQ : ∀ a w, Q a w → Q' a w) (hX : ∀ e w, X e w → X' e w) :
    p.Safe D i Q' X' w := by
  induction p generalizing w with
  | ret a => exact hQ a w h
  | raise e => exact hX e w h
  | emit v p ih => exact ⟨h.1, ih h.2⟩
  | call r k ih =>
    refine ⟨h.1, fun w' hr hi => ?_⟩
    obtain ⟨hd, hc⟩ := h.2 w' hr hi
    exact ⟨hd, fun c ha => ⟨(hc c ha).1, ih _ (hc c ha).2⟩⟩

/-- Sequencing : the first program ends where the second is safe. -/
theorem Safe.bind {Q' : β → W → Prop} {p : Prog S α} {f : α → Prog S β} {w : W}
    (h : p.Safe D i (fun a w => (f a).Safe D i Q' X w) X w) : (p.bind f).Safe D i Q' X w := by
  induction p generalizing w with
  | ret a => exact h
  | raise e => exact h
  | emit v p ih => exact ⟨h.1, ih h.2⟩
  | call r k ih =>
    refine ⟨h.1, fun w' hr hi => ?_⟩
    obtain ⟨hd, hc⟩ := h.2 w' hr hi
    exact ⟨hd, fun c ha => ⟨(hc c ha).1, ih _ (hc c ha).2⟩⟩

/-- `try` : the body raises only where the handler is safe. -/
theorem Safe.tryCatch {p : Prog S α} {h : S.Error → Prog S α} {w : W}
    (hp : p.Safe D i Q (fun e w => (h e).Safe D i Q X w) w) : (p.tryCatch h).Safe D i Q X w := by
  induction p generalizing w with
  | ret a => exact hp
  | raise e => exact hp
  | emit v p ih => exact ⟨hp.1, ih hp.2⟩
  | call r k ih =>
    refine ⟨hp.1, fun w' hr hi => ?_⟩
    obtain ⟨hd, hc⟩ := hp.2 w' hr hi
    exact ⟨hd, fun c ha => ⟨(hc c ha).1, ih _ (hc c ha).2⟩⟩

/-- One request. Its reply is a value that ends in `Q` or an error that ends in `X`. -/
theorem Safe.ask {r : S.Req} {Q : S.Ans r → W → Prop} {w : W} (hinv : D.inv w)
    (h : ∀ w', D.rely i w w' → D.inv w' → D.duty w' r ∧
      ∀ c, D.allowed w' r c → D.guar i w' (M.exec r c w').2 ∧
        match (M.exec r c w').1 with
        | .ok a => Q a (M.exec r c w').2
        | .error e => X e (M.exec r c w').2) : (ask r).Safe D i Q X w := by
  refine ⟨hinv, fun w' hr hi => ⟨(h w' hr hi).1, fun c ha => ?_⟩⟩
  obtain ⟨hg, hx⟩ := (h w' hr hi).2 c ha
  refine ⟨hg, ?_⟩
  cases hex : (M.exec r c w').1 with
  | ok a =>
    simp only [hex] at hx ⊢
    exact hx
  | error e =>
    simp only [hex] at hx ⊢
    exact hx

/-- A waiting thread keeps its obligation while the others make changes it tolerates. -/
theorem Safe.rely {p : Prog S α} {w w' : W} (h : p.Safe D i Q X w) (hp : p.Suspended)
    (hr : D.rely i w w') (hi : D.inv w') (hQ : ∀ a, Q a w → Q a w') (hX : ∀ e, X e w → X e w') :
    p.Safe D i Q X w' := by
  cases p with
  | ret a => exact hQ a h
  | raise e => exact hX e h
  | emit v p => exact hp.elim
  | call r k => exact ⟨hi, fun w'' hr' hi' => h.2 w'' (D.rely_trans hr hr') hi'⟩

theorem Safe.flush {p : Prog S α} {w : W} (h : p.Safe D i Q X w) :
    (p.flush M w).1.Safe D i Q X (p.flush M w).2 ∧
      ∀ j, j ≠ i → D.rely j w (p.flush M w).2 := by
  induction p generalizing w with
  | ret a => exact ⟨h, fun j _ => D.rely_refl j w⟩
  | raise e => exact ⟨h, fun j _ => D.rely_refl j w⟩
  | emit v p ih =>
    obtain ⟨hs, hr⟩ := ih h.2
    exact ⟨hs, fun j hj => D.rely_trans (D.guar_rely hj h.1) (hr j hj)⟩
  | call r k _ => exact ⟨h, fun j _ => D.rely_refl j w⟩

/-- Steps of the outside keep the invariant and are tolerated. -/
theorem outside_steps : ∀ {w : W} (es : List E), D.inv w → (∀ w, ∀ e ∈ es, D.outside w e) →
    D.inv (es.foldl (fun w e => M.env e w) w) ∧
      D.rely i w (es.foldl (fun w e => M.env e w) w)
  | w, [], hi, _ => ⟨hi, D.rely_refl i w⟩
  | w, e :: es, hi, ho => by
    have he := ho w e (by simp)
    obtain ⟨hi', hr⟩ := outside_steps es (D.outside_inv hi he)
      fun w' e' h => ho w' e' (List.mem_cons_of_mem e h)
    exact ⟨hi', D.rely_trans (D.outside_rely hi he) hr⟩

/-- A safe program, run to its end among allowed outcomes and steps, ends in its
postcondition. -/
theorem Safe.eval {p : Prog S α} {w : W} (h : p.Safe D i Q X w) (ch : ℕ → List E × C)
    (hch : ∀ n w r, D.allowed w r (ch n).2) (hout : ∀ n w, ∀ e ∈ (ch n).1, D.outside w e) :
    match p.eval M.withSteps ch w with
    | (.ok a, _, w') => Q a w'
    | (.error e, _, w') => X e w' := by
  induction p generalizing w ch with
  | ret a => exact h
  | raise e => exact h
  | emit v p ih => exact ih h.2 ch hch hout
  | call r k ih =>
    obtain ⟨hi, hr⟩ := outside_steps (i := i) (ch 0).1 h.1 (hout 0)
    exact ih _ ((h.2 _ hr hi).2 (ch 0).2 (hch 0 _ r)).2 (fun n => ch (n + 1))
      (fun n => hch (n + 1)) fun n => hout (n + 1)

end Prog

/-- The end states of thread `i` keep the invariant and survive what it tolerates. -/
structure Stable (D : Discipline M) (i : ℕ) (Q : α → W → Prop) (X : S.Error → W → Prop) :
    Prop where
  ret_inv : ∀ {a w}, Q a w → D.inv w
  raise_inv : ∀ {e w}, X e w → D.inv w
  ret_rely : ∀ {a w w'}, Q a w → D.rely i w w' → D.inv w' → Q a w'
  raise_rely : ∀ {e w w'}, X e w → D.rely i w w' → D.inv w' → X e w'

namespace Config

variable {D : Discipline M} {Q : ℕ → α → W → Prop} {X : ℕ → S.Error → W → Prop}

/-- The invariant holds and every thread meets its obligation. -/
def Safe (D : Discipline M) (Q : ℕ → α → W → Prop) (X : ℕ → S.Error → W → Prop)
    (s : Config S W α) : Prop :=
  D.inv s.world ∧
    ∀ (i : ℕ) (p : Prog S α), s.threads[i]? = some p →
      p.Suspended ∧ p.Safe D i (Q i) (X i) s.world

theorem Safe.duty {s : Config S W α} (h : s.Safe D Q X) {i : ℕ} {r : S.Req} (hw : s.Waits i r) :
    D.duty s.world r := by
  obtain ⟨k, hp⟩ := hw.exists_call
  exact ((h.2 i _ hp).2.2 _ (D.rely_refl i _) h.1).1

/-- A suspended thread that is safe is safe after its next answer, in a world that keeps
the invariant and that every other thread tolerates. -/
theorem resume_safe {i : ℕ} (hst : Stable D i (Q i) (X i)) {p : Prog S α} {w : W} {c : C}
    (hsus : p.Suspended) (hinv : D.inv w) (hp : p.Safe D i (Q i) (X i) w)
    (hc : ∀ r, p.request = some r → D.allowed w r c) :
    D.inv (p.resume M c w).2 ∧ (p.resume M c w).1.Suspended ∧
      (p.resume M c w).1.Safe D i (Q i) (X i) (p.resume M c w).2 ∧
      ∀ j, j ≠ i → D.rely j w (p.resume M c w).2 := by
  cases p with
  | ret a => exact ⟨hinv, trivial, hp, fun j _ => D.rely_refl j w⟩
  | raise e => exact ⟨hinv, trivial, hp, fun j _ => D.rely_refl j w⟩
  | emit v p => exact hsus.elim
  | call r k =>
    obtain ⟨hg, hk⟩ := (hp.2 w (D.rely_refl i w) hinv).2 c (hc r rfl)
    obtain ⟨hs, hr⟩ := hk.flush
    have hsus' := Prog.suspended_flush M (k (M.exec r c w).1) (M.exec r c w).2
    refine ⟨?_, hsus', hs, fun j hj => D.rely_trans (D.guar_rely hj hg) (hr j hj)⟩
    simp only [Prog.resume]
    cases hq : (k (M.exec r c w).1).flush M (M.exec r c w).2 with
    | mk q w' =>
      rw [hq] at hs hsus'
      cases q with
      | ret a => exact hst.ret_inv hs
      | raise e => exact hst.raise_inv hs
      | emit v p => exact hsus'.elim
      | call r' k' => exact hs.1

/-- One action keeps every obligation. -/
theorem Safe.act (hst : ∀ i, Stable D i (Q i) (X i)) {s : Config S W α} (h : s.Safe D Q X)
    {a : Action C E} (ha : Meets D.allowed D.outside s a) : (s.act M a).Safe D Q X := by
  obtain ⟨hinv, hthr⟩ := h
  cases a with
  | env e =>
    have hi := D.outside_inv hinv ha
    refine ⟨hi, fun i p hp => ⟨(hthr i p hp).1, ?_⟩⟩
    have hr := D.outside_rely (i := i) hinv ha
    exact (hthr i p hp).2.rely (hthr i p hp).1 hr hi (fun _ hQ => (hst i).ret_rely hQ hr hi)
      fun _ hX => (hst i).raise_rely hX hr hi
  | run i c =>
    cases hget : s.threads[i]? with
    | none => simpa only [Config.act, hget] using ⟨hinv, hthr⟩
    | some p =>
      obtain ⟨hsus, hp⟩ := hthr i p hget
      obtain ⟨hi, hsus', hs, hr⟩ := resume_safe (hst i) hsus hinv hp
        fun r hreq => ha r ⟨p, hget, hreq⟩
      rw [act_run M c hget]
      refine ⟨hi, fun j q hq => ?_⟩
      rcases getElem?_set hget hq with ⟨rfl, rfl⟩ | ⟨hij, hq⟩
      · exact ⟨hsus', hs⟩
      · have hrj := hr j hij
        exact ⟨(hthr j q hq).1, (hthr j q hq).2.rely (hthr j q hq).1 hrj hi
          (fun _ hQ => (hst j).ret_rely hQ hrj hi) fun _ hX => (hst j).raise_rely hX hrj hi⟩

/-- Rely and guarantee : safe threads are safe after every run that keeps to the allowed
outcomes and outside steps. -/
theorem Safe.run (hst : ∀ i, Stable D i (Q i) (X i)) (as : List (Action C E))
    {s : Config S W α} (h : s.Safe D Q X) (ha : Along M (Meets D.allowed D.outside) as s) :
    (s.run M as).Safe D Q X :=
  inv_run (fun _ _ h ha => h.act hst ha) as s h ha

/-- A thread that has ended satisfies its postcondition. -/
theorem Safe.ended {s : Config S W α} (h : s.Safe D Q X) {i : ℕ} {p : Prog S α}
    (hp : s.threads[i]? = some p) (hend : p.Ended) :
    (∃ a, p = .ret a ∧ Q i a s.world) ∨ ∃ e, p = .raise e ∧ X i e s.world := by
  have hs := (h.2 i p hp).2
  cases p with
  | ret a => exact Or.inl ⟨a, rfl, hs⟩
  | raise e => exact Or.inr ⟨e, rfl, hs⟩
  | emit v p => exact hend.elim
  | call r k => exact hend.elim

end Config

end Async
