import Kreav.Lib.Arrivals
import Kreav.Lib.Triples

/-!
# Clients of a server

A `Server` is a run of calls, with the call of each thread. A client that calls it gets a
`Ticket`, and may ask later, at any time and any number of times, what the call was answered
(`Server.answer`). A crash ends all threads. The tickets given before it have no answer.

Each call has a postcondition of its own. `Server.Serves` says that every thread meets that of
its call, and every turn keeps it (`Serves.turn`), so what a ticket is answered meets the
postcondition of the call it was given for (`Serves.answer`).
-/

namespace Async

variable {S : Sig} {W C E K α : Type}

/-- What a program that has ended returned or raised. -/
def Prog.result : Prog S α → Option (Except S.Error α)
  | .ret a => some (.ok a)
  | .raise e => some (.error e)
  | _ => none

/-- A call to a server : the number of crashes before it, and the thread. -/
structure Ticket where
  epoch : ℕ
  index : ℕ
  deriving DecidableEq, Repr

/-- Threads with their calls, and the number of crashes. -/
structure Server (S : Sig) (W α K : Type) where
  config : Config S W α
  calls : List K
  epoch : ℕ

/-! ## Threads that arrive -/

namespace Config

variable {M : Machine S W C E} {D : Discipline M} {Q Q' : ℕ → α → W → Prop}
  {X X' : ℕ → S.Error → W → Prop} {s : Config S W α}

/-- One more thread that meets its obligation. -/
theorem Safe.call (h : s.Safe D Q X) {p : Prog S α} (hsus : p.Suspended)
    (hp : p.Safe D s.threads.length (Q s.threads.length) (X s.threads.length) s.world) :
    (⟨s.threads ++ [p], s.world⟩ : Config S W α).Safe D Q X := by
  refine ⟨h.1, fun i q hq => ?_⟩
  rcases Nat.lt_or_ge i s.threads.length with hlt | hge
  · rw [List.getElem?_append_left hlt] at hq
    exact h.2 i q hq
  · have hi : i < (s.threads ++ [p]).length := (List.getElem?_eq_some_iff.1 hq).1
    obtain rfl : i = s.threads.length := by
      rw [List.length_append, List.length_singleton] at hi
      omega
    obtain rfl : p = q := by simpa using hq
    exact ⟨hsus, hp⟩

theorem Safe.crash (h : s.Safe D Q X) : (⟨[], s.world⟩ : Config S W α).Safe D Q X :=
  ⟨h.1, fun i p hp => by simp at hp⟩

/-- Postconditions that say the same of the threads that there are. -/
theorem Safe.mono (h : s.Safe D Q X)
    (hQ : ∀ i < s.threads.length, ∀ a w, Q i a w → Q' i a w)
    (hX : ∀ i < s.threads.length, ∀ e w, X i e w → X' i e w) : s.Safe D Q' X' :=
  ⟨h.1, fun i p hp =>
    have hi := (List.getElem?_eq_some_iff.1 hp).1
    ⟨(h.2 i p hp).1, (h.2 i p hp).2.mono (hQ i hi) (hX i hi)⟩⟩

/-- Threads of one postcondition, in a run with arrivals and crashes. -/
theorem Safe.turns {start : K → Prog S α} {Q : α → W → Prop} {X : S.Error → W → Prop}
    {P : Config S W α → Turn C E K → Prop} (hst : ∀ i, Stable D i Q X)
    (hact : ∀ s a, P s (.act a) → s.Meets D.allowed D.outside a)
    (hcall : ∀ k, (start k).Suspended ∧ ∀ i, (start k).Triple D i D.inv Q X)
    (ts : List (Turn C E K)) {s : Config S W α} (h : s.Safe D (fun _ => Q) fun _ => X)
    (hP : During M start P ts s) :
    (s.turns M start ts).Safe D (fun _ => Q) fun _ => X := by
  refine inv_turns (I := fun s => s.Safe D (fun _ => Q) fun _ => X) (fun s t h ht => ?_) ts s h hP
  cases t with
  | act a => exact h.act hst (hact s a ht)
  | call k => exact h.call (hcall k).1 ((hcall k).2 _ _ h.1)
  | crash => exact h.crash

end Config

namespace Server

variable {M : Machine S W C E} {start : K → Prog S α} {s : Server S W α K}

/-- One turn of the server. -/
def turn (M : Machine S W C E) (start : K → Prog S α) (s : Server S W α K) :
    Turn C E K → Server S W α K
  | .act a => { s with config := s.config.turn M start (.act a) }
  | .call k =>
    { s with
      config := s.config.turn M start (.call k)
      calls := s.calls ++ [k] }
  | .crash => ⟨s.config.turn M start .crash, [], s.epoch + 1⟩

@[simp] theorem config_turn (t : Turn C E K) :
    (s.turn M start t).config = s.config.turn M start t := by
  cases t <;> rfl

/-- The ticket of the next call. -/
def ticket (s : Server S W α K) : Ticket :=
  ⟨s.epoch, s.calls.length⟩

/-- What the call of a ticket was answered, if it was. -/
def answer (s : Server S W α K) (t : Ticket) : Option (Except S.Error α) :=
  if t.epoch = s.epoch then s.config.threads[t.index]?.bind Prog.result else none

/-- The ticket was given for the call. -/
def Gave (s : Server S W α K) (t : Ticket) (k : K) : Prop :=
  t.epoch ≤ s.epoch ∧ (t.epoch = s.epoch → s.calls[t.index]? = some k)

theorem gave_ticket (s : Server S W α K) (k : K) :
    (s.turn M start (.call k)).Gave s.ticket k :=
  ⟨Nat.le_refl _, fun _ => List.getElem?_concat_length⟩

theorem Gave.turn {t : Ticket} {k : K} (h : s.Gave t k) (t' : Turn C E K) :
    (s.turn M start t').Gave t k := by
  cases t' with
  | act a => exact h
  | call k' =>
    refine ⟨h.1, fun he => ?_⟩
    have hk := h.2 he
    show (s.calls ++ [k'])[t.index]? = some k
    rw [List.getElem?_append_left (List.getElem?_eq_some_iff.1 hk).1]
    exact hk
  | crash =>
    refine ⟨Nat.le_succ_of_le h.1, fun he => absurd h.1 ?_⟩
    rw [he]
    exact Nat.not_succ_le_self _

/-- Every thread meets the postcondition of its call. -/
structure Serves (D : Discipline M) (Q : K → α → W → Prop) (X : K → S.Error → W → Prop)
    (s : Server S W α K) : Prop where
  length : s.calls.length = s.config.threads.length
  safe : s.config.Safe D (fun i a w => D.inv w ∧ ∀ k ∈ s.calls[i]?, Q k a w)
    fun i e w => D.inv w ∧ ∀ k ∈ s.calls[i]?, X k e w

namespace Serves

variable {D : Discipline M} {Q : K → α → W → Prop} {X : K → S.Error → W → Prop}

/-- Before any call. -/
theorem initial {w : W} (h : D.inv w) (epoch : ℕ) :
    (⟨⟨[], w⟩, [], epoch⟩ : Server S W α K).Serves D Q X :=
  ⟨rfl, h, fun i p hp => by simp at hp⟩

theorem turn (h : s.Serves D Q X) (hst : ∀ k i, Stable D i (Q k) (X k)) {t : Turn C E K}
    (hact : ∀ a, t = .act a → s.config.Meets D.allowed D.outside a)
    (hcall : ∀ k, t = .call k → (start k).Suspended ∧
      ∀ i, (start k).Triple D i D.inv (Q k) (X k)) :
    (s.turn M start t).Serves D Q X := by
  cases t with
  | act a =>
    refine ⟨?_, h.safe.act (fun i => ?_) (hact a rfl)⟩
    · show s.calls.length = (s.config.act M a).threads.length
      rw [Config.length_act]
      exact h.length
    · exact
        { ret_inv := And.left
          raise_inv := And.left
          ret_rely := fun hQ hr hi => ⟨hi, fun k hk => (hst k i).ret_rely (hQ.2 k hk) hr hi⟩
          raise_rely := fun hX hr hi => ⟨hi, fun k hk => (hst k i).raise_rely (hX.2 k hk) hr hi⟩ }
  | call k =>
    obtain ⟨hsus, hp⟩ := hcall k rfl
    have hlen : (s.calls ++ [k]).length = (s.config.threads ++ [start k]).length := by
      simp [h.length]
    -- a thread that was there keeps its call
    have hold : ∀ i < s.config.threads.length, (s.calls ++ [k])[i]? = s.calls[i]? := fun i hi =>
      List.getElem?_append_left (h.length ▸ hi)
    refine ⟨hlen, (h.safe.mono (fun i hi a w hQ => ?_) fun i hi e w hX => ?_).call hsus
      ((hp _ _ h.safe.1).mono (fun a w hQ => ⟨(hst k 0).ret_inv hQ, fun k' hk' => ?_⟩)
        fun e w hX => ⟨(hst k 0).raise_inv hX, fun k' hk' => ?_⟩)⟩
    · exact ⟨hQ.1, fun k' hk' => hQ.2 k' (hold i hi ▸ hk')⟩
    · exact ⟨hX.1, fun k' hk' => hX.2 k' (hold i hi ▸ hk')⟩
    · change k' ∈ (s.calls ++ [k])[s.config.threads.length]? at hk'
      rw [← h.length, List.getElem?_concat_length] at hk'
      obtain rfl := Option.some.inj hk'
      exact hQ
    · change k' ∈ (s.calls ++ [k])[s.config.threads.length]? at hk'
      rw [← h.length, List.getElem?_concat_length] at hk'
      obtain rfl := Option.some.inj hk'
      exact hX
  | crash => exact ⟨rfl, h.safe.1, fun i p hp => by simp [Config.turn] at hp⟩

/-- What a ticket is answered. -/
theorem answer (h : s.Serves D Q X) {t : Ticket} {k : K} (hk : s.Gave t k)
    {x : Except S.Error α} (hx : s.answer t = some x) :
    match x with
    | .ok a => Q k a s.config.world
    | .error e => X k e s.config.world := by
  unfold Server.answer at hx
  split at hx
  · next he =>
    obtain ⟨p, hp, hx⟩ := Option.bind_eq_some_iff.1 hx
    have hcall := hk.2 he
    have hsafe := (h.safe.2 _ p hp).2
    cases p with
    | ret a =>
      obtain rfl := Option.some.inj hx
      exact hsafe.2 k hcall
    | raise e =>
      obtain rfl := Option.some.inj hx
      exact hsafe.2 k hcall
    | emit v p => cases hx
    | call r k => cases hx
  · cases hx

end Serves

end Server

end Async
