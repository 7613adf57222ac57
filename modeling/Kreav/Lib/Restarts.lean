import Kreav.Lib.Protocols

/-!
# Runs with crashes

A crash may come at any point of a run. It ends every thread where it waits and leaves the
world as it is, and the threads of new calls are started (`Move.restart`). `Config.moves`
are runs of such moves, and `Config.Through` says that every move of a run meets a
condition on the state before it.

`Protocol.Invariant.moves` : an invariant of the world and the phases of the threads, as in
`Kreav.Lib.Protocols`, holds after every run with restarts when the calls start at rest and
the invariant allows a crash.
-/

namespace Async

variable {S : Sig} {W C E K α : Type}

/-- An action, or a crash after which these calls are made. -/
inductive Move (C E K : Type)
  | act (a : Action C E)
  | restart (calls : List K)

namespace Config

/-- One move. The calls of a restart start at the beginning of their programs. -/
def move (M : Machine S W C E) (start : K → Prog S α) (s : Config S W α) :
    Move C E K → Config S W α
  | .act a => s.act M a
  | .restart calls => ⟨calls.map start, s.world⟩

/-- The moves of a run, in order. -/
def moves (M : Machine S W C E) (start : K → Prog S α) (ms : List (Move C E K))
    (s : Config S W α) : Config S W α :=
  ms.foldl (move M start) s

variable {M : Machine S W C E} {start : K → Prog S α}

@[simp] theorem moves_cons (m : Move C E K) (ms : List (Move C E K)) (s : Config S W α) :
    s.moves M start (m :: ms) = (s.move M start m).moves M start ms :=
  rfl

/-- Every move of the run meets `P` in the state it is made in. -/
def Through (M : Machine S W C E) (start : K → Prog S α)
    (P : Config S W α → Move C E K → Prop) : List (Move C E K) → Config S W α → Prop
  | [], _ => True
  | m :: ms, s => P s m ∧ Through M start P ms (s.move M start m)

variable {P P' : Config S W α → Move C E K → Prop}

theorem through_append : ∀ {ms ms' : List (Move C E K)} {s : Config S W α},
    Through M start P (ms ++ ms') s ↔
      Through M start P ms s ∧ Through M start P ms' (s.moves M start ms)
  | [], _, _ => ⟨fun h => ⟨trivial, h⟩, fun h => h.2⟩
  | m :: ms, ms', s => by
    simp only [List.cons_append, Through, moves_cons, through_append, and_assoc]

theorem Through.mono (hP : ∀ s m, P s m → P' s m) : ∀ {ms : List (Move C E K)}
    {s : Config S W α}, Through M start P ms s → Through M start P' ms s
  | [], _, _ => trivial
  | _ :: _, _, h => ⟨hP _ _ h.1, h.2.mono hP⟩

instance decidableThrough [∀ s m, Decidable (P s m)] : (ms : List (Move C E K)) →
    (s : Config S W α) → Decidable (Through M start P ms s)
  | [], _ => isTrue trivial
  | m :: ms, s =>
    have := decidableThrough ms (s.move M start m)
    inferInstanceAs (Decidable (P s m ∧ Through M start P ms _))

/-- An invariant that every move meeting `P` keeps holds after every such run. -/
theorem inv_moves {I : Config S W α → Prop}
    (hmove : ∀ s m, I s → P s m → I (s.move M start m)) :
    ∀ (ms : List (Move C E K)) (s : Config S W α), I s → Through M start P ms s →
      I (s.moves M start ms)
  | [], _, h, _ => h
  | m :: ms, s, h, hP => inv_moves hmove ms (s.move M start m) (hmove s m h hP.1) hP.2

end Config

/-- The invariant holds after every run with restarts whose moves meet the condition. -/
theorem Protocol.Invariant.moves {σ : Type} {A : Protocol S σ} {M : Machine S W C E}
    {start : K → Prog S α} {P : Config S W α → Move C E K → Prop} {I : W → (ℕ → σ) → Prop}
    (h : A.Invariant M (fun s a => P s (.act a)) I)
    (hstart : ∀ k, (start k).Suspended ∧ (start k).Conforms A A.rest)
    (hrestart : ∀ s φ calls, I s.world φ → P s (.restart calls) → I s.world fun _ => A.rest)
    (ms : List (Move C E K)) {s : Config S W α} {φ : ℕ → σ} (hs : s.Tracks A φ)
    (hI : I s.world φ) (hP : Config.Through M start P ms s) :
    ∃ ψ, (s.moves M start ms).Tracks A ψ ∧ I (s.moves M start ms).world ψ := by
  refine Config.inv_moves (I := fun s => ∃ ψ, s.Tracks A ψ ∧ I s.world ψ) ?_ ms s ⟨φ, hs, hI⟩ hP
  rintro s m ⟨φ, hs, hI⟩ hm
  cases m with
  | act a => exact h.act hs hI hm
  | restart calls =>
    exact ⟨_, Config.tracks_map hstart calls s.world, hrestart s φ calls hI hm⟩

end Async
