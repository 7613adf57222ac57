import Mathlib.Logic.Function.Basic
import Mathlib.Order.Lattice
import Mathlib.Order.Nat

/-!
# Entries that expire

A store whose entries live until a given tick of a clock. The clock moves on (`pass`), and
an entry is created with a time to live (`create`) or kept alive for at least a time
(`extend`). It is `Expired` once the clock is past its last tick. An extension shortens no
life (`le_liveUntil_extend`).
-/

/-- The current tick, and the last one each entry is live in. -/
structure Lifetimes (E : Type) where
  now : ℕ
  liveUntil : E → ℕ

namespace Lifetimes

variable {E : Type}

/-- The lifetime of the entry is over. -/
def Expired (l : Lifetimes E) (e : E) : Prop :=
  l.liveUntil e < l.now

instance (l : Lifetimes E) (e : E) : Decidable (l.Expired e) :=
  inferInstanceAs (Decidable (_ < _))

/-- `n` ticks go by. -/
def pass (n : ℕ) (l : Lifetimes E) : Lifetimes E :=
  { l with now := l.now + n }

@[simp] theorem now_pass (n : ℕ) (l : Lifetimes E) : (l.pass n).now = l.now + n :=
  rfl

@[simp] theorem liveUntil_pass (n : ℕ) (l : Lifetimes E) (e : E) :
    (l.pass n).liveUntil e = l.liveUntil e :=
  rfl

/-- An entry is live up to its last tick. -/
theorem not_expired_of_le {l : Lifetimes E} {e : E} (h : l.now ≤ l.liveUntil e) :
    ¬ l.Expired e :=
  not_lt.2 h

variable [DecidableEq E]

/-- A new entry, or one that is written again. -/
def create (e : E) (ttl : ℕ) (l : Lifetimes E) : Lifetimes E :=
  { l with liveUntil := Function.update l.liveUntil e (l.now + ttl) }

/-- Keep an entry alive for `ttl` ticks from now at least. -/
def extend (e : E) (ttl : ℕ) (l : Lifetimes E) : Lifetimes E :=
  { l with liveUntil := Function.update l.liveUntil e (max (l.liveUntil e) (l.now + ttl)) }

@[simp] theorem now_create (e : E) (ttl : ℕ) (l : Lifetimes E) : (l.create e ttl).now = l.now :=
  rfl

@[simp] theorem now_extend (e : E) (ttl : ℕ) (l : Lifetimes E) : (l.extend e ttl).now = l.now :=
  rfl

theorem liveUntil_create_ne {e e' : E} (h : e' ≠ e) (ttl : ℕ) (l : Lifetimes E) :
    (l.create e ttl).liveUntil e' = l.liveUntil e' :=
  Function.update_of_ne h _ _

@[simp] theorem liveUntil_extend_self (e : E) (ttl : ℕ) (l : Lifetimes E) :
    (l.extend e ttl).liveUntil e = max (l.liveUntil e) (l.now + ttl) :=
  Function.update_self ..

/-- An extension shortens no life. -/
theorem le_liveUntil_extend (e e' : E) (ttl : ℕ) (l : Lifetimes E) :
    l.liveUntil e' ≤ (l.extend e ttl).liveUntil e' := by
  by_cases h : e' = e
  · subst h
    rw [liveUntil_extend_self]
    exact le_max_left _ _
  · exact (Function.update_of_ne h _ _).ge

end Lifetimes
