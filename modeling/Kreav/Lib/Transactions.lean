import Kreav.Lib.Schedule

/-!
# Interactive transactions

`S.transactional` has the statements of `S` and, besides, the beginning and the end of a
transaction. `M.staged` runs the statements of an open transaction on a copy of the data. A
commit publishes the copy. A rollback drops it, and so does a commit that fails.

`Prog.transaction` runs statements in a transaction, and rolls back on an error. It changes
nothing, or it returns and leaves the data as the statements do on their own
(`eval_transaction`).
-/

namespace Async

/-- A statement, or an end of a transaction. -/
inductive TxRequest (R : Type)
  | begin
  | commit
  | rollback
  | statement (r : R)
  deriving DecidableEq, Repr

/-- Committed data, and the copy an open transaction works on. -/
structure Staged (D : Type) where
  committed : D
  working : Option D

namespace Staged

variable {D : Type}

/-- The data without an open transaction. -/
def closed (d : D) : Staged D :=
  ⟨d, none⟩

/-- What a statement sees. -/
def current (s : Staged D) : D :=
  s.working.getD s.committed

/-- A statement leaves `d`. -/
def put (d : D) (s : Staged D) : Staged D :=
  match s.working with
  | none => ⟨d, none⟩
  | some _ => ⟨s.committed, some d⟩

@[simp] theorem current_put (d : D) (s : Staged D) : (s.put d).current = d := by
  rcases s with ⟨c, _ | w⟩ <;> rfl

@[simp] theorem put_put (d d' : D) (s : Staged D) : (s.put d).put d' = s.put d' := by
  rcases s with ⟨c, _ | w⟩ <;> rfl

@[simp] theorem put_current (s : Staged D) : s.put s.current = s := by
  rcases s with ⟨c, _ | w⟩ <;> rfl

end Staged

namespace Sig

/-- The answer to a statement is its answer in `S`. -/
def TxAns (S : Sig) : TxRequest S.Req → Type
  | .begin => Unit
  | .commit => Unit
  | .rollback => Unit
  | .statement r => S.Ans r

/-- The statements of `S`, and transactions. -/
abbrev transactional (S : Sig) : Sig where
  Req := TxRequest S.Req
  Ans := S.TxAns
  Event := S.Event
  Error := S.Error

end Sig

variable {S : Sig} {D C E α : Type}

/-- Statements act on the open transaction, if there is one. A transaction cannot begin or
commit when the database is down, with the error `gone`. -/
def Machine.staged (M : Machine S D C E) (down : C → Bool) (gone : S.Error) :
    Machine S.transactional (Staged D) C E where
  exec
    | .begin, c, s => if down c then (.error gone, s) else (.ok (), ⟨s.committed, s.committed⟩)
    | .commit, c, s => if down c then (.error gone, .closed s.committed)
      else (.ok (), .closed s.current)
    | .rollback, _, s => (.ok (), .closed s.committed)
    | .statement r, c, s => ((M.exec r c s.current).1, s.put (M.exec r c s.current).2)
  log v s := s.put (M.log v s.current)
  env e s := { s with committed := M.env e s.committed }

namespace Prog

/-- Statements, as they are made on the open transaction or outside of any. -/
def statements : Prog S α → Prog S.transactional α
  | .ret a => .ret a
  | .raise e => .raise e
  | .emit v p => .emit v p.statements
  | .call r k => .call (.statement r) fun x => (k x).statements

/-- `$transaction(async (tx) => …)`. -/
def transaction (p : Prog S α) : Prog S.transactional α := do
  ask (S := S.transactional) .begin
  let a ← tryCatch p.statements fun e => do
    ask (S := S.transactional) .rollback
    throw e
  ask (S := S.transactional) .commit
  return a

variable (M : Machine S D C E) (down : C → Bool) (gone : S.Error)

/-- Statements have their own effect on what they see. -/
theorem eval_statements (p : Prog S α) (ch : ℕ → C) (s : Staged D) :
    p.statements.eval (M.staged down gone) ch s =
      ((p.eval M ch s.current).1, (p.eval M ch s.current).2.1,
        s.put (p.eval M ch s.current).2.2) := by
  induction p generalizing ch s with
  | ret a => simp only [statements, eval, Staged.put_current]
  | raise e => simp only [statements, eval, Staged.put_current]
  | emit v p ih =>
    have hlog : (M.staged down gone).log v s = s.put (M.log v s.current) := rfl
    simp only [statements, eval]
    rw [hlog, ih, Staged.current_put, Staged.put_put]
  | call r k ih =>
    have hexec : (M.staged down gone).exec (.statement r) (ch 0) s =
        ((M.exec r (ch 0) s.current).1, s.put (M.exec r (ch 0) s.current).2) := rfl
    simp only [statements, eval]
    rw [hexec, ih, Staged.current_put, Staged.put_put]

/-- A transaction throws and changes nothing, or returns and leaves what its statements
leave. -/
theorem eval_transaction (p : Prog S α) (ch : ℕ → C) (d : D) :
    (∃ e ch', p.transaction.eval (M.staged down gone) ch (.closed d) = (.error e, ch', .closed d)) ∨
      ∃ a ch₁ ch' d', p.eval M (fun n => ch (n + 1)) d = (.ok a, ch₁, d') ∧
        p.transaction.eval (M.staged down gone) ch (.closed d) = (.ok a, ch', .closed d') := by
  by_cases hbegin : down (ch 0) = true
  · have hexec : (M.staged down gone).exec .begin (ch 0) (.closed d) =
        (.error gone, .closed d) := if_pos hbegin
    exact .inl ⟨gone, _, eval_ask_error _ hexec⟩
  have hexec : (M.staged down gone).exec .begin (ch 0) (.closed d) = (.ok (), ⟨d, d⟩) :=
    if_neg hbegin
  have heval := eval_statements M down gone p (fun n => ch (n + 1)) ⟨d, d⟩
  have hrun : p.transaction.eval (M.staged down gone) ch (.closed d) =
      ((p.statements.tryCatch fun e => (ask (S := S.transactional) .rollback).bind fun _ =>
        .raise e).bind fun a => (ask (S := S.transactional) .commit).bind fun _ =>
          .ret a).eval (M.staged down gone) (fun n => ch (n + 1)) ⟨d, d⟩ := eval_ask _ hexec
  rw [hrun]
  rcases hp : p.eval M (fun n => ch (n + 1)) d with ⟨e | a, ch₁, d'⟩
  · -- the statements throw : the copy is dropped
    have herr : p.statements.eval (M.staged down gone) (fun n => ch (n + 1)) ⟨d, d⟩ =
        (.error e, ch₁, ⟨d, d'⟩) := by
      rw [heval]
      simp only [Staged.current, Option.getD_some, hp, Staged.put]
    refine .inl ⟨e, fun n => ch₁ (n + 1), eval_bind_error ?_⟩
    rw [eval_tryCatch_error herr, eval_ask _ rfl]
    rfl
  · have hok : p.statements.eval (M.staged down gone) (fun n => ch (n + 1)) ⟨d, d⟩ =
        (.ok a, ch₁, ⟨d, d'⟩) := by
      rw [heval]
      simp only [Staged.current, Option.getD_some, hp, Staged.put]
    rw [eval_bind_ok (eval_tryCatch_ok hok)]
    by_cases hcommit : down (ch₁ 0) = true
    · have hexec : (M.staged down gone).exec .commit (ch₁ 0) ⟨d, d'⟩ =
          (.error gone, .closed d) := if_pos hcommit
      exact .inl ⟨gone, _, eval_ask_error _ hexec⟩
    · have hexec : (M.staged down gone).exec .commit (ch₁ 0) ⟨d, d'⟩ =
          (.ok (), .closed d') := if_neg hcommit
      exact .inr ⟨a, ch₁, _, d', rfl, eval_ask _ hexec⟩

end Prog

end Async
