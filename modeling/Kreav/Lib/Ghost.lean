import Kreav.Lib.Schedule

/-!
# Machines that keep a record

`Machine.record M f` is the machine `M` over a world that also keeps what `f` reads off the
answers, in order. Nothing a program can see depends on the record, so a run of the
recording machine is a run of `M` (`Config.forget_run`), and its record is a history
variable for statements and invariants about `M`.
-/

namespace Async

variable {S : Sig} {W C E G α : Type}

/-- The machine that also records what `f` reads off each answer. -/
def Machine.record (M : Machine S W C E)
    (f : (r : S.Req) → Except S.Error (S.Ans r) → List G) : Machine S (W × List G) C E where
  exec r c w :=
    ((M.exec r c w.1).1, (M.exec r c w.1).2, w.2 ++ f r (M.exec r c w.1).1)
  log v w := (M.log v w.1, w.2)
  env e w := (M.env e w.1, w.2)

variable {M : Machine S W C E} {f : (r : S.Req) → Except S.Error (S.Ans r) → List G}

namespace Prog

theorem flush_record (p : Prog S α) (w : W × List G) :
    p.flush (M.record f) w = ((p.flush M w.1).1, (p.flush M w.1).2, w.2) := by
  induction p generalizing w with
  | emit v p ih => exact ih _
  | _ => rfl

theorem resume_record (p : Prog S α) (c : C) (w : W × List G) :
    (p.resume (M.record f) c w).1 = (p.resume M c w.1).1 ∧
      (p.resume (M.record f) c w).2.1 = (p.resume M c w.1).2 := by
  cases p with
  | call r k =>
    simp only [resume, flush_record]
    exact ⟨rfl, rfl⟩
  | _ => exact ⟨rfl, rfl⟩

end Prog

namespace Config

/-- The configuration without the record. -/
def forget (s : Config S (W × List G) α) : Config S W α :=
  ⟨s.threads, s.world.1⟩

theorem forget_act (s : Config S (W × List G) α) (a : Action C E) :
    (s.act (M.record f) a).forget = s.forget.act M a := by
  cases a with
  | env e => rfl
  | run i c =>
    cases hp : s.threads[i]? with
    | none => simp only [act, forget, hp]
    | some p =>
      obtain ⟨hprog, hworld⟩ := Prog.resume_record (M := M) (f := f) p c s.world
      have hp' : s.forget.threads[i]? = some p := hp
      rw [act_run _ c hp, act_run _ c hp', forget, hprog, hworld]
      rfl

/-- Recording changes nothing. -/
theorem forget_run : ∀ (as : List (Action C E)) (s : Config S (W × List G) α),
    (s.run (M.record f) as).forget = s.forget.run M as
  | [], _ => rfl
  | a :: as, s => by
    rw [run_cons, run_cons, forget_run as, forget_act]

end Config

end Async
