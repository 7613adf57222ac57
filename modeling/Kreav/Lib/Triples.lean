import Kreav.Lib.Schedule

/-!
# Rules of pre- and postconditions

`Prog.Triple D i P p Q X` : thread `i` running `p` from a world in `P` keeps the
discipline `D`, returns in `Q` and raises in `X`. There is one rule for each construct.
The rule of a request asks for a precondition that the other threads keep
(`Discipline.Assertion`).

A program that makes only requests in `R` (`Prog.Uses`) keeps every assertion that each of
these requests keeps (`Prog.Uses.triple`). `Prog.Relates` relates the worlds before and after
a run alone.

`Discipline.apart` is the discipline of threads that stay out of each other's way, and
`Discipline.solo` that of one thread among steps of the outside, whose runs
`Prog.Triple.run_single` judges.
-/

namespace Async

variable {S : Sig} {W C E α β : Type} {M : Machine S W C E}

/-- A condition that thread `i` may rely on while it waits. -/
structure Discipline.Assertion (D : Discipline M) (i : ℕ) (P : W → Prop) : Prop where
  inv : ∀ {w}, P w → D.inv w
  rely : ∀ {w w'}, P w → D.rely i w w' → D.inv w' → P w'

namespace Prog

/-- From a world in `P`, thread `i` keeps the discipline and ends in `Q` or in `X`. -/
def Triple (D : Discipline M) (i : ℕ) (P : W → Prop) (p : Prog S α) (Q : α → W → Prop)
    (X : S.Error → W → Prop) : Prop :=
  ∀ w, P w → p.Safe D i Q X w

variable {D : Discipline M} {i : ℕ} {P P' : W → Prop} {Q : α → W → Prop}
  {X : S.Error → W → Prop}

namespace Triple

theorem ret {a : α} (h : ∀ w, P w → Q a w) : Triple D i P (ret a) Q X :=
  h

theorem raise {e : S.Error} (h : ∀ w, P w → X e w) : Triple D i P (raise e : Prog S α) Q X :=
  h

theorem mono {Q' : α → W → Prop} {X' : S.Error → W → Prop} {p : Prog S α}
    (h : Triple D i P p Q X) (hP : ∀ w, P' w → P w) (hQ : ∀ a w, Q a w → Q' a w)
    (hX : ∀ e w, X e w → X' e w) : Triple D i P' p Q' X' :=
  fun w hw => (h w (hP w hw)).mono hQ hX

theorem bind {R : β → W → Prop} {p : Prog S β} {f : β → Prog S α}
    (hp : Triple D i P p R X) (hf : ∀ b, Triple D i (R b) (f b) Q X) :
    Triple D i P (p.bind f) Q X :=
  fun w hw => ((hp w hw).mono hf fun _ _ hX => hX).bind

theorem tryCatch {Y : S.Error → W → Prop} {p : Prog S α} {f : S.Error → Prog S α}
    (hp : Triple D i P p Q Y) (hf : ∀ e, Triple D i (Y e) (f e) Q X) :
    Triple D i P (p.tryCatch f) Q X :=
  fun w hw => ((hp w hw).mono (fun _ _ hQ => hQ) hf).tryCatch

theorem signal {Q : Unit → W → Prop} {v : S.Event}
    (h : ∀ w, P w → D.guar i w (M.log v w) ∧ Q () (M.log v w)) :
    Triple D i P (signal v) Q X :=
  h

/-- One request, answered in any world the precondition still describes. -/
theorem ask {r : S.Req} {Q : S.Ans r → W → Prop} (hA : D.Assertion i P)
    (hduty : ∀ w, P w → D.duty w r)
    (hguar : ∀ w c, P w → D.allowed w r c → D.guar i w (M.exec r c w).2)
    (hok : ∀ w c a, P w → D.allowed w r c → (M.exec r c w).1 = .ok a → Q a (M.exec r c w).2)
    (herr : ∀ w c e, P w → D.allowed w r c → (M.exec r c w).1 = .error e →
      X e (M.exec r c w).2) : Triple D i P (ask r) Q X := by
  intro w hw
  refine Safe.ask (hA.inv hw) fun w' hr hi => ?_
  have hw' := hA.rely hw hr hi
  refine ⟨hduty w' hw', fun c ha => ⟨hguar w' c hw' ha, ?_⟩⟩
  split
  · next a hx => exact hok w' c a hw' ha hx
  · next e hx => exact herr w' c e hw' ha hx

/-- The program run to its end among allowed outcomes and steps of the outside. -/
theorem eval {p : Prog S α} (h : Triple D i P p Q X) {w : W} (hw : P w) (ch : ℕ → List E × C)
    (hch : ∀ n w r, D.allowed w r (ch n).2) (hout : ∀ n w, ∀ e ∈ (ch n).1, D.outside w e) :
    match p.eval M.withSteps ch w with
    | (.ok a, _, w') => Q a w'
    | (.error e, _, w') => X e w' :=
  (h w hw).eval ch hch hout

end Triple

/-! ## Programs that use few requests -/

/-- Every request the program can make is in `R`. -/
def Uses (R : S.Req → Prop) : Prog S α → Prop
  | .ret _ => True
  | .raise _ => True
  | .emit _ p => p.Uses R
  | .call r k => R r ∧ ∀ x, (k x).Uses R

variable {R : S.Req → Prop}

theorem Uses.mono {R' : S.Req → Prop} {p : Prog S α} (h : p.Uses R) (hR : ∀ r, R r → R' r) :
    p.Uses R' := by
  induction p with
  | ret a => trivial
  | raise e => trivial
  | emit v p ih => exact ih h
  | call r k ih => exact ⟨hR r h.1, fun x => ih x (h.2 x)⟩

theorem Uses.ret (a : α) : (ret a : Prog S α).Uses R :=
  trivial

theorem Uses.raise (e : S.Error) : (raise e : Prog S α).Uses R :=
  trivial

theorem Uses.signal (v : S.Event) : (signal v : Prog S Unit).Uses R :=
  trivial

theorem Uses.ask {r : S.Req} (h : R r) : (ask r : Prog S (S.Ans r)).Uses R :=
  ⟨h, fun x => by cases x <;> trivial⟩

theorem Uses.bind {p : Prog S β} {f : β → Prog S α} (hp : p.Uses R) (hf : ∀ b, (f b).Uses R) :
    (p.bind f).Uses R := by
  induction p with
  | ret b => exact hf b
  | raise e => trivial
  | emit v p ih => exact ih hp
  | call r k ih => exact ⟨hp.1, fun x => ih x (hp.2 x)⟩

theorem Uses.tryCatch {p : Prog S α} {f : S.Error → Prog S α} (hp : p.Uses R)
    (hf : ∀ e, (f e).Uses R) : (p.tryCatch f).Uses R := by
  induction p with
  | ret a => trivial
  | raise e => exact hf e
  | emit v p ih => exact ih hp
  | call r k ih => exact ⟨hp.1, fun x => ih x (hp.2 x)⟩

/-- The request is somewhere in the program. -/
def Makes (r : S.Req) : Prog S α → Prop
  | .ret _ => False
  | .raise _ => False
  | .emit _ p => p.Makes r
  | .call r' k => r' = r ∨ ∃ x, (k x).Makes r

/-- A program makes the requests it uses. -/
theorem Uses.makes {p : Prog S α} (h : p.Uses R) {r : S.Req} (hr : p.Makes r) : R r := by
  induction p with
  | ret a => exact hr.elim
  | raise e => exact hr.elim
  | emit v p ih => exact ih h hr
  | call r' k ih =>
    rcases hr with rfl | ⟨x, hx⟩
    · exact h.1
    · exact ih x (h.2 x) hx

/-- A property of programs that sequencing and `try` keep. What holds of the requests of a
method then holds of the method. -/
structure Compositional (K : ∀ α : Type, Prog S α → Prop) : Prop where
  ret : ∀ {α} (a : α), K α (.ret a)
  raise : ∀ {α} (e : S.Error), K α (.raise e)
  bind : ∀ {α β} {p : Prog S β} {f : β → Prog S α}, K β p → (∀ b, K α (f b)) → K α (p.bind f)
  tryCatch : ∀ {α} {p : Prog S α} {f : S.Error → Prog S α}, K α p → (∀ e, K α (f e)) →
    K α (p.tryCatch f)

theorem Uses.compositional (R : S.Req → Prop) :
    Compositional fun _ (p : Prog S _) => p.Uses R where
  ret := Uses.ret
  raise := Uses.raise
  bind := Uses.bind
  tryCatch := Uses.tryCatch

/-- The worlds before and after a run of the program are related. -/
def Relates (M : Machine S W C E) (R : W → W → Prop) (p : Prog S α) : Prop :=
  ∀ ch w, R w (p.eval M ch w).2.2

theorem Relates.ask {M : Machine S W C E} {R : W → W → Prop} {r : S.Req}
    (h : ∀ c w, R w (M.exec r c w).2) : (ask r).Relates M R := by
  intro ch w
  rw [eval_ask_eq]
  exact h _ w

theorem Relates.compositional (M : Machine S W C E) {R : W → W → Prop} (hrefl : ∀ w, R w w)
    (htrans : ∀ {w w' w''}, R w w' → R w' w'' → R w w'') :
    Compositional fun _ (p : Prog S _) => p.Relates M R where
  ret _ _ w := hrefl w
  raise _ _ w := hrefl w
  bind {α β p f} hp hf ch w := by
    have hpw := hp ch w
    rcases hx : p.eval M ch w with ⟨e | b, ch', w'⟩
    · rw [eval_bind_error hx]
      rwa [hx] at hpw
    · rw [eval_bind_ok hx]
      rw [hx] at hpw
      exact htrans hpw (hf b ch' w')
  tryCatch {α p f} hp hf ch w := by
    have hpw := hp ch w
    rcases hx : p.eval M ch w with ⟨e | b, ch', w'⟩
    · rw [eval_tryCatch_error hx]
      rw [hx] at hpw
      exact htrans hpw (hf e ch' w')
    · rw [eval_tryCatch_ok hx]
      rwa [hx] at hpw

/-- The program keeps `P`, whatever it returns or raises. -/
def Keeps (D : Discipline M) (i : ℕ) (P : W → Prop) (p : Prog S α) : Prop :=
  p.Triple D i P (fun _ => P) fun _ => P

theorem Keeps.compositional (D : Discipline M) (i : ℕ) (P : W → Prop) :
    Compositional fun _ (p : Prog S _) => p.Keeps D i P where
  ret _ := Triple.ret fun _ h => h
  raise _ := Triple.raise fun _ h => h
  bind hp hf := Triple.bind hp hf
  tryCatch hp hf := Triple.tryCatch hp hf

end Prog

/-- Every request in `R` and every event keep the condition `P` of thread `i`. -/
structure Discipline.Frame (D : Discipline M) (i : ℕ) (P : W → Prop) (R : S.Req → Prop) :
    Prop where
  assertion : D.Assertion i P
  duty : ∀ {w r}, R r → P w → D.duty w r
  exec : ∀ {w r c}, R r → P w → D.allowed w r c →
    D.guar i w (M.exec r c w).2 ∧ P (M.exec r c w).2
  log : ∀ {w v}, P w → D.guar i w (M.log v w) ∧ P (M.log v w)

/-- A program that uses only requests which keep `P` keeps it, whatever it returns. -/
theorem Prog.Uses.triple {D : Discipline M} {i : ℕ} {P : W → Prop} {R : S.Req → Prop}
    {p : Prog S α} (h : p.Uses R) (hF : D.Frame i P R) :
    p.Triple D i P (fun _ => P) fun _ => P := by
  intro w hw
  induction p generalizing w with
  | ret a => exact hw
  | raise e => exact hw
  | emit v p ih => exact ⟨(hF.log hw).1, ih h _ (hF.log hw).2⟩
  | call r k ih =>
    refine ⟨hF.assertion.inv hw, fun w' hr hi => ?_⟩
    have hw' := hF.assertion.rely hw hr hi
    exact ⟨hF.duty h.1 hw', fun c ha =>
      ⟨(hF.exec h.1 hw' ha).1, ih _ (h.2 _) _ (hF.exec h.1 hw' ha).2⟩⟩

/-! ## Disciplines -/

/-- Threads none of which changes what another relies on. -/
def Discipline.apart (M : Machine S W C E) (inv : W → Prop) (R : ℕ → W → W → Prop)
    (allowed : W → S.Req → C → Prop) (outside : W → E → Prop)
    (refl : ∀ i w, R i w w) (trans : ∀ {i w w' w''}, R i w w' → R i w' w'' → R i w w'')
    (env : ∀ {w e}, inv w → outside w e → inv (M.env e w) ∧ ∀ i, R i w (M.env e w)) :
    Discipline M where
  inv := inv
  rely := R
  guar j w w' := ∀ i, i ≠ j → R i w w'
  allowed := allowed
  outside := outside
  duty _ _ := True
  rely_refl := refl
  rely_trans := trans
  guar_rely hij h := h _ hij
  outside_inv hi ho := (env hi ho).1
  outside_rely hi ho := (env hi ho).2 _


/-- One thread among steps of the outside that make changes in `R`. -/
def Discipline.solo (M : Machine S W C E) (inv : W → Prop) (R : W → W → Prop)
    (allowed : W → S.Req → C → Prop) (outside : W → E → Prop) (duty : W → S.Req → Prop)
    (refl : ∀ w, R w w) (trans : ∀ {w w' w''}, R w w' → R w' w'' → R w w'')
    (env : ∀ {w e}, inv w → outside w e → inv (M.env e w) ∧ R w (M.env e w)) :
    Discipline M where
  inv := inv
  rely i w w' := i = 0 → R w w'
  guar j w w' := j ≠ 0 → w' = w
  allowed := allowed
  outside := outside
  duty := duty
  rely_refl _ w _ := refl w
  rely_trans h h' hi := trans (h hi) (h' hi)
  guar_rely := by
    rintro i j w w' hij hg rfl
    rw [hg hij.symm]
    exact refl w
  outside_inv hi ho := (env hi ho).1
  outside_rely hi ho _ := (env hi ho).2

/-- The runs of one thread. The invariant holds after each, and the postcondition once the
thread has ended. -/
theorem Prog.Triple.run_single {D : Discipline M} {P : W → Prop} {p : Prog S α}
    {Q : α → W → Prop} {X : S.Error → W → Prop} (h : p.Triple D 0 P Q X)
    (hst : Stable D 0 Q X) (hsus : p.Suspended) {w : W} (hw : P w) (hinv : D.inv w)
    (as : List (Action C E)) (ha : Config.Along M (Config.Meets D.allowed D.outside) as ⟨[p], w⟩) :
    D.inv (Config.run M as ⟨[p], w⟩).world ∧
      ∀ q, (Config.run M as ⟨[p], w⟩).threads[0]? = some q → q.Ended →
        (∃ a, q = .ret a ∧ Q a (Config.run M as ⟨[p], w⟩).world) ∨
          ∃ e, q = .raise e ∧ X e (Config.run M as ⟨[p], w⟩).world := by
  have hst' : ∀ i, Stable D i (fun a w => (i = 0 → Q a w) ∧ D.inv w)
      (fun e w => (i = 0 → X e w) ∧ D.inv w) := fun i =>
    { ret_inv := And.right
      raise_inv := And.right
      ret_rely := fun hQ hr hi => ⟨by
        rintro rfl
        exact hst.ret_rely (hQ.1 rfl) hr hi, hi⟩
      raise_rely := fun hX hr hi => ⟨by
        rintro rfl
        exact hst.raise_rely (hX.1 rfl) hr hi, hi⟩ }
  have hsafe : Config.Safe D (fun i a w => (i = 0 → Q a w) ∧ D.inv w)
      (fun i e w => (i = 0 → X e w) ∧ D.inv w) ⟨[p], w⟩ := by
    refine ⟨hinv, fun i q hq => ?_⟩
    obtain ⟨hi, hq⟩ := List.getElem?_eq_some_iff.1 hq
    obtain rfl : i = 0 := by simpa using hi
    obtain rfl : p = q := hq
    exact ⟨hsus, (h w hw).mono (fun a w hQ => ⟨fun _ => hQ, hst.ret_inv hQ⟩)
      fun e w hX => ⟨fun _ => hX, hst.raise_inv hX⟩⟩
  have hrun := hsafe.run hst' as ha
  refine ⟨hrun.1, fun q hq hend => ?_⟩
  rcases hrun.ended hq hend with ⟨a, rfl, hQ⟩ | ⟨e, rfl, hX⟩
  · exact Or.inl ⟨a, rfl, hQ.1 rfl⟩
  · exact Or.inr ⟨e, rfl, hX.1 rfl⟩

end Async
