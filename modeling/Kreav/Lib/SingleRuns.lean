import Kreav.Lib.Triples

/-!
# Programs that run alone

`p.Ensures M w Q X` : run alone from the world `w`, on any outcomes, the program `p` returns in
`Q` or raises in `X`. `Agrees M p q w w' Q` compares two runs on the same outcomes, of `p` from
`w` and of `q` from `w'` : they return or raise the same, and returns are in `Q`. There is one
rule for each construct.

`S.extend R Ans` has the requests of `S` and those in `R` besides. A program over `S` is one
over the extension (`Prog.lift`), and it runs as before (`Prog.eval_lift`).
-/

namespace Async

variable {S : Sig} {W C E α β : Type}

namespace Prog

/-! ## One run -/

/-- Run alone from `w`, the program returns in `Q` or raises in `X`. -/
def Ensures (M : Machine S W C E) (w : W) (Q : α → W → Prop) (X : W → Prop) (p : Prog S α) :
    Prop :=
  ∀ ch, (∃ e rest v, p.eval M ch w = (.error e, rest, v) ∧ X v) ∨
    ∃ a rest v, p.eval M ch w = (.ok a, rest, v) ∧ Q a v

variable {M : Machine S W C E} {w : W} {Q : α → W → Prop} {X : W → Prop}

namespace Ensures

theorem ret {a : α} (h : Q a w) : (ret a).Ensures M w Q X := fun ch =>
  .inr ⟨a, ch, w, rfl, h⟩

theorem raise {e : S.Error} (h : X w) : (raise e : Prog S α).Ensures M w Q X := fun ch =>
  .inl ⟨e, ch, w, rfl, h⟩

theorem mono {Q' : α → W → Prop} {X' : W → Prop} {p : Prog S α} (h : p.Ensures M w Q X)
    (hQ : ∀ a v, Q a v → Q' a v) (hX : ∀ v, X v → X' v) : p.Ensures M w Q' X' := by
  intro ch
  rcases h ch with ⟨e, rest, v, he, hv⟩ | ⟨a, rest, v, he, hv⟩
  · exact .inl ⟨e, rest, v, he, hX v hv⟩
  · exact .inr ⟨a, rest, v, he, hQ a v hv⟩

theorem bind {R : β → W → Prop} {p : Prog S β} {f : β → Prog S α} (hp : p.Ensures M w R X)
    (hf : ∀ b v, R b v → (f b).Ensures M v Q X) : (p.bind f).Ensures M w Q X := by
  intro ch
  rcases hp ch with ⟨e, rest, v, he, hv⟩ | ⟨b, rest, v, he, hv⟩
  · exact .inl ⟨e, rest, v, eval_bind_error he, hv⟩
  · rw [eval_bind_ok he]
    exact hf b v hv rest

theorem tryCatch {Y : W → Prop} {p : Prog S α} {f : S.Error → Prog S α}
    (hp : p.Ensures M w Q Y) (hf : ∀ e v, Y v → (f e).Ensures M v Q X) :
    (p.tryCatch f).Ensures M w Q X := by
  intro ch
  rcases hp ch with ⟨e, rest, v, he, hv⟩ | ⟨a, rest, v, he, hv⟩
  · rw [eval_tryCatch_error he]
    exact hf e v hv rest
  · exact .inr ⟨a, rest, v, eval_tryCatch_ok he, hv⟩

/-- One request, for each of its outcomes. -/
theorem ask {r : S.Req} {Q : S.Ans r → W → Prop}
    (hok : ∀ c a v, M.exec r c w = (.ok a, v) → Q a v)
    (herr : ∀ c e v, M.exec r c w = (.error e, v) → X v) : (ask r).Ensures M w Q X := by
  intro ch
  rcases hx : M.exec r (ch 0) w with ⟨e | a, v⟩
  · exact .inl ⟨e, _, v, eval_ask_of hx, herr _ e v hx⟩
  · exact .inr ⟨a, _, v, eval_ask_of hx, hok _ a v hx⟩

/-- The world after a run. -/
theorem world {Z : W → Prop} {p : Prog S α} (h : p.Ensures M w (fun _ => Z) Z) (ch : ℕ → C) :
    Z (p.eval M ch w).2.2 := by
  rcases h ch with ⟨e, rest, v, he, hv⟩ | ⟨a, rest, v, he, hv⟩
  · rwa [he]
  · rwa [he]

/-- A program that leaves every world as it is. -/
theorem of_relates {p : Prog S α} (h : p.Relates M Eq) (w : W) :
    p.Ensures M w (fun _ v => v = w) fun v => v = w := by
  intro ch
  have hw := h ch w
  rcases hp : p.eval M ch w with ⟨e | a, rest, v⟩
  · exact .inl ⟨e, rest, v, rfl, by rw [hw, hp]⟩
  · exact .inr ⟨a, rest, v, rfl, by rw [hw, hp]⟩

/-- What holds before every request and after it holds after the program. -/
theorem compositional (M : Machine S W C E) (Z : W → Prop) :
    Compositional fun _ (p : Prog S _) => ∀ w, Z w → p.Ensures M w (fun _ => Z) Z where
  ret _ _ h := ret h
  raise _ _ h := raise h
  bind hp hf w h := bind (hp w h) hf
  tryCatch hp hf w h := tryCatch (hp w h) hf

end Ensures

/-! ## Two runs -/

/-- Run alone on the same outcomes, `p` from `w` and `q` from `w'` return or raise the same,
and returns are in `Q`. -/
def Agrees (M : Machine S W C E) (p q : Prog S α) (w w' : W) (Q : α → W → W → Prop) : Prop :=
  ∀ ch, (∃ e rest v v', p.eval M ch w = (.error e, rest, v) ∧
      q.eval M ch w' = (.error e, rest, v')) ∨
    ∃ a rest v v', p.eval M ch w = (.ok a, rest, v) ∧ q.eval M ch w' = (.ok a, rest, v') ∧
      Q a v v'

namespace Agrees

variable {w' : W} {Q : α → W → W → Prop}

theorem ret {a : α} (h : Q a w w') : Agrees M (.ret a) (.ret a) w w' Q := fun ch =>
  .inr ⟨a, ch, w, w', rfl, rfl, h⟩

theorem raise (e : S.Error) : Agrees M (.raise e : Prog S α) (.raise e) w w' Q := fun ch =>
  .inl ⟨e, ch, w, w', rfl, rfl⟩

theorem mono {Q' : α → W → W → Prop} {p q : Prog S α} (h : Agrees M p q w w' Q)
    (hQ : ∀ a v v', Q a v v' → Q' a v v') : Agrees M p q w w' Q' := by
  intro ch
  rcases h ch with he | ⟨a, rest, v, v', hp, hq, ha⟩
  · exact .inl he
  · exact .inr ⟨a, rest, v, v', hp, hq, hQ a v v' ha⟩

theorem bind {R : β → W → W → Prop} {p q : Prog S β} {f g : β → Prog S α}
    (hp : Agrees M p q w w' R) (hf : ∀ b v v', R b v v' → Agrees M (f b) (g b) v v' Q) :
    Agrees M (p.bind f) (q.bind g) w w' Q := by
  intro ch
  rcases hp ch with ⟨e, rest, v, v', hp, hq⟩ | ⟨b, rest, v, v', hp, hq, hR⟩
  · exact .inl ⟨e, rest, v, v', eval_bind_error hp, eval_bind_error hq⟩
  · rw [eval_bind_ok hp, eval_bind_ok hq]
    exact hf b v v' hR rest

/-- A request that is answered differently. The programs go on with their answers. -/
theorem call {r : S.Req} {f g : S.Ans r → Prog S α}
    (h : ∀ c, (∃ e, (M.exec r c w).1 = .error e ∧ (M.exec r c w').1 = .error e) ∨
      ∃ a a', (M.exec r c w).1 = .ok a ∧ (M.exec r c w').1 = .ok a' ∧
        Agrees M (f a) (g a') (M.exec r c w).2 (M.exec r c w').2 Q) :
    Agrees M ((Prog.ask r).bind f) ((Prog.ask r).bind g) w w' Q := by
  intro ch
  rcases h (ch 0) with ⟨e, he, he'⟩ | ⟨a, a', ha, ha', hQ⟩
  · exact .inl ⟨e, _, _, _, eval_ask_error M (Prod.ext he rfl),
      eval_ask_error M (Prod.ext he' rfl)⟩
  · rw [eval_ask M (Prod.ext ha rfl), eval_ask M (Prod.ext ha' rfl)]
    exact hQ _

/-- A request with one answer in both worlds. -/
theorem ask {r : S.Req} {Q : S.Ans r → W → W → Prop}
    (h : ∀ c, (M.exec r c w).1 = (M.exec r c w').1 ∧
      ∀ a, (M.exec r c w).1 = .ok a → Q a (M.exec r c w).2 (M.exec r c w').2) :
    Agrees M (Prog.ask r) (Prog.ask r) w w' Q := by
  intro ch
  obtain ⟨heq, hQ⟩ := h (ch 0)
  cases hx : (M.exec r (ch 0) w).1 with
  | error e =>
    exact .inl ⟨e, _, _, _, eval_ask_of (Prod.ext hx rfl),
      eval_ask_of (Prod.ext (heq.symm.trans hx) rfl)⟩
  | ok a =>
    exact .inr ⟨a, _, _, _, eval_ask_of (Prod.ext hx rfl),
      eval_ask_of (Prod.ext (heq.symm.trans hx) rfl), hQ a hx⟩

/-- The results are the same. -/
theorem result {p q : Prog S α} (h : Agrees M p q w w' Q) (ch : ℕ → C) :
    (p.eval M ch w).1 = (q.eval M ch w').1 := by
  rcases h ch with ⟨e, rest, v, v', hp, hq⟩ | ⟨a, rest, v, v', hp, hq, -⟩
  · rw [hp, hq]
  · rw [hp, hq]

end Agrees

end Prog

/-! ## More requests -/

/-- The requests of `S`, and those in `R`. -/
abbrev Sig.extend (S : Sig) (R : Type) (Ans : R → Type) : Sig where
  Req := S.Req ⊕ R
  Ans := Sum.elim S.Ans Ans
  Event := S.Event
  Error := S.Error

variable {R : Type} {Ans : R → Type}

/-- A machine with the meaning of further requests. -/
def Machine.extend (M : Machine S W C E)
    (exec : (r : R) → C → W → Except S.Error (Ans r) × W) : Machine (S.extend R Ans) W C E where
  exec
    | .inl r, c, w => M.exec r c w
    | .inr r, c, w => exec r c w
  log := M.log
  env := M.env

namespace Prog

/-- A program over `S`, among further requests. -/
def lift : Prog S α → Prog (S.extend R Ans) α
  | .ret a => .ret a
  | .raise e => .raise e
  | .emit v p => .emit v p.lift
  | .call r k => .call (.inl r) fun x => (k x).lift

/-- The further requests change nothing for it. -/
theorem eval_lift (M : Machine S W C E) (exec : (r : R) → C → W → Except S.Error (Ans r) × W)
    (p : Prog S α) (ch : ℕ → C) (w : W) :
    (p.lift : Prog (S.extend R Ans) α).eval (M.extend exec) ch w = p.eval M ch w := by
  induction p generalizing ch w with
  | ret a => rfl
  | raise e => rfl
  | emit v p ih => exact ih ch (M.log v w)
  | call r k ih => exact ih _ _ _

theorem Ensures.lift {M : Machine S W C E} {exec : (r : R) → C → W → Except S.Error (Ans r) × W}
    {w : W} {Q : α → W → Prop} {X : W → Prop} {p : Prog S α} (h : p.Ensures M w Q X) :
    (p.lift : Prog (S.extend R Ans) α).Ensures (M.extend exec) w Q X := by
  intro ch
  rw [eval_lift]
  exact h ch

end Prog

end Async
