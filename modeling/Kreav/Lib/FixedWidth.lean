import Mathlib.Data.List.Lex
import Mathlib.Data.List.Forall2
import Mathlib.Data.Char
import Mathlib.Order.Interval.Set.Defs
import Mathlib.Tactic.IntervalCases

/-!
# Texts of fixed width

Numbers in fields of fixed widths, each with a separator after it. Two such texts compare as
their numbers do, the first field first (`render_lt_render`).
-/

namespace FixedWidth

/-- The last `k` digits of a number. -/
def digits : ℕ → ℕ → List Char
  | 0, _ => []
  | k + 1, n => digits k (n / 10) ++ [Nat.digitChar (n % 10)]

/-- Numbers in fields, each followed by its separator. -/
def render : List (ℕ × Char) → List ℕ → List Char
  | f :: fs, n :: ns => digits f.1 n ++ f.2 :: render fs ns
  | _, _ => []

/-- Each number has a field that is wide enough. -/
abbrev Fits (fs : List (ℕ × Char)) (ns : List ℕ) : Prop :=
  List.Forall₂ (fun f n => n < 10 ^ f.1) fs ns

/-! ## Order -/

/-- Texts with prefixes of the same length. -/
theorem append_lt_append {α : Type} [LinearOrder α] {as bs cs ds : List α}
    (h : as.length = bs.length) : as ++ cs < bs ++ ds ↔ as < bs ∨ as = bs ∧ cs < ds := by
  induction as generalizing bs with
  | nil =>
    obtain rfl := List.length_eq_zero_iff.1 h.symm
    simp
  | cons a as ih =>
    obtain ⟨b, bs, rfl⟩ := List.exists_cons_of_length_eq_add_one h.symm
    have hlen : as.length = bs.length := by simpa using h
    rw [List.cons_append, List.cons_append, List.cons_lt_cons_iff, List.cons_lt_cons_iff, ih hlen]
    simp only [List.cons.injEq]
    tauto

theorem length_digits (k n : ℕ) : (digits k n).length = k := by
  induction k generalizing n with
  | zero => rfl
  | succ k ih => rw [digits, List.length_append, ih, List.length_singleton]

theorem digitChar_lt {m n : ℕ} (hm : m < 10) (hn : n < 10) :
    Nat.digitChar m < Nat.digitChar n ↔ m < n := by
  interval_cases m <;> interval_cases n <;> decide

theorem strictMonoOn_digits (k : ℕ) : StrictMonoOn (digits k) (Set.Iio (10 ^ k)) := by
  induction k with
  | zero =>
    intro m hm n hn hmn
    rw [Set.mem_Iio, pow_zero] at hm hn
    omega
  | succ k ih =>
    intro m hm n hn hmn
    rw [Set.mem_Iio, pow_succ] at hm hn
    have hm' : m / 10 ∈ Set.Iio (10 ^ k) := Set.mem_Iio.2 (by omega)
    have hn' : n / 10 ∈ Set.Iio (10 ^ k) := Set.mem_Iio.2 (by omega)
    rw [digits, digits, append_lt_append (by rw [length_digits, length_digits])]
    rcases Nat.lt_or_ge (m / 10) (n / 10) with hlt | hge
    · exact .inl (ih hm' hn' hlt)
    · have heq : m / 10 = n / 10 := by omega
      have hlast := (digitChar_lt (Nat.mod_lt m (by omega)) (Nat.mod_lt n (by omega))).2
        (show m % 10 < n % 10 by omega)
      exact .inr ⟨by rw [heq], List.cons_lt_cons_iff.2 (.inl hlast)⟩

/-- Texts in the same fields are in the order of their numbers. -/
theorem render_lt_render {fs : List (ℕ × Char)} {ms ns : List ℕ} (hm : Fits fs ms)
    (hn : Fits fs ns) : render fs ms < render fs ns ↔ ms < ns := by
  induction hm generalizing ns with
  | nil =>
    cases hn
    simp [render]
  | @cons f m fs ms hm _ ih =>
    obtain _ | @⟨_, n, _, ns, hn, hns⟩ := hn
    have hdigits := strictMonoOn_digits f.1
    rw [render, render, append_lt_append (by rw [length_digits, length_digits]),
      hdigits.lt_iff_lt (Set.mem_Iio.2 hm) (Set.mem_Iio.2 hn),
      hdigits.injOn.eq_iff (Set.mem_Iio.2 hm) (Set.mem_Iio.2 hn), List.cons_lt_cons_iff,
      List.cons_lt_cons_iff, ih hns]
    simp

end FixedWidth
