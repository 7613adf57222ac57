import Kreav.Lib.Rounding
import Mathlib.Data.List.TakeWhile

/-!
# Decimal texts

A `Decimal` is a coefficient over a power of ten. `parse` reads one from a text of digits
with at most one point and a sign, `toFixed dp` writes one with `dp` digits after the
point, halves away from zero, and `bigInt` reads the text of an integer.

What is read back is the number that was rounded for the text (`parse_toFixed`,
`bigInt_toFixed`).
-/

open Rounding

namespace Decimals

/-- `coefficient / 10 ^ scale`. -/
structure Decimal where
  coefficient : ℤ
  scale : ℕ
  deriving DecidableEq, Repr

/-- Digits with at most one point. -/
def unsigned (cs : List Char) : Option Decimal :=
  let whole := cs.takeWhile Char.isDigit
  match cs.dropWhile Char.isDigit with
  | [] => if whole = [] then none else some ⟨Nat.ofDigitChars 10 whole 0, 0⟩
  | '.' :: fraction =>
    if whole ++ fraction = [] ∨ ¬ fraction.all Char.isDigit then none
    else some ⟨Nat.ofDigitChars 10 (whole ++ fraction) 0, fraction.length⟩
  | _ => none

/-- The number of a text without an exponent. -/
def parse (s : String) : Option Decimal :=
  if s.toList.head? = some '-' then
    (unsigned s.toList.tail).map fun x => { x with coefficient := -x.coefficient }
  else unsigned s.toList

/-- The digits of `n`, with zeros in front up to `dp`. -/
def padded (dp n : ℕ) : List Char :=
  List.replicate (dp - (Nat.toDigits 10 n).length) '0' ++ Nat.toDigits 10 n

/-- The digits of `n / 10 ^ dp`. -/
def fixedDigits (dp n : ℕ) : List Char :=
  Nat.toDigits 10 (n / 10 ^ dp) ++ if dp = 0 then [] else '.' :: padded dp (n % 10 ^ dp)

namespace Decimal

/-- The number in units of the digit `dp` after the point, halves away from zero. -/
def units (dp : ℕ) (x : Decimal) : ℤ :=
  if x.scale ≤ dp then x.coefficient * 10 ^ (dp - x.scale)
  else roundHalfAway (10 ^ (x.scale - dp)) x.coefficient

/-- The text with `dp` digits after the point. -/
def toFixed (dp : ℕ) (x : Decimal) : String :=
  String.ofList ((if x.coefficient < 0 then ['-'] else []) ++ fixedDigits dp (x.units dp).natAbs)

/-- The number times `10 ^ k`, to `p` significant digits. -/
def mulPow (p k : ℕ) (x : Decimal) : Decimal :=
  ⟨roundSig p (x.coefficient * 10 ^ k), x.scale⟩

end Decimal

/-- The integer of a text without a point. -/
def bigInt (s : String) : Option ℤ :=
  if '.' ∈ s.toList then none else (parse s).map (·.coefficient)

/-! ## Digits -/

theorem isDigit_toDigits {n : ℕ} {c : Char} (h : c ∈ Nat.toDigits 10 n) : c.isDigit = true :=
  Nat.isDigit_of_mem_toDigits (by decide) (by decide) h

theorem isDigit_padded {dp n : ℕ} {c : Char} (h : c ∈ padded dp n) : c.isDigit = true := by
  rcases List.mem_append.1 h with h | h
  · rw [List.eq_of_mem_replicate h]
    rfl
  · exact isDigit_toDigits h

theorem length_padded {dp n : ℕ} (hdp : 0 < dp) (h : n < 10 ^ dp) :
    (padded dp n).length = dp := by
  have hlen := (Nat.length_toDigits_le_iff (by decide) hdp).2 h
  rw [padded, List.length_append, List.length_replicate]
  omega

theorem ofDigitChars_padded (dp n : ℕ) : Nat.ofDigitChars 10 (padded dp n) 0 = n := by
  rw [padded, Nat.ofDigitChars_append, Nat.ofDigitChars_replicate_zero, Nat.mul_zero,
    Nat.ofDigitChars_ten_toDigits]

/-- The whole part and the padded rest are the digits of the number. -/
theorem ofDigitChars_split {dp n : ℕ} (hdp : 0 < dp) :
    Nat.ofDigitChars 10 (Nat.toDigits 10 (n / 10 ^ dp) ++ padded dp (n % 10 ^ dp)) 0 = n := by
  have hlt : n % 10 ^ dp < 10 ^ dp := Nat.mod_lt _ (by positivity)
  rw [Nat.ofDigitChars_append, Nat.ofDigitChars_ten_toDigits,
    Nat.ofDigitChars_eq_ofDigitChars_zero, ofDigitChars_padded, length_padded hdp hlt]
  exact Nat.div_add_mod n (10 ^ dp)

theorem takeWhile_digits {ds rest : List Char} (hds : ∀ c ∈ ds, c.isDigit = true)
    (hrest : ∀ c ∈ rest.head?, c.isDigit = false) :
    (ds ++ rest).takeWhile Char.isDigit = ds ∧ (ds ++ rest).dropWhile Char.isDigit = rest := by
  rw [List.takeWhile_append_of_pos hds, List.dropWhile_append_of_pos hds]
  cases rest with
  | nil => exact ⟨List.append_nil ds, rfl⟩
  | cons c rest =>
    have hc := hrest c rfl
    simp [hc]

/-- A text of digits alone. -/
theorem unsigned_whole {ds : List Char} (hds : ∀ c ∈ ds, c.isDigit = true) (hne : ds ≠ []) :
    unsigned ds = some ⟨Nat.ofDigitChars 10 ds 0, 0⟩ := by
  obtain ⟨ht, hd⟩ : (ds ++ []).takeWhile Char.isDigit = ds ∧
      (ds ++ []).dropWhile Char.isDigit = [] := takeWhile_digits hds (by simp)
  rw [List.append_nil] at ht hd
  simp [unsigned, ht, hd, hne]

/-- A text of digits on both sides of a point. -/
theorem unsigned_point {ds fraction : List Char} (hds : ∀ c ∈ ds, c.isDigit = true)
    (hfr : ∀ c ∈ fraction, c.isDigit = true) (hne : ds ≠ []) :
    unsigned (ds ++ '.' :: fraction) =
      some ⟨Nat.ofDigitChars 10 (ds ++ fraction) 0, fraction.length⟩ := by
  obtain ⟨ht, hd⟩ : (ds ++ '.' :: fraction).takeWhile Char.isDigit = ds ∧
      (ds ++ '.' :: fraction).dropWhile Char.isDigit = '.' :: fraction :=
    takeWhile_digits hds (by simp)
  have hall : fraction.all Char.isDigit = true := List.all_eq_true.2 hfr
  simp [unsigned, ht, hd, hne, hall]

theorem unsigned_fixedDigits (dp n : ℕ) : unsigned (fixedDigits dp n) = some ⟨n, dp⟩ := by
  have hds : ∀ c ∈ Nat.toDigits 10 (n / 10 ^ dp), c.isDigit = true := fun _ => isDigit_toDigits
  unfold fixedDigits
  split
  · next h0 =>
    subst h0
    rw [List.append_nil, unsigned_whole hds Nat.toDigits_ne_nil, Nat.ofDigitChars_ten_toDigits,
      pow_zero, Nat.div_one]
  · next hdp =>
    have hlt : n % 10 ^ dp < 10 ^ dp := Nat.mod_lt _ (by positivity)
    rw [unsigned_point hds (fun _ => isDigit_padded) Nat.toDigits_ne_nil,
      ofDigitChars_split (by omega), length_padded (by omega) hlt]

/-! ## Round trips -/

theorem head?_fixedDigits (dp n : ℕ) :
    ∃ c, (fixedDigits dp n).head? = some c ∧ c.isDigit = true := by
  have hne : Nat.toDigits 10 (n / 10 ^ dp) ≠ [] := Nat.toDigits_ne_nil
  obtain ⟨c, cs, hc⟩ := List.exists_cons_of_ne_nil hne
  refine ⟨c, ?_, isDigit_toDigits (n := n / 10 ^ dp) ?_⟩
  · rw [fixedDigits, hc]
    rfl
  · rw [hc]
    exact List.mem_cons_self

/-- Rounding keeps the sign. -/
theorem Decimal.units_nonneg (dp : ℕ) {x : Decimal} (h : 0 ≤ x.coefficient) : 0 ≤ x.units dp := by
  unfold units
  split
  · positivity
  · exact roundHalfAway_nonneg _ h

theorem Decimal.units_nonpos (dp : ℕ) {x : Decimal} (h : x.coefficient < 0) : x.units dp ≤ 0 := by
  unfold units
  split
  · exact mul_nonpos_of_nonpos_of_nonneg h.le (by positivity)
  · have hneg := roundHalfAway_nonneg (10 ^ (x.scale - dp)) (x := -x.coefficient) (by omega)
    rw [roundHalfAway_neg] at hneg
    omega

/-- What a text with `dp` digits is read back as. -/
theorem parse_toFixed (dp : ℕ) (x : Decimal) : parse (x.toFixed dp) = some ⟨x.units dp, dp⟩ := by
  rcases lt_or_ge x.coefficient 0 with h | h
  · have hu := x.units_nonpos dp h
    simp only [parse, Decimal.toFixed, if_pos h, String.toList_ofList, List.singleton_append,
      List.head?_cons, List.tail_cons, ↓reduceIte, unsigned_fixedDigits, Option.map_some]
    congr 2
    omega
  · have hu := x.units_nonneg dp h
    obtain ⟨c, hc, hd⟩ := head?_fixedDigits dp (x.units dp).natAbs
    have hne : c ≠ '-' := by
      rintro rfl
      exact absurd hd (by decide)
    simp only [parse, Decimal.toFixed, if_neg h.not_gt, String.toList_ofList, List.nil_append, hc,
      unsigned_fixedDigits]
    rw [if_neg (by simpa using hne), Int.natAbs_of_nonneg hu]

theorem bigInt_toFixed (x : Decimal) : bigInt (x.toFixed 0) = some (x.units 0) := by
  have hpoint : '.' ∉ (x.toFixed 0).toList := by
    intro h
    rw [Decimal.toFixed, String.toList_ofList, fixedDigits, if_pos rfl, List.append_nil] at h
    rcases List.mem_append.1 h with h | h
    · split at h
      · simp at h
      · simp at h
    · exact absurd (isDigit_toDigits h) (by decide)
  rw [bigInt, if_neg hpoint, parse_toFixed]
  rfl

/-- A number with at most `dp` digits after the point is not rounded. -/
theorem Decimal.units_of_le {dp : ℕ} {x : Decimal} (h : x.scale ≤ dp) :
    x.units dp = x.coefficient * 10 ^ (dp - x.scale) :=
  if_pos h

@[simp] theorem Decimal.units_scale (n : ℤ) (dp : ℕ) : (Decimal.mk n dp).units dp = n := by
  simp [units]

end Decimals
