import Kreav.Lib.Decimals
import Kreav.Products

/-!
# Amounts as texts

Between the services an amount of money is a text. `Products.create` stores the price of its
body (`moneyColumn`), `checkout` and the emitters write the column with two decimals
(`Usd.toFixed`), and the settlement service scales the text to base units
(`totalAmountBase`), with decimals of 20 significant digits.

The texts of a `Decimal(18,2)` carry it exactly : `moneyColumn_toFixed` and
`totalAmountBase_toFixed`, over the whole column.
-/

open Decimals Rounding

namespace Kreav

/-- `new Prisma.Decimal(text)`, written into a `Decimal(18,2)` column. -/
def moneyColumn (text : String) : Option Usd :=
  (parse text).bind fun x => Usd.ofCents? (x.units 2)

/-- `amountUsd.toFixed(2)`. -/
def Usd.toFixed (a : Usd) : String :=
  (Decimal.mk a.cents 2).toFixed 2

/-- `BigInt(new Prisma.Decimal(amountUsd).mul(10 ** USDC_DECIMALS).toFixed(0))`. -/
def totalAmountBase (amountUsd : String) : Option ℤ :=
  (parse amountUsd).bind fun x => bigInt ((x.mulPow precision 7).toFixed 0)

theorem Usd.ofCents?_cents (a : Usd) : Usd.ofCents? a.cents = some a :=
  dif_pos a.lt

theorem parse_usd (a : Usd) : parse a.toFixed = some ⟨a.cents, 2⟩ := by
  rw [Usd.toFixed, parse_toFixed, Decimal.units_scale]

/-- A column that is written as a text and read again. -/
theorem moneyColumn_toFixed (a : Usd) : moneyColumn a.toFixed = some a := by
  rw [moneyColumn, parse_usd, Option.bind_some, Decimal.units_scale, a.ofCents?_cents]

/-- Scaling the text is exact. -/
theorem totalAmountBase_toFixed (a : Usd) : totalAmountBase a.toFixed = some a.toBase := by
  have hscale : roundSig precision (a.cents * 10 ^ 7) = a.cents * 10 ^ 7 :=
    roundSig_mul_pow 7 (by decide) (lt_trans a.lt (by decide))
  have hunits : (Decimal.mk (a.cents * 10 ^ 7) 2).units 0 = a.toBase := by
    have h := mul_roundHalfAway_of_dvd (u := 10 ^ 2) (x := a.cents * 10 ^ 7) (by decide)
      ⟨a.cents * 10 ^ 5, by ring⟩
    rw [Decimal.units, if_neg (show ¬ 2 ≤ 0 by decide), a.toBase_eq]
    push_cast at h ⊢
    omega
  rw [totalAmountBase, parse_usd, Option.bind_some, Decimal.mulPow, hscale, bigInt_toFixed, hunits]

/-! ## The texts of a body -/

theorem digitsValue_append (ds es : List Char) :
    Nat.ofDigitChars 10 (ds ++ es) 0 = 10 ^ es.length * digitsValue ds + digitsValue es := by
  rw [Nat.ofDigitChars_append, Nat.ofDigitChars_eq_ofDigitChars_zero]
  rfl

/-- The value of a body's text, with its digits after the point. -/
theorem parse_isDecimal {s : String} (h : isDecimal s = true) :
    ∃ x k, parse s = some ⟨(x : ℕ), k⟩ ∧ k ≤ 2 ∧ x * 10 ^ (2 - k) = hundredths s := by
  obtain ⟨hne, hrest⟩ := Bool.and_eq_true_iff.1 h
  have happ := List.takeWhile_append_dropWhile (p := Char.isDigit) (l := s.toList)
  have hds : ∀ c ∈ s.toList.takeWhile Char.isDigit, c.isDigit = true :=
    fun c hc => List.mem_takeWhile_imp hc
  unfold hundredths
  generalize s.toList.takeWhile Char.isDigit = ds at *
  generalize s.toList.dropWhile Char.isDigit = rest at *
  have hne' : ds ≠ [] := by simpa using hne
  have hparse : parse s = unsigned (ds ++ rest) := by
    obtain ⟨c, cs, rfl⟩ := List.exists_cons_of_ne_nil hne'
    have hc : c ≠ '-' := by
      rintro rfl
      exact absurd (hds _ List.mem_cons_self) (by decide)
    rw [parse, ← happ, if_neg (by simpa using hc)]
  rw [hparse]
  split at hrest
  · rw [List.append_nil, unsigned_whole hds hne']
    exact ⟨_, 0, rfl, by omega, Nat.mul_comm ..⟩
  · next a =>
    rw [unsigned_point hds (by simpa using hrest) hne', digitsValue_append]
    exact ⟨_, 1, rfl, by decide, by simp only [List.length_singleton]; ring⟩
  · next a b =>
    obtain ⟨ha, hb⟩ := Bool.and_eq_true_iff.1 hrest
    rw [unsigned_point hds (by simp [ha, hb]) hne', digitsValue_append]
    exact ⟨_, 2, rfl, le_rfl, Nat.mul_one _⟩
  · cases hrest

/-- The price of a body, in its column. -/
theorem moneyColumn_of_isDecimal {s : String} (h : isDecimal s = true) :
    moneyColumn s = Usd.ofCents? (hundredths s) := by
  obtain ⟨x, k, hp, hk, hx⟩ := parse_isDecimal h
  rw [moneyColumn, hp, Option.bind_some, Decimal.units_of_le hk, ← hx]
  push_cast
  rfl

/-- The model of the products service stores what the column keeps of the text. -/
theorem priceColumn_eq {s : String} (h : isDecimal s = true) :
    priceColumn (hundredths s) = (moneyColumn s).elim (.error .outOfRange) .ok := by
  rw [moneyColumn_of_isDecimal h, priceColumn]

end Kreav
