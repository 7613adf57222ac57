import Kreav.Lib.Rounding

/-!
# Amounts of money

The database stores `Decimal(18,2)`, an amount in cents (`Usd`). The contract counts base
units of seven decimals, `10 ^ 5` to the cent. Between the two the code computes with
decimals of 20 significant digits, which scale every `Usd` up exactly (`Usd.toBase_eq`)
but round an amount of more than 20 digits when they scale it down (`ofBase`).
-/

open Rounding

namespace Kreav

/-- A `Decimal(18,2)`, in cents. -/
structure Usd where
  cents : ℤ
  lt : cents.natAbs < 10 ^ 18
  deriving DecidableEq, Repr

/-- A literal amount. -/
def usd (cents : ℤ) (h : cents.natAbs < 10 ^ 18 := by decide) : Usd :=
  ⟨cents, h⟩

/-- The column of an amount, if it fits. -/
def Usd.ofCents? (cents : ℤ) : Option Usd :=
  if h : cents.natAbs < 10 ^ 18 then some ⟨cents, h⟩ else none

/-- Significant digits of a `Prisma.Decimal`. -/
def precision : ℕ :=
  20

/-- `new Decimal(amountUsd).mul(10 ** USDC_DECIMALS).toFixed(0)`. -/
def Usd.toBase (a : Usd) : ℤ :=
  roundSig precision (a.cents * 10 ^ 5)

/-- `new Decimal(base).div(10 ** USDC_DECIMALS)`, in units of the seventh decimal. -/
def ofBase (base : ℤ) : ℤ :=
  roundSig precision base

/-- What a `Decimal(18,2)` column keeps of an amount with seven decimals, in cents. -/
def toCents (amount : ℤ) : ℤ :=
  roundHalfAway 100000 amount

/-- Scaling up is exact. -/
theorem Usd.toBase_eq (a : Usd) : a.toBase = a.cents * 100000 :=
  roundSig_mul_pow 5 (by decide) (lt_trans a.lt (by decide))

end Kreav
