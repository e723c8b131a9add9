import BookingApi.Exceptions
import Mathlib.Algebra.Group.Int.Defs
import Mathlib.Algebra.Group.Nat.Defs
import Mathlib.Algebra.Order.Ring.Int
import Mathlib.Tactic.Ring

/-!
# Decimals and the `NUMERIC(10, 2)` columns

A Python `Decimal` is `mantissa · 10^(-scale)`.  A `NUMERIC(10, 2)` column holds a whole number of
hundredths: a value is rounded to two decimals on storage, halves away from zero, and rejected if
its absolute value is 10^8 or more.
-/

namespace BookingApi

structure Decimal where
  mantissa : ℤ
  scale : ℕ
deriving DecidableEq

namespace Decimal

/-- `d * n` for an `int` factor. -/
def mulInt (d : Decimal) (n : ℤ) : Decimal := ⟨d.mantissa * n, d.scale⟩

/-- The value of a `NUMERIC(10, 2)` column as a `Decimal`. -/
def ofHundredths (n : ℤ) : Decimal := ⟨n, 2⟩

/-- The nearest number of hundredths, halves away from zero. -/
def toHundredths (d : Decimal) : ℤ :=
  if d.scale ≤ 2 then d.mantissa * 10 ^ (2 - d.scale)
  else
    let unit := 10 ^ (d.scale - 2)
    d.mantissa.sign * ((d.mantissa.natAbs + unit / 2) / unit : ℕ)

/-- `d` is the column value. -/
def IsHundredths (d : Decimal) (n : ℤ) : Prop := d.mantissa * 100 = n * 10 ^ d.scale

instance (d : Decimal) (n : ℤ) : Decidable (d.IsHundredths n) := inferInstanceAs (Decidable (_ = _))

/-- `d > 0`. -/
def isPositive (d : Decimal) : Bool := 0 < d.mantissa

/-- `str(d)` for a column value: sign, units, point, hundredths. -/
def hundredthsText (n : ℤ) : String :=
  let cents := toString (n.natAbs % 100)
  (if n < 0 then "-" else "") ++ toString (n.natAbs / 100) ++ "."
    ++ (if n.natAbs % 100 < 10 then "0" else "") ++ cents

end Decimal

/-- A number of hundredths that a `NUMERIC(10, 2)` column can hold. -/
def FitsNumeric (hundredths : ℤ) : Prop := hundredths.natAbs < 10 ^ 10

instance (n : ℤ) : Decidable (FitsNumeric n) := inferInstanceAs (Decidable (_ < _))

/-- What a `NUMERIC(10, 2)` column stores for a decimal, in hundredths. -/
def storeNumeric (d : Decimal) : Except Exc ℤ :=
  if FitsNumeric d.toHundredths then .ok d.toHundredths else .error .dbapiError

theorem storeNumeric_eq_error {d : Decimal} {e : Exc} (h : storeNumeric d = .error e) :
    e = .dbapiError := by
  rw [storeNumeric] at h
  split_ifs at h
  exact (Except.error.inj h).symm

@[simp] theorem toHundredths_mulInt_ofHundredths (n k : ℤ) :
    ((Decimal.ofHundredths n).mulInt k).toHundredths = n * k := by
  simp [Decimal.toHundredths, Decimal.ofHundredths, Decimal.mulInt]

/-- A value with at most two decimals is stored as it is. -/
theorem Decimal.IsHundredths.toHundredths_eq {d : Decimal} {n : ℤ} (h : d.IsHundredths n) :
    d.toHundredths = n := by
  have hpow (k : ℕ) : (10 : ℤ) ^ k ≠ 0 := pow_ne_zero _ (by decide)
  rw [Decimal.IsHundredths] at h
  rw [Decimal.toHundredths]
  by_cases hscale : d.scale ≤ 2
  · rw [if_pos hscale]
    have hsplit : (10 : ℤ) ^ (2 - d.scale) * 10 ^ d.scale = 100 := by
      rw [← pow_add, Nat.sub_add_cancel hscale]
      rfl
    refine mul_right_cancel₀ (hpow d.scale) ?_
    rw [mul_assoc, hsplit, h]
  · rw [if_neg hscale]
    obtain ⟨k, hk⟩ : ∃ k, d.scale = k + 3 := ⟨d.scale - 3, by omega⟩
    have hunit : d.scale - 2 = k + 1 := by omega
    -- the mantissa is a multiple of the unit, so nothing is rounded
    have hmantissa : d.mantissa = n * (10 ^ (k + 1) : ℕ) := by
      refine mul_right_cancel₀ (by decide : (100 : ℤ) ≠ 0) ?_
      rw [h, hk]
      push_cast
      ring
    have hpos : 0 < 10 ^ (k + 1) := Nat.pow_pos (by decide)
    have hhalf : 10 ^ (k + 1) / 2 < 10 ^ (k + 1) := Nat.div_lt_self hpos (by decide)
    simp only [hunit]
    rw [hmantissa, Int.natAbs_mul, Int.natAbs_natCast, Nat.mul_comm, Nat.mul_add_div hpos,
      Nat.div_eq_of_lt hhalf, Int.sign_mul, Int.sign_natCast_of_ne_zero hpos.ne', mul_one]
    exact Int.sign_mul_natAbs n

end BookingApi
