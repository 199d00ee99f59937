import Mathlib.Data.Rat.Floor
import Mathlib.Tactic.Positivity
import ShipitInference.Js.Number

/-! The exact value of a finite JavaScript number, as a rational, and the number operations of
`Js.Number` read against it: a sum adds values, a comparison with a count compares values, and
the truncation of a value that is not negative is its floor.
-/

namespace Shipit.Inference.Js

namespace Decimal

/-- The value `mantissa * 10 ^ exponent`. -/
def value (d : Decimal) : ℚ := d.mantissa * 10 ^ d.exponent

theorem ten_zpow_of_nonneg {e : Int} (h : 0 ≤ e) : (10 : ℚ) ^ e = 10 ^ e.toNat := by
  rw [← zpow_natCast, Int.toNat_of_nonneg h]

theorem ten_zpow_of_neg {e : Int} (h : e < 0) : (10 : ℚ) ^ e = ((10 : ℚ) ^ (-e).toNat)⁻¹ := by
  rw [← zpow_natCast, Int.toNat_of_nonneg (by omega), zpow_neg, inv_inv]

theorem ten_zpow_pos (e : Int) : (0 : ℚ) < 10 ^ e := zpow_pos (by norm_num) e

theorem value_nonneg_iff {d : Decimal} : 0 ≤ d.value ↔ 0 ≤ d.mantissa := by
  rw [value, mul_nonneg_iff_of_pos_right (ten_zpow_pos _), Int.cast_nonneg]

theorem value_pos_iff {d : Decimal} : 0 < d.value ↔ 0 < d.mantissa := by
  rw [value, mul_pos_iff_of_pos_right (ten_zpow_pos _), Int.cast_pos]

/-- Scaling to the smaller exponent keeps each summand's value, so the sum adds values. -/
theorem value_add (a b : Decimal) : (a.add b).value = a.value + b.value := by
  have scale : ∀ x : Int, min a.exponent b.exponent ≤ x →
      (10 : ℚ) ^ (x - min a.exponent b.exponent).toNat * 10 ^ min a.exponent b.exponent =
        10 ^ x := by
    intro x le
    rw [← zpow_natCast, Int.toNat_of_nonneg (by omega), ← zpow_add₀ (by norm_num),
      sub_add_cancel]
  simp only [add, value, Int.cast_add, Int.cast_mul, Int.cast_pow, Int.cast_ofNat, add_mul,
    mul_assoc, scale _ (min_le_left _ _), scale _ (min_le_right _ _)]

/-- With an exponent that is not negative, the value is an integer. -/
theorem value_of_nonneg {d : Decimal} (h : 0 ≤ d.exponent) :
    d.value = ((d.mantissa * 10 ^ d.exponent.toNat : Int) : ℚ) := by
  rw [value, ten_zpow_of_nonneg h, Int.cast_mul, Int.cast_pow, Int.cast_ofNat]

/-- With a negative exponent, the value is the mantissa over a power of ten. -/
theorem value_of_neg {d : Decimal} (h : d.exponent < 0) :
    d.value = (d.mantissa : ℚ) / ((10 ^ (-d.exponent).toNat : Nat) : ℚ) := by
  rw [value, ten_zpow_of_neg h, ← div_eq_mul_inv, Nat.cast_pow, Nat.cast_ofNat]

/-- The truncation of a value that is not negative is its floor. -/
theorem truncate_eq_floor {d : Decimal} (h : 0 ≤ d.mantissa) : d.truncate = ⌊d.value⌋ := by
  unfold truncate
  split
  next nonneg => rw [value_of_nonneg nonneg, Int.floor_intCast]
  next neg =>
    rw [if_neg (by omega), value_of_neg (by omega), Rat.floor_intCast_div_natCast, Nat.cast_pow,
      Nat.cast_ofNat]

end Decimal

namespace JsNumber

open Decimal

theorem ltNat_finite (d : Decimal) (n : Nat) : (finite d).ltNat n = decide (d.value < n) := by
  dsimp only [ltNat]
  split <;> refine decide_eq_decide.2 ?_
  next nonneg => rw [value_of_nonneg nonneg, ← Int.cast_natCast (R := ℚ), Int.cast_lt]
  next neg =>
    rw [value_of_neg (by omega), div_lt_iff₀ (by positivity), ← Nat.cast_mul,
      ← Int.cast_natCast (R := ℚ), Int.cast_lt, Nat.cast_mul, Nat.cast_pow, Nat.cast_ofNat]

theorem leNat_finite (d : Decimal) (n : Nat) : (finite d).leNat n = decide (d.value ≤ n) := by
  dsimp only [leNat]
  split <;> refine decide_eq_decide.2 ?_
  next nonneg => rw [value_of_nonneg nonneg, ← Int.cast_natCast (R := ℚ), Int.cast_le]
  next neg =>
    rw [value_of_neg (by omega), div_le_iff₀ (by positivity), ← Nat.cast_mul,
      ← Int.cast_natCast (R := ℚ), Int.cast_le, Nat.cast_mul, Nat.cast_pow, Nat.cast_ofNat]

/-- A number at most zero is below every positive count. -/
theorem ltNat_of_leNat_zero {x : JsNumber} (atMost : x.leNat 0 = true) {n : Nat} (pos : 0 < n) :
    x.ltNat n = true := by
  cases x with
  | nan => cases atMost
  | infinity negative => exact atMost
  | finite d =>
    rw [leNat_finite, decide_eq_true_iff] at atMost
    rw [ltNat_finite, decide_eq_true_iff]
    exact atMost.trans_lt (by exact_mod_cast pos)

/-- Adding a negative number to one at most zero stays at most zero. -/
theorem leNat_zero_add {x c : JsNumber} (atMost : x.leNat 0 = true) (negative : c.ltNat 0 = true) :
    (x.add c).leNat 0 = true := by
  cases x with
  | nan => cases atMost
  | infinity n =>
    cases c with
    | nan => cases negative
    | infinity n' => cases atMost; cases negative; rfl
    | finite _ => exact atMost
  | finite d =>
    cases c with
    | nan => cases negative
    | infinity _ => exact negative
    | finite d' =>
      rw [leNat_finite, decide_eq_true_iff] at atMost
      rw [ltNat_finite, decide_eq_true_iff] at negative
      rw [add, leNat_finite, decide_eq_true_iff, value_add]
      push_cast at atMost negative ⊢
      linarith

end JsNumber

end Shipit.Inference.Js
