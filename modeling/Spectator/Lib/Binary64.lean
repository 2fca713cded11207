import Mathlib.Algebra.Order.Field.Basic
import Mathlib.Algebra.Order.Ring.Rat
import Mathlib.Data.Rat.Cast.Order
import Mathlib.Tactic.NormNum

/-!
# The binary64 format

A `double` as its three fields, and what a program can see of it without arithmetic: its class, its
order and its value.

* `units`: the magnitude in units of the smallest subnormal number, `2 ^ -1074`. It is a natural
  number also for an infinity, above that of every finite number, so the order of all numbers is
  that of `signed`.
* `lt`, `le`: the comparisons of IEEE 754; a NaN is not ordered.
* `value`: the rational value of a finite number. `lt_iff_value`, `le_iff_value`: the comparisons
  of finite numbers compare the values.
-/

/-- A binary64 datum: sign, biased exponent and fraction. -/
structure Binary64 where
  negative : Bool
  exponent : Fin 2048
  fraction : Fin (2 ^ 52)
  deriving DecidableEq

namespace Binary64

def isNaN (x : Binary64) : Bool := x.exponent == 2047 && x.fraction != 0

def isInf (x : Binary64) : Bool := x.exponent == 2047 && x.fraction == 0

def isFinite (x : Binary64) : Bool := x.exponent != 2047

/-- The fraction with the hidden bit of a normal number. -/
def significand (x : Binary64) : Nat :=
  if x.exponent = 0 then x.fraction else 2 ^ 52 + x.fraction

/-- The magnitude in units of `2 ^ -1074`. -/
def units (x : Binary64) : Nat := x.significand * 2 ^ (max x.exponent.val 1 - 1)

/-- The magnitude with its sign. -/
def signed (x : Binary64) : Int := if x.negative then -x.units else x.units

/-- `x < y`. -/
def lt (x y : Binary64) : Bool := !x.isNaN && !y.isNaN && decide (x.signed < y.signed)

/-- `x <= y`. -/
def le (x y : Binary64) : Bool := !x.isNaN && !y.isNaN && decide (x.signed ≤ y.signed)

/-- Positive zero. -/
def zero : Binary64 := ⟨false, 0, 0⟩

/-- One. -/
def one : Binary64 := ⟨false, 1023, 0⟩

/-- How many units are one. -/
def scale : Nat := 2 ^ 1074

/-- The value of a finite number. -/
def value (x : Binary64) : ℚ := x.signed / scale

variable {x y : Binary64}

@[simp] theorem signed_zero : zero.signed = 0 := rfl

theorem isNaN_eq_false (h : x.isFinite = true) : x.isNaN = false := by
  simp only [isFinite, bne_iff_ne, ne_eq] at h
  simp [isNaN, h]

theorem isInf_eq_false (h : x.isFinite = true) : x.isInf = false := by
  simp only [isFinite, bne_iff_ne, ne_eq] at h
  simp [isInf, h]

theorem scale_pos : 0 < scale := by
  unfold scale
  positivity

theorem scale_cast_pos : (0 : ℚ) < scale := Nat.cast_pos.mpr scale_pos

theorem value_eq (x : Binary64) :
    x.value = if x.negative then -((x.units : ℚ) / scale) else (x.units : ℚ) / scale := by
  unfold value signed
  split
  · push_cast
    exact neg_div _ _
  · push_cast
    rfl

/-! ## Order -/

theorem isFinite_zero : zero.isFinite = true := rfl

@[simp] theorem value_zero : zero.value = 0 := by
  rw [value, signed_zero, Int.cast_zero, zero_div]

@[simp] theorem value_one : one.value = 1 := by
  have hs : one.signed = scale := by decide +kernel
  rw [value, hs, Int.cast_natCast]
  exact div_self scale_cast_pos.ne'

theorem lt_iff_value (hx : x.isFinite = true) (hy : y.isFinite = true) :
    x.lt y = true ↔ x.value < y.value := by
  unfold value
  rw [div_lt_div_iff_of_pos_right scale_cast_pos, Int.cast_lt]
  simp [lt, isNaN_eq_false hx, isNaN_eq_false hy]

theorem le_iff_value (hx : x.isFinite = true) (hy : y.isFinite = true) :
    x.le y = true ↔ x.value ≤ y.value := by
  unfold value
  rw [div_le_div_iff_of_pos_right scale_cast_pos, Int.cast_le]
  simp [le, isNaN_eq_false hx, isNaN_eq_false hy]

end Binary64
