import Mathlib.Algebra.Order.Field.Basic
import Mathlib.Algebra.Order.Ring.Rat
import Mathlib.Data.Rat.Cast.Order
import Mathlib.Tactic.FieldSimp
import Mathlib.Tactic.Linarith
import Mathlib.Tactic.Ring

/-!
# Rounding a quotient to the nearest integer

Half to even, over the natural numbers.

* `roundHalfEven a b`: the integer nearest to `a / b`; of two equally near ones, the even one.
* `roundHalfEven_nearest`: it is within one half of the quotient.
* `abs_roundHalfEven_div_sub_le`: the same for a quotient rounded to `k`-ths.
* `roundHalfEven_mono`: it keeps the order.
* `le_of_near`: numbers of `k`-ths near two numbers in order are in order.
* `abs_sum_sub_le`: the error of a sum of rounded terms.
-/

namespace Rounding

/-- The integer nearest to `a / b`, half to even. -/
def roundHalfEven (a b : Nat) : Nat :=
  if 2 * (a % b) < b ∨ 2 * (a % b) = b ∧ a / b % 2 = 0 then a / b else a / b + 1

variable {a a' b : Nat}

theorem div_le_roundHalfEven (a b : Nat) : a / b ≤ roundHalfEven a b := by
  unfold roundHalfEven
  split <;> omega

theorem roundHalfEven_le (a b : Nat) : roundHalfEven a b ≤ a / b + 1 := by
  unfold roundHalfEven
  split <;> omega

theorem roundHalfEven_zero (hb : 0 < b) : roundHalfEven 0 b = 0 := by
  simp [roundHalfEven, hb]

/-- The rounded quotient is within one half. -/
theorem roundHalfEven_nearest (hb : 0 < b) (a : Nat) :
    2 * (roundHalfEven a b * b) ≤ 2 * a + b ∧ 2 * a ≤ 2 * (roundHalfEven a b * b) + b := by
  have hdiv := Nat.div_add_mod a b
  have hmod := Nat.mod_lt a hb
  have hcomm : b * (a / b) = a / b * b := Nat.mul_comm _ _
  have hsucc : (a / b + 1) * b = a / b * b + b := Nat.succ_mul _ _
  unfold roundHalfEven
  split <;> omega

/-- Rounding keeps the order. -/
theorem roundHalfEven_mono (h : a ≤ a') (b : Nat) : roundHalfEven a b ≤ roundHalfEven a' b := by
  rcases Nat.eq_or_lt_of_le (Nat.div_le_div_right (c := b) h) with heq | hlt
  · -- The quotients agree, so the remainders are in order.
    have ha := Nat.div_add_mod a b
    have ha' := Nat.div_add_mod a' b
    rw [heq] at ha
    have hr : a % b ≤ a' % b := by omega
    unfold roundHalfEven
    rw [heq]
    split <;> split <;> omega
  · have h1 := roundHalfEven_le a b
    have h2 := div_le_roundHalfEven a' b
    omega

/-- The distance to the quotient, in the rational numbers. -/
theorem abs_roundHalfEven_sub_le (hb : 0 < b) (a : Nat) :
    |(roundHalfEven a b : ℚ) - a / b| ≤ 1 / 2 := by
  obtain ⟨h1, h2⟩ := roundHalfEven_nearest hb a
  have hq : (0 : ℚ) < b := by exact_mod_cast hb
  have h1' : 2 * ((roundHalfEven a b : ℚ) * b) ≤ 2 * a + b := by exact_mod_cast h1
  have h2' : 2 * (a : ℚ) ≤ 2 * (roundHalfEven a b * b) + b := by exact_mod_cast h2
  have hdist : ((roundHalfEven a b : ℚ) - a / b) * b = roundHalfEven a b * b - a := by
    field_simp
  rw [abs_le]
  constructor
  · refine le_of_mul_le_mul_right ?_ hq
    rw [hdist]
    linarith
  · refine le_of_mul_le_mul_right ?_ hq
    rw [hdist]
    linarith

/-- A quotient rounded to `k`-ths is within half of one. -/
theorem abs_roundHalfEven_div_sub_le {k : Nat} (hb : 0 < b) (hk : 0 < k) (a : Nat) :
    |(roundHalfEven (a * k) b : ℚ) / k - a / b| ≤ 1 / (2 * k) := by
  have hnear := abs_roundHalfEven_sub_le hb (a * k)
  have hk' : (0 : ℚ) < k := by exact_mod_cast hk
  have heq : (roundHalfEven (a * k) b : ℚ) / k - a / b =
      ((roundHalfEven (a * k) b : ℚ) - (a * k : Nat) / b) / k := by
    push_cast
    field_simp
  rw [heq, abs_div, abs_of_pos hk', div_le_iff₀ hk']
  refine hnear.trans (le_of_eq ?_)
  field_simp

/-! ## Rounded numbers -/

/-- Two numbers of `k`-ths that are near two numbers in order are in order. -/
theorem le_of_near {k q r v w : ℚ} (hk : 0 < k) (hq : ∃ a : ℤ, q = a / k) (hr : ∃ b : ℤ, r = b / k)
    (hd : |q - v| + |r - w| < 1 / k) (h : v ≤ w) : q ≤ r := by
  obtain ⟨a, rfl⟩ := hq
  obtain ⟨b, rfl⟩ := hr
  by_contra hlt
  rw [not_le, div_lt_div_iff_of_pos_right hk, Int.cast_lt] at hlt
  have hstep : (b : ℚ) + 1 ≤ a := by exact_mod_cast hlt
  have h1 := le_abs_self ((a : ℚ) / k - v)
  have h2 := neg_abs_le ((b : ℚ) / k - w)
  have h3 : ((b : ℚ) + 1) / k ≤ a / k := by gcongr
  rw [add_div] at h3
  linarith

/-- Term by term, the sum of rounded terms is off by one error for each term that is rounded. -/
theorem abs_sum_sub_le {α : Type*} {l : List α} {f g : α → ℚ} {p : α → Bool} {e : ℚ}
    (h : ∀ a ∈ l, |f a - g a| ≤ if p a then e else 0) :
    |(l.map f).sum - (l.map g).sum| ≤ l.countP p * e := by
  induction l with
  | nil => simp
  | cons a l ih =>
    have ha := h a List.mem_cons_self
    have hl := ih fun a' ha' => h a' (List.mem_cons_of_mem a ha')
    have hcount : ((a :: l).countP p : ℚ) * e = l.countP p * e + if p a then e else 0 := by
      cases hp : p a <;> simp [hp, add_mul]
    calc |((a :: l).map f).sum - ((a :: l).map g).sum|
        = |((l.map f).sum - (l.map g).sum) + (f a - g a)| := by
          rw [List.map_cons, List.map_cons, List.sum_cons, List.sum_cons]
          congr 1
          ring
      _ ≤ |(l.map f).sum - (l.map g).sum| + |f a - g a| := abs_add_le _ _
      _ ≤ (a :: l).countP p * e := by rw [hcount]; exact add_le_add hl ha

end Rounding
