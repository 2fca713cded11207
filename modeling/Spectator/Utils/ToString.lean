import Spectator.Lib.Binary64
import Spectator.Lib.Getline
import Spectator.Lib.Rounding
import Spectator.Utils.Convert

/-!
# The texts of numbers

`std::to_string` of a `double`: the conversion `%f` of the C library, with six digits after the
point, rounded half to even from the exact value. `toDecimal` (`Spectator/Utils/Text.lean`) is
`std::to_string` of the integer types.

* `toFixed`: `std::to_string(double)`.
* `readDecimal`: what a decimal text says, as a rational number.
* `readDecimal_toDecimal`: the text of an integer says this integer. `readDecimal_toFixed`: the text
  of a finite number says its value, rounded to millionths.
-/

namespace Spectator

open Rounding

/-- The last `k` decimal digits of `n`, with leading zeros. -/
def fixedDigits : Nat → Nat → Str
  | 0, _ => []
  | k + 1, n => fixedDigits k (n / 10) ++ [ch (n % 10).digitChar]

/-- The value of a finite number in millionths, half to even. -/
def micros (x : Binary64) : Nat := roundHalfEven (x.units * 10 ^ 6) Binary64.scale

/-- `std::to_string` of a `double`. -/
def toFixed (x : Binary64) : Str :=
  (if x.negative then str "-" else []) ++
    if x.isNaN then str "nan"
    else if x.isInf then str "inf"
    else toDecimal (micros x / 10 ^ 6 : Nat) ++ str "." ++ fixedDigits 6 (micros x % 10 ^ 6)

/-- The value of an unsigned decimal text: digits, or digits, a point and digits. -/
def readUnsigned (s : Str) : Option ℚ :=
  match s.splitOn (ch '.') with
  | [whole] => if whole ≠ [] ∧ whole.all isDigit then some (decimal whole) else none
  | [whole, fraction] =>
    if whole ≠ [] ∧ whole.all isDigit ∧ fraction.all isDigit then
      some (decimal whole + decimal fraction / 10 ^ fraction.length)
    else none
  | _ => none

/-- The value of a decimal text with an optional sign. -/
def readDecimal (s : Str) : Option ℚ :=
  let (negative, s) := takeSign s
  (readUnsigned s).map fun q => if negative then -q else q

/-! ## Digits -/

theorem decimal_append (s : Str) (c : UInt8) :
    decimal (s ++ [c]) = 10 * decimal s + (c.toNat - 48) := by
  rw [decimal, List.foldl_append]
  rfl

theorem digitChar_spec {d : Nat} (hd : d < 10) :
    isDigit (ch d.digitChar) = true ∧ (ch d.digitChar).toNat - 48 = d := by
  revert d
  decide

/-- The digits of a natural number. -/
theorem digits_spec (n : Nat) : toDecimal n ≠ [] ∧ (∀ c ∈ toDecimal n, isDigit c = true) ∧
    decimal (toDecimal n) = n := by
  show (Nat.toDigits 10 n).map ch ≠ [] ∧ (∀ c ∈ (Nat.toDigits 10 n).map ch, isDigit c = true) ∧
    decimal ((Nat.toDigits 10 n).map ch) = n
  induction n using Nat.strongRecOn with
  | _ n ih =>
    by_cases hn : n < 10
    · obtain ⟨hdig, hval⟩ := digitChar_spec hn
      rw [Nat.toDigits_of_lt_base hn, List.map_singleton]
      refine ⟨List.cons_ne_nil _ _, by simpa using hdig, ?_⟩
      rw [← List.nil_append [_], decimal_append, hval]
      simp [decimal]
    · obtain ⟨-, hall, hval⟩ := ih (n / 10) (by omega)
      obtain ⟨hdig, hlast⟩ := digitChar_spec (Nat.mod_lt n (by decide : 0 < 10))
      rw [Nat.toDigits_of_base_le (by decide) (by omega), List.map_append, List.map_singleton]
      refine ⟨by simp, ?_, ?_⟩
      · intro c hc
        rcases List.mem_append.mp hc with hc | hc
        · exact hall c hc
        · rw [List.mem_singleton.mp hc]
          exact hdig
      · rw [decimal_append, hval, hlast]
        omega

theorem toDecimal_ne_nil (n : Int) : toDecimal n ≠ [] := by
  cases n with
  | ofNat k => exact (digits_spec k).1
  | negSucc k => exact List.cons_ne_nil _ _

theorem fixedDigits_spec (k n : Nat) : (fixedDigits k n).length = k ∧
    (∀ c ∈ fixedDigits k n, isDigit c = true) ∧ decimal (fixedDigits k n) = n % 10 ^ k := by
  induction k generalizing n with
  | zero => exact ⟨rfl, nofun, by rw [Nat.pow_zero, Nat.mod_one]; rfl⟩
  | succ k ih =>
    obtain ⟨hlen, hall, hval⟩ := ih (n / 10)
    obtain ⟨hdig, hlast⟩ := digitChar_spec (Nat.mod_lt n (by decide : 0 < 10))
    unfold fixedDigits
    refine ⟨by simp [hlen], ?_, ?_⟩
    · intro c hc
      rcases List.mem_append.mp hc with hc | hc
      · exact hall c hc
      · rw [List.mem_singleton.mp hc]
        exact hdig
    · rw [decimal_append, hval, hlast, Nat.pow_succ, Nat.mul_comm (10 ^ k) 10, Nat.mod_mul]
      omega

theorem notMem_of_digits {s : Str} (h : ∀ c ∈ s, isDigit c = true) {c : UInt8}
    (hc : isDigit c = false) : c ∉ s := by
  intro hm
  rw [h c hm] at hc
  cases hc

/-! ## Reading -/

theorem readUnsigned_digits {s : Str} (hne : s ≠ []) (h : ∀ c ∈ s, isDigit c = true) :
    readUnsigned s = some (decimal s : ℚ) := by
  have hsplit : s.splitOn (ch '.') = [s] := by
    have hcut : (s ++ ([] : List Str).flatMap fun l => ch '.' :: l).splitOn (ch '.') = [s] :=
      Getline.splitOn_append_flatMap (notMem_of_digits h (by decide)) nofun
    simpa using hcut
  have hall : s.all isDigit = true := List.all_eq_true.mpr h
  rw [readUnsigned, hsplit]
  simp [hne, hall]

theorem readUnsigned_point {whole fraction : Str} (hne : whole ≠ [])
    (hw : ∀ c ∈ whole, isDigit c = true) (hf : ∀ c ∈ fraction, isDigit c = true) :
    readUnsigned (whole ++ ch '.' :: fraction) =
      some (decimal whole + decimal fraction / 10 ^ fraction.length : ℚ) := by
  have hsplit : (whole ++ ch '.' :: fraction).splitOn (ch '.') = [whole, fraction] := by
    have hfraction : ∀ l ∈ [fraction], ch '.' ∉ l := fun l hl => by
      rw [List.mem_singleton.mp hl]
      exact notMem_of_digits hf (by decide)
    have hcut : (whole ++ [fraction].flatMap fun l => ch '.' :: l).splitOn (ch '.') =
        [whole, fraction] :=
      Getline.splitOn_append_flatMap (notMem_of_digits hw (by decide)) hfraction
    simpa using hcut
  have hall : whole.all isDigit = true := List.all_eq_true.mpr hw
  have hall' : fraction.all isDigit = true := List.all_eq_true.mpr hf
  rw [readUnsigned, hsplit]
  simp [hne, hall, hall']

/-- A sign, and a text that starts with a digit. -/
theorem readDecimal_sign (negative : Bool) {s : Str} (hne : s ≠ [])
    (h : ∀ c ∈ s.head?, isDigit c = true) :
    readDecimal ((if negative then str "-" else []) ++ s) =
      (readUnsigned s).map fun q => if negative then -q else q := by
  obtain ⟨c, s, rfl⟩ := List.exists_cons_of_ne_nil hne
  cases negative with
  | true => rfl
  | false =>
    have htake : takeSign ([] ++ c :: s) = (false, c :: s) := takeSign_of_isDigit s (h c rfl)
    simp only [readDecimal, Bool.false_eq_true, if_false, htake]

/-- The text of an integer says this integer. -/
theorem readDecimal_toDecimal (n : Int) : readDecimal (toDecimal n) = some (n : ℚ) := by
  have natural : ∀ (negative : Bool) (k : Nat),
      readDecimal ((if negative then str "-" else []) ++ toDecimal k) =
        some (if negative then -(k : ℚ) else k) := by
    intro negative k
    obtain ⟨hne, hall, hval⟩ := digits_spec k
    rw [readDecimal_sign negative hne fun c hc => hall c (List.mem_of_mem_head? hc),
      readUnsigned_digits hne hall, hval]
    rfl
  cases n with
  | ofNat k => exact natural false k
  | negSucc k =>
    refine (natural true (k + 1)).trans ?_
    rw [Int.cast_negSucc]
    rfl

/-- The value of a finite number, rounded to millionths. -/
def roundedValue (x : Binary64) : ℚ :=
  if x.negative then -(micros x / 10 ^ 6) else micros x / 10 ^ 6

/-- The text of a finite number: the sign, the whole part, the point and six digits. -/
theorem toFixed_eq {x : Binary64} (hx : x.isFinite = true) :
    toFixed x = (if x.negative then str "-" else []) ++
      (toDecimal (micros x / 10 ^ 6 : Nat) ++ ch '.' :: fixedDigits 6 (micros x % 10 ^ 6)) := by
  rw [toFixed, Binary64.isNaN_eq_false hx, Binary64.isInf_eq_false hx, if_neg Bool.false_ne_true,
    if_neg Bool.false_ne_true, List.append_assoc (toDecimal _)]
  rfl

theorem div_add_mod_pow (n k : Nat) :
    ((n / 10 ^ k : Nat) : ℚ) + (n % 10 ^ k : Nat) / 10 ^ k = n / 10 ^ k := by
  have hdiv : (10 : ℚ) ^ k * (n / 10 ^ k : Nat) + (n % 10 ^ k : Nat) = n := by
    exact_mod_cast Nat.div_add_mod n (10 ^ k)
  rw [eq_div_iff (by positivity), add_mul, div_mul_cancel₀ _ (by positivity), mul_comm]
  exact hdiv

/-- The text of a finite number says its value, rounded to millionths. -/
theorem readDecimal_toFixed {x : Binary64} (hx : x.isFinite = true) :
    readDecimal (toFixed x) = some (roundedValue x) := by
  obtain ⟨hne, hall, hval⟩ := digits_spec (micros x / 10 ^ 6)
  obtain ⟨hlen, hall', hval'⟩ := fixedDigits_spec 6 (micros x % 10 ^ 6)
  have hhead : ∀ c ∈ (toDecimal (micros x / 10 ^ 6 : Nat) ++
      ch '.' :: fixedDigits 6 (micros x % 10 ^ 6)).head?, isDigit c = true := by
    intro c hc
    rw [List.head?_append_of_ne_nil _ hne] at hc
    exact hall c (List.mem_of_mem_head? hc)
  rw [toFixed_eq hx, readDecimal_sign x.negative (List.append_ne_nil_of_left_ne_nil hne _) hhead,
    readUnsigned_point hne hall hall', hval, hval', hlen, Nat.mod_mod, div_add_mod_pow]
  rfl

/-- The text of an infinity or a NaN is not a number. -/
theorem readDecimal_toFixed_of_not_finite {x : Binary64} (hx : x.isFinite = false) :
    readDecimal (toFixed x) = none := by
  have he : x.exponent = 2047 := by simpa [Binary64.isFinite] using hx
  unfold toFixed
  cases x.negative <;> by_cases hf : x.fraction = 0 <;>
    simp [Binary64.isNaN, Binary64.isInf, he, hf] <;> decide

/-! ## Accuracy -/

theorem abs_roundedValue_sub_le (x : Binary64) :
    |roundedValue x - x.value| ≤ 1 / (2 * 10 ^ 6) := by
  have hnear := abs_roundHalfEven_div_sub_le (k := 10 ^ 6) Binary64.scale_pos (by positivity)
    x.units
  rw [Nat.cast_pow] at hnear
  rw [roundedValue, Binary64.value_eq]
  split
  · rw [neg_sub_neg, abs_sub_comm]
    exact hnear
  · exact hnear

/-- A rounded value is a number of millionths. -/
theorem roundedValue_eq (x : Binary64) : ∃ k : ℤ, roundedValue x = k / 10 ^ 6 := by
  rw [roundedValue]
  split
  · exact ⟨-micros x, by push_cast; ring⟩
  · exact ⟨micros x, by push_cast; rfl⟩

/-- A value in millionths is its own rounding. -/
theorem roundedValue_eq_value {x : Binary64} (h : ∃ k : ℤ, x.value = k / 10 ^ 6) :
    roundedValue x = x.value := by
  obtain ⟨k, hk⟩ := h
  obtain ⟨j, hj⟩ := roundedValue_eq x
  have hnear := abs_roundedValue_sub_le x
  rw [hj, hk, ← sub_div, abs_div, abs_of_pos (by positivity : (0 : ℚ) < 10 ^ 6),
    div_le_iff₀ (by positivity)] at hnear
  -- Two whole numbers of millionths at most half a millionth apart.
  have hlt : |(j : ℚ) - k| < 1 := lt_of_le_of_lt hnear (by norm_num)
  have hint : |j - k| < 1 := by exact_mod_cast hlt
  have heq : j = k := by
    rw [Int.abs_lt_one_iff] at hint
    omega
  rw [hj, hk, heq]

theorem micros_mono {x y : Binary64} (h : x.units ≤ y.units) : micros x ≤ micros y :=
  roundHalfEven_mono (Nat.mul_le_mul_right _ h) _

theorem micros_eq_zero {x : Binary64} (h : x.units = 0) : micros x = 0 := by
  rw [micros, h, Nat.zero_mul]
  exact roundHalfEven_zero Binary64.scale_pos

/-- Rounding keeps the order. -/
theorem roundedValue_mono {x y : Binary64} (h : x.signed ≤ y.signed) :
    roundedValue x ≤ roundedValue y := by
  unfold roundedValue
  unfold Binary64.signed at h
  have nonneg : ∀ k : Nat, (0 : ℚ) ≤ k / 10 ^ 6 := fun k => by positivity
  cases hx : x.negative <;> cases hy : y.negative
  all_goals
    simp only [hx, hy, Bool.false_eq_true, if_false, if_true] at h ⊢
  · have hm : micros x ≤ micros y := micros_mono (by omega)
    gcongr
  · -- Both are zero.
    rw [micros_eq_zero (x := x) (by omega), micros_eq_zero (x := y) (by omega)]
    simp
  · exact (neg_nonpos.mpr (nonneg _)).trans (nonneg _)
  · have hm : micros y ≤ micros x := micros_mono (by omega)
    gcongr

theorem roundedValue_nonneg {x : Binary64} (h : 0 ≤ x.value) : 0 ≤ roundedValue x := by
  have hs : Binary64.zero.signed ≤ x.signed := by
    have hle := (le_div_iff₀ Binary64.scale_cast_pos).mp h
    rw [zero_mul] at hle
    exact_mod_cast hle
  calc 0 = Binary64.zero.value := Binary64.value_zero.symm
    _ = roundedValue .zero := (roundedValue_eq_value ⟨0, by simp⟩).symm
    _ ≤ roundedValue x := roundedValue_mono hs

/-! ## The characters -/

theorem toFixed_ne_nil (x : Binary64) : toFixed x ≠ [] := by
  intro h
  obtain ⟨-, h⟩ := List.append_eq_nil_iff.mp h
  split at h
  · cases h
  · split at h
    · cases h
    · rw [List.append_assoc] at h
      exact toDecimal_ne_nil _ (List.append_eq_nil_iff.mp h).1

/-- What the text of a `double` is made of. -/
theorem mem_toFixed {x : Binary64} {c : UInt8} (h : c ∈ toFixed x) :
    c = ch '-' ∨ c = ch '.' ∨ isDigit c = true ∨ c ∈ str "nan" ∨ c ∈ str "inf" := by
  obtain ⟨-, hall, -⟩ := digits_spec (micros x / 10 ^ 6)
  obtain ⟨-, hall', -⟩ := fixedDigits_spec 6 (micros x % 10 ^ 6)
  unfold toFixed at h
  rcases List.mem_append.mp h with h | h
  · split at h
    · exact .inl (List.mem_singleton.mp h)
    · cases h
  · split at h
    · exact .inr (.inr (.inr (.inl h)))
    · split at h
      · exact .inr (.inr (.inr (.inr h)))
      · simp only [List.mem_append] at h
        rcases h with (h | h) | h
        · exact .inr (.inr (.inl (hall c h)))
        · exact .inr (.inl (List.mem_singleton.mp h))
        · exact .inr (.inr (.inl (hall' c h)))

end Spectator
