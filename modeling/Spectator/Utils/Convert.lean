import Mathlib.Algebra.Group.Int.Defs
import Mathlib.Algebra.Group.Nat.Defs
import Mathlib.Data.List.TakeWhile
import Spectator.Utils.Text

/-!
# Exceptions and number conversion

What the sources use of `<stdexcept>` and of `std::stoi`.

* `Exn`: an exception by its type. `std::runtime_error` carries the text that the source gives it;
  the two exceptions of `std::stoi` are logic errors, which no handler for `std::runtime_error`
  catches.
* `decimal`: the value of a digit string, with any number of leading zeros.
* `stoi`: white space, a sign, and the longest run of digits; the rest of the text is ignored.
  `stoi_digits`: on a digit string only the range of `int` decides.
-/

namespace Spectator

/-- An exception. -/
inductive Exn where
  | runtimeError (what : Str)
  | invalidArgument
  | outOfRange
  deriving DecidableEq

/-- The class `\d`. -/
def isDigit (c : UInt8) : Bool := ch '0' ≤ c && c ≤ ch '9'

/-- The value of a string of digits. -/
def decimal (digits : Str) : Nat := digits.foldl (fun n c => 10 * n + (c.toNat - 48)) 0

/-- The optional sign: whether it is a minus, and the text after it. -/
def takeSign : Str → Bool × Str
  | [] => (false, [])
  | c :: s => if c = ch '-' then (true, s) else if c = ch '+' then (false, s) else (false, c :: s)

/-- `std::stoi`, in base 10, with a 32-bit `int`. -/
def stoi (s : Str) : Except Exn Int :=
  let (negative, s) := takeSign (s.dropWhile isSpace)
  let digits := s.takeWhile isDigit
  if digits.isEmpty then .error .invalidArgument
  else
    let value : Int := if negative then -decimal digits else decimal digits
    if value < -2 ^ 31 ∨ 2 ^ 31 ≤ value then .error .outOfRange else .ok value

theorem isSpace_of_isDigit {c : UInt8} (h : isDigit c = true) : isSpace c = false := by
  refine forall_byte (P := fun c => isDigit c = true → isSpace c = false) ?_ c h
  decide +kernel

theorem takeSign_of_isDigit {c : UInt8} (s : Str) (h : isDigit c = true) :
    takeSign (c :: s) = (false, c :: s) := by
  have hminus : c ≠ ch '-' := by
    rintro rfl
    exact absurd h (by decide)
  have hplus : c ≠ ch '+' := by
    rintro rfl
    exact absurd h (by decide)
  rw [takeSign, if_neg hminus, if_neg hplus]

/-- The conversion of a digit string: its value, or `std::out_of_range`. -/
theorem stoi_digits {d : Str} (hne : d ≠ []) (hd : ∀ c ∈ d, isDigit c = true) :
    stoi d = if decimal d < 2 ^ 31 then .ok (decimal d : Int) else .error .outOfRange := by
  obtain ⟨c, s, rfl⟩ := List.exists_cons_of_ne_nil hne
  have hc := hd c List.mem_cons_self
  have hdrop : (c :: s).dropWhile isSpace = c :: s :=
    List.dropWhile_cons_of_neg (by simp [isSpace_of_isDigit hc])
  have htake : (c :: s).takeWhile isDigit = c :: s := List.takeWhile_eq_self_iff.mpr hd
  unfold stoi
  rw [hdrop, takeSign_of_isDigit s hc]
  dsimp only
  rw [htake]
  simp only [List.isEmpty_cons, Bool.false_eq_true, if_false]
  by_cases hlt : decimal (c :: s) < 2 ^ 31
  · rw [if_pos hlt, if_neg (by omega)]
  · rw [if_neg hlt, if_pos (by omega)]

end Spectator
