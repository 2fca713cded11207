import Mathlib.Data.List.Basic

/-!
# Byte strings

A `std::string` is a list of bytes (`Str`): names, tags and addresses are arbitrary bytes, NUL and
bytes from `0x80` on included. `str` and `ch` turn the source's literals into bytes.

* `isSpace`: `std::isspace` in the "C" locale.
* `isEmptyOrWhitespace`: `IsEmptyOrWhitespace` of `util.cpp`.
* `toDecimal`: `std::to_string` of an `int`.
-/

namespace Spectator

/-- A `std::string`. -/
abbrev Str : Type := List UInt8

/-- A character literal of the source. -/
def ch (c : Char) : UInt8 := c.toNat.toUInt8

/-- A string literal of the source. -/
def str (s : String) : Str := s.toList.map ch

/-- `std::isspace` in the "C" locale: space, `\t`, `\n`, `\v`, `\f` and `\r`. -/
def isSpace (c : UInt8) : Bool := c == 32 || (9 ≤ c && c ≤ 13)

/-- `IsEmptyOrWhitespace`. -/
def isEmptyOrWhitespace (s : Str) : Bool := s.isEmpty || s.all isSpace

/-- `std::to_string` of an `int`. -/
def toDecimal : Int → Str
  | .ofNat n => (Nat.toDigits 10 n).map ch
  | .negSucc n => ch '-' :: (Nat.toDigits 10 (n + 1)).map ch

/-- A property of every byte, checked byte by byte. -/
theorem forall_byte {P : UInt8 → Prop} (h : ∀ n < 256, P (UInt8.ofNat n)) (c : UInt8) : P c := by
  have hc := h c.toNat c.toNat_lt
  rwa [UInt8.ofNat_toNat] at hc

/-- A string with a byte that is no white space is neither empty nor all white space. -/
theorem isEmptyOrWhitespace_eq_false {s : Str} :
    isEmptyOrWhitespace s = false ↔ ∃ c ∈ s, isSpace c = false := by
  unfold isEmptyOrWhitespace
  cases s with
  | nil => simp
  | cons c s => cases hc : isSpace c <;> simp [hc]

theorem ne_nil_of_not_whitespace {s : Str} (h : isEmptyOrWhitespace s = false) : s ≠ [] := by
  rintro rfl
  cases h

/-- The decimal text of a number is made of digits and at most one sign. -/
theorem mem_toDecimal {n : Int} {c : UInt8} (h : c ∈ toDecimal n) :
    c = ch '-' ∨ 48 ≤ c ∧ c ≤ 57 := by
  have digit : ∀ k, c ∈ (Nat.toDigits 10 k).map ch → 48 ≤ c ∧ c ≤ 57 := by
    intro k hk
    obtain ⟨d, hd, rfl⟩ := List.mem_map.mp hk
    have hdig := Nat.isDigit_of_mem_toDigits (by decide) (by decide) hd
    simp only [Char.isDigit, Bool.and_eq_true, decide_eq_true_eq] at hdig
    obtain ⟨h1, h2⟩ := hdig
    have h1' : 48 ≤ d.toNat := h1
    have h2' : d.toNat ≤ 57 := h2
    unfold ch
    constructor
    · rw [UInt8.le_iff_toNat_le]; simp; omega
    · rw [UInt8.le_iff_toNat_le]; simp; omega
  cases n with
  | ofNat k => exact .inr (digit k h)
  | negSucc k =>
    rcases List.mem_cons.mp h with h | h
    · exact .inl h
    · exact .inr (digit _ h)

end Spectator
