import Mathlib.Algebra.Order.BigOperators.Group.Finset
import Mathlib.Algebra.Order.BigOperators.Group.Multiset
import Mathlib.Algebra.Order.Group.Multiset
import Mathlib.Algebra.Order.Ring.Rat

/-!
# Sums over merged lists

A list that is put together from the elements of several lists, in any order, or from some of them.
How often each element occurs is enough to compare the sums.

* `sum_map_eq_of_count`: all elements are there.
* `sum_map_le_of_count`: some of them are.
-/

open scoped BigOperators

namespace Sums

variable {ι α : Type} [Fintype ι]

theorem sum_map_coe (ls : ι → List α) (g : α → ℚ) :
    ((∑ i, (ls i : Multiset α)).map g).sum = ∑ i, ((ls i).map g).sum := by
  calc ((∑ i, (ls i : Multiset α)).map g).sum
      = Multiset.sumAddMonoidHom.comp (Multiset.mapAddMonoidHom g) (∑ i, (ls i : Multiset α)) := rfl
    _ = ∑ i, Multiset.sumAddMonoidHom.comp (Multiset.mapAddMonoidHom g) (ls i : Multiset α) :=
      map_sum _ _ _
    _ = ∑ i, ((ls i).map g).sum := rfl

theorem coe_count [b : BEq α] [LawfulBEq α] [DecidableEq α] (a : α) (l : List α) :
    (l : Multiset α).count a = l.count a := by
  obtain rfl : b = instBEqOfDecidableEq := lawful_beq_subsingleton _ _
  exact Multiset.coe_count a l

variable [BEq α] [LawfulBEq α] {l : List α} {ls : ι → List α}

theorem count_coe [DecidableEq α] (ls : ι → List α) (a : α) :
    (∑ i, (ls i : Multiset α)).count a = ∑ i, (ls i).count a := by
  rw [Multiset.count_sum']
  exact Finset.sum_congr rfl fun i _ => coe_count a (ls i)

/-- A list of the elements of all lists gives the sum over all. -/
theorem sum_map_eq_of_count (h : ∀ a, l.count a = ∑ i, (ls i).count a) (g : α → ℚ) :
    (l.map g).sum = ∑ i, ((ls i).map g).sum := by
  classical
  have hl : (l : Multiset α) = ∑ i, (ls i : Multiset α) := by
    ext a
    rw [count_coe, coe_count, h]
  rw [← sum_map_coe, ← hl, Multiset.map_coe, Multiset.sum_coe]

/-- A list of some of the elements gives no more, if none is negative. -/
theorem sum_map_le_of_count (h : ∀ a, l.count a ≤ ∑ i, (ls i).count a) {g : α → ℚ}
    (hg : ∀ i, ∀ a ∈ ls i, 0 ≤ g a) : (l.map g).sum ≤ ∑ i, ((ls i).map g).sum := by
  classical
  have hl : (l : Multiset α) ≤ ∑ i, (ls i : Multiset α) := by
    rw [Multiset.le_iff_count]
    intro a
    rw [count_coe, coe_count]
    exact h a
  obtain ⟨rest, hrest⟩ := Multiset.le_iff_exists_add.mp hl
  have hnonneg : 0 ≤ (rest.map g).sum := by
    refine Multiset.sum_nonneg fun x hx => ?_
    obtain ⟨a, ha, rfl⟩ := Multiset.mem_map.mp hx
    have hmem : a ∈ ∑ i, (ls i : Multiset α) := hrest ▸ Multiset.mem_add.mpr (.inr ha)
    obtain ⟨i, -, hi⟩ := Multiset.mem_sum.mp hmem
    exact hg i a hi
  rw [← sum_map_coe, hrest, Multiset.map_add, Multiset.sum_add, Multiset.map_coe, Multiset.sum_coe]
  exact le_add_of_nonneg_right hnonneg

end Sums
