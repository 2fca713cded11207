import Mathlib.Algebra.BigOperators.Group.Finset.Piecewise
import Mathlib.Algebra.Order.BigOperators.Group.Finset
import Spectator.Lib.CondVar

/-!
# Potentials of a map of threads

The potential of finitely many threads is the sum of what each has still to do. Here is how the sum
changes when a thread moves, and when a notification wakes others at a price of at most `c` each.

* `sum_update`: one thread moves.
* `NotifyOne.sum_le`, `sum_notifyAll_le`: a notification.
-/

open scoped BigOperators

namespace CondVar

variable {ι σ : Type} [Fintype ι] {φ : σ → Nat} {wake : σ → Option σ} {f g : ι → σ} {c : Nat}

section Update

variable [DecidableEq ι]

/-- The sum after thread `i` moved to `x`. -/
theorem sum_update (φ : σ → Nat) (f : ι → σ) (i : ι) (x : σ) :
    ∑ j, φ (Function.update f i x j) + φ (f i) = ∑ j, φ (f j) + φ x := by
  have hcomp : ∀ j, φ (Function.update f i x j) =
      Function.update (fun j => φ (f j)) i (φ x) j := by
    intro j
    by_cases hj : j = i
    · subst hj; simp
    · simp [hj]
  simp only [hcomp]
  rw [Finset.sum_update_of_mem (Finset.mem_univ i), Finset.sdiff_singleton_eq_erase,
    ← Finset.add_sum_erase _ _ (Finset.mem_univ i)]
  omega

/-- `notify_one` raises the sum by what one wakeup costs. -/
theorem NotifyOne.sum_le (h : NotifyOne wake f g)
    (hc : ∀ x y, wake x = some y → φ y ≤ φ x + c) : ∑ j, φ (g j) ≤ ∑ j, φ (f j) + c := by
  cases h with
  | nobody => omega
  | @wakes i x hx =>
    have hsum := sum_update φ f i x
    have hle := hc _ _ hx
    omega

end Update

/-- `notify_all` raises the sum by at most one wakeup for each thread. -/
theorem sum_notifyAll_le (hc : ∀ x y, wake x = some y → φ y ≤ φ x + c) (f : ι → σ) :
    ∑ j, φ (notifyAll wake f j) ≤ ∑ j, φ (f j) + Fintype.card ι * c := by
  have hle : ∀ j ∈ Finset.univ, φ (notifyAll wake f j) ≤ φ (f j) + c := by
    intro j _
    rcases notifyAll_cases_at wake f j with ⟨e, -⟩ | e
    · rw [e]; omega
    · exact hc _ _ e
  calc ∑ j, φ (notifyAll wake f j) ≤ ∑ j, (φ (f j) + c) := Finset.sum_le_sum hle
    _ = ∑ j, φ (f j) + Fintype.card ι * c := by simp [Finset.sum_add_distrib]

end CondVar
