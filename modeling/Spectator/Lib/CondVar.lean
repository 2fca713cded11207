import Mathlib.Logic.Function.Basic

/-!
# Condition variables over a map of threads

The threads are a map `f : ι → σ` from thread ids to local states. Which local states wait at a
condition variable, and how a woken waiter goes on, is one function `wake : σ → Option σ`: `none`
for a thread that does not wait there. The wait set is not a datum of its own; it is read off the
threads, so a thread cannot be in the set and elsewhere in its code at once.

* `NotifyOne wake f g`: `notify_one` turns `f` into `g`; it wakes an arbitrary waiter, or nobody
  if there is none.
* `notifyAll wake f`: the threads after `notify_all`.
* `forall_update`, `exists_update`: a property of all threads, or of some thread, after one thread
  moved.
-/

namespace CondVar

variable {ι σ : Type}

/-- `notify_all`: every waiter goes on. -/
def notifyAll (wake : σ → Option σ) (f : ι → σ) : ι → σ := fun i => (wake (f i)).getD (f i)

variable {wake : σ → Option σ} {f g : ι → σ}

theorem notifyAll_cases_at (wake : σ → Option σ) (f : ι → σ) (j : ι) :
    notifyAll wake f j = f j ∧ wake (f j) = none ∨ wake (f j) = some (notifyAll wake f j) := by
  unfold notifyAll
  cases h : wake (f j) with
  | none => exact .inl ⟨rfl, rfl⟩
  | some x => exact .inr rfl

/-- A property that a wakeup keeps holds of every thread after `notify_all`. -/
theorem notifyAll_forall {P : ι → σ → Prop} (hP : ∀ i, P i (f i))
    (hw : ∀ i x y, P i x → wake x = some y → P i y) (j : ι) : P j (notifyAll wake f j) := by
  rcases notifyAll_cases_at wake f j with ⟨e, -⟩ | e
  · rw [e]; exact hP j
  · exact hw j _ _ (hP j) e

variable [DecidableEq ι]

/-- `notify_one`: an arbitrary waiter goes on, or nobody if there is no waiter. -/
inductive NotifyOne (wake : σ → Option σ) (f : ι → σ) : (ι → σ) → Prop
  | nobody : (∀ i, wake (f i) = none) → NotifyOne wake f f
  | wakes {i : ι} {x : σ} : wake (f i) = some x → NotifyOne wake f (Function.update f i x)

/-- A property of every thread, after thread `i` moved to `x`. -/
theorem forall_update {P : ι → σ → Prop} {i : ι} {x : σ} (hx : P i x)
    (h : ∀ j, j ≠ i → P j (f j)) (j : ι) : P j (Function.update f i x j) := by
  by_cases hj : j = i
  · subst hj; rw [Function.update_self]; exact hx
  · rw [Function.update_of_ne hj]; exact h j hj

/-- A thread with a property is still there after another thread moved. -/
theorem exists_update {P : σ → Prop} {i : ι} (x : σ) (hi : ¬ P (f i)) (h : ∃ j, P (f j)) :
    ∃ j, P (Function.update f i x j) := by
  obtain ⟨j, hj⟩ := h
  have hne : j ≠ i := fun e => hi (e ▸ hj)
  exact ⟨j, by rw [Function.update_of_ne hne]; exact hj⟩

/-- `notify_one` always returns. -/
theorem NotifyOne.total (wake : σ → Option σ) (f : ι → σ) : ∃ g, NotifyOne wake f g := by
  by_cases h : ∃ i x, wake (f i) = some x
  · obtain ⟨i, x, hx⟩ := h
    exact ⟨_, .wakes hx⟩
  · exact ⟨f, .nobody fun i => Option.eq_none_iff_forall_ne_some.mpr fun x hx => h ⟨i, x, hx⟩⟩

/-- Each thread is where it was, or it was a waiter and goes on. -/
theorem NotifyOne.cases_at (h : NotifyOne wake f g) (j : ι) :
    g j = f j ∨ wake (f j) = some (g j) := by
  cases h with
  | nobody => exact .inl rfl
  | @wakes i x hx =>
    by_cases hj : j = i
    · subst hj; rw [Function.update_self]; exact .inr hx
    · rw [Function.update_of_ne hj]; exact .inl rfl

/-- If somebody waits, somebody goes on. -/
theorem NotifyOne.woken (h : NotifyOne wake f g) {i : ι} {x : σ} (hx : wake (f i) = some x) :
    ∃ j, wake (f j) = some (g j) := by
  cases h with
  | nobody hn => rw [hn i] at hx; cases hx
  | @wakes j y hy => exact ⟨j, by rw [Function.update_self]; exact hy⟩

/-- A thread with a property that no waiter has is still there. -/
theorem NotifyOne.exists {P : σ → Prop} (h : NotifyOne wake f g) (hw : ∀ x, P x → wake x = none)
    (hP : ∃ j, P (f j)) : ∃ j, P (g j) := by
  obtain ⟨j, hj⟩ := hP
  rcases h.cases_at j with e | e
  · exact ⟨j, by rw [e]; exact hj⟩
  · rw [hw _ hj] at e; cases e

/-- A property that a wakeup keeps holds of every thread after `notify_one`. -/
theorem NotifyOne.forall {P : ι → σ → Prop} (h : NotifyOne wake f g) (hP : ∀ i, P i (f i))
    (hw : ∀ i x y, P i x → wake x = some y → P i y) (j : ι) : P j (g j) := by
  rcases h.cases_at j with e | e
  · rw [e]; exact hP j
  · exact hw j _ _ (hP j) e

end CondVar
