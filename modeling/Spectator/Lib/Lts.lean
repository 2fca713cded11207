import Mathlib.Algebra.BigOperators.Group.List.Basic
import Mathlib.Algebra.Ring.Nat
import Mathlib.Logic.Relation

/-!
# Labelled transition systems and their runs

A system is a step relation `step : σ → ℓ → σ → Prop`: the states, what an observer sees of a
step (its label), and which steps there are. A run collects the labels of its steps, so that a
property of what happened (which events, in which order) needs no history inside the state.

* `Run step s tr s'`: from `s` the system reaches `s'` by steps with the labels `tr`.
* `Run.induct`: an invariant of the trace and the state, from what one step keeps.
* `restrict step ok`: the steps that meet the condition `ok`; a run of it is a run whose steps
  all meet it.
* `Forever step P s`: `P` holds of `s` and of every state that a run reaches from it.
* `Stuck step s`: no step is left. `Run.cost_add_le`: a potential that pays for every step bounds
  the cost of a run; `exists_stuck`: and then a stuck state can be reached.
* `Simulates step step' obs obs' R`: each step is matched by a run with the same observations.
-/

namespace Lts

universe u v

variable {σ : Type u} {ℓ : Type v}

/-- From `s`, steps with the labels `tr`, in this order, lead to the last state. -/
inductive Run (step : σ → ℓ → σ → Prop) (s : σ) : List ℓ → σ → Prop
  | nil : Run step s [] s
  | snoc {tr : List ℓ} {s₁ s₂ : σ} {l : ℓ} : Run step s tr s₁ → step s₁ l s₂ →
      Run step s (tr ++ [l]) s₂

/-- The steps of `step` that meet the condition `ok` on the state before the step and the label. -/
def restrict (step : σ → ℓ → σ → Prop) (ok : σ → ℓ → Prop) : σ → ℓ → σ → Prop :=
  fun s l s' => step s l s' ∧ ok s l

/-- `P` holds now and after every run. -/
def Forever (step : σ → ℓ → σ → Prop) (P : σ → Prop) (s : σ) : Prop :=
  ∀ tr s', Run step s tr s' → P s'

/-- No step is left. -/
def Stuck (step : σ → ℓ → σ → Prop) (s : σ) : Prop := ∀ l s', ¬ step s l s'

variable {step : σ → ℓ → σ → Prop} {s s' : σ} {tr : List ℓ}

/-- The invariant rule. An invariant of the trace and the state that holds of the start and is
kept by every step holds after every run. -/
theorem Run.induct {I : List ℓ → σ → Prop} (h : Run step s tr s') (h0 : I [] s)
    (hstep : ∀ tr s₁ l s₂, I tr s₁ → step s₁ l s₂ → I (tr ++ [l]) s₂) : I tr s' := by
  induction h with
  | nil => exact h0
  | snoc _ hst ih => exact hstep _ _ _ _ ih hst

/-- The invariant rule for an invariant of the state alone. -/
theorem Run.invariant {I : σ → Prop} (h : Run step s tr s') (h0 : I s)
    (hstep : ∀ s₁ l s₂, I s₁ → step s₁ l s₂ → I s₂) : I s' :=
  h.induct (I := fun _ => I) h0 fun _ => hstep

theorem Forever.now {P : σ → Prop} (h : Forever step P s) : P s := h _ _ .nil

/-- A state without steps: what holds of it holds for ever. -/
theorem Forever.of_stuck {P : σ → Prop} (hP : P s) (hs : ∀ l s', ¬ step s l s') :
    Forever step P s := by
  intro tr s' h
  suffices s' = s by rw [this]; exact hP
  induction h with
  | nil => rfl
  | snoc _ hst ih => subst ih; exact absurd hst (hs _ _)

/-! ## Runs of runs -/

theorem Run.append {s'' : σ} {tr' : List ℓ} (h : Run step s tr s') (h' : Run step s' tr' s'') :
    Run step s (tr ++ tr') s'' := by
  induction h' with
  | nil => simpa using h
  | snoc _ hst ih =>
    rw [← List.append_assoc]
    exact ih.snoc hst

/-- A run of a system with fewer steps. -/
theorem Run.mono {step' : σ → ℓ → σ → Prop} (h : Run step s tr s')
    (hm : ∀ s₁ l s₂, step s₁ l s₂ → step' s₁ l s₂) : Run step' s tr s' := by
  induction h with
  | nil => exact .nil
  | snoc _ hst ih => exact ih.snoc (hm _ _ _ hst)

/-! ## Potentials -/

section Potential

variable {I : σ → Prop} {μ : σ → Nat} {cost : ℓ → Nat}

/-- The potential rule. If every step from a state in `I` lowers the potential by its cost, then
the potential at the start pays for the whole run. -/
theorem Run.cost_add_le (h : Run step s tr s') (h0 : I s)
    (keep : ∀ s₁ l s₂, I s₁ → step s₁ l s₂ → I s₂)
    (pay : ∀ s₁ l s₂, I s₁ → step s₁ l s₂ → cost l + μ s₂ ≤ μ s₁) :
    (tr.map cost).sum + μ s' ≤ μ s := by
  induction h with
  | nil => simp
  | snoc hr hst ih =>
    have hstep := pay _ _ _ (hr.invariant h0 keep) hst
    rw [List.map_append, List.sum_append, List.map_singleton, List.sum_singleton]
    omega

/-- The potential rule for the number of steps. -/
theorem Run.length_add_le (h : Run step s tr s') (h0 : I s)
    (keep : ∀ s₁ l s₂, I s₁ → step s₁ l s₂ → I s₂)
    (pay : ∀ s₁ l s₂, I s₁ → step s₁ l s₂ → 1 + μ s₂ ≤ μ s₁) : tr.length + μ s' ≤ μ s := by
  have hcost : (tr.map fun _ => 1).sum + μ s' ≤ μ s := h.cost_add_le h0 keep pay
  rwa [List.map_const', List.sum_replicate_nat, Nat.mul_one] at hcost

/-- A system whose steps all lower the potential comes to an end. -/
theorem exists_stuck (h0 : I s) (keep : ∀ s₁ l s₂, I s₁ → step s₁ l s₂ → I s₂)
    (pay : ∀ s₁ l s₂, I s₁ → step s₁ l s₂ → 1 + μ s₂ ≤ μ s₁) :
    ∃ tr s', Run step s tr s' ∧ Stuck step s' := by
  induction hn : μ s using Nat.strongRecOn generalizing s with
  | _ n ih =>
    by_cases hs : Stuck step s
    · exact ⟨[], s, .nil, hs⟩
    · obtain ⟨l, s₁, hst⟩ : ∃ l s₁, step s l s₁ :=
        Classical.byContradiction fun hne => hs fun l s₁ hst => hne ⟨l, s₁, hst⟩
      have hlt : μ s₁ < n := by
        have := pay _ _ _ h0 hst
        omega
      obtain ⟨tr, s', hr, hend⟩ := ih _ hlt (keep _ _ _ h0 hst) rfl
      exact ⟨[l] ++ tr, s', (Run.nil.snoc hst).append hr, hend⟩

end Potential

/-! ## Simulation -/

section Simulation

universe u' v' w

variable {τ : Type u'} {κ : Type v'} {ω : Type w} {step' : τ → κ → τ → Prop}
  {obs : ℓ → List ω} {obs' : κ → List ω} {R : σ → τ → Prop}

/-- Each step from related states is matched by a run that shows the same and ends in related
states. -/
def Simulates (step : σ → ℓ → σ → Prop) (step' : τ → κ → τ → Prop) (obs : ℓ → List ω)
    (obs' : κ → List ω) (R : σ → τ → Prop) : Prop :=
  ∀ s l s₁ t, R s t → step s l s₁ →
    ∃ tr' t₁, Run step' t tr' t₁ ∧ tr'.flatMap obs' = obs l ∧ R s₁ t₁

/-- The simulation rule: a whole run is matched. -/
theorem Simulates.run {t : τ} (hsim : Simulates step step' obs obs' R) (h : Run step s tr s')
    (h0 : R s t) : ∃ tr' t', Run step' t tr' t' ∧ tr'.flatMap obs' = tr.flatMap obs ∧ R s' t' := by
  induction h with
  | nil => exact ⟨[], t, .nil, rfl, h0⟩
  | snoc _ hst ih =>
    obtain ⟨tr₁, t₁, hr₁, ho₁, hR₁⟩ := ih
    obtain ⟨tr₂, t₂, hr₂, ho₂, hR₂⟩ := hsim _ _ _ _ hR₁ hst
    refine ⟨tr₁ ++ tr₂, t₂, hr₁.append hr₂, ?_, hR₂⟩
    rw [List.flatMap_append, List.flatMap_append, ho₁, ho₂]
    simp

end Simulation

end Lts
