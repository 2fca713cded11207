import Spectator.Lib.UMap

/-!
# Overriding maps and selecting entries

In the union `a ∪ m` of two maps the entries of `a` come first: it is `m` overridden by `a`. What a
loop of assignments builds is a union, whatever the order; a loop with a check selects first.

* `select p m`: the entries of `m` that pass `p`.
* `assign_eq_union`, `assignIf_eq_union`: the loops over a whole map.
* `select_union_select`, `select_assign_congr`: a selection in between makes no difference if one
  comes at the end.
* `select_union_eq_iff`, `select_insert_eq_iff`: when it makes no difference whether the override
  or the selection is first.
-/

namespace UMap

variable {κ β : Type} [DecidableEq κ]

/-- The entries that pass `p`. -/
noncomputable def select (p : κ → β → Bool) (m : UMap κ β) : UMap κ β :=
  assignIf p ∅ (Iteration.nonempty m).some.toList

variable {p : κ → β → Bool} {m m' a : UMap κ β} {k : κ} {v : β}

@[simp] theorem lookup_select (p : κ → β → Bool) (m : UMap κ β) (k : κ) :
    (select p m).lookup k = (m.lookup k).filter (p k) := by
  unfold select
  rw [lookup_assignIf]
  simp

@[simp] theorem lookup_union (a m : UMap κ β) (k : κ) :
    (a ∪ m).lookup k = (a.lookup k).or (m.lookup k) := by
  by_cases h : k ∈ a
  · rw [Finmap.lookup_union_left h]
    obtain ⟨v, hv⟩ := Finmap.mem_iff.mp h
    rw [hv]
    rfl
  · rw [Finmap.lookup_union_right h, Finmap.lookup_eq_none.mpr h]
    rfl

/-! ## The loops -/

/-- The loop with a check: the selected entries override. -/
theorem assignIf_eq_union (o : a.Iteration) (m : UMap κ β) :
    assignIf p m o.toList = select p a ∪ m := by
  apply Finmap.ext_lookup
  intro k
  rw [lookup_assignIf, lookup_union, lookup_select]

/-- The loop without a check: all entries override. -/
theorem assign_eq_union (o : a.Iteration) (m : UMap κ β) : assign m o.toList = a ∪ m := by
  apply Finmap.ext_lookup
  intro k
  rw [lookup_assign, lookup_union]

/-- A copy, entry by entry. -/
theorem assign_toList (o : m.Iteration) : assign ∅ o.toList = m := by
  rw [assign_eq_union, Finmap.union_empty]

/-! ## Selections -/

/-- A map whose entries all pass is selected whole. -/
theorem select_eq_self (h : ∀ k v, m.lookup k = some v → p k v = true) : select p m = m := by
  apply Finmap.ext_lookup
  intro k
  rw [lookup_select]
  cases hk : m.lookup k with
  | none => rfl
  | some v => exact Option.filter_some_pos (h k v hk)

@[simp] theorem select_select (p : κ → β → Bool) (m : UMap κ β) :
    select p (select p m) = select p m := by
  refine select_eq_self fun k v h => ?_
  rw [lookup_select, Option.filter_eq_some_iff] at h
  exact h.2

/-- Below an override, a selection that comes again at the end makes no difference. -/
theorem select_union_select (p : κ → β → Bool) (a m : UMap κ β) :
    select p (a ∪ select p m) = select p (a ∪ m) := by
  apply Finmap.ext_lookup
  intro k
  rw [lookup_select, lookup_select, lookup_union, lookup_union, lookup_select]
  cases a.lookup k with
  | some v => rfl
  | none => cases m.lookup k <;> simp [Option.filter_filter]

/-- One assignment to maps that agree on the selected entries. -/
theorem select_insert_congr (h : select p m = select p m') (k : κ) (v : β) :
    select p (m.insert k v) = select p (m'.insert k v) := by
  apply Finmap.ext_lookup
  intro k'
  rw [lookup_select, lookup_select]
  by_cases hk : k' = k
  · subst hk
    rw [Finmap.lookup_insert, Finmap.lookup_insert]
  · rw [Finmap.lookup_insert_of_ne _ hk, Finmap.lookup_insert_of_ne _ hk, ← lookup_select, h,
      lookup_select]

/-- The same for a loop of assignments. -/
theorem select_assign_congr (h : select p m = select p m') (l : List (κ × β)) :
    select p (assign m l) = select p (assign m' l) := by
  induction l generalizing m m' with
  | nil => exact h
  | cons e l ih => exact ih (select_insert_congr h e.1 e.2)

/-- Override first, or select first? On a map whose entries all pass, it makes a difference
exactly if an entry that does not pass is for a key of the map. -/
theorem select_union_eq_iff (h : select p m = m) (a : UMap κ β) :
    select p (a ∪ m) = select p a ∪ m ↔
      ∀ k v, a.lookup k = some v → p k v = false → k ∉ m := by
  constructor
  · intro heq k v ha hp
    have hk := congrArg (Finmap.lookup k) heq
    rw [lookup_select, lookup_union, lookup_union, lookup_select, ha, Option.some_or,
      Option.filter_some_neg (by simp [hp]), Option.none_or] at hk
    exact Finmap.lookup_eq_none.mp hk.symm
  · intro hnot
    apply Finmap.ext_lookup
    intro k
    rw [lookup_select, lookup_union, lookup_union, lookup_select]
    cases ha : a.lookup k with
    | none => rw [Option.none_or, Option.filter_none, Option.none_or, ← lookup_select, h]
    | some v =>
      cases hp : p k v with
      | true => rw [Option.some_or, Option.filter_some_pos hp, Option.some_or]
      | false =>
        have hm := Finmap.lookup_eq_none.mpr (hnot k v ha hp)
        rw [Option.some_or, Option.filter_some_neg (by simp [hp]), hm]
        rfl

/-- The same for one entry that does not pass: it is ignored exactly if it is for no key of the
map. -/
theorem select_insert_eq_iff (h : select p m = m) (hp : p k v = false) :
    select p (m.insert k v) = m ↔ k ∉ m := by
  have hk : (select p (m.insert k v)).lookup k = none := by
    rw [lookup_select, Finmap.lookup_insert, Option.filter_some_neg (by simp [hp])]
  constructor
  · intro heq
    rw [heq] at hk
    exact Finmap.lookup_eq_none.mp hk
  · intro hnot
    apply Finmap.ext_lookup
    intro k'
    by_cases hne : k' = k
    · rw [hne, hk, Finmap.lookup_eq_none.mpr hnot]
    · rw [lookup_select, Finmap.lookup_insert_of_ne _ hne, ← lookup_select, h]

end UMap
