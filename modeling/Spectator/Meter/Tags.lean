import Spectator.Config.Config
import Spectator.Lib.Override

/-!
# Adding tags to an id

`WithTag` and `WithTags` override first and check the whole map after it; the constructor and
`CalculateTags` only check.

* `validateTags_eq_select`, `withTag_tags`, `withTags_tags`: the tags of a new id, as a selection
  from an override.
* `AddedOneByOne`: calls of `WithTag` one after the other. `AddedOneByOne.tags`: what they leave.
* `withTags_compose`: additions compose, and their order makes no difference.
* `ill_formed_ignored_iff`: when an ill-formed addition is ignored. Otherwise the tag that the id
  had at its key is lost.
-/

namespace Spectator

theorem validateTags_eq_select {tags : Tags} (o : tags.Iteration) :
    validateTags o.toList = UMap.select validTag tags := by
  rw [validateTags, UMap.assignIf_eq_union, Finmap.union_empty]

namespace MeterId

/-- No tag of an id is dropped by the check. -/
theorem select_tags (m : MeterId) : UMap.select validTag m.tags = m.tags :=
  UMap.select_eq_self m.valid

/-- The constructor keeps the well-formed entries. -/
theorem new_tags (name : Str) {tags : Tags} (o : tags.Iteration) :
    (new name o).tags = UMap.select validTag tags :=
  validateTags_eq_select o

theorem withTag_tags (m : MeterId) (key value : Str)
    (o : UMap.Iteration (m.tags.insert key value)) :
    (m.withTag key value o).tags = UMap.select validTag (m.tags.insert key value) :=
  new_tags m.name o

/-- What `WithTags` does: the override, then the check. -/
theorem withTags_tags (m : MeterId) {additional : Tags} (oa : additional.Iteration)
    (o : (UMap.assign m.tags oa.toList).Iteration) :
    (m.withTags oa o).tags = UMap.select validTag (additional ∪ m.tags) := by
  rw [withTags, new_tags, UMap.assign_eq_union]

end MeterId

/-! ## Addition composes -/

/-- Calls of `WithTag` from the first id on, one for each entry of the list, lead to the last id.
Each call copies the tags, in an order of the copy's own. -/
inductive AddedOneByOne : MeterId → List (Str × Str) → MeterId → Prop
  | nil (m : MeterId) : AddedOneByOne m [] m
  | cons {m m' : MeterId} {key value : Str} {entries : List (Str × Str)}
      (o : UMap.Iteration (m.tags.insert key value)) :
      AddedOneByOne (m.withTag key value o) entries m' →
      AddedOneByOne m ((key, value) :: entries) m'

variable {m m' : MeterId} {entries : List (Str × Str)}

/-- The calls can be made, whatever the entries. -/
theorem AddedOneByOne.exists (m : MeterId) (entries : List (Str × Str)) :
    ∃ m', AddedOneByOne m entries m' := by
  induction entries generalizing m with
  | nil => exact ⟨m, .nil m⟩
  | cons e entries ih =>
    obtain ⟨o⟩ := UMap.Iteration.nonempty (m.tags.insert e.1 e.2)
    obtain ⟨m', h⟩ := ih (m.withTag e.1 e.2 o)
    exact ⟨m', .cons o h⟩

theorem AddedOneByOne.name (h : AddedOneByOne m entries m') : m'.name = m.name := by
  induction h with
  | nil => rfl
  | cons o _ ih => exact ih

/-- The calls, all together: the checks between the assignments make no difference. -/
theorem AddedOneByOne.tags (h : AddedOneByOne m entries m') :
    m'.tags = UMap.select validTag (UMap.assign m.tags entries) := by
  induction h with
  | nil m => exact m.select_tags.symm
  | @cons m m' key value entries o _ ih =>
    rw [ih, m.withTag_tags]
    exact UMap.select_assign_congr (UMap.select_select _ _) entries

/-- **Additions compose, in any order.** For every id, all maps of tags, ill-formed entries
included, and all iteration orders: adding `a` and then `b` gives the id that adding `a` overridden
by `b` gives; adding `a` gives the id that calls of `WithTag` for its entries give, in any order;
and no tag of an id that is reached so is ill formed. -/
theorem withTags_compose (m : MeterId) {a b : Tags} (oa : a.Iteration)
    (o₁ : (UMap.assign m.tags oa.toList).Iteration) (ob : b.Iteration)
    (o₂ : (UMap.assign (m.withTags oa o₁).tags ob.toList).Iteration)
    (oab : UMap.Iteration (b ∪ a)) (o₃ : (UMap.assign m.tags oab.toList).Iteration) :
    ((m.withTags oa o₁).withTags ob o₂ == m.withTags oab o₃) = true ∧
    (∀ order : a.Iteration, (∃ m', AddedOneByOne m order.toList m') ∧
      ∀ m', AddedOneByOne m order.toList m' → (m.withTags oa o₁ == m') = true) ∧
    (m.withTags oa o₁).tags.WellFormed ∧ ((m.withTags oa o₁).withTags ob o₂).tags.WellFormed ∧
    ∀ entries m', AddedOneByOne m entries m' → m'.tags.WellFormed := by
  refine ⟨MeterId.beq_iff.mpr ⟨rfl, ?_⟩, fun order => ⟨AddedOneByOne.exists m _, fun m' h => ?_⟩,
    MeterId.valid _, MeterId.valid _, fun _ m' _ => m'.valid⟩
  · -- The check between the two overrides is made again at the end.
    calc ((m.withTags oa o₁).withTags ob o₂).tags
        = UMap.select validTag (b ∪ UMap.select validTag (a ∪ m.tags)) := by
          rw [MeterId.withTags_tags, MeterId.withTags_tags]
      _ = UMap.select validTag (b ∪ (a ∪ m.tags)) := UMap.select_union_select ..
      _ = UMap.select validTag (b ∪ a ∪ m.tags) := by rw [Finmap.union_assoc]
      _ = (m.withTags oab o₃).tags := (MeterId.withTags_tags ..).symm
  · refine MeterId.beq_iff.mpr ⟨h.name.symm, ?_⟩
    rw [h.tags, MeterId.withTags_tags, UMap.assign_eq_union]

/-- An ill-formed entry for a key that the id has, added by a call of its own, and repaired by a
second map. -/
theorem withTags_compose_repaired : ∃ (m m₁ m₂ m' : MeterId),
    m.tags.lookup (str "a") = some (str "1") ∧ m'.tags.lookup (str "a") = none ∧
    m₂.tags.lookup (str "a") = some (str "2") ∧ (m₁ == m') = true ∧ m₂.tags.WellFormed := by
  let m := MeterId.new (str "foo") (.ofAssignIf validTag [(str "a", str "1")] (by decide))
  let oa := UMap.Iteration.ofAssignIf (fun _ _ => true) [(str "a", str " ")] (by decide)
  let ob := UMap.Iteration.ofAssignIf (fun _ _ => true) [(str "a", str "2")] (by decide)
  let o₁ := (UMap.Iteration.nonempty (UMap.assign m.tags oa.toList)).some
  let o₂ := (UMap.Iteration.nonempty (UMap.assign (m.withTags oa o₁).tags ob.toList)).some
  let o' := (UMap.Iteration.nonempty (Finmap.insert (str "a") (str " ") m.tags)).some
  have h : AddedOneByOne m oa.toList (m.withTag (str "a") (str " ") o') := .cons o' (.nil _)
  obtain ⟨-, hone, -, hwf, -⟩ := withTags_compose m oa o₁ ob o₂
    (UMap.Iteration.nonempty _).some (UMap.Iteration.nonempty _).some
  refine ⟨m, m.withTags oa o₁, (m.withTags oa o₁).withTags ob o₂, _, by decide, ?_, ?_,
    (hone oa).2 _ h, hwf⟩
  · rw [MeterId.withTag_lookup]
    decide
  · rw [MeterId.withTags_lookup, MeterId.withTags_lookup]
    decide

/-! ## Ill-formed additions -/

/-- **When an ill-formed tag is ignored.** For every id: `WithTags` overrides its tags by exactly
the well-formed entries of the argument if and only if no ill-formed entry is for a key of the id;
and an ill-formed `WithTag` leaves the tags as they are if and only if the id has no tag at the key.
The constructor and `CalculateTags` always ignore the ill-formed entries of their argument. -/
theorem ill_formed_ignored_iff (m : MeterId) {t : Tags} (ot : t.Iteration) :
    (∀ o : (UMap.assign m.tags ot.toList).Iteration,
      (m.withTags ot o).tags = UMap.select validTag t ∪ m.tags ↔
        ∀ k v, t.lookup k = some v → validTag k v = false → k ∉ m.tags) ∧
    (∀ (k v : Str) (o : UMap.Iteration (m.tags.insert k v)),
      (validTag k v = false → (m.withTag k v o).tags = m.tags) ↔
        validTag k v = true ∨ k ∉ m.tags) ∧
    (∀ name : Str, (MeterId.new name ot).tags = UMap.select validTag t) ∧
    ∀ (getenv : Str → Option Str) (k : Str), (calculateTags getenv ot).lookup k =
      (envTag getenv k).or ((UMap.select validTag t).lookup k) := by
  refine ⟨fun o => ?_, fun k v o => ?_, fun name => MeterId.new_tags name ot, fun getenv k => ?_⟩
  · rw [MeterId.withTags_tags]
    exact UMap.select_union_eq_iff m.select_tags t
  · rw [MeterId.withTag_tags]
    cases hv : validTag k v with
    | true => simp
    | false =>
      rw [UMap.select_insert_eq_iff m.select_tags hv]
      simp
  · rw [lookup_calculateTags, UMap.lookup_select]

/-- A tag that is lost: an id with the tag `a=1`, after an empty value for `a`. -/
theorem ill_formed_removes_tag : ∃ (m : MeterId) (o : UMap.Iteration (m.tags.insert (str "a") []))
    (t : Tags) (ot : t.Iteration) (o' : (UMap.assign m.tags ot.toList).Iteration),
    m.tags.lookup (str "a") = some (str "1") ∧
    isEmptyOrWhitespace [] = true ∧ (m.withTag (str "a") [] o).tags ≠ m.tags ∧
    (m.withTag (str "a") [] o).tags.lookup (str "a") = none ∧
    (m.withTags ot o').tags ≠ UMap.select validTag t ∪ m.tags := by
  let m := MeterId.new (str "foo") (.ofAssignIf validTag [(str "a", str "1")] (by decide))
  let ot := UMap.Iteration.ofAssignIf (fun _ _ => true) [(str "a", ([] : Str))] (by decide)
  let o := (UMap.Iteration.nonempty (Finmap.insert (str "a") ([] : Str) m.tags)).some
  let o' := (UMap.Iteration.nonempty (UMap.assign m.tags ot.toList)).some
  have hm : m.tags.lookup (str "a") = some (str "1") := by decide
  have hone : (m.withTag (str "a") [] o).tags.lookup (str "a") = none := by
    rw [MeterId.withTag_lookup]
    decide
  have hmany : (m.withTags ot o').tags.lookup (str "a") = none := by
    rw [MeterId.withTags_lookup]
    decide
  refine ⟨m, o, _, ot, o', hm, rfl, fun h => ?_, hone, fun h => ?_⟩
  · rw [h, hm] at hone
    cases hone
  · rw [h, UMap.lookup_union, UMap.lookup_select, hm] at hmany
    revert hmany
    decide

end Spectator
