import Mathlib.Data.Finmap
import Mathlib.Data.List.Sort

/-!
# Unordered maps and the orders in which they are visited

An unordered map is its contents: a `Finmap`, so that two maps are equal exactly if they have the
same entries. The order in which a loop visits the entries is not part of the map. It is an
argument of the code that loops (`Iteration m`), and what is proved for every `Iteration` holds
for every bucket layout.

* `Iteration m`: an order in which a loop may visit `m`: every entry once, and nothing else.
* `assignIf p m l`: `m` after the assignments `m[k] = v` for the entries of `l` that pass `p`.
* `lookup_assignIf`: what such a loop over an `Iteration` leaves at a key, whatever the order.
* `size_assign_empty`: how many entries a loop of assignments builds.
* `Iteration.sort`: the order of the keys. `Iteration.sort_eq`: it is the same from any order.
-/

/-- The contents of an unordered map. -/
abbrev UMap (κ β : Type) : Type := Finmap fun _ : κ => β

namespace UMap

variable {κ β : Type} [DecidableEq κ]

/-- An order in which a loop over `m` may visit its entries. -/
structure Iteration (m : UMap κ β) where
  toList : List (κ × β)
  nodupKeys : (toList.map Prod.fst).Nodup
  mem_iff : ∀ k v, (k, v) ∈ toList ↔ Finmap.lookup k m = some v

/-- The loop `for (k, v) in l: if (p(k, v)) m[k] = v`. -/
def assignIf (p : κ → β → Bool) (m : UMap κ β) (l : List (κ × β)) : UMap κ β :=
  l.foldl (fun m e => if p e.1 e.2 then m.insert e.1 e.2 else m) m

/-- The loop `for (k, v) in l: m[k] = v`. -/
def assign (m : UMap κ β) (l : List (κ × β)) : UMap κ β :=
  l.foldl (fun m e => m.insert e.1 e.2) m

variable {p : κ → β → Bool} {m a : UMap κ β} {l : List (κ × β)} {k : κ} {v : β}

theorem assign_eq_assignIf (m : UMap κ β) (l : List (κ × β)) :
    assign m l = assignIf (fun _ _ => true) m l := by
  simp [assign, assignIf]

/-! ## What a loop of assignments leaves at a key -/

theorem lookup_assignIf_of_notMem (h : ∀ v, (k, v) ∈ l → p k v = false) :
    (assignIf p m l).lookup k = m.lookup k := by
  induction l generalizing m with
  | nil => rfl
  | cons e l ih =>
    obtain ⟨k', v'⟩ := e
    show (assignIf p (if p k' v' then m.insert k' v' else m) l).lookup k = _
    rw [ih fun v hv => h v (List.mem_cons_of_mem _ hv)]
    split
    · rename_i hp
      have hk : k ≠ k' := by
        rintro rfl
        rw [h v' List.mem_cons_self] at hp
        cases hp
      rw [Finmap.lookup_insert_of_ne _ hk]
    · rfl

theorem lookup_assignIf_of_mem (hn : (l.map Prod.fst).Nodup) (h : (k, v) ∈ l) (hp : p k v = true) :
    (assignIf p m l).lookup k = some v := by
  induction l generalizing m with
  | nil => cases h
  | cons e l ih =>
    obtain ⟨k', v'⟩ := e
    rw [List.map_cons, List.nodup_cons] at hn
    show (assignIf p (if p k' v' then m.insert k' v' else m) l).lookup k = _
    rcases List.mem_cons.mp h with he | h
    · -- The entry of `k` itself: no later entry has its key.
      cases he
      rw [lookup_assignIf_of_notMem, if_pos hp, Finmap.lookup_insert]
      intro w hw
      exact absurd (List.mem_map_of_mem (f := Prod.fst) hw) hn.1
    · exact ih hn.2 h

/-- A loop of assignments, whatever the order: an entry of `a` that passes `p` overrides, and
every other key keeps its value. -/
theorem lookup_assignIf (o : a.Iteration) (m : UMap κ β) (k : κ) :
    (assignIf p m o.toList).lookup k = ((a.lookup k).filter (p k)).or (m.lookup k) := by
  cases ha : a.lookup k with
  | none =>
    rw [lookup_assignIf_of_notMem fun v hv => ?_]
    · rfl
    · rw [(o.mem_iff k v).mp hv] at ha; cases ha
  | some v =>
    have hv := (o.mem_iff k v).mpr ha
    cases hp : p k v with
    | true => rw [lookup_assignIf_of_mem o.nodupKeys hv hp, Option.filter_some_pos hp]; rfl
    | false =>
      rw [lookup_assignIf_of_notMem fun w hw => ?_]
      · rw [Option.filter_some_neg hp]; rfl
      · rw [(o.mem_iff k w).mp hw] at ha; cases ha; exact hp

theorem lookup_assign (o : a.Iteration) (m : UMap κ β) (k : κ) :
    (assign m o.toList).lookup k = (a.lookup k).or (m.lookup k) := by
  rw [assign_eq_assignIf, lookup_assignIf]
  cases a.lookup k <;> rfl

/-- Whatever the entries, a value is one that passed, or was there before. -/
theorem mem_of_lookup_assignIf (h : (assignIf p m l).lookup k = some v) :
    ((k, v) ∈ l ∧ p k v = true) ∨ m.lookup k = some v := by
  induction l generalizing m with
  | nil => exact .inr h
  | cons e l ih =>
    obtain ⟨k', v'⟩ := e
    have h : (assignIf p (if p k' v' then m.insert k' v' else m) l).lookup k = some v := h
    rcases ih h with ⟨hl, hp⟩ | hm
    · exact .inl ⟨List.mem_cons_of_mem _ hl, hp⟩
    · split at hm
      · rename_i hp
        by_cases hk : k = k'
        · subst hk
          rw [Finmap.lookup_insert, Option.some.injEq] at hm
          subst hm
          exact .inl ⟨List.mem_cons_self, hp⟩
        · rw [Finmap.lookup_insert_of_ne _ hk] at hm
          exact .inr hm
      · exact .inr hm

theorem mem_of_lookup_assign (h : (assign m l).lookup k = some v) :
    (k, v) ∈ l ∨ m.lookup k = some v := by
  rw [assign_eq_assignIf] at h
  exact (mem_of_lookup_assignIf h).imp_left And.left

theorem mem_assign : k ∈ assign m l ↔ k ∈ l.map Prod.fst ∨ k ∈ m := by
  induction l generalizing m with
  | nil => exact ⟨.inr, fun h => h.resolve_left List.not_mem_nil⟩
  | cons e l ih =>
    refine ih.trans ?_
    rw [Finmap.mem_insert, List.map_cons, List.mem_cons]
    tauto

/-! ## Iteration orders -/

theorem Iteration.nodup (o : m.Iteration) : o.toList.Nodup := o.nodupKeys.of_map

/-- Two orders visit the same entries. -/
theorem Iteration.perm (o o' : m.Iteration) : o.toList.Perm o'.toList :=
  (List.perm_ext_iff_of_nodup o.nodup o'.nodup).mpr fun ⟨k, v⟩ => by rw [o.mem_iff, o'.mem_iff]

/-- Any rearrangement of an order is an order. -/
def Iteration.ofPerm (o : m.Iteration) (l : List (κ × β)) (h : l.Perm o.toList) : m.Iteration where
  toList := l
  nodupKeys := (h.map Prod.fst).nodup_iff.mpr o.nodupKeys
  mem_iff k v := h.mem_iff.trans (o.mem_iff k v)

section Sorted

variable (r : κ → κ → Prop) [DecidableRel r]

/-- The order of the keys: how an ordered map with the same entries is visited. -/
def Iteration.sort (o : m.Iteration) : m.Iteration :=
  o.ofPerm (o.toList.insertionSort fun a b => r a.1 b.1) (List.perm_insertionSort _ _)

theorem Iteration.sort_perm (o : m.Iteration) : (o.sort r).toList.Perm o.toList :=
  List.perm_insertionSort _ _

theorem Iteration.sort_pairwise [Std.Total r] [IsTrans κ r] (o : m.Iteration) :
    ((o.sort r).toList.map Prod.fst).Pairwise r := by
  have : Std.Total fun a b : κ × β => r a.1 b.1 := ⟨fun a b => Std.Total.total a.1 b.1⟩
  have : IsTrans (κ × β) fun a b => r a.1 b.1 := ⟨fun a b c h h' => IsTrans.trans a.1 b.1 c.1 h h'⟩
  rw [List.pairwise_map]
  exact List.pairwise_insertionSort _ o.toList

/-- The ordered map does not depend on the order in which it was filled. -/
theorem Iteration.sort_eq [Std.Total r] [IsTrans κ r] [Std.Antisymm r] (o o' : m.Iteration) :
    (o.sort r).toList = (o'.sort r).toList := by
  refine List.Perm.eq_of_pairwise (fun a b ha hb h h' => ?_)
    (List.pairwise_map.mp (o.sort_pairwise r)) (List.pairwise_map.mp (o'.sort_pairwise r))
    ((o.sort r).perm (o'.sort r))
  have hk : a.1 = b.1 := Std.Antisymm.antisymm _ _ h h'
  have ha := ((o.sort r).mem_iff a.1 a.2).mp ha
  have hb := ((o'.sort r).mem_iff b.1 b.2).mp hb
  rw [hk, hb] at ha
  exact Prod.ext hk (Option.some.inj ha).symm

end Sorted

/-- The entries of `l` that pass, in the order in which they were assigned, are an order of the map
that the assignments build. -/
def Iteration.ofAssignIf (p : κ → β → Bool) (l : List (κ × β)) (h : (l.map Prod.fst).Nodup) :
    (assignIf p (∅ : UMap κ β) l).Iteration where
  toList := l.filter fun e => p e.1 e.2
  nodupKeys := (List.filter_sublist.map Prod.fst).nodup h
  mem_iff k v := by
    rw [List.mem_filter]
    constructor
    · rintro ⟨hv, hp⟩
      exact lookup_assignIf_of_mem h hv hp
    · intro hk
      by_contra hv
      by_cases hw : ∃ w, (k, w) ∈ l ∧ p k w = true
      · obtain ⟨w, hw, hp⟩ := hw
        rw [lookup_assignIf_of_mem h hw hp] at hk
        cases hk
        exact hv ⟨hw, hp⟩
      · rw [lookup_assignIf_of_notMem fun w h' => ?_] at hk
        · simp at hk
        · rw [← Bool.not_eq_true]
          exact fun hp => hw ⟨w, h', hp⟩

/-- Assignments with distinct keys build the map of their entries. -/
theorem lookup_assign_empty (h : (l.map Prod.fst).Nodup) :
    (assign (∅ : UMap κ β) l).lookup k = some v ↔ (k, v) ∈ l := by
  rw [assign_eq_assignIf, ← (Iteration.ofAssignIf (fun _ _ => true) l h).mem_iff k v]
  simp [Iteration.ofAssignIf]

/-- An order of that map is a rearrangement of the entries. -/
theorem Iteration.perm_entries (o : (assign (∅ : UMap κ β) l).Iteration)
    (h : (l.map Prod.fst).Nodup) : o.toList.Perm l :=
  (List.perm_ext_iff_of_nodup o.nodup h.of_map).mpr fun ⟨k, v⟩ => by
    rw [o.mem_iff, lookup_assign_empty h]

/-- Every map can be visited. -/
theorem Iteration.nonempty (m : UMap κ β) : Nonempty m.Iteration := by
  induction m using Finmap.induction_on with
  | _ s =>
  have hk : ((s.entries.map fun e => (e.1, e.2)).map Prod.fst).Nodup := by
    rw [List.map_map]
    exact s.nodupKeys
  refine ⟨⟨s.entries.map fun e => (e.1, e.2), hk, fun k v => ?_⟩⟩
  rw [Finmap.lookup_toFinmap, ← Option.mem_def, AList.mem_lookup_iff, List.mem_map]
  constructor
  · rintro ⟨⟨k', v'⟩, h, e⟩
    cases e
    exact h
  · intro h
    exact ⟨⟨k, v⟩, h, rfl⟩

/-- The number of entries. -/
def size (m : UMap κ β) : Nat := m.keys.card

theorem Iteration.length (o : m.Iteration) : o.toList.length = m.size := by
  have : (o.toList.map Prod.fst).toFinset = m.keys := by
    ext k
    rw [List.mem_toFinset, Finmap.mem_keys, Finmap.mem_iff, List.mem_map]
    constructor
    · rintro ⟨⟨k', v⟩, h, rfl⟩
      exact ⟨v, (o.mem_iff k' v).mp h⟩
    · rintro ⟨v, h⟩
      exact ⟨(k, v), (o.mem_iff k v).mpr h, rfl⟩
  rw [size, ← this, List.toFinset_card_of_nodup o.nodupKeys, List.length_map]

/-- Assignments to an empty map: as many entries as there are different keys. -/
theorem size_assign_empty (l : List (κ × β)) :
    (assign (∅ : UMap κ β) l).size = (l.map Prod.fst).toFinset.card := by
  rw [size]
  congr 1
  ext k
  rw [Finmap.mem_keys, mem_assign, List.mem_toFinset]
  exact or_iff_left Finmap.notMem_empty

/-- No assignment overwrites another one exactly if the keys are distinct. -/
theorem size_assign_eq_length_iff (l : List (κ × β)) :
    (assign (∅ : UMap κ β) l).size = l.length ↔ (l.map Prod.fst).Nodup := by
  rw [size_assign_empty, ← List.length_map (f := Prod.fst)]
  exact Multiset.toFinset_card_eq_card_iff_nodup (m := Multiset.ofList (l.map Prod.fst))

end UMap
