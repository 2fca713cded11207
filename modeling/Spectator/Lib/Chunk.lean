import Mathlib.Data.List.Infix

/-!
# Greedy chunking of a list

Items of a size arrive one by one and leave in chunks. A chunk is the shortest non-empty run of
the items that remain whose total size reaches a bound `n`. This file states that policy alone
(nothing of who collects or who sends the items).

* `total size l`: the total size of the items of `l`.
* `IsShortest size n c l`: `c` is the chunk that the policy cuts off the front of `l`.
* `Greedy size n l cs rest`: `cs` are the first chunks of `l`, `rest` is what remains.
* `Greedy.append` and `Greedy.snoc`: how the chunking grows when an item arrives and when the
  remaining items leave as one chunk.
-/

namespace Chunk

universe u

variable {α : Type u} (size : α → Nat) (n : Nat)

/-- The total size of the items. -/
def total : List α → Nat
  | [] => 0
  | a :: l => size a + total l

/-- `c` is the shortest non-empty prefix of `l` whose total size reaches `n`. -/
structure IsShortest (c l : List α) : Prop where
  isPrefix : c <+: l
  ne_nil : c ≠ []
  reaches : n ≤ total size c
  least : ∀ c', c' <+: l → c' ≠ [] → n ≤ total size c' → c.length ≤ c'.length

/-- `cs` are the first chunks of `l`, each cut off the front of what the ones before it left, and
`rest` is what remains. -/
inductive Greedy : List α → List (List α) → List α → Prop
  | done (l : List α) : Greedy l [] l
  | chunk {c l rest : List α} {cs : List (List α)} : IsShortest size n c (c ++ l) →
      Greedy l cs rest → Greedy (c ++ l) (c :: cs) rest

variable {size n}

@[simp] theorem total_nil : total size [] = 0 := rfl

@[simp] theorem total_append (l₁ l₂ : List α) :
    total size (l₁ ++ l₂) = total size l₁ + total size l₂ := by
  induction l₁ with
  | nil => simp [total]
  | cons a l₁ ih => rw [List.cons_append, total, total, ih, Nat.add_assoc]

theorem total_le_of_prefix {l₁ l₂ : List α} (h : l₁ <+: l₂) : total size l₁ ≤ total size l₂ := by
  obtain ⟨l, rfl⟩ := h
  rw [total_append]
  exact Nat.le_add_right _ _

/-- A shorter prefix of the same list is a prefix of all but the last item. -/
theorem prefix_dropLast {c c' l : List α} (hc : c <+: l) (hc' : c' <+: l)
    (hlt : c'.length < c.length) : c' <+: c.dropLast := by
  have hp : c' <+: c := List.prefix_of_prefix_length_le hc' hc (Nat.le_of_lt hlt)
  refine List.prefix_of_prefix_length_le hp (List.dropLast_prefix c) ?_
  rw [List.length_dropLast]
  omega

/-- A prefix that reaches the bound, but does not without its last item, is the shortest. -/
theorem IsShortest.of_dropLast {c l : List α} (hp : c <+: l) (hc : c ≠ [])
    (hr : n ≤ total size c) (hd : total size c.dropLast < n) : IsShortest size n c l := by
  refine ⟨hp, hc, hr, fun c' hc' _ hr' => ?_⟩
  by_contra hlt
  have hle : total size c' ≤ total size c.dropLast :=
    total_le_of_prefix (prefix_dropLast hp hc' (by omega))
  omega

/-- The shortest prefix does not reach a positive bound without its last item. -/
theorem IsShortest.dropLast_lt {c l : List α} (h : IsShortest size n c l) (hn : 0 < n) :
    total size c.dropLast < n := by
  by_contra hge
  have hne : c.dropLast ≠ [] := by
    intro he
    rw [he, total_nil] at hge
    omega
  have hle := h.least _ ((List.dropLast_prefix c).trans h.isPrefix) hne (by omega)
  rw [List.length_dropLast] at hle
  have hpos := List.length_pos_iff.mpr h.ne_nil
  omega

/-- More items at the end do not change the first chunk. -/
theorem IsShortest.append {c l : List α} (h : IsShortest size n c l) (m : List α) :
    IsShortest size n c (l ++ m) := by
  refine ⟨h.isPrefix.trans (List.prefix_append l m), h.ne_nil, h.reaches, fun c' hc' hne hr => ?_⟩
  by_cases hlen : c'.length ≤ l.length
  · exact h.least c' (List.prefix_of_prefix_length_le hc' (List.prefix_append l m) hlen) hne hr
  · have := h.isPrefix.length_le
    omega

/-- An item that arrives joins what remains. -/
theorem Greedy.append {l rest : List α} {cs : List (List α)} (h : Greedy size n l cs rest)
    (m : List α) : Greedy size n (l ++ m) cs (rest ++ m) := by
  induction h with
  | done l => exact .done _
  | chunk hs _ ih =>
    rw [List.append_assoc]
    refine .chunk ?_ ih
    rw [← List.append_assoc]
    exact hs.append m

/-- What remains leaves as the next chunk. -/
theorem Greedy.snoc {l rest : List α} {cs : List (List α)} (h : Greedy size n l cs rest)
    (hs : IsShortest size n rest rest) : Greedy size n l (cs ++ [rest]) [] := by
  induction h with
  | done l =>
    have h1 : Greedy size n (l ++ []) [l] [] := .chunk (by simpa using hs) (.done [])
    simpa using h1
  | chunk hc _ ih => exact .chunk hc (ih hs)

/-- The chunks and what remains are the items, in their order. -/
theorem Greedy.flatten {l rest : List α} {cs : List (List α)} (h : Greedy size n l cs rest) :
    cs.flatten ++ rest = l := by
  induction h with
  | done l => rfl
  | chunk _ _ ih => rw [List.flatten_cons, List.append_assoc, ih]

/-- Each chunk reaches the bound, and does not without its last item. -/
theorem Greedy.bounds {l rest : List α} {cs : List (List α)} (h : Greedy size n l cs rest)
    (hn : 0 < n) : ∀ c ∈ cs, c ≠ [] ∧ n ≤ total size c ∧ total size c.dropLast < n := by
  induction h with
  | done l => simp
  | chunk hs _ ih =>
    intro c hc
    rcases List.mem_cons.mp hc with rfl | hc
    · exact ⟨hs.ne_nil, hs.reaches, hs.dropLast_lt hn⟩
    · exact ih c hc

end Chunk
