import Mathlib.Data.List.Basic
import Mathlib.Data.List.Infix
import Mathlib.Data.List.TakeWhile

/-!
# Pieces of a delimited text

`next d s` is one call of a line reader with delimiter `d` at the text `s`: the piece before the
first `d` and the text after it, or nothing at the end of the text. `pieces d s` collects the pieces
until a call fails. The end-of-text rule is the one of `std::getline`: a final delimiter ends a
piece and starts none, so one empty piece at the end is dropped.

* `pieces_eq`: the collecting loop, one call at a time (the fuel in `collect` is enough).
* `pieces_append_cons`: the first piece of a text that starts with `p ++ d :: …`.
* `pieces_append_flatMap`: pieces joined by the delimiter come back as they were, if the last is
  not empty.
* `splitOn_append_flatMap`, `splitOn_flatMap`: the same for `List.splitOn`, which drops nothing.
* `induction_on`: a text is one piece, or a piece, a delimiter and a text.
* `splitOn_eq_pieces`: what the end-of-text rule drops. `length_splitOn`, `notMem_of_mem_splitOn`,
  `mem_of_mem_splitOn`: how many pieces there are, and what is in them.
* `length_pieces`, `intercalate_pieces`: the same rule in numbers, and in the text that the pieces
  give back.
-/

namespace Getline

universe u

variable {α : Type u}

theorem intercalate_cons_eq (d : α) (p : List α) (ls : List (List α)) :
    [d].intercalate (p :: ls) = p ++ ls.flatMap fun l => d :: l := by
  induction ls generalizing p with
  | nil => simp [List.intercalate]
  | cons l ls ih =>
    rw [List.flatMap_cons, List.cons_append, ← ih]
    simp [List.intercalate]

variable [DecidableEq α]

/-- One call: the piece before the first delimiter, and the text after the delimiter. The call
fails at the end of the text. -/
def next (d : α) (s : List α) : Option (List α × List α) :=
  if s.isEmpty then none
  else some (s.takeWhile (· ≠ d), (s.dropWhile (· ≠ d)).tail)

/-- At most `fuel` calls, until one fails. -/
def collect (d : α) : Nat → List α → List (List α)
  | 0, _ => []
  | fuel + 1, s =>
    match next d s with
    | none => []
    | some (p, rest) => p :: collect d fuel rest

/-- The pieces of the text. Each call takes at least one item, so `s.length` calls are enough. -/
def pieces (d : α) (s : List α) : List (List α) := collect d s.length s

variable {d : α} {s p rest : List α}

theorem next_length (h : next d s = some (p, rest)) : rest.length < s.length := by
  unfold next at h
  split at h
  · cases h
  · rename_i hs
    simp only [Option.some.injEq, Prod.mk.injEq] at h
    obtain ⟨-, rfl⟩ := h
    have hpos : 0 < s.length := List.length_pos_iff.mpr (by simpa using hs)
    have hle := (List.dropWhile_suffix (l := s) (p := (· ≠ d))).length_le
    rw [List.length_tail]
    omega

theorem collect_mono {n m : Nat} (hn : s.length ≤ n) (hm : s.length ≤ m) :
    collect d n s = collect d m s := by
  induction n generalizing s m with
  | zero =>
    have : s = [] := List.eq_nil_of_length_eq_zero (by omega)
    subst this
    cases m <;> rfl
  | succ n ih =>
    cases m with
    | zero =>
      have : s = [] := List.eq_nil_of_length_eq_zero (by omega)
      subst this
      rfl
    | succ m =>
      unfold collect
      cases h : next d s with
      | none => rfl
      | some e =>
        have hlt := next_length h
        show e.1 :: collect d n e.2 = e.1 :: collect d m e.2
        rw [ih (m := m) (by omega) (by omega)]

/-- The loop: one call, then the pieces of the rest. -/
theorem pieces_eq (d : α) (s : List α) :
    pieces d s = match next d s with
      | none => []
      | some (p, rest) => p :: pieces d rest := by
  cases h : next d s with
  | none =>
    unfold pieces
    cases hs : s.length with
    | zero => rfl
    | succ n => unfold collect; rw [h]
  | some e =>
    have hlt := next_length h
    unfold pieces
    obtain ⟨n, hn⟩ : ∃ n, s.length = n + 1 := ⟨s.length - 1, by omega⟩
    rw [hn, collect, h]
    show e.1 :: collect d n e.2 = e.1 :: collect d e.2.length e.2
    rw [collect_mono (m := e.2.length) (by omega) (Nat.le_refl _)]

theorem takeWhile_ne_append (hp : d ∉ p) (rest : List α) :
    (p ++ d :: rest).takeWhile (· ≠ d) = p := by
  rw [List.takeWhile_append_of_pos fun x hx => by
    simp only [ne_eq, decide_eq_true_eq]; rintro rfl; exact hp hx]
  simp

theorem dropWhile_ne_append (hp : d ∉ p) (rest : List α) :
    (p ++ d :: rest).dropWhile (· ≠ d) = d :: rest := by
  rw [List.dropWhile_append_of_pos fun x hx => by
    simp only [ne_eq, decide_eq_true_eq]; rintro rfl; exact hp hx]
  simp

/-- The first piece ends at the first delimiter. -/
theorem pieces_append_cons (hp : d ∉ p) (rest : List α) :
    pieces d (p ++ d :: rest) = p :: pieces d rest := by
  rw [pieces_eq, next, if_neg (by simp), takeWhile_ne_append hp, dropWhile_ne_append hp]
  rfl

/-- A non-empty text without a delimiter is one piece. -/
theorem pieces_of_notMem (hp : d ∉ p) (hne : p ≠ []) : pieces d p = [p] := by
  have hall : ∀ x ∈ p, decide (x ≠ d) = true := fun x hx => by
    simp only [ne_eq, decide_eq_true_eq]; rintro rfl; exact hp hx
  rw [pieces_eq, next, if_neg (by simpa using hne), List.takeWhile_eq_self_iff.mpr hall,
    List.dropWhile_eq_nil_iff.mpr hall]
  rfl

/-- A first piece, and further pieces that the delimiter starts: they come back as they were, if
the last of them is not empty. -/
theorem pieces_append_flatMap {ls : List (List α)} (hp : d ∉ p) (h : ∀ l ∈ ls, d ∉ l ∧ l ≠ [])
    (hne : ls ≠ [] ∨ p ≠ []) : pieces d (p ++ ls.flatMap fun l => d :: l) = p :: ls := by
  induction ls generalizing p with
  | nil => simpa using pieces_of_notMem hp (hne.resolve_left fun h => h rfl)
  | cons l ls ih =>
    obtain ⟨hl, hl'⟩ := h l List.mem_cons_self
    rw [List.flatMap_cons, List.cons_append, pieces_append_cons hp,
      ih hl (fun l hl => h l (List.mem_cons_of_mem _ hl)) (.inr hl')]

/-! ## All pieces -/

/-- A first piece, and further pieces that the delimiter starts. -/
theorem splitOn_append_flatMap {ls : List (List α)} (hp : d ∉ p) (h : ∀ l ∈ ls, d ∉ l) :
    (p ++ ls.flatMap fun l => d :: l).splitOn d = p :: ls := by
  rw [← intercalate_cons_eq]
  refine List.splitOn_intercalate d (fun l hl => ?_) (List.cons_ne_nil _ _)
  rcases List.mem_cons.mp hl with rfl | hl
  · exact hp
  · exact h l hl

/-- Lines that each end with the delimiter: the last piece is empty. -/
theorem splitOn_flatMap {ls : List (List α)} (h : ∀ l ∈ ls, d ∉ l) :
    (ls.flatMap fun l => l ++ [d]).splitOn d = ls ++ [[]] := by
  have hjoin : (ls.flatMap fun l => l ++ [d]) = [d].intercalate (ls ++ [[]]) := by
    induction ls with
    | nil => simp [List.intercalate]
    | cons l ls ih =>
      rw [List.flatMap_cons, ih fun l' hl' => h l' (List.mem_cons_of_mem _ hl')]
      cases ls <;> simp [List.intercalate]
  rw [hjoin]
  refine List.splitOn_intercalate d (fun l hl => ?_) (by simp)
  rcases List.mem_append.mp hl with hl | hl
  · exact h l hl
  · rw [List.mem_singleton.mp hl]; exact List.not_mem_nil

/-! ## The two ways to cut a text -/

/-- Induction along the delimiters of a text. -/
theorem induction_on {P : List α → Prop} (d : α) (s : List α) (single : ∀ p, d ∉ p → P p)
    (cons : ∀ p rest, d ∉ p → P rest → P (p ++ d :: rest)) : P s := by
  induction hn : s.length using Nat.strongRecOn generalizing s with
  | _ n ih =>
    by_cases hd : d ∈ s
    · obtain ⟨p, rest, rfl, hp⟩ := List.eq_append_cons_of_mem hd
      refine cons p rest hp (ih rest.length ?_ rest rfl)
      rw [← hn, List.length_append, List.length_cons]
      omega
    · exact single s hd

/-- The text ends where no piece follows: it is empty, or its last item is a delimiter. -/
def Ends (d : α) (s : List α) : Prop := s = [] ∨ s.getLast? = some d

instance (d : α) (s : List α) : Decidable (Ends d s) :=
  inferInstanceAs (Decidable (s = [] ∨ s.getLast? = some d))

omit [DecidableEq α] in
theorem ends_append_cons (p rest : List α) : Ends d (p ++ d :: rest) ↔ Ends d rest := by
  unfold Ends
  cases rest with
  | nil => simp
  | cons x rest => simp [List.getLast?_append]

omit [DecidableEq α] in
theorem ends_of_notMem (hp : d ∉ p) : Ends d p ↔ p = [] := by
  refine ⟨fun h => h.resolve_right fun hl => hp (List.mem_of_getLast? hl), .inl⟩

/-- What the end-of-text rule drops: the last of all pieces, if it is empty. -/
theorem splitOn_eq_pieces (d : α) (s : List α) :
    s.splitOn d = pieces d s ++ if Ends d s then [[]] else [] := by
  induction s using induction_on d with
  | single p hp =>
    by_cases hne : p = []
    · subst hne
      rfl
    · rw [pieces_of_notMem hp hne, List.splitOn_eq_singleton hp,
        if_neg fun h => hne ((ends_of_notMem hp).mp h), List.append_nil]
  | cons p rest hp ih =>
    rw [pieces_append_cons hp, List.splitOn_append_cons_self_of_not_mem hp, ih, List.cons_append]
    simp only [ends_append_cons]

/-- Where no piece follows, the last of all pieces is empty. -/
theorem ends_iff (d : α) (s : List α) : Ends d s ↔ (s.splitOn d).getLast? = some [] := by
  induction s using induction_on d with
  | single p hp =>
    rw [ends_of_notMem hp, List.splitOn_eq_singleton hp]
    simp
  | cons p rest hp ih =>
    rw [ends_append_cons, ih, List.splitOn_append_cons_self_of_not_mem hp,
      List.getLast?_cons_of_ne_nil (List.splitOn_ne_nil _ _)]

theorem length_splitOn (d : α) (s : List α) : (s.splitOn d).length = s.count d + 1 := by
  induction s using induction_on d with
  | single p hp => rw [List.splitOn_eq_singleton hp, List.count_eq_zero_of_not_mem hp]; rfl
  | cons p rest hp ih =>
    rw [List.splitOn_append_cons_self_of_not_mem hp, List.length_cons, ih, List.count_append,
      List.count_eq_zero_of_not_mem hp, List.count_cons_self, Nat.zero_add]

theorem notMem_of_mem_splitOn (h : p ∈ s.splitOn d) : d ∉ p := by
  induction s using induction_on d with
  | single q hq =>
    rw [List.splitOn_eq_singleton hq, List.mem_singleton] at h
    rw [h]
    exact hq
  | cons q rest hq ih =>
    rw [List.splitOn_append_cons_self_of_not_mem hq] at h
    rcases List.mem_cons.mp h with rfl | h
    · exact hq
    · exact ih h

/-- A piece has no items that the text does not have. -/
theorem mem_of_mem_splitOn {x : α} (hx : x ∈ p) (h : p ∈ s.splitOn d) : x ∈ s := by
  induction s using induction_on d with
  | single q hq =>
    rw [List.splitOn_eq_singleton hq, List.mem_singleton] at h
    rw [← h]
    exact hx
  | cons q rest hq ih =>
    rw [List.splitOn_append_cons_self_of_not_mem hq] at h
    rcases List.mem_cons.mp h with rfl | h
    · exact List.mem_append_left _ hx
    · exact List.mem_append_right _ (List.mem_cons_of_mem _ (ih h))

/-- The first piece of a text that is not empty. -/
theorem pieces_of_ne_nil (d : α) (hs : s ≠ []) :
    pieces d s = s.takeWhile (· ≠ d) :: pieces d (s.dropWhile (· ≠ d)).tail := by
  rw [pieces_eq, next, if_neg (by simpa using hs)]

/-! ## The pieces, counted and joined -/

theorem notMem_of_mem_pieces (h : p ∈ pieces d s) : d ∉ p := by
  refine notMem_of_mem_splitOn (s := s) ?_
  rw [splitOn_eq_pieces]
  exact List.mem_append_left _ h

/-- Each delimiter ends a piece, and so does the end of the text, if it is not right after one. -/
theorem length_pieces (d : α) (s : List α) :
    (pieces d s).length = s.count d + if Ends d s then 0 else 1 := by
  have hlen := length_splitOn d s
  rw [splitOn_eq_pieces, List.length_append] at hlen
  by_cases he : Ends d s
  · rw [if_pos he] at hlen ⊢
    simpa using hlen
  · rw [if_neg he] at hlen ⊢
    simpa using hlen

omit [DecidableEq α] in
/-- A further piece that is empty: one more delimiter. -/
theorem intercalate_append_nil {ls : List (List α)} (hne : ls ≠ []) :
    [d].intercalate (ls ++ [[]]) = [d].intercalate ls ++ [d] := by
  obtain ⟨p, ls, rfl⟩ := List.exists_cons_of_ne_nil hne
  rw [List.cons_append, intercalate_cons_eq, intercalate_cons_eq]
  simp

/-- The pieces joined: only a final delimiter is lost. -/
theorem intercalate_pieces (d : α) (s : List α) :
    [d].intercalate (pieces d s) ++ (if s.getLast? = some d then [d] else []) = s := by
  have hjoin : [d].intercalate (s.splitOn d) = s := List.intercalate_splitOn d
  rw [splitOn_eq_pieces] at hjoin
  by_cases hs : s = []
  · subst hs
    rfl
  · by_cases hl : s.getLast? = some d
    · have hne : pieces d s ≠ [] := by
        rw [pieces_of_ne_nil d hs]
        exact List.cons_ne_nil _ _
      rw [if_pos (.inr hl), intercalate_append_nil hne] at hjoin
      rw [if_pos hl, hjoin]
    · have he : ¬ Ends d s := fun he => he.elim hs hl
      rw [if_neg he, List.append_nil] at hjoin
      rw [if_neg hl, List.append_nil, hjoin]

end Getline
