import Mathlib.Data.List.Basic
import Mathlib.Data.List.TakeWhile

/-!
# Patterns with capture groups

A pattern is a sequence of items: a literal text, or a captured repetition of one class of
characters, `(c*)` or `(c+)`. `fullMatch` is the backtracking matcher of a whole text: a repetition
takes as many characters as it can, and gives them back one at a time while the rest of the pattern
does not match.

* `Matches items caps s`: the declarative meaning, with any split of `s`.
* `matches_of_fullMatch`, `exists_fullMatch`: the matcher is sound, and finds a match if there is
  one.
* `Delimited`: what follows a repetition cannot be taken by it. `fullMatch_iff`: then the match is
  unique, and the matcher finds it.
-/

namespace Pattern

universe u

variable {α : Type u}

/-- A piece of a pattern. -/
inductive Item (α : Type u) where
  | lit (text : List α)
  /-- A capture group: at least `least` characters of the class. -/
  | group (cls : α → Bool) (least : Nat)

/-- The lengths `n`, `n - 1`, …, `least` for a group at the start of `s`, until the rest matches. -/
def backtrack (rest : List α → Option (List (List α))) (s : List α) (least : Nat) :
    Nat → Option (List (List α))
  | 0 => if least = 0 then (rest s).map fun caps => [] :: caps else none
  | n + 1 =>
    if n + 1 < least then none
    else match rest (s.drop (n + 1)) with
      | some caps => some (s.take (n + 1) :: caps)
      | none => backtrack rest s least n

/-- The captures of the first match of the whole text. -/
def fullMatch [DecidableEq α] : List (Item α) → List α → Option (List (List α))
  | [], s => if s.isEmpty then some [] else none
  | .lit text :: items, s =>
    if text.isPrefixOf s then fullMatch items (s.drop text.length) else none
  | .group cls least :: items, s =>
    backtrack (fullMatch items) s least (s.takeWhile cls).length

/-- The text is the pieces of the pattern in order, with these captures. -/
inductive Matches : List (Item α) → List (List α) → List α → Prop
  | nil : Matches [] [] []
  | lit {items : List (Item α)} {caps : List (List α)} {s : List α} (text : List α) :
      Matches items caps s → Matches (.lit text :: items) caps (text ++ s)
  | group {items : List (Item α)} {caps : List (List α)} {s : List α} {cls : α → Bool}
      {least : Nat} (g : List α) : (∀ c ∈ g, cls c = true) → least ≤ g.length →
      Matches items caps s → Matches (.group cls least :: items) (g :: caps) (g ++ s)

/-- No group can take the first character of what follows it. -/
def Delimited : List (Item α) → Prop
  | [] => True
  | .lit _ :: items => Delimited items
  | [.group _ _] => True
  | .group cls _ :: .lit (d :: _) :: items => cls d = false ∧ Delimited items
  | .group _ _ :: _ => False

variable {rest : List α → Option (List (List α))} {items : List (Item α)} {s : List α}
  {caps : List (List α)} {cls : α → Bool} {least : Nat}

/-- A prefix no longer than the run of the class is in the class. -/
theorem mem_take_of_le {n : Nat} (hn : n ≤ (s.takeWhile cls).length) {c : α}
    (hc : c ∈ s.take n) : cls c = true := by
  have hpre : s.take n <+: s.takeWhile cls :=
    List.prefix_of_prefix_length_le (List.take_prefix n s) (List.takeWhile_prefix cls)
      ((List.length_take_le n s).trans hn)
  exact List.mem_takeWhile_imp (hpre.subset hc)

theorem eq_of_backtrack {n : Nat} (hn : n ≤ s.length) (h : backtrack rest s least n = some caps) :
    ∃ k caps', k ≤ n ∧ least ≤ k ∧ caps = s.take k :: caps' ∧ rest (s.drop k) = some caps' := by
  induction n with
  | zero =>
    rw [backtrack] at h
    split at h
    · rename_i hl
      obtain ⟨caps', hr, rfl⟩ := Option.map_eq_some_iff.mp h
      exact ⟨0, caps', Nat.le_refl _, Nat.le_of_eq hl, rfl, hr⟩
    · cases h
  | succ n ih =>
    rw [backtrack] at h
    split at h
    · cases h
    · rename_i hl
      cases hr : rest (s.drop (n + 1)) with
      | some caps' =>
        rw [hr] at h
        cases h
        exact ⟨n + 1, caps', Nat.le_refl _, Nat.le_of_not_lt hl, rfl, hr⟩
      | none =>
        rw [hr] at h
        obtain ⟨k, caps', hk, hl', hc, hr'⟩ := ih (Nat.le_of_succ_le hn) h
        exact ⟨k, caps', Nat.le_succ_of_le hk, hl', hc, hr'⟩

theorem exists_backtrack {n k : Nat} (hk : k ≤ n) (hl : least ≤ k)
    (hr : (rest (s.drop k)).isSome = true) : (backtrack rest s least n).isSome = true := by
  induction n with
  | zero =>
    obtain rfl : k = 0 := Nat.le_zero.mp hk
    rw [backtrack, if_pos (Nat.le_zero.mp hl), Option.isSome_map]
    exact hr
  | succ n ih =>
    rw [backtrack, if_neg (by omega)]
    cases hn : rest (s.drop (n + 1)) with
    | some caps => rfl
    | none =>
      -- The length `n + 1` fails, so `k` is one of the shorter ones.
      have hne : k ≠ n + 1 := by
        rintro rfl
        rw [hn] at hr
        cases hr
      exact ih (by omega)

variable [DecidableEq α]

/-- Soundness: what the matcher finds is a match. -/
theorem matches_of_fullMatch (h : fullMatch items s = some caps) : Matches items caps s := by
  induction items generalizing s caps with
  | nil =>
    rw [fullMatch] at h
    split at h
    · rename_i hs
      rw [List.isEmpty_iff] at hs
      subst hs
      cases h
      exact .nil
    · cases h
  | cons item items ih =>
    cases item with
    | lit text =>
      rw [fullMatch] at h
      split at h
      · rename_i hp
        obtain ⟨s', rfl⟩ := List.isPrefixOf_iff_prefix.mp hp
        rw [List.drop_left] at h
        exact .lit text (ih h)
      · cases h
    | group cls least =>
      rw [fullMatch] at h
      have hle := (List.takeWhile_prefix cls (l := s)).length_le
      obtain ⟨k, caps', hk, hl, rfl, hr⟩ := eq_of_backtrack hle h
      have hm : Matches (.group cls least :: items) (s.take k :: caps') (s.take k ++ s.drop k) :=
        .group _ (fun c hc => mem_take_of_le hk hc) (by rw [List.length_take]; omega) (ih hr)
      rwa [List.take_append_drop] at hm

/-- Completeness: if there is a match, the matcher finds one. -/
theorem exists_fullMatch (h : Matches items caps s) : (fullMatch items s).isSome = true := by
  induction h with
  | nil => rfl
  | lit text _ ih =>
    rw [fullMatch, if_pos (List.isPrefixOf_iff_prefix.mpr (List.prefix_append _ _)),
      List.drop_left]
    exact ih
  | @group items caps s cls least g hg hl _ ih =>
    rw [fullMatch]
    refine exists_backtrack (k := g.length) ?_ hl (by rw [List.drop_left]; exact ih)
    rw [List.takeWhile_append_of_pos hg, List.length_append]
    omega

omit [DecidableEq α] in
/-- A group before the end or a character outside its class takes the whole run of the class. -/
theorem takeWhile_of_delimited {g t : List α} (hg : ∀ c ∈ g, cls c = true)
    (ht : ∀ c ∈ t.head?, cls c = false) : (g ++ t).takeWhile cls = g := by
  rw [List.takeWhile_append_of_pos hg]
  cases t with
  | nil => simp
  | cons d t => rw [List.takeWhile_cons_of_neg (by simp [ht d rfl]), List.append_nil]

omit [DecidableEq α] in
/-- The rest of a text after a group of a delimited pattern starts outside the class. -/
theorem Delimited.head? (hd : Delimited (.group cls least :: items)) (h : Matches items caps s) :
    Delimited items ∧ ∀ c ∈ s.head?, cls c = false := by
  cases h with
  | nil => exact ⟨trivial, nofun⟩
  | lit text _ =>
    cases text with
    | nil => cases hd
    | cons d text =>
      refine ⟨hd.2, fun c hc => ?_⟩
      cases hc
      exact hd.1
  | group => cases hd

omit [DecidableEq α] in
/-- A delimited pattern matches a text in one way. -/
theorem Matches.unique {caps' : List (List α)} (hd : Delimited items) (h : Matches items caps s)
    (h' : Matches items caps' s) : caps = caps' := by
  induction h generalizing caps' with
  | nil => cases h'; rfl
  | lit text _ ih =>
    generalize ht : text ++ _ = t at h'
    cases h' with
    | lit _ h' =>
      rw [List.append_cancel_left ht] at ih
      exact ih hd h'
  | group g hg _ hm ih =>
    generalize ht : g ++ _ = t at h'
    cases h' with
    | group g' hg' _ h' =>
      obtain ⟨hd', hs⟩ := hd.head? hm
      have e : g = g' := by
        rw [← takeWhile_of_delimited hg hs, ht, takeWhile_of_delimited hg' (hd.head? h').2]
      subst e
      rw [List.append_cancel_left ht] at ih
      rw [ih hd' h']

/-- A delimited pattern: the matcher finds the one match there is. -/
theorem fullMatch_iff (hd : Delimited items) : fullMatch items s = some caps ↔
    Matches items caps s := by
  refine ⟨matches_of_fullMatch, fun h => ?_⟩
  obtain ⟨caps', h'⟩ := Option.isSome_iff_exists.mp (exists_fullMatch h)
  rw [h', h.unique hd (matches_of_fullMatch h')]

end Pattern
