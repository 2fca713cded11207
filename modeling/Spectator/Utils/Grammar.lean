import Spectator.Utils.ProtocolLine

/-!
# What the parser accepts

`ParseProtocolLine` on every byte string, malformed ones included, in terms of all pieces between
the delimiters (`List.splitOn`), where the code only sees those that `std::getline` gives.

* `parseProtocolLine_eq`: the parser, field by field.
* `TagSegment s k v`: `s` has the form `k=v` with a value, or `k=v=`. `LastTag`: the last segment of
  a list for a key. `lookup_parseTags`: these are the tags.
* `parseProtocolLineChecked`: the parser with every access by index checked.
* `parse_grammar`: when a string is rejected, what an accepted one is, and that no access is out of
  range.
-/

namespace Spectator

/-- The line that the three fields are. -/
def lineOf (ord : (tags : Tags) → tags.Iteration) (f₀ f₁ f₂ : Str) : ProtocolLine where
  symbol := (f₀.takeWhile (· ≠ ch ',')).head?.getD 0
  id := .new (f₁.takeWhile (· ≠ ch ',')) (ord (parseTags (f₁.splitOn (ch ',')).tail))
  value := f₂

/-! ## The fields -/

/-- The symbol, from the pieces of the first field. -/
def symbolOf : List Str → UInt8
  | (c :: _) :: _ => c
  | _ => 0

/-- The name and the tags, from the pieces of the second field. -/
def idOf : List Str → Str × Tags
  | [] => ([], ∅)
  | name :: idParts => (name, parseTags idParts)

theorem symbolOf_split (f₀ : Str) :
    symbolOf (split f₀ (ch ',')) = (f₀.takeWhile (· ≠ ch ',')).head?.getD 0 := by
  by_cases hne : f₀ = []
  · subst hne
    rfl
  · rw [split, Getline.pieces_of_ne_nil _ hne]
    cases f₀.takeWhile (· ≠ ch ',') <;> rfl

theorem parseTags_concat (parts : List Str) (part : Str) : parseTags (parts ++ [part]) =
    match split part (ch '=') with
    | [key, value] => (parseTags parts).insert key value
    | _ => parseTags parts := by
  rw [parseTags, List.foldl_append]
  rfl

theorem idOf_split (f₁ : Str) : idOf (split f₁ (ch ',')) =
    (f₁.takeWhile (· ≠ ch ','), parseTags (f₁.splitOn (ch ',')).tail) := by
  by_cases hne : f₁ = []
  · subst hne
    rfl
  · have hall := Getline.splitOn_eq_pieces (ch ',') f₁
    rw [split, hall, Getline.pieces_of_ne_nil _ hne, idOf, List.cons_append, List.tail_cons]
    -- The empty piece that the end-of-text rule drops is no tag.
    split
    · rw [parseTags_concat]
      rfl
    · rw [List.append_nil]

/-- The parser on the pieces of a line with three of them. -/
theorem parseProtocolLine_of_pieces (ord : (tags : Tags) → tags.Iteration) {line f₀ f₁ f₂ : Str}
    {rest : List Str} (h : Getline.pieces (ch ':') line = f₀ :: f₁ :: f₂ :: rest) :
    parseProtocolLine ord line = some (lineOf ord f₀ f₁ f₂) := by
  rw [parseProtocolLine, split, h]
  show some (ProtocolLine.mk (symbolOf (split f₀ (ch ',')))
    (.new (idOf (split f₁ (ch ','))).1 (ord (idOf (split f₁ (ch ','))).2)) f₂) = _
  rw [symbolOf_split, idOf_split]
  rfl

/-- The parser, field by field. It fails without a third field, or if that is empty and the
last. -/
theorem parseProtocolLine_eq (ord : (tags : Tags) → tags.Iteration) (line : Str) :
    parseProtocolLine ord line = match line.splitOn (ch ':') with
      | f₀ :: f₁ :: f₂ :: rest =>
        if f₂ = [] ∧ rest = [] then none else some (lineOf ord f₀ f₁ f₂)
      | _ => none := by
  have hends := Getline.ends_iff (ch ':') line
  rw [Getline.splitOn_eq_pieces] at hends ⊢
  match h : Getline.pieces (ch ':') line with
  | [] | [_] | [_, _] =>
    rw [parseProtocolLine, split, h]
    by_cases he : Getline.Ends (ch ':') line
    · rw [if_pos he]; rfl
    · rw [if_neg he]; rfl
  | f₀ :: f₁ :: f₂ :: rest =>
    rw [parseProtocolLine_of_pieces ord h]
    rw [h] at hends
    by_cases he : Getline.Ends (ch ':') line
    · rw [if_pos he, List.cons_append, List.cons_append, List.cons_append]
      exact (if_neg (by simp)).symm
    · -- The last of all pieces is not empty.
      rw [if_neg he, List.append_nil] at hends ⊢
      refine (if_neg ?_).symm
      rintro ⟨rfl, rfl⟩
      exact he (hends.mpr rfl)

/-! ## The tags -/

/-- `s` is `k=v` with a value, or `k=v=`; neither `k` nor `v` contains `=`. -/
def TagSegment (s k v : Str) : Prop :=
  ch '=' ∉ k ∧ ch '=' ∉ v ∧
    (s = k ++ ch '=' :: v ∧ v ≠ [] ∨ s = k ++ ch '=' :: (v ++ [ch '=']))

/-- The last segment of the list that has the form for the key `k` gives it the value `v`. -/
def LastTag (segments : List Str) (k v : Str) : Prop :=
  ∃ pre s post, segments = pre ++ s :: post ∧ TagSegment s k v ∧
    ∀ s' ∈ post, ∀ v', ¬ TagSegment s' k v'

/-- What the loop takes for a tag. -/
theorem split_eq_pair_iff {s k v : Str} : split s (ch '=') = [k, v] ↔ TagSegment s k v := by
  constructor
  · intro h
    have hall := Getline.splitOn_eq_pieces (ch '=') s
    have hends := Getline.ends_iff (ch '=') s
    rw [split] at h
    rw [h] at hall
    have hmem : ∀ p ∈ [k, v], ch '=' ∉ p := fun p hp =>
      Getline.notMem_of_mem_splitOn (s := s) (by rw [hall]; exact List.mem_append_left _ hp)
    refine ⟨hmem k (by simp), hmem v (by simp), ?_⟩
    have hjoin : [ch '='].intercalate (s.splitOn (ch '=')) = s := List.intercalate_splitOn _
    rw [hall] at hjoin hends
    by_cases he : Getline.Ends (ch '=') s
    · rw [if_pos he] at hjoin
      right
      rw [← hjoin, List.cons_append, Getline.intercalate_cons_eq]
      simp
    · rw [if_neg he] at hjoin hends
      left
      rw [← hjoin, List.append_nil, Getline.intercalate_cons_eq]
      refine ⟨by simp, ?_⟩
      rintro rfl
      exact he (hends.mpr rfl)
  · rintro ⟨hk, hv, ⟨rfl, hne⟩ | rfl⟩
    · exact split_tag hk hv hne
    · rw [split, Getline.pieces_append_cons hk, Getline.pieces_append_cons hv]
      rfl

theorem TagSegment.unique {s k k' v v' : Str} (h : TagSegment s k v) (h' : TagSegment s k' v') :
    k = k' ∧ v = v' := by
  have e := (split_eq_pair_iff.mpr h).symm.trans (split_eq_pair_iff.mpr h')
  cases e
  exact ⟨rfl, rfl⟩

/-- The key and the value are parts of the segment. -/
theorem TagSegment.notMem {s k v : Str} {c : UInt8} (h : TagSegment s k v) (hc : c ∉ s) :
    c ∉ k ∧ c ∉ v := by
  obtain ⟨-, -, ⟨rfl, -⟩ | rfl⟩ := h
  · simp only [List.mem_append, List.mem_cons, not_or] at hc
    exact ⟨hc.1, hc.2.2⟩
  · simp only [List.mem_append, List.mem_cons, not_or] at hc
    exact ⟨hc.1, hc.2.2.1⟩

/-- The last segment is the one for `k`, or it is not for `k`. -/
theorem lastTag_concat {segments : List Str} {s k v : Str} :
    LastTag (segments ++ [s]) k v ↔
      TagSegment s k v ∨ (∀ v', ¬ TagSegment s k v') ∧ LastTag segments k v := by
  constructor
  · rintro ⟨pre, s₁, post, he, hs, hpost⟩
    rcases List.eq_nil_or_concat' post with rfl | ⟨post, s₂, rfl⟩
    · obtain ⟨-, hlast⟩ := List.append_inj' he rfl
      cases hlast
      exact .inl hs
    · rw [← List.cons_append, ← List.append_assoc] at he
      obtain ⟨hinit, hlast⟩ := List.append_inj' he rfl
      subst hinit
      cases hlast
      exact .inr ⟨hpost s (by simp), pre, s₁, post, rfl, hs,
        fun s' hs' => hpost s' (List.mem_append_left _ hs')⟩
  · rintro (hs | ⟨hs, pre, s₁, post, rfl, hs₁, hpost⟩)
    · exact ⟨segments, s, [], rfl, hs, nofun⟩
    · refine ⟨pre, s₁, post ++ [s], by simp, hs₁, fun s' hs' => ?_⟩
      rcases List.mem_append.mp hs' with hs' | hs'
      · exact hpost s' hs'
      · rw [List.mem_singleton.mp hs']
        exact hs

/-- The tags of the loop: for each key, the last segment that has the form. -/
theorem lookup_parseTags (parts : List Str) (k v : Str) :
    (parseTags parts).lookup k = some v ↔ LastTag parts k v := by
  induction parts using List.reverseRecOn with
  | nil =>
    constructor
    · intro h
      cases h
    · rintro ⟨pre, s, post, he, -⟩
      cases pre <;> cases he
  | append_singleton parts part ih =>
    rw [parseTags_concat, lastTag_concat, ← ih]
    split
    · rename_i key value hsplit
      have hseg := split_eq_pair_iff.mp hsplit
      by_cases hk : k = key
      · subst hk
        rw [Finmap.lookup_insert, Option.some.injEq]
        constructor
        · rintro rfl
          exact .inl hseg
        · rintro (h | ⟨h, -⟩)
          · exact (hseg.unique h).2
          · exact absurd hseg (h value)
      · rw [Finmap.lookup_insert_of_ne _ hk]
        refine ⟨fun h => .inr ⟨fun v' h' => hk (h'.unique hseg).1, h⟩, ?_⟩
        rintro (h | ⟨-, h⟩)
        · exact absurd (h.unique hseg).1 hk
        · exact h
    · rename_i hsplit
      -- A segment that is not cut into two is no tag.
      have hno : ∀ v', ¬ TagSegment part k v' := fun v' h =>
        hsplit k v' (split_eq_pair_iff.mpr h)
      refine ⟨fun h => .inr ⟨hno, h⟩, ?_⟩
      rintro (h | ⟨-, h⟩)
      · exact absurd h (hno v)
      · exact h

/-! ## The accesses by index -/

/-- An access out of range: undefined behaviour. -/
inductive Undefined where
  | outOfRange
  deriving DecidableEq

/-- `v[i]`. -/
def index {α : Type} (v : List α) (i : Nat) : Except Undefined α :=
  match v[i]? with
  | some a => .ok a
  | none => .error .outOfRange

/-- The statements on `symbolParts`. -/
def checkedSymbol (symbolParts : List Str) : Except Undefined UInt8 := do
  if symbolParts.isEmpty then return 0
  if (← index symbolParts 0).isEmpty then return 0
  index (← index symbolParts 0) 0

/-- The statements on `tagParts`. -/
def checkedTag (tags : Tags) (tagParts : List Str) : Except Undefined Tags := do
  if tagParts.length = 2 then
    let key ← index tagParts 0
    let value ← index tagParts 1
    return tags.insert key value
  return tags

/-- The loop over `idParts`, with `n` rounds left from the index `i` on. -/
def checkedTags (idParts : List Str) (tags : Tags) : Nat → Nat → Except Undefined Tags
  | _, 0 => return tags
  | i, n + 1 => do
    let tags ← checkedTag tags (split (← index idParts i) (ch '='))
    checkedTags idParts tags (i + 1) n

/-- The statements on `idParts`. -/
def checkedId (idParts : List Str) : Except Undefined (Str × Tags) := do
  if idParts.isEmpty then return ([], ∅)
  let name ← index idParts 0
  let tags ← checkedTags idParts ∅ 1 (idParts.length - 1)
  return (name, tags)

/-- `ParseProtocolLine` with every access checked. -/
def parseProtocolLineChecked (ord : (tags : Tags) → tags.Iteration) (line : Str) :
    Except Undefined (Option ProtocolLine) := do
  let mainParts := split line (ch ':')
  if mainParts.length < 3 then return none
  let symbol ← checkedSymbol (split (← index mainParts 0) (ch ','))
  let (name, tags) ← checkedId (split (← index mainParts 1) (ch ','))
  let value ← index mainParts 2
  return some { symbol := symbol, id := .new name (ord tags), value := value }

theorem checkedSymbol_eq (parts : List Str) : checkedSymbol parts = .ok (symbolOf parts) := by
  match parts with
  | [] | [] :: _ | (_ :: _) :: _ => rfl

theorem checkedTag_eq (tags : Tags) (tagParts : List Str) : checkedTag tags tagParts =
    .ok (match tagParts with
      | [key, value] => Finmap.insert key value tags
      | _ => tags) := by
  match tagParts with
  | [] | [_] | [_, _] | _ :: _ :: _ :: _ => rfl

theorem checkedTags_eq (idParts : List Str) (tags : Tags) {i n : Nat}
    (h : i + n = idParts.length) : checkedTags idParts tags i n =
      .ok ((idParts.drop i).foldl (fun tags part =>
        match split part (ch '=') with
        | [key, value] => Finmap.insert key value tags
        | _ => tags) tags) := by
  induction n generalizing i tags with
  | zero =>
    rw [List.drop_eq_nil_of_le (by omega)]
    rfl
  | succ n ih =>
    have hi : i < idParts.length := by omega
    have hidx : index idParts i = .ok idParts[i] := by
      rw [index, List.getElem?_eq_getElem hi]
    rw [checkedTags, hidx, List.drop_eq_getElem_cons hi, List.foldl_cons,
      ← ih (i := i + 1) _ (by omega)]
    show (do
      let tags ← checkedTag tags (split idParts[i] (ch '='))
      checkedTags idParts tags (i + 1) n) = _
    rw [checkedTag_eq]
    rfl

theorem checkedId_eq (parts : List Str) : checkedId parts = .ok (idOf parts) := by
  match parts with
  | [] => rfl
  | name :: idParts =>
    have htags := checkedTags_eq (name :: idParts) ∅ (i := 1) (n := idParts.length) (by simp; omega)
    show (do
      let tags ← checkedTags (name :: idParts) ∅ 1 idParts.length
      return (name, tags)) = _
    rw [htags]
    rfl

/-- No access is out of range. -/
theorem parseProtocolLineChecked_eq (ord : (tags : Tags) → tags.Iteration) (line : Str) :
    parseProtocolLineChecked ord line = .ok (parseProtocolLine ord line) := by
  match h : Getline.pieces (ch ':') line with
  | [] | [_] | [_, _] =>
    rw [parseProtocolLineChecked, parseProtocolLine, split, h]
    rfl
  | f₀ :: f₁ :: f₂ :: rest =>
    rw [parseProtocolLineChecked, parseProtocolLine_of_pieces ord h, split, h]
    show (do
      let symbol ← checkedSymbol (split f₀ (ch ','))
      let (name, tags) ← checkedId (split f₁ (ch ','))
      return some (ProtocolLine.mk symbol (.new name (ord tags)) f₂)) = _
    rw [checkedSymbol_eq, checkedId_eq, symbolOf_split, idOf_split]
    rfl

/-! ## The grammar -/

/-- A string is rejected if it has no third field, or an empty third field at its end. -/
theorem parseProtocolLine_eq_none_iff (ord : (tags : Tags) → tags.Iteration) (s : Str) :
    parseProtocolLine ord s = none ↔
      s.count (ch ':') < 2 ∨ s.count (ch ':') = 2 ∧ s.getLast? = some (ch ':') := by
  have hlen := Getline.length_splitOn (ch ':') s
  have hends := Getline.ends_iff (ch ':') s
  rw [parseProtocolLine_eq]
  match h : s.splitOn (ch ':') with
  | [] | [_] | [_, _] =>
    rw [h] at hlen
    simp only [List.length_cons, List.length_nil] at hlen
    exact ⟨fun _ => .inl (by omega), fun _ => rfl⟩
  | [f₀, f₁, f₂] =>
    -- The third field is the last one: it is empty exactly if the string ends with its colon.
    rw [h] at hlen hends
    have hcount : s.count (ch ':') = 2 := by simpa using hlen.symm
    have hne : s ≠ [] := by
      rintro rfl
      cases hcount
    have hlast : s.getLast? = some (ch ':') ↔ f₂ = [] := by
      rw [Getline.Ends, or_iff_right hne] at hends
      rw [hends]
      simp
    simp [hcount, hlast]
  | f₀ :: f₁ :: f₂ :: f₃ :: rest =>
    rw [h] at hlen
    simp only [List.length_cons] at hlen
    have hcount : 2 < s.count (ch ':') := by omega
    show (if f₂ = [] ∧ f₃ :: rest = [] then none else some (lineOf ord f₀ f₁ f₂)) = none ↔ _
    rw [if_neg (by simp)]
    constructor
    · nofun
    · rintro (hlt | ⟨heq, -⟩) <;> omega

/-- What an accepted string gives. -/
theorem parseProtocolLine_fields {ord : (tags : Tags) → tags.Iteration} {s : Str} {p : ProtocolLine}
    (h : parseProtocolLine ord s = some p) :
    ∃ f₀ f₁ f₂ rest, s.splitOn (ch ':') = f₀ :: f₁ :: f₂ :: rest ∧
      p.symbol = (f₀.takeWhile (· ≠ ch ',')).head?.getD 0 ∧
      p.id.name = f₁.takeWhile (· ≠ ch ',') ∧ p.value = f₂ ∧
      ∀ k v, p.id.tags.lookup k = some v ↔ LastTag (f₁.splitOn (ch ',')).tail k v ∧
        isEmptyOrWhitespace k = false ∧ isEmptyOrWhitespace v = false := by
  rw [parseProtocolLine_eq] at h
  split at h
  · rename_i f₀ f₁ f₂ rest hfields
    split at h
    · cases h
    · cases h
      refine ⟨f₀, f₁, f₂, rest, hfields, rfl, rfl, rfl, fun k v => ?_⟩
      rw [lineOf, MeterId.new_lookup, Option.filter_eq_some_iff, lookup_parseTags, validTag_iff]
  · cases h

/-- **The grammar of `ParseProtocolLine`.** For every byte string: no access is out of range. It is
rejected exactly if it has fewer than two colons, or two and ends with one. Otherwise the line has
as its symbol the first byte of the first field before a comma, or NUL; as its name the second field
up to its first comma; as its value the third field; and as its tags, for each key, the last tag
segment of the second field after its name, if neither key nor value is empty or all white space. -/
theorem parse_grammar (ord : (tags : Tags) → tags.Iteration) (s : Str) :
    parseProtocolLineChecked ord s = .ok (parseProtocolLine ord s) ∧
    (parseProtocolLine ord s = none ↔
      s.count (ch ':') < 2 ∨ s.count (ch ':') = 2 ∧ s.getLast? = some (ch ':')) ∧
    ∀ p, parseProtocolLine ord s = some p →
      ∃ f₀ f₁ f₂ rest, s.splitOn (ch ':') = f₀ :: f₁ :: f₂ :: rest ∧
        p.symbol = (f₀.takeWhile (· ≠ ch ',')).head?.getD 0 ∧
        p.id.name = f₁.takeWhile (· ≠ ch ',') ∧ p.value = f₂ ∧
        ∀ k v, p.id.tags.lookup k = some v ↔ LastTag (f₁.splitOn (ch ',')).tail k v ∧
          isEmptyOrWhitespace k = false ∧ isEmptyOrWhitespace v = false := by
  exact ⟨parseProtocolLineChecked_eq ord s, parseProtocolLine_eq_none_iff ord s,
    fun p hp => parseProtocolLine_fields hp⟩

end Spectator
