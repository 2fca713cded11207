import Spectator.Lib.UMap
import Spectator.Utils.Text

/-!
# Meter ids

The model of `meter_id.cpp`. An id carries its tags twice: as a validated map (`tags`) and as the
text that goes on the wire (`spectatordId`). The code fills both from one `unordered_map` argument,
whose iteration order is an argument of the model (`UMap.Iteration`); the copy that `withTag` and
`withTags` build is another map, with an order of its own.

* `validateTags`, `replaceInvalidChars`, `toSpectatorId`: the helpers of the constructor.
* `MeterId`: the validated tags are a field of the type (`valid`).
* `MeterId.new`, `withTag`, `withTags`, `withStat`, `==`: the constructor and the operations.
* `new_lookup`, `withTag_lookup`, `withTags_lookup`: what each of them leaves at a key.
-/

namespace Spectator

/-- The contents of an `unordered_map<string, string>`. -/
abbrev Tags : Type := UMap Str Str

/-- The check of one entry: neither the key nor the value is empty or all white space. -/
def validTag (key value : Str) : Bool :=
  isEmptyOrWhitespace key == false && isEmptyOrWhitespace value == false

/-- Every entry of the map passes the check. -/
def Tags.WellFormed (tags : Tags) : Prop :=
  ∀ k v, tags.lookup k = some v → validTag k v = true

/-- `ValidateTags`, over the entries in the order of the loop. -/
def validateTags (entries : List (Str × Str)) : Tags := UMap.assignIf validTag ∅ entries

/-- The complement of `INVALID_CHARS`: `-._A-Za-z0-9~^`. -/
def validChar (c : UInt8) : Bool :=
  c == ch '-' || c == ch '.' || c == ch '_' || (ch 'A' ≤ c && c ≤ ch 'Z') ||
    (ch 'a' ≤ c && c ≤ ch 'z') || (ch '0' ≤ c && c ≤ ch '9') || c == ch '~' || c == ch '^'

/-- `ReplaceInvalidChars`: each byte that `INVALID_CHARS` matches becomes `_`. -/
def replaceInvalidChars (s : Str) : Str := s.map fun c => if validChar c then c else ch '_'

/-- `ToSpectatorId`: what the stream holds after the loop over the entries. -/
def toSpectatorId (name : Str) (entries : List (Str × Str)) : Str :=
  let ss := replaceInvalidChars name
  if entries.isEmpty then ss
  else entries.foldl (fun ss e =>
    ss ++ str "," ++ replaceInvalidChars e.1 ++ str "=" ++ replaceInvalidChars e.2) ss

/-! ## The helpers -/

theorem validTag_iff {k v : Str} :
    validTag k v = true ↔ isEmptyOrWhitespace k = false ∧ isEmptyOrWhitespace v = false := by
  simp [validTag]

theorem lookup_validateTags {tags : Tags} (o : tags.Iteration) (k : Str) :
    (validateTags o.toList).lookup k = (tags.lookup k).filter (validTag k) := by
  rw [validateTags, UMap.lookup_assignIf o]
  simp

theorem validateTags_wellFormed (entries : List (Str × Str)) :
    Tags.WellFormed (validateTags entries) := by
  intro k v h
  rcases UMap.mem_of_lookup_assignIf h with ⟨-, hv⟩ | h
  · exact hv
  · cases h

theorem validChar_of_digit {c : UInt8} (h₁ : 48 ≤ c) (h₂ : c ≤ 57) : validChar c = true := by
  have h : ch '0' ≤ c ∧ c ≤ ch '9' := ⟨h₁, h₂⟩
  simp [validChar, h]

theorem validChar_of_mem {s : Str} {c : UInt8} (h : c ∈ replaceInvalidChars s) :
    validChar c = true := by
  obtain ⟨c₀, -, rfl⟩ := List.mem_map.mp h
  split
  · assumption
  · decide

theorem isSpace_of_validChar {c : UInt8} (h : validChar c = true) : isSpace c = false := by
  refine forall_byte (P := fun c => validChar c = true → isSpace c = false) ?_ c h
  decide +kernel

/-- A sanitised text is never all white space. -/
theorem isEmptyOrWhitespace_replaceInvalidChars {s : Str} (h : s ≠ []) :
    isEmptyOrWhitespace (replaceInvalidChars s) = false := by
  obtain ⟨c, t, rfl⟩ := List.exists_cons_of_ne_nil h
  have hmem : (if validChar c then c else ch '_') ∈ replaceInvalidChars (c :: t) :=
    List.mem_cons_self
  exact isEmptyOrWhitespace_eq_false.mpr ⟨_, hmem, isSpace_of_validChar (validChar_of_mem hmem)⟩

/-- A byte that is no valid character does not occur in a sanitised text. -/
theorem notMem_replaceInvalidChars {c : UInt8} (hc : validChar c = false) (s : Str) :
    c ∉ replaceInvalidChars s := by
  intro h
  rw [validChar_of_mem h] at hc
  cases hc

theorem replaceInvalidChars_eq_self {s : Str} (h : ∀ c ∈ s, validChar c = true) :
    replaceInvalidChars s = s := by
  unfold replaceInvalidChars
  conv_rhs => rw [← List.map_id s]
  exact List.map_congr_left fun c hc => by rw [h c hc]; rfl

@[simp] theorem replaceInvalidChars_idem (s : Str) :
    replaceInvalidChars (replaceInvalidChars s) = replaceInvalidChars s :=
  replaceInvalidChars_eq_self fun _ => validChar_of_mem

@[simp] theorem replaceInvalidChars_eq_nil {s : Str} : replaceInvalidChars s = [] ↔ s = [] :=
  List.map_eq_nil_iff

/-- The text of one tag on the wire. -/
def segment (e : Str × Str) : Str :=
  replaceInvalidChars e.1 ++ ch '=' :: replaceInvalidChars e.2

/-- The id is the sanitised name, then each tag after a comma. -/
theorem toSpectatorId_eq (name : Str) (entries : List (Str × Str)) :
    toSpectatorId name entries =
      replaceInvalidChars name ++ (entries.map segment).flatMap fun s => ch ',' :: s := by
  have loop : ∀ (es : List (Str × Str)) (ss : Str), es.foldl (fun ss e =>
      ss ++ str "," ++ replaceInvalidChars e.1 ++ str "=" ++ replaceInvalidChars e.2) ss =
      ss ++ (es.map segment).flatMap fun s => ch ',' :: s := by
    intro es
    induction es with
    | nil => intro ss; simp
    | cons e es ih =>
      intro ss
      rw [List.foldl_cons, ih]
      simp [segment, str, List.append_assoc]
  unfold toSpectatorId
  cases entries with
  | nil => simp
  | cons e es => exact loop (e :: es) _

/-! ## The class -/

/-- `MeterId`: `m_name`, `m_tags`, `m_spectatord_id`; no ill-formed tag is in the map. -/
structure MeterId where
  name : Str
  tags : Tags
  spectatordId : Str
  valid : tags.WellFormed

namespace MeterId

/-- The constructor. Both loops run over the argument `tags`, in its order. -/
def new (name : Str) {tags : Tags} (o : tags.Iteration) : MeterId where
  name := name
  tags := validateTags o.toList
  spectatordId := toSpectatorId name o.toList
  valid := validateTags_wellFormed o.toList

/-- `WithTag`; `o` is the order of the copy `new_tags`. -/
def withTag (m : MeterId) (key value : Str)
    (o : UMap.Iteration (m.tags.insert key value)) : MeterId :=
  new m.name o

/-- `WithTags`; `oa` is the order of the argument, `o` the order of the copy `new_tags`. -/
def withTags (m : MeterId) {additional : Tags} (oa : additional.Iteration)
    (o : (UMap.assign m.tags oa.toList).Iteration) : MeterId :=
  new m.name o

/-- `WithStat`. -/
def withStat (m : MeterId) (stat : Str)
    (o : UMap.Iteration (m.tags.insert (str "statistic") stat)) : MeterId :=
  m.withTag (str "statistic") stat o

/-- `operator==`: the names and the tag maps. -/
instance : BEq MeterId := ⟨fun a b => a.name == b.name && decide (a.tags = b.tags)⟩

theorem beq_iff {a b : MeterId} : (a == b) = true ↔ a.name = b.name ∧ a.tags = b.tags := by
  show (a.name == b.name && decide (a.tags = b.tags)) = true ↔ _
  simp

section Lookup

variable {tags : Tags} {name : Str}

/-- A well-formed map passes a check of its entries whole. -/
theorem filter_valid (ht : tags.WellFormed) (k : Str) :
    (tags.lookup k).filter (validTag k) = tags.lookup k := by
  cases h : tags.lookup k with
  | none => rfl
  | some v => exact Option.filter_some_pos (ht k v h)

/-- The constructor keeps the well-formed entries. -/
theorem new_lookup (o : tags.Iteration) (k : Str) :
    (new name o).tags.lookup k = (tags.lookup k).filter (validTag k) :=
  lookup_validateTags o k

/-- The constructor keeps a well-formed map as it is. -/
theorem new_tags_eq (ht : tags.WellFormed) (o : tags.Iteration) : (new name o).tags = tags := by
  apply Finmap.ext_lookup
  intro k
  rw [new_lookup, filter_valid ht]

/-- `WithTag`: the new value at its key, if it is well formed; the key is lost if it is not. -/
theorem withTag_lookup (m : MeterId) (key value : Str)
    (o : UMap.Iteration (m.tags.insert key value)) (k : Str) :
    (m.withTag key value o).tags.lookup k =
      if k = key then (some value).filter (validTag key) else m.tags.lookup k := by
  rw [withTag, new_lookup]
  split
  · rename_i hk
    rw [hk, Finmap.lookup_insert]
  · rename_i hk
    rw [Finmap.lookup_insert_of_ne _ hk, filter_valid m.valid]

/-- `WithTags`: the override comes first, then the check. -/
theorem withTags_lookup (m : MeterId) (oa : tags.Iteration)
    (o : (UMap.assign m.tags oa.toList).Iteration) (k : Str) :
    (m.withTags oa o).tags.lookup k =
      ((tags.lookup k).or (m.tags.lookup k)).filter (validTag k) := by
  rw [withTags, new_lookup, UMap.lookup_assign]

end Lookup

end MeterId

end Spectator
