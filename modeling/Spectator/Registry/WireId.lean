import Spectator.Meter.Wire
import Spectator.Registry.Registry

/-!
# The wire id and the tag map

An id carries its tags as a validated map and as a rendered text. The constructor renders the map
that it was given, not the validated one: an ill-formed entry is dropped from the map and stays in
the text.

* `MeterId.Consistent`: the text renders exactly the entries of the map.
* `Construction m`: a way to obtain `m`, by any sequence of calls and with any iteration orders.
  `Construction.Clean`: the last call that built an id was given no ill-formed entry.
* `consistent_iff_clean`: the representations agree exactly then.
-/

namespace Spectator

/-- The id on the wire is the sanitised name and then each tag of the map once, in some order. -/
def MeterId.Consistent (m : MeterId) : Prop :=
  ∃ o : m.tags.Iteration, m.spectatordId = replaceInvalidChars m.name ++
    o.toList.flatMap fun e =>
      str "," ++ replaceInvalidChars e.1 ++ str "=" ++ replaceInvalidChars e.2

theorem toSpectatorId_flatMap (name : Str) (entries : List (Str × Str)) :
    toSpectatorId name entries = replaceInvalidChars name ++ entries.flatMap fun e =>
      str "," ++ replaceInvalidChars e.1 ++ str "=" ++ replaceInvalidChars e.2 := by
  rw [toSpectatorId_eq, List.flatMap_map]
  simp [segment, str]

theorem MeterId.consistent_iff {m : MeterId} :
    m.Consistent ↔ ∃ o : m.tags.Iteration, m.spectatordId = toSpectatorId m.name o.toList := by
  simp only [Consistent, toSpectatorId_flatMap]

/-! ## The constructor -/

/-- The constructor is consistent exactly on well-formed maps: otherwise the text has more
segments than the map has entries. -/
theorem MeterId.new_consistent_iff (name : Str) {tags : Tags} (o : tags.Iteration) :
    (new name o).Consistent ↔ tags.WellFormed := by
  rw [consistent_iff]
  constructor
  · rintro ⟨o', h⟩ k v hk
    have h : toSpectatorId name o.toList = toSpectatorId name o'.toList := h
    have hsplit := congrArg (fun s => List.splitOn (ch ',') s) h
    rw [splitOn_toSpectatorId, splitOn_toSpectatorId, List.cons.injEq] at hsplit
    have hlen := congrArg List.length hsplit.2
    rw [List.length_map, List.length_map] at hlen
    -- The entries that pass the check are as many as all entries.
    have hfilter := (o'.perm (.ofAssignIf validTag o.toList o.nodupKeys)).length_eq
    rw [← hlen] at hfilter
    have hall := List.length_filter_eq_length_iff.mp hfilter.symm
    exact hall (k, v) ((o.mem_iff k v).mpr hk)
  · intro h
    refine ⟨.ofAssignIf validTag o.toList o.nodupKeys, ?_⟩
    have hall : o.toList.filter (fun e => validTag e.1 e.2) = o.toList :=
      List.filter_eq_self.mpr fun e he => h e.1 e.2 ((o.mem_iff _ _).mp he)
    show toSpectatorId name o.toList = toSpectatorId name (o.toList.filter _)
    rw [hall]

/-! ## Every way to an id -/

/-- A way to obtain an id: the constructor or `CreateNewId`, and then any calls of `WithTag`,
`WithTags` and `WithStat`, with any arguments and any iteration orders. -/
inductive Construction : MeterId → Type
  | ctor (name : Str) {tags : Tags} (o : tags.Iteration) : Construction (.new name o)
  | createNewId (r : Registry) (name : Str) {tags : Tags} (o : tags.Iteration)
      (oe : r.config.extraTags.Iteration)
      (on : UMap.Iteration (UMap.assign (MeterId.new name o).tags oe.toList)) :
      Construction (r.createNewId name o oe on)
  | withTag {m : MeterId} (c : Construction m) (key value : Str)
      (o : UMap.Iteration (m.tags.insert key value)) : Construction (m.withTag key value o)
  | withTags {m : MeterId} (c : Construction m) {additional : Tags} (oa : additional.Iteration)
      (o : UMap.Iteration (UMap.assign m.tags oa.toList)) : Construction (m.withTags oa o)
  | withStat {m : MeterId} (c : Construction m) (stat : Str)
      (o : UMap.Iteration (m.tags.insert (str "statistic") stat)) : Construction (m.withStat stat o)

/-- The last call was given no ill-formed entry; or it was `CreateNewId` under extra tags, which
builds the id again from well-formed entries. -/
def Construction.Clean {m : MeterId} : Construction m → Prop
  | @ctor _ tags _ => tags.WellFormed
  | @createNewId r _ tags _ _ _ => tags.WellFormed ∨ r.config.extraTags ≠ ∅
  | withTag _ key value _ => validTag key value = true
  | @withTags _ _ additional _ _ => additional.WellFormed
  | withStat _ stat _ => isEmptyOrWhitespace stat = false

theorem insert_wellFormed_iff {tags : Tags} (ht : tags.WellFormed) (key value : Str) :
    Tags.WellFormed (tags.insert key value) ↔ validTag key value = true := by
  constructor
  · intro h
    exact h key value (Finmap.lookup_insert _)
  · intro h k v hk
    by_cases hkey : k = key
    · subst hkey
      rw [Finmap.lookup_insert] at hk
      cases hk
      exact h
    · rw [Finmap.lookup_insert_of_ne _ hkey] at hk
      exact ht k v hk

theorem assign_wellFormed_iff {tags additional : Tags} (ht : tags.WellFormed)
    (oa : additional.Iteration) :
    Tags.WellFormed (UMap.assign tags oa.toList) ↔ additional.WellFormed := by
  constructor
  · intro h k v hk
    refine h k v ?_
    rw [UMap.lookup_assign oa, hk]
    rfl
  · intro h k v hk
    rw [UMap.lookup_assign oa] at hk
    cases ha : additional.lookup k with
    | some w =>
      rw [ha] at hk
      cases hk
      exact h k v ha
    | none =>
      rw [ha, Option.none_or] at hk
      exact ht k v hk

/-- With extra tags the id is rendered again from a map without ill-formed entries. -/
theorem createNewId_consistent_iff (r : Registry) (name : Str) {tags : Tags} (o : tags.Iteration)
    (oe : r.config.extraTags.Iteration)
    (on : UMap.Iteration (UMap.assign (MeterId.new name o).tags oe.toList)) :
    (r.createNewId name o oe on).Consistent ↔ tags.WellFormed ∨ r.config.extraTags ≠ ∅ := by
  by_cases h : r.config.extraTags = ∅
  · rw [r.createNewId_of_empty name o oe on h, MeterId.new_consistent_iff]
    simp [h]
  · rw [r.createNewId_of_ne name o oe on h, MeterId.withTags, MeterId.new_consistent_iff,
      assign_wellFormed_iff (MeterId.valid _)]
    simp [h, r.config.valid]

/-- The representations agree exactly after a clean last call. -/
theorem Construction.consistent_iff {m : MeterId} (c : Construction m) :
    m.Consistent ↔ c.Clean := by
  cases c with
  | ctor name o => exact MeterId.new_consistent_iff name o
  | createNewId r name o oe on => exact createNewId_consistent_iff r name o oe on
  | @withTag m c key value o =>
    exact (MeterId.new_consistent_iff _ o).trans (insert_wellFormed_iff m.valid key value)
  | @withTags m c additional oa o =>
    exact (MeterId.new_consistent_iff _ o).trans (assign_wellFormed_iff m.valid oa)
  | @withStat m c stat o =>
    refine (MeterId.new_consistent_iff _ o).trans
      ((insert_wellFormed_iff m.valid _ stat).trans ?_)
    rw [validTag_iff]
    exact and_iff_right (by decide)

/-- Consistent ids that are equal are rendered with the same segments. -/
theorem MeterId.Consistent.eqUpToTagOrder {a b : MeterId} (ha : a.Consistent) (hb : b.Consistent)
    (hab : (a == b) = true) : EqUpToTagOrder a.spectatordId b.spectatordId := by
  obtain ⟨oa, ha⟩ := MeterId.consistent_iff.mp ha
  obtain ⟨ob, hb⟩ := MeterId.consistent_iff.mp hb
  obtain ⟨hname, htags⟩ := beq_iff.mp hab
  rw [ha, hb, hname]
  refine Spectator.eqUpToTagOrder rfl (List.Perm.map segment ?_)
  refine (List.perm_ext_iff_of_nodup oa.nodup ob.nodup).mpr fun ⟨k, v⟩ => ?_
  rw [oa.mem_iff, ob.mem_iff, htags]

/-- **When the wire id and the tag map agree.** For an id, however it was obtained: the text renders
exactly the entries of the map if and only if the last call was clean. An equal id is then rendered
alike up to the order of the tags, if its last call was clean, too. And two registries treat the
ill-formed entries of the same tags alike if and only if there are none, or both or neither have
extra tags. -/
theorem consistent_iff_clean {m : MeterId} (c : Construction m) :
    (m.Consistent ↔ c.Clean) ∧
    (∀ {m' : MeterId} (c' : Construction m'), c.Clean → c'.Clean → (m == m') = true →
      EqUpToTagOrder m.spectatordId m'.spectatordId) ∧
    (∀ (r r' : Registry) (name : Str) {tags : Tags} (o o' : tags.Iteration)
      (oe : r.config.extraTags.Iteration) (oe' : r'.config.extraTags.Iteration)
      (on : UMap.Iteration (UMap.assign (MeterId.new name o).tags oe.toList))
      (on' : UMap.Iteration (UMap.assign (MeterId.new name o').tags oe'.toList)),
      ((r.createNewId name o oe on).Consistent ↔ (r'.createNewId name o' oe' on').Consistent) ↔
        (tags.WellFormed ∨ (r.config.extraTags = ∅ ↔ r'.config.extraTags = ∅))) := by
  refine ⟨c.consistent_iff, fun c' h h' hm => ?_, ?_⟩
  · exact (c.consistent_iff.mpr h).eqUpToTagOrder (c'.consistent_iff.mpr h') hm
  · intro r r' name tags o o' oe oe' on on'
    rw [createNewId_consistent_iff, createNewId_consistent_iff]
    tauto

/-- Two clean ids with the same tags in opposite orders. -/
theorem consistent_iff_clean_two_tags : ∃ a b : MeterId,
    a.spectatordId = str "m,a=1,b=2" ∧ b.spectatordId = str "m,b=2,a=1" ∧
    a.Consistent ∧ EqUpToTagOrder a.spectatordId b.spectatordId := by
  let ab : List (Str × Str) := [(str "a", str "1"), (str "b", str "2")]
  let ba : List (Str × Str) := [(str "b", str "2"), (str "a", str "1")]
  have hab : (validateTags ab).WellFormed := validateTags_wellFormed ab
  have hba : (validateTags ba).WellFormed := validateTags_wellFormed ba
  let a := Construction.ctor (str "m") (.ofAssignIf validTag ab (by decide))
  let b := Construction.ctor (str "m") (.ofAssignIf validTag ba (by decide))
  exact ⟨_, _, by decide, by decide, (consistent_iff_clean a).1.mpr hab,
    (consistent_iff_clean a).2.1 b hab hba (by decide)⟩

/-- An ill-formed tag reaches the wire: it is on the id and not in the map, and the id that is
equal to it, without the tag, is rendered otherwise. -/
theorem ill_formed_tag_on_wire : ∃ (a b : MeterId) (_ : Construction a) (_ : Construction b),
    a.spectatordId = str "foo,a=" ∧ ¬ a.Consistent ∧ (a == b) = true ∧
    ¬ EqUpToTagOrder a.spectatordId b.spectatordId := by
  let oa := UMap.Iteration.ofAssignIf (fun _ _ => true) [(str "a", str "")] (by decide)
  let ob := UMap.Iteration.ofAssignIf (fun _ _ => true) ([] : List (Str × Str)) (by decide)
  refine ⟨_, _, .ctor (str "foo") oa, .ctor (str "foo") ob, by decide, ?_, by decide, ?_⟩
  · rw [MeterId.new_consistent_iff]
    intro h
    exact absurd (h (str "a") (str "") (by decide)) (by decide)
  · rintro ⟨-, h⟩
    exact absurd h.length_eq (by decide)

end Spectator
