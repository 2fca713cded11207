import Spectator.Meter.RoundTrip

/-!
# The tag keys on the wire

`ReplaceInvalidChars` is applied to each key on its own and makes `_` of every byte that is not
allowed, so that different keys of a map may become one key on the wire.

* `tagKeys`: the keys that a reader of a rendered id sees. `Tags.StayDistinct`: the keys of the map
  stay distinct.
* `wire_keys_distinct_iff`: the keys on the wire are distinct exactly then, and exactly then does
  the decoder rebuild as many tags as there were.
-/

namespace Spectator

/-- The keys of the tag segments of an id: in each, what is before its `=`. -/
def tagKeys (id : Str) : List Str :=
  (id.splitOn (ch ',')).tail.map fun s => s.takeWhile (· ≠ ch '=')

/-- No two keys are the same on the wire. -/
def Tags.StayDistinct (tags : Tags) : Prop :=
  ∀ k ∈ tags, ∀ k' ∈ tags, replaceInvalidChars k = replaceInvalidChars k' → k = k'

theorem tagKeys_toSpectatorId (name : Str) (entries : List (Str × Str)) :
    tagKeys (toSpectatorId name entries) = entries.map fun e => replaceInvalidChars e.1 := by
  rw [tagKeys, splitOn_toSpectatorId, List.tail_cons, List.map_map]
  refine List.map_congr_left fun e _ => ?_
  exact Getline.takeWhile_ne_append (notMem_replaceInvalidChars (by decide) e.1) _

variable {tags : Tags} {o : tags.Iteration}

theorem nodup_sanitize_iff :
    ((o.toList.map sanitize).map Prod.fst).Nodup ↔ tags.StayDistinct := by
  refine ⟨fun hn k hk k' hk' heq => ?_, nodup_sanitize⟩
  obtain ⟨v, hv⟩ := Finmap.mem_iff.mp hk
  obtain ⟨v', hv'⟩ := Finmap.mem_iff.mp hk'
  rw [List.map_map] at hn
  have he := List.inj_on_of_nodup_map hn ((o.mem_iff k v).mpr hv) ((o.mem_iff k' v').mpr hv') heq
  exact congrArg Prod.fst he

/-- The decoder rebuilds one tag for each key that is on the wire. -/
theorem size_parsed (ord : (tags : Tags) → tags.Iteration) (name : Str) (hwf : tags.WellFormed) :
    (MeterId.new (replaceInvalidChars name)
      (ord (UMap.assign ∅ (o.toList.map sanitize)))).tags.size =
        (tagKeys (toSpectatorId name o.toList)).toFinset.card := by
  rw [MeterId.new_tags_eq (wellFormed_sanitize hwf), UMap.size_assign_empty,
    tagKeys_toSpectatorId, List.map_map]
  rfl

/-- **When the keys of a wire id are distinct.** For every name, tag map and iteration order, the
keys of the tag segments are the keys of the map, each sanitised, in this order; they are distinct
if and only if the keys of the map stay distinct when they are sanitised. For a well-formed map,
whatever the meter and the value text without a colon, the decoder rebuilds one tag for each
different key of the id, and so as many tags as were given if and only if the keys stay
distinct. -/
theorem wire_keys_distinct_iff (name : Str) {tags : Tags} (o : tags.Iteration) :
    let keys := tagKeys (toSpectatorId name o.toList)
    keys = (o.toList.map fun e => replaceInvalidChars e.1) ∧
    (keys.Nodup ↔ tags.StayDistinct) ∧
    (tags.WellFormed → ∀ (ord : (tags : Tags) → tags.Iteration) (kind : MeterKind)
      (valueStr : Str), ch ':' ∉ valueStr →
      ∃ p, parseProtocolLine ord ((kind.meter (.new name o)).constructLine valueStr ++ [newLine]) =
          some p ∧ p.id.tags.size = keys.toFinset.card ∧
        (p.id.tags.size = tags.size ↔ tags.StayDistinct)) := by
  intro keys
  have hkeys : keys = (o.toList.map sanitize).map Prod.fst := by
    rw [List.map_map]
    exact tagKeys_toSpectatorId name o.toList
  refine ⟨tagKeys_toSpectatorId name o.toList, ?_, fun hwf ord kind valueStr hv => ?_⟩
  · rw [hkeys]
    exact nodup_sanitize_iff
  · obtain ⟨c, rest, hsym, hc, -⟩ := kind.symbol_cons (.new name o)
    refine ⟨_, parse_line ord hwf hc hsym hv, size_parsed ord name hwf, ?_⟩
    rw [MeterId.new_tags_eq (wellFormed_sanitize hwf), ← o.length, ← nodup_sanitize_iff (o := o),
      ← UMap.size_assign_eq_length_iff, List.length_map]

/-- Two keys that are sanitised and stay distinct. -/
theorem wire_keys_distinct_iff_two_keys : ∃ (tags : Tags) (o : tags.Iteration),
    toSpectatorId (str "m") o.toList = str "m,a_=1,b_=2" ∧
    (tagKeys (str "m,a_=1,b_=2")).Nodup ∧
    ∃ (ord : (tags : Tags) → tags.Iteration) (p : ProtocolLine),
      parseProtocolLine ord (str "c:m,a_=1,b_=2:1\n") = some p ∧ p.id.tags.size = 2 := by
  let l : List (Str × Str) := [(str "a,", str "1"), (str "b;", str "2")]
  let o : UMap.Iteration (validateTags l) := .ofAssignIf validTag l (by decide)
  let ord (tags : Tags) : tags.Iteration := (UMap.Iteration.nonempty tags).some
  have hwf : Tags.WellFormed (validateTags l) := validateTags_wellFormed l
  have hv : ch ':' ∉ str "1" := by decide
  obtain ⟨-, -, hparse⟩ := wire_keys_distinct_iff (str "m") o
  obtain ⟨p, hp, hsize, -⟩ := hparse hwf ord .counter (str "1") hv
  have hdistinct : (tagKeys (str "m,a_=1,b_=2")).Nodup := by decide
  exact ⟨_, o, by decide, hdistinct, ord, p, hp, hsize.trans (by decide)⟩

/-- Two keys that become one: both tags are on the wire under the same key, and the decoder
keeps one of them. -/
theorem wire_keys_collide : ∃ (tags : Tags) (o : tags.Iteration),
    o.toList = [(str "a,", str "1"), (str "a;", str "2")] ∧ tags.WellFormed ∧ tags.size = 2 ∧
    toSpectatorId (str "m") o.toList = str "m,a_=1,a_=2" ∧
    ¬ (tagKeys (toSpectatorId (str "m") o.toList)).Nodup ∧
    ∃ (ord : (tags : Tags) → tags.Iteration) (p : ProtocolLine),
      parseProtocolLine ord ((counter (.new (str "m") o)).constructLine (str "1") ++ [newLine]) =
        some p ∧ p.id.tags.size = 1 := by
  let l : List (Str × Str) := [(str "a,", str "1"), (str "a;", str "2")]
  let o : UMap.Iteration (validateTags l) := .ofAssignIf validTag l (by decide)
  let ord (tags : Tags) : tags.Iteration := (UMap.Iteration.nonempty tags).some
  have hwf : Tags.WellFormed (validateTags l) := validateTags_wellFormed l
  have hv : ch ':' ∉ str "1" := by decide
  have hsym : (MeterKind.counter.meter (.new (str "m") o)).meterTypeSymbol = ch 'c' :: [] := rfl
  refine ⟨_, o, by decide, hwf, o.length.symm, by decide, by decide, ord, _,
    parse_line ord hwf (by decide) hsym hv, ?_⟩
  rw [size_parsed ord (str "m") hwf]
  decide

end Spectator
