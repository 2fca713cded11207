import Spectator.Meter.Wire
import Spectator.Utils.ProtocolLine

/-!
# Decoding an emitted line

`ParseProtocolLine` against `ConstructLine`. What the encoder writes is sanitised, so the decoder
gives the sanitised name and the sanitised tags.

* `sanitize`: one tag as the wire has it.
* `parse_toSpectatorId`: the parser on a symbol, a rendered id and a value.
* `parse_constructLine`: decoding undoes encoding, for well-formed tags whose keys stay distinct.
-/

namespace Spectator

/-- A tag as it is on the wire. -/
def sanitize (e : Str × Str) : Str × Str := (replaceInvalidChars e.1, replaceInvalidChars e.2)

theorem segment_sanitize (e : Str × Str) : segment (sanitize e) = segment e := by
  simp [segment, sanitize]

/-- The rendered id, from the sanitised entries. -/
theorem toSpectatorId_sanitize (name : Str) (entries : List (Str × Str)) :
    toSpectatorId name entries = replaceInvalidChars name ++
      ((entries.map sanitize).map fun e => e.1 ++ ch '=' :: e.2).flatMap fun s => ch ',' :: s := by
  rw [toSpectatorId_eq, List.map_map]
  rfl

/-- The parser on the text that `ToSpectatorId` renders, between a symbol and a value. -/
theorem parse_toSpectatorId (ord : (tags : Tags) → tags.Iteration) {c : UInt8}
    {rest value : Str} (name : Str) {entries : List (Str × Str)} (hc : c ≠ ch ',')
    (hsym : ch ':' ∉ c :: rest) (he : ∀ e ∈ entries, e.2 ≠ []) (hv : ch ':' ∉ value)
    (hne : value ≠ []) :
    parseProtocolLine ord ((c :: rest) ++ ch ':' ::
      (toSpectatorId name entries ++ ch ':' :: value)) =
      some ⟨c, .new (replaceInvalidChars name) (ord (UMap.assign ∅ (entries.map sanitize))),
        value⟩ := by
  have hcolon : ch ':' ∉ toSpectatorId name entries :=
    notMem_toSpectatorId (by decide) (by decide) (by decide) _ _
  rw [toSpectatorId_sanitize] at hcolon ⊢
  refine parseProtocolLine_join ord hc hsym (notMem_replaceInvalidChars (by decide) _) ?_ hcolon
    hv hne
  intro e hmem
  obtain ⟨e₀, h₀, rfl⟩ := List.mem_map.mp hmem
  exact ⟨comma_notMem_segment e₀, notMem_replaceInvalidChars (by decide) _,
    notMem_replaceInvalidChars (by decide) _,
    fun h => he e₀ h₀ (replaceInvalidChars_eq_nil.mp h)⟩

section Tags

variable {tags : Tags} {o : tags.Iteration}

/-- The entries of a well-formed map are not empty. -/
theorem ne_nil_of_mem (hwf : tags.WellFormed) {e : Str × Str} (he : e ∈ o.toList) :
    e.1 ≠ [] ∧ e.2 ≠ [] := by
  obtain ⟨hk, hv⟩ := validTag_iff.mp (hwf e.1 e.2 ((o.mem_iff _ _).mp he))
  exact ⟨ne_nil_of_not_whitespace hk, ne_nil_of_not_whitespace hv⟩

/-- Sanitised entries of a well-formed map are well formed. -/
theorem validTag_sanitize (hwf : tags.WellFormed) {e : Str × Str} (he : e ∈ o.toList) :
    validTag (sanitize e).1 (sanitize e).2 = true := by
  obtain ⟨hk, hv⟩ := ne_nil_of_mem hwf he
  exact validTag_iff.mpr ⟨isEmptyOrWhitespace_replaceInvalidChars hk,
    isEmptyOrWhitespace_replaceInvalidChars hv⟩

/-- Keys that stay distinct: the sanitised entries are a map. -/
theorem nodup_sanitize
    (hd : ∀ k ∈ tags, ∀ k' ∈ tags, replaceInvalidChars k = replaceInvalidChars k' → k = k') :
    ((o.toList.map sanitize).map Prod.fst).Nodup := by
  have hmap : (o.toList.map sanitize).map Prod.fst =
      (o.toList.map Prod.fst).map replaceInvalidChars := by
    simp [sanitize, Function.comp_def]
  have hmem : ∀ k ∈ o.toList.map Prod.fst, k ∈ tags := by
    intro k hk
    obtain ⟨e, he, rfl⟩ := List.mem_map.mp hk
    exact Finmap.mem_of_lookup_eq_some ((o.mem_iff e.1 e.2).mp he)
  rw [hmap]
  exact o.nodupKeys.map_on fun k hk k' hk' => hd k (hmem k hk) k' (hmem k' hk')

/-- The map of the sanitised entries is well formed. -/
theorem wellFormed_sanitize (hwf : tags.WellFormed) :
    Tags.WellFormed (UMap.assign ∅ (o.toList.map sanitize)) := by
  intro k v h
  rcases UMap.mem_of_lookup_assign h with hmem | hempty
  · obtain ⟨e, he, heq⟩ := List.mem_map.mp hmem
    have hvalid := validTag_sanitize hwf he
    rw [heq] at hvalid
    exact hvalid
  · simp at hempty

/-- The line of a meter with a newline, as a symbol, a rendered id and a value. -/
theorem line_eq {kind : MeterKind} {name : Str} {symbol : Str}
    (hsym : (kind.meter (.new name o)).meterTypeSymbol = symbol) (valueStr : Str) :
    (kind.meter (.new name o)).constructLine valueStr ++ [newLine] =
      symbol ++ ch ':' :: (toSpectatorId name o.toList ++ ch ':' :: (valueStr ++ [newLine])) := by
  rw [Meter.constructLine_eq, MeterKind.meter_id, hsym]
  simp [MeterId.new]

/-- The parser on the line of a meter. -/
theorem parse_line (ord : (tags : Tags) → tags.Iteration) {kind : MeterKind} {name : Str}
    (hwf : tags.WellFormed) {c : UInt8} {rest : Str} (hc : validChar c = true)
    (hsym : (kind.meter (.new name o)).meterTypeSymbol = c :: rest) {valueStr : Str}
    (hv : ch ':' ∉ valueStr) :
    parseProtocolLine ord ((kind.meter (.new name o)).constructLine valueStr ++ [newLine]) =
      some ⟨c, .new (replaceInvalidChars name)
        (ord (UMap.assign ∅ (o.toList.map sanitize))), valueStr ++ [newLine]⟩ := by
  have hcolon : ch ':' ∉ c :: rest := by
    rw [← hsym]
    exact kind.notMem_symbol (by decide) (by decide) _
  have hcomma : c ≠ ch ',' := by
    rintro rfl
    exact absurd hc (by decide)
  have hvalue : ch ':' ∉ valueStr ++ [newLine] := by
    rw [List.mem_append, List.mem_singleton]
    exact fun h => h.elim hv (by decide)
  have hvalues : ∀ e ∈ o.toList, e.2 ≠ [] := fun e he => (ne_nil_of_mem hwf he).2
  rw [line_eq hsym]
  exact parse_toSpectatorId ord name hcomma hcolon hvalues hvalue (by simp)

/-- **Decoding undoes encoding.** The line of a meter, with a newline, parses to the first character
of the type symbol, the sanitised name, the map of sanitised keys to sanitised values and the value
text with the newline; and the id of the result is rendered as the meter's id, up to the order of
the tags. -/
theorem parse_constructLine (ord : (tags : Tags) → tags.Iteration) (kind : MeterKind) (name : Str)
    (o : tags.Iteration) (hwf : tags.WellFormed)
    (hd : ∀ k ∈ tags, ∀ k' ∈ tags, replaceInvalidChars k = replaceInvalidChars k' → k = k')
    {valueStr : Str} (hv : ch ':' ∉ valueStr) :
    ∃ p, parseProtocolLine ord ((kind.meter (.new name o)).constructLine valueStr ++ [newLine]) =
        some p ∧
      (kind.meter (.new name o)).meterTypeSymbol.head? = some p.symbol ∧
      p.id.name = replaceInvalidChars name ∧
      (∀ k v, p.id.tags.lookup k = some v ↔ ∃ k₀ v₀, tags.lookup k₀ = some v₀ ∧
        k = replaceInvalidChars k₀ ∧ v = replaceInvalidChars v₀) ∧
      p.value = valueStr ++ [newLine] ∧
      EqUpToTagOrder p.id.spectatordId (kind.meter (.new name o)).id.spectatordId := by
  obtain ⟨c, rest, hsym, hc, -⟩ := kind.symbol_cons (.new name o)
  have hn := nodup_sanitize (o := o) hd
  refine ⟨_, parse_line ord hwf hc hsym hv, by rw [hsym]; rfl, rfl, fun k v => ?_, rfl, ?_⟩
  · -- Every sanitised tag passes the check of the constructor.
    have hmem : ∀ k v, (UMap.assign (∅ : Tags) (o.toList.map sanitize)).lookup k = some v ↔
        ∃ k₀ v₀, tags.lookup k₀ = some v₀ ∧ k = replaceInvalidChars k₀ ∧
          v = replaceInvalidChars v₀ := by
      intro k v
      rw [UMap.lookup_assign_empty hn, List.mem_map]
      constructor
      · rintro ⟨⟨k₀, v₀⟩, he, h⟩
        cases h
        exact ⟨k₀, v₀, (o.mem_iff _ _).mp he, rfl, rfl⟩
      · rintro ⟨k₀, v₀, h, rfl, rfl⟩
        exact ⟨(k₀, v₀), (o.mem_iff _ _).mpr h, rfl⟩
    rw [MeterId.new_tags_eq (wellFormed_sanitize hwf)]
    exact hmem k v
  · -- The decoded id renders the sanitised tags again, in the order of its own map.
    rw [MeterKind.meter_id]
    have hperm := ((ord (UMap.assign ∅ (o.toList.map sanitize))).perm_entries hn).map segment
    rw [List.map_map, show segment ∘ sanitize = segment from funext segment_sanitize] at hperm
    exact eqUpToTagOrder (replaceInvalidChars_idem name) hperm

end Tags

/-- A gauge with a TTL, and bytes to sanitise in the name, a key and a value. -/
theorem parse_constructLine_gauge : ∃ (ord : (tags : Tags) → tags.Iteration) (p : ProtocolLine),
    parseProtocolLine ord (str "g,60:a_b,k_=v_w:1.5\n") = some p ∧ p.symbol = ch 'g' ∧
      p.id.name = str "a_b" ∧ p.id.tags.lookup (str "k_") = some (str "v_w") ∧
      p.value = str "1.5\n" := by
  let ord (tags : Tags) : tags.Iteration := (UMap.Iteration.nonempty tags).some
  let o : UMap.Iteration (validateTags [(str "k,", str "v=w")]) := .ofAssignIf _ _ (by decide)
  have hwf : Tags.WellFormed (validateTags [(str "k,", str "v=w")]) :=
    validateTags_wellFormed [(str "k,", str "v=w")]
  have hkey : ∀ k ∈ validateTags [(str "k,", str "v=w")], k = str "k," := by
    intro k hk
    have hk : k ∈ Finmap.insert (str "k,") (str "v=w") (∅ : Tags) := hk
    simpa [Finmap.mem_insert, Finmap.notMem_empty] using hk
  have hv : ch ':' ∉ str "1.5" := by decide
  obtain ⟨p, hp, hs, hn, ht, hval, -⟩ := parse_constructLine ord (.gauge (some 60)) (str "a:b") o
    hwf (fun k hk k' hk' _ => (hkey k hk).trans (hkey k' hk').symm) hv
  refine ⟨ord, p, hp, ?_, hn, ?_, hval⟩
  · exact (Option.some.inj hs).symm
  · exact (ht _ _).mpr ⟨str "k,", str "v=w", by decide, by decide, by decide⟩

end Spectator
