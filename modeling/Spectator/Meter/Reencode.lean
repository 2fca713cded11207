import Spectator.Meter.RoundTrip
import Spectator.Utils.Encode

/-!
# Encoding a decoded line again

`ProtocolLine::to_string` after `ParseProtocolLine`, on the lines that meters build. A
`ProtocolLine` has one byte for the symbol, so that the TTL of a gauge is not in it.

* `MeterKind.ttlText`: what follows the symbol of a meter.
* `reencode_constructLine`: the line comes back with its tags in the order of their keys and without
  the TTL.
-/

namespace Spectator

/-- What a gauge with a TTL has after its symbol. -/
def MeterKind.ttlText : MeterKind → Str
  | .gauge (some ttlSeconds) => str "," ++ toDecimal ttlSeconds
  | _ => []

theorem MeterKind.symbol_eq (kind : MeterKind) (id : MeterId) :
    ∃ c, (kind.meter id).meterTypeSymbol = c :: kind.ttlText ∧ validChar c = true := by
  cases kind with
  | gauge ttlSeconds =>
    cases ttlSeconds with
    | none => exact ⟨ch 'g', rfl, by decide⟩
    | some ttl => exact ⟨ch 'g', rfl, by decide⟩
  | _ => exact ⟨_, rfl, by decide⟩

/-- The line of a meter, from its parts. -/
theorem line_eq_wireLine {tags : Tags} {o : tags.Iteration} {kind : MeterKind} {name symbol : Str}
    (hsym : (kind.meter (.new name o)).meterTypeSymbol = symbol) (valueStr : Str) :
    (kind.meter (.new name o)).constructLine valueStr ++ [newLine] =
      wireLine symbol (replaceInvalidChars name) (o.toList.map sanitize)
        (valueStr ++ [newLine]) := by
  rw [line_eq hsym, wireLine, toSpectatorId_sanitize]

/-- A map with distinct keys, sorted: its entries, in the order of their keys. -/
theorem sortedTags_assign {tags : Tags} {entries : List (Str × Str)} (o : tags.Iteration)
    (hn : (entries.map Prod.fst).Nodup) (ht : tags = UMap.assign ∅ entries) :
    (sortedTags o).toList.Perm entries ∧
      ((sortedTags o).toList.map Prod.fst).Pairwise (· < ·) := by
  subst ht
  refine ⟨(o.sort_perm _).trans (o.perm_entries hn), ?_⟩
  have hle : ((sortedTags o).toList.map Prod.fst).Pairwise (· ≤ ·) := o.sort_pairwise _
  refine (hle.and (sortedTags o).nodupKeys).imp fun ⟨h, hne⟩ => ?_
  by_contra hlt
  exact hne (Std.Antisymm.antisymm _ _ h (List.not_lt.mp hlt))

/-- **Decode and encode again.** For every meter of every kind, every name, every well-formed tag
map whose keys stay distinct when they are sanitised, every iteration order and every value text
without a colon: the line comes back with its tags in ascending order of their keys and without the
TTL of a gauge. The symbol, the name, each tag and the value are unchanged. -/
theorem reencode_constructLine (ord : (tags : Tags) → tags.Iteration) (kind : MeterKind)
    (name : Str) {tags : Tags} (o : tags.Iteration) (hwf : tags.WellFormed)
    (hd : ∀ k ∈ tags, ∀ k' ∈ tags, replaceInvalidChars k = replaceInvalidChars k' → k = k')
    {valueStr : Str} (hv : ch ':' ∉ valueStr) :
    ∃ (c : UInt8) (entries : List (Str × Str)) (p : ProtocolLine),
      (kind.meter (.new name o)).meterTypeSymbol = c :: kind.ttlText ∧
      (kind.meter (.new name o)).constructLine valueStr ++ [newLine] =
        wireLine (c :: kind.ttlText) (replaceInvalidChars name) (o.toList.map sanitize)
          (valueStr ++ [newLine]) ∧
      parseProtocolLine ord ((kind.meter (.new name o)).constructLine valueStr ++ [newLine]) =
        some p ∧
      entries.Perm (o.toList.map sanitize) ∧ (entries.map Prod.fst).Pairwise (· < ·) ∧
      ∀ o' : p.id.tags.Iteration, p.toString o' =
        wireLine [c] (replaceInvalidChars name) entries (valueStr ++ [newLine]) := by
  obtain ⟨c, hsym, hc⟩ := kind.symbol_eq (.new name o)
  have hn := nodup_sanitize (o := o) hd
  -- The constructor of the decoded id drops no tag.
  have htags : (MeterId.new (replaceInvalidChars name)
      (ord (UMap.assign ∅ (o.toList.map sanitize)))).tags =
      UMap.assign ∅ (o.toList.map sanitize) :=
    MeterId.new_tags_eq (wellFormed_sanitize hwf) _
  obtain ⟨hperm, hsorted⟩ := sortedTags_assign (ord _) hn htags
  refine ⟨c, _, _, hsym, line_eq_wireLine hsym valueStr, parse_line ord hwf hc hsym hv, hperm,
    hsorted, fun o' => ?_⟩
  rw [ProtocolLine.toString_order _ o' (ord _), ProtocolLine.toString_eq]
  rfl

/-- Two tags in descending order of their keys, bytes to sanitise, and no TTL. -/
theorem reencode_constructLine_two_tags : ∃ (ord : (tags : Tags) → tags.Iteration)
    (p : ProtocolLine) (entries : List (Str × Str)),
    parseProtocolLine ord (str "c:a_b,k=1,b_=2:3\n") = some p ∧
      entries.Perm [(str "k", str "1"), (str "b_", str "2")] ∧
      (entries.map Prod.fst).Pairwise (· < ·) ∧
      ∀ o, p.toString o = wireLine (str "c") (str "a_b") entries (str "3\n") := by
  let ord (tags : Tags) : tags.Iteration := (UMap.Iteration.nonempty tags).some
  let l : List (Str × Str) := [(str "k", str "1"), (str "b,", str "2")]
  let o : UMap.Iteration (validateTags l) := .ofAssignIf validTag l (by decide)
  have hwf : Tags.WellFormed (validateTags l) := validateTags_wellFormed l
  have hkey : ∀ k ∈ validateTags l, k = str "k" ∨ k = str "b," := by
    intro k hk
    have hk : k ∈ Finmap.insert (str "b,") (str "2") (Finmap.insert (str "k") (str "1")
      (∅ : Tags)) := hk
    simpa [Finmap.mem_insert, Finmap.notMem_empty, or_comm] using hk
  have hd : ∀ k ∈ validateTags l, ∀ k' ∈ validateTags l,
      replaceInvalidChars k = replaceInvalidChars k' → k = k' := by
    intro k hk k' hk'
    rcases hkey k hk with rfl | rfl <;> rcases hkey k' hk' with rfl | rfl <;> decide
  have hv : ch ':' ∉ str "3" := by decide
  obtain ⟨c, entries, p, hsym, -, hp, hperm, hsorted, htext⟩ :=
    reencode_constructLine ord .counter (str "a:b") o hwf hd hv
  cases hsym
  exact ⟨ord, p, entries, hp, hperm, hsorted, htext⟩

/-- The TTL is lost: the line of a gauge with a TTL does not come back with its symbol field,
whatever its tags. -/
theorem reencode_drops_ttl : ∃ (ord : (tags : Tags) → tags.Iteration)
    (o : UMap.Iteration (∅ : Tags)) (p : ProtocolLine),
    ((MeterKind.gauge (some 60)).meter (.new (str "foo") o)).constructLine (str "1") ++ [newLine] =
      str "g,60:foo:1\n" ∧
    parseProtocolLine ord (((MeterKind.gauge (some 60)).meter (.new (str "foo") o)).constructLine
      (str "1") ++ [newLine]) = some p ∧
    ∀ o' : p.id.tags.Iteration, p.toString o' = str "g:foo:1\n" ∧
      ∀ entries, p.toString o' ≠
        wireLine ((MeterKind.gauge (some 60)).meter (.new (str "foo") o)).meterTypeSymbol
          (str "foo") entries (str "1\n") := by
  let ord (tags : Tags) : tags.Iteration := (UMap.Iteration.nonempty tags).some
  let o := UMap.Iteration.ofAssignIf validTag [] (by decide)
  have hwf : Tags.WellFormed ∅ := fun k v h => by simp at h
  have hsym : ((MeterKind.gauge (some 60)).meter (.new (str "foo") o)).meterTypeSymbol =
      ch 'g' :: str ",60" := by decide
  have hv : ch ':' ∉ str "1" := by decide
  have hparse := parse_line ord hwf (by decide) hsym hv
  refine ⟨ord, o, _, by decide, hparse, fun o' => ?_⟩
  have htags : (MeterId.new (str "foo") (ord (∅ : Tags))).tags = UMap.assign ∅ [] :=
    MeterId.new_tags_eq hwf _
  obtain ⟨hperm, -⟩ := sortedTags_assign o' (by exact List.nodup_nil) htags
  have htext : ProtocolLine.toString _ o' = str "g:foo:1\n" := by
    rw [ProtocolLine.toString_eq, hperm.eq_nil]
    decide
  refine ⟨htext, fun entries h => ?_⟩
  rw [htext] at h
  injection h with _ h
  injection h with h _
  exact absurd h (by decide)

end Spectator
