import Spectator.Lib.Override
import Spectator.Utils.Grammar

/-!
# Encoding a protocol line

The model of `ProtocolLine::to_string` and of `operator==`, and the round trip through
`ParseProtocolLine`.

* `sortedTags`: the `std::map` of the tags. `ProtocolLine.toString`: the encoder.
* `wireLine`: a line from its parts. `ProtocolLine.toString_eq`: what the encoder writes.
* `ProtocolLine.Printable`: the lines whose parts can be told apart again.
* `parse_toString`: such a line is parsed to an equal one. `printable_of_parse`: the parser returns
  no others, up to an empty value.
-/

namespace Spectator

/-- `sorted_tags`: the `std::map` that is filled from the tags. Keys are compared byte by byte. -/
def sortedTags {tags : Tags} (o : tags.Iteration) : tags.Iteration := o.sort (· ≤ ·)

/-- The loop over `sorted_tags`, with the flag `first`. -/
def printTags : List (Str × Str) → Bool → Str → Str
  | [], _, ss => ss
  | (key, value) :: rest, first, ss =>
    let ss := if !first then ss ++ str "," else ss
    printTags rest false (ss ++ key ++ str "=" ++ value)

namespace ProtocolLine

/-- `to_string`; `o` is the order in which `sorted_tags` is filled. -/
def toString (p : ProtocolLine) (o : p.id.tags.Iteration) : Str :=
  let ss := [p.symbol] ++ str ":" ++ p.id.name
  let ss := if !(sortedTags o).toList.isEmpty then
      printTags (sortedTags o).toList true (ss ++ str ",")
    else ss
  ss ++ str ":" ++ p.value

/-- `operator==`. -/
instance : BEq ProtocolLine :=
  ⟨fun a b => a.symbol == b.symbol && a.id == b.id && a.value == b.value⟩

theorem beq_iff {a b : ProtocolLine} :
    (a == b) = true ↔ a.symbol = b.symbol ∧ (a.id == b.id) = true ∧ a.value = b.value := by
  show (a.symbol == b.symbol && a.id == b.id && a.value == b.value) = true ↔ _
  simp [and_assoc]

end ProtocolLine

/-! ## What the encoder writes -/

/-- A line of a symbol field, a name, tags and a value. -/
def wireLine (symbol name : Str) (entries : List (Str × Str)) (value : Str) : Str :=
  symbol ++ ch ':' ::
    ((name ++ (entries.map fun e => e.1 ++ ch '=' :: e.2).flatMap fun s => ch ',' :: s) ++
      ch ':' :: value)

theorem printTags_false (entries : List (Str × Str)) (ss : Str) :
    printTags entries false ss =
      ss ++ (entries.map fun e => e.1 ++ ch '=' :: e.2).flatMap fun s => ch ',' :: s := by
  induction entries generalizing ss with
  | nil => simp [printTags]
  | cons e entries ih =>
    obtain ⟨key, value⟩ := e
    rw [printTags, ih]
    simp [str, List.append_assoc]

theorem ProtocolLine.toString_eq (p : ProtocolLine) (o : p.id.tags.Iteration) :
    p.toString o = wireLine [p.symbol] p.id.name (sortedTags o).toList p.value := by
  unfold toString wireLine
  cases (sortedTags o).toList with
  | nil => simp [str]
  | cons e entries =>
    obtain ⟨key, value⟩ := e
    simp [printTags, printTags_false, str, List.append_assoc]

/-- The order in which the tags are visited makes no difference. -/
theorem ProtocolLine.toString_order (p : ProtocolLine) (o o' : p.id.tags.Iteration) :
    p.toString o = p.toString o' := by
  rw [toString_eq, toString_eq, sortedTags, sortedTags, o.sort_eq _ o']

/-! ## The round trip -/

/-- No part contains a separator that would end it, and there is a value. That keys and values of
tags are neither empty nor all white space is a field of the id. -/
structure ProtocolLine.Printable (p : ProtocolLine) : Prop where
  symbol : p.symbol ≠ ch ':' ∧ p.symbol ≠ ch ','
  name : ch ':' ∉ p.id.name ∧ ch ',' ∉ p.id.name
  tags : ∀ k v, p.id.tags.lookup k = some v →
    ∀ c ∈ [ch ':', ch ',', ch '='], c ∉ k ∧ c ∉ v
  value : p.value ≠ [] ∧ ch ':' ∉ p.value

/-- The tags as they are printed: no separators, and no empty value. -/
theorem ProtocolLine.Printable.entry {p : ProtocolLine} (h : p.Printable) (o : p.id.tags.Iteration)
    {e : Str × Str} (he : e ∈ o.toList) :
    (∀ c ∈ [ch ':', ch ',', ch '='], c ∉ e.1 ∧ c ∉ e.2) ∧ e.2 ≠ [] := by
  have hlookup := (o.mem_iff e.1 e.2).mp he
  have hvalid := validTag_iff.mp (p.id.valid _ _ hlookup)
  exact ⟨h.tags _ _ hlookup, ne_nil_of_not_whitespace hvalid.2⟩

/-- A byte that is not in the name or the tags is not in the id field, if it is none of the two
separators. -/
theorem notMem_idField {c : UInt8} {name : Str} {entries : List (Str × Str)} (hn : c ∉ name)
    (he : ∀ e ∈ entries, c ∉ e.1 ∧ c ∉ e.2) (h₁ : c ≠ ch ',') (h₂ : c ≠ ch '=') :
    c ∉ name ++ (entries.map fun e => e.1 ++ ch '=' :: e.2).flatMap fun s => ch ',' :: s := by
  intro hmem
  rcases List.mem_append.mp hmem with hmem | hmem
  · exact hn hmem
  · obtain ⟨s, hs, hmem⟩ := List.mem_flatMap.mp hmem
    obtain ⟨e, h, rfl⟩ := List.mem_map.mp hs
    obtain ⟨hk, hv⟩ := he e h
    simp [hk, hv, h₁, h₂] at hmem

/-- Decoding undoes encoding, for a line whose parts contain no separators. -/
theorem parse_toString (ord : (tags : Tags) → tags.Iteration) {p : ProtocolLine}
    (o : p.id.tags.Iteration) (h : p.Printable) :
    ∃ q, parseProtocolLine ord (p.toString o) = some q ∧ (q == p) = true := by
  have hsym : ch ':' ∉ [p.symbol] := by
    rw [List.mem_singleton]
    exact fun he => h.symbol.1 he.symm
  have hcolon : ∀ e ∈ (sortedTags o).toList, ch ':' ∉ e.1 ∧ ch ':' ∉ e.2 :=
    fun e he => (h.entry _ he).1 (ch ':') (by simp)
  have hid := notMem_idField h.name.1 hcolon (by decide) (by decide)
  have htags : ∀ e ∈ (sortedTags o).toList, ch ',' ∉ e.1 ++ ch '=' :: e.2 ∧
      ch '=' ∉ e.1 ∧ ch '=' ∉ e.2 ∧ e.2 ≠ [] := by
    intro e he
    obtain ⟨hsep, hne⟩ := h.entry _ he
    obtain ⟨hk, hv⟩ := hsep (ch ',') (by simp)
    obtain ⟨hk', hv'⟩ := hsep (ch '=') (by simp)
    exact ⟨by simp [hk, hv, show ch ',' ≠ ch '=' by decide], hk', hv', hne⟩
  have hparse := parseProtocolLine_join ord h.symbol.2 hsym h.name.2 htags hid h.value.2 h.value.1
  rw [UMap.assign_toList] at hparse
  rw [p.toString_eq]
  refine ⟨_, hparse, ProtocolLine.beq_iff.mpr ⟨rfl, MeterId.beq_iff.mpr ⟨rfl, ?_⟩, rfl⟩⟩
  -- The tags of the id pass the constructor's check again.
  exact MeterId.new_tags_eq p.id.valid _

/-- The first byte of a text, or NUL, is not a byte that the text does not contain. -/
theorem head_getD_ne {c : UInt8} {s : Str} (h : c ∉ s) (h₀ : 0 ≠ c) : s.head?.getD 0 ≠ c := by
  cases s with
  | nil => exact h₀
  | cons b s =>
    rintro rfl
    exact h List.mem_cons_self

/-- What the parser returns can be printed, if it has a value. -/
theorem printable_of_parse {ord : (tags : Tags) → tags.Iteration} {s : Str} {p : ProtocolLine}
    (h : parseProtocolLine ord s = some p) (hne : p.value ≠ []) : p.Printable := by
  obtain ⟨f₀, f₁, f₂, rest, hfields, hsym, hname, hvalue, htags⟩ := parseProtocolLine_fields h
  have hcolon : ∀ f ∈ [f₀, f₁, f₂], ch ':' ∉ f := by
    intro f hf
    refine Getline.notMem_of_mem_splitOn (s := s) ?_
    rw [hfields]
    exact List.mem_append_left rest hf
  have htake : ∀ f ∈ [f₀, f₁, f₂],
      ch ':' ∉ f.takeWhile (· ≠ ch ',') ∧ ch ',' ∉ f.takeWhile (· ≠ ch ',') := by
    intro f hf
    refine ⟨fun hmem => hcolon f hf (List.takeWhile_subset _ hmem), fun hmem => ?_⟩
    simpa using List.mem_takeWhile_imp hmem
  constructor
  · obtain ⟨h₁, h₂⟩ := htake f₀ (by simp)
    rw [hsym]
    exact ⟨head_getD_ne h₁ (by decide), head_getD_ne h₂ (by decide)⟩
  · rw [hname]
    exact htake f₁ (by simp)
  · intro k v hlookup
    obtain ⟨⟨pre, seg, post, hsegs, hseg, -⟩, -, -⟩ := (htags k v).mp hlookup
    -- The segment is a piece of the second field.
    have hmem : seg ∈ f₁.splitOn (ch ',') :=
      List.mem_of_mem_tail (by rw [hsegs]; simp)
    simp only [List.forall_mem_cons, List.not_mem_nil, false_imp_iff, implies_true, and_true]
    exact ⟨hseg.notMem fun hc => hcolon f₁ (by simp) (Getline.mem_of_mem_splitOn hc hmem),
      hseg.notMem (Getline.notMem_of_mem_splitOn hmem), hseg.1, hseg.2.1⟩
  · refine ⟨hne, ?_⟩
    rw [hvalue]
    exact hcolon f₂ (by simp)

/-- **The round trip on the whole format.** For every line whose parts contain no separators and
whose value is not empty, `ParseProtocolLine` of its text returns an equal line, whatever the
iteration orders. And every line with a value that `ParseProtocolLine` returns for any string is
such a line, so that its text is parsed to an equal line. -/
theorem protocolLine_round_trip (ord : (tags : Tags) → tags.Iteration) :
    (∀ (p : ProtocolLine) (o : p.id.tags.Iteration), p.Printable →
      ∃ q, parseProtocolLine ord (p.toString o) = some q ∧ (q == p) = true) ∧
    ∀ (ord' : (tags : Tags) → tags.Iteration) (s : Str) (p : ProtocolLine),
      parseProtocolLine ord' s = some p → p.value ≠ [] → p.Printable ∧
        ∀ o : p.id.tags.Iteration,
          ∃ q, parseProtocolLine ord (p.toString o) = some q ∧ (q == p) = true := by
  refine ⟨fun p o h => parse_toString ord o h, fun ord' s p hp hne => ?_⟩
  have h := printable_of_parse hp hne
  exact ⟨h, fun o => parse_toString ord o h⟩

/-- A NUL symbol, an empty name, a piece that is no tag and a fourth field. -/
theorem protocolLine_round_trip_nul : ∃ (ord : (tags : Tags) → tags.Iteration) (p : ProtocolLine)
    (o : p.id.tags.Iteration), parseProtocolLine ord (0 :: str ":,b=2,a=1,c:5:6") = some p ∧
      p.symbol = 0 ∧ p.id.name = [] ∧ p.value = str "5" ∧
      ∃ q, parseProtocolLine ord (p.toString o) = some q ∧ (q == p) = true := by
  let ord (tags : Tags) : tags.Iteration := (UMap.Iteration.nonempty tags).some
  obtain ⟨p, hp, hsym, hname, hvalue⟩ : ∃ p,
      parseProtocolLine ord (0 :: str ":,b=2,a=1,c:5:6") = some p ∧
        p.symbol = 0 ∧ p.id.name = [] ∧ p.value = str "5" := ⟨_, rfl, rfl, rfl, rfl⟩
  have hne : p.value ≠ [] := by
    rw [hvalue]
    decide
  obtain ⟨hprint, -⟩ := (protocolLine_round_trip ord).2 ord _ p hp hne
  exact ⟨ord, p, ord p.id.tags, hp, hsym, hname, hvalue,
    (protocolLine_round_trip ord).1 p _ hprint⟩

end Spectator
