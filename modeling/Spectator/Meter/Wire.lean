import Spectator.Lib.Getline
import Spectator.Meter.Meter
import Spectator.Writer.Delivery

/-!
# The wire format

What `ReplaceInvalidChars` gives the nested format of a line: no field, tag or line can be forged by
a name, a tag key or a tag value.

* `splitOn_toSpectatorId`: an id cut at commas. `EqUpToTagOrder`: ids that differ in the order of
  their tags only.
* `ValueText`: what is assumed of `std::to_string`. `Meter.constructLine_splitOn`: a line cut at
  colons.
* `Emitted`: the lines that the meters build. `emitted_wellFormed`: how such a line decomposes, and
  that a sequence of them decomposes into its lines.
-/

namespace Spectator

/-! ## The id -/

theorem comma_notMem_segment (e : Str × Str) : ch ',' ∉ segment e := by
  unfold segment
  simp [notMem_replaceInvalidChars (c := ch ',') (by decide), show ch ',' ≠ ch '=' by decide]

/-- An id cut at commas: the sanitised name, and one segment for each rendered tag. -/
theorem splitOn_toSpectatorId (name : Str) (entries : List (Str × Str)) :
    (toSpectatorId name entries).splitOn (ch ',') =
      replaceInvalidChars name :: entries.map segment := by
  rw [toSpectatorId_eq]
  refine Getline.splitOn_append_flatMap (notMem_replaceInvalidChars (by decide) _) fun s hs => ?_
  obtain ⟨e, -, rfl⟩ := List.mem_map.mp hs
  exact comma_notMem_segment e

theorem count_segment (e : Str × Str) : (segment e).count (ch '=') = 1 := by
  unfold segment
  rw [List.count_append, List.count_cons_self,
    List.count_eq_zero_of_not_mem (notMem_replaceInvalidChars (by decide) _),
    List.count_eq_zero_of_not_mem (notMem_replaceInvalidChars (by decide) _)]

/-- Two ids cut at commas: the same first piece, and the same other pieces in some order. -/
def EqUpToTagOrder (a b : Str) : Prop :=
  (a.splitOn (ch ',')).head? = (b.splitOn (ch ',')).head? ∧
    (a.splitOn (ch ',')).tail.Perm (b.splitOn (ch ',')).tail

/-- Rendered ids with the same sanitised name and the same segments in some order. -/
theorem eqUpToTagOrder {name name' : Str} {es es' : List (Str × Str)}
    (hn : replaceInvalidChars name = replaceInvalidChars name')
    (hp : (es.map segment).Perm (es'.map segment)) :
    EqUpToTagOrder (toSpectatorId name es) (toSpectatorId name' es') := by
  unfold EqUpToTagOrder
  rw [splitOn_toSpectatorId, splitOn_toSpectatorId, hn]
  exact ⟨rfl, hp⟩

/-- A byte of an id is a valid character or one of its two separators. -/
theorem mem_toSpectatorId {name : Str} {entries : List (Str × Str)} {c : UInt8}
    (h : c ∈ toSpectatorId name entries) : validChar c = true ∨ c = ch ',' ∨ c = ch '=' := by
  rw [toSpectatorId_eq, List.mem_append, List.mem_flatMap] at h
  rcases h with h | ⟨s, hs, h⟩
  · exact .inl (validChar_of_mem h)
  · obtain ⟨e, -, rfl⟩ := List.mem_map.mp hs
    rw [segment, List.mem_cons, List.mem_append, List.mem_cons] at h
    rcases h with h | h | h | h
    · exact .inr (.inl h)
    · exact .inl (validChar_of_mem h)
    · exact .inr (.inr h)
    · exact .inl (validChar_of_mem h)

theorem notMem_toSpectatorId {c : UInt8} (hv : validChar c = false) (h₁ : c ≠ ch ',')
    (h₂ : c ≠ ch '=') (name : Str) (entries : List (Str × Str)) :
    c ∉ toSpectatorId name entries := by
  intro h
  rcases mem_toSpectatorId h with h | h | h
  · rw [hv] at h; cases h
  · exact h₁ h
  · exact h₂ h

/-! ## The line -/

/-- What `std::to_string` is assumed to return. -/
structure ValueText (valueStr : Str) : Prop where
  ne_nil : valueStr ≠ []
  colon : ch ':' ∉ valueStr
  newline : newLine ∉ valueStr

theorem MeterKind.notMem_symbol {c : UInt8} (hv : validChar c = false) (hc : c ≠ ch ',')
    (kind : MeterKind) (id : MeterId) : c ∉ (kind.meter id).meterTypeSymbol := by
  intro h
  rcases MeterKind.mem_symbol h with h | h
  · rw [hv] at h; cases h
  · exact hc h

variable {tags : Tags}

/-- A line cut at colons: the type symbol, the id, the value. -/
theorem constructLine_splitOn (kind : MeterKind) (name : Str) (o : tags.Iteration)
    {valueStr : Str} (hv : ch ':' ∉ valueStr) :
    ((kind.meter (.new name o)).constructLine valueStr).splitOn (ch ':') =
      [(kind.meter (.new name o)).meterTypeSymbol, toSpectatorId name o.toList, valueStr] := by
  have hjoin : (kind.meter (.new name o)).constructLine valueStr =
      (kind.meter (.new name o)).meterTypeSymbol ++
        [toSpectatorId name o.toList, valueStr].flatMap fun l => ch ':' :: l := by
    rw [Meter.constructLine_eq, MeterKind.meter_id]
    simp [MeterId.new]
  rw [hjoin]
  refine Getline.splitOn_append_flatMap (kind.notMem_symbol (by decide) (by decide) _) ?_
  intro l hl
  rcases List.mem_cons.mp hl with rfl | hl
  · exact notMem_toSpectatorId (by decide) (by decide) (by decide) _ _
  · rw [List.mem_singleton.mp hl]; exact hv

theorem count_constructLine (kind : MeterKind) (name : Str) (o : tags.Iteration)
    {valueStr : Str} (hv : ch ':' ∉ valueStr) :
    ((kind.meter (.new name o)).constructLine valueStr).count (ch ':') = 2 := by
  rw [Meter.constructLine_eq, MeterKind.meter_id, List.count_append, List.count_cons_self,
    List.count_append, List.count_cons_self, List.count_eq_zero_of_not_mem hv,
    List.count_eq_zero_of_not_mem (kind.notMem_symbol (by decide) (by decide) _)]
  have hid : (MeterId.new name o).spectatordId.count (ch ':') = 0 :=
    List.count_eq_zero_of_not_mem (notMem_toSpectatorId (by decide) (by decide) (by decide) _ _)
  rw [hid]

theorem newLine_notMem_constructLine (kind : MeterKind) (name : Str) (o : tags.Iteration)
    {valueStr : Str} (hv : newLine ∉ valueStr) :
    newLine ∉ (kind.meter (.new name o)).constructLine valueStr := by
  rw [Meter.constructLine_eq, MeterKind.meter_id]
  have hsym : newLine ∉ (kind.meter (.new name o)).meterTypeSymbol :=
    kind.notMem_symbol (by decide) (by decide) _
  have hid : newLine ∉ (MeterId.new name o).spectatordId :=
    notMem_toSpectatorId (by decide) (by decide) (by decide) _ _
  simp [hsym, hid, hv, show newLine ≠ ch ':' by decide]

/-! ## A sequence of lines -/

/-- The lines that the meters build. -/
inductive Emitted : Str → Prop
  | line (kind : MeterKind) (name : Str) {tags : Tags} (o : tags.Iteration) {valueStr : Str} :
      ValueText valueStr → Emitted ((kind.meter (.new name o)).constructLine valueStr)

theorem Emitted.newLine_notMem {line : Str} (h : Emitted line) : newLine ∉ line := by
  cases h with
  | line kind name o hv => exact newLine_notMem_constructLine kind name o hv.newline

/-- A batch is what the unbuffered mode sends for the same lines. -/
theorem foldl_appendLine (buffer : Str) (lines : List Str) :
    lines.foldl Writer.appendLine buffer = buffer ++ linesText lines := by
  induction lines generalizing buffer with
  | nil => simp
  | cons line lines ih =>
    rw [List.foldl_cons, ih, Writer.appendLine_eq, List.append_assoc, ← linesText_append]
    rfl

theorem splitOn_linesText {lines : List Str} (h : ∀ line ∈ lines, newLine ∉ line) :
    (linesText lines).splitOn newLine = lines ++ [[]] :=
  Getline.splitOn_flatMap h

/-- **No injection.** For every name and tag map of arbitrary bytes, every meter type and every
iteration order, the line has no newline and two colons; cut at colons it is the type symbol, the id
and the value; the id cut at commas is the sanitised name and one segment for each rendered tag, in
iteration order, each with one `=`. And every sequence of such lines, appended to a buffer or sent
line by line, cut at newlines is these lines (and the empty text after the last newline). -/
theorem emitted_wellFormed :
    (∀ (kind : MeterKind) (name : Str) {tags : Tags} (o : tags.Iteration) {valueStr : Str},
      ValueText valueStr →
      let line := (kind.meter (.new name o)).constructLine valueStr
      newLine ∉ line ∧ line.count (ch ':') = 2 ∧
        ∃ id, line.splitOn (ch ':') = [(kind.meter (.new name o)).meterTypeSymbol, id, valueStr] ∧
          id.splitOn (ch ',') = replaceInvalidChars name :: o.toList.map (fun e =>
            replaceInvalidChars e.1 ++ str "=" ++ replaceInvalidChars e.2) ∧
          ∀ s ∈ (id.splitOn (ch ',')).tail, s.count (ch '=') = 1) ∧
    (∀ lines : List Str, (∀ line ∈ lines, Emitted line) →
      (lines.map Writer.nonBufferedText).flatten.splitOn newLine = lines ++ [[]] ∧
        (lines.foldl Writer.appendLine []).splitOn newLine = lines ++ [[]]) := by
  refine ⟨fun kind name tags o valueStr hv => ?_, fun lines hl => ?_⟩
  · refine ⟨newLine_notMem_constructLine kind name o hv.newline,
      count_constructLine kind name o hv.colon, toSpectatorId name o.toList,
      constructLine_splitOn kind name o hv.colon, ?_, ?_⟩
    · rw [splitOn_toSpectatorId]
      simp [segment, str]
    · intro s hs
      rw [splitOn_toSpectatorId, List.tail_cons, List.mem_map] at hs
      obtain ⟨e, -, rfl⟩ := hs
      exact count_segment e
  · have hsplit := splitOn_linesText fun line hline => (hl line hline).newLine_notMem
    refine ⟨?_, ?_⟩
    · rw [← List.flatMap_def]; exact hsplit
    · rw [foldl_appendLine]; exact hsplit

/-- Separators in the name, in a key and in a value. -/
theorem emitted_wellFormed_separators : ∃ line : Str, line = str "c:a_b,k_=v_w:1" ∧
    newLine ∉ line ∧ line.count (ch ':') = 2 ∧
    ([line, line].map Writer.nonBufferedText).flatten.splitOn newLine = [line, line, []] := by
  have hv : ValueText (str "1") := ⟨nofun, by decide, by decide⟩
  have hwf := emitted_wellFormed.1 .counter (str "a:b")
    (.ofAssignIf validTag [(str "k,", str "v=w")] (by decide)) hv
  refine ⟨_, ?_, hwf.1, hwf.2.1, (emitted_wellFormed.2 [_, _] fun line hline => ?_).1⟩
  · decide
  · rcases List.mem_pair.mp hline with rfl | rfl <;> exact .line _ _ _ hv

/-- In a run of the buffered mode on such lines, each batch cut at newlines is the lines of its
chunk. -/
theorem batches_splitOn {ι : Type} [DecidableEq ι] {n : Nat} {impl : Impl} (hn : 0 < n)
    {todo : ι → List Str} {tr : List (Label ι)} {s : State ι}
    (h : Lts.Run Step (State.start (Writer.buffered impl n) todo) tr s)
    (hl : ∀ line ∈ appended tr, Emitted line) :
    ∃ chunks : List (List Str), chunks.flatten <+: appended tr ∧
      (written tr ++ s.sender.inFlight).map (fun batch => batch.splitOn newLine) =
        chunks.map fun chunk => chunk ++ [[]] := by
  obtain ⟨chunks, rest, hg, hw, -, -⟩ :=
    (Delivery.of_run h (.start (.fresh impl hn) rfl todo)).chunks
  have hpre : chunks.flatten <+: appended tr := ⟨rest, hg.flatten⟩
  refine ⟨chunks, hpre, ?_⟩
  rw [hw, List.map_map]
  refine List.map_congr_left fun chunk hc => splitOn_linesText fun line hline => ?_
  exact (hl line (hpre.subset (List.mem_flatten_of_mem hc hline))).newLine_notMem

end Spectator
