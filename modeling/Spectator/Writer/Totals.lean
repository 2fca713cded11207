import Spectator.Lib.Sums
import Spectator.Writer.EndToEnd

/-!
# What the counters add up to

A line of a counter says an increment, and the lines of many threads are added up at the receiver.
Here is how the sum there compares with what the threads have counted.

* `counterTotal`: the sum over decoded lines, for the counters whose ids are selected.
* `MeterCall.increment`: what a call counts. `MeterCall.contribution_cases`: its line says this number,
  rounded to millionths, and no other line is added.
* `counter_total`: where nothing is lost, the sums differ by at most half a millionth for each
  increment, and not at all for increments in millionths. `counter_never_over`: whatever is lost,
  the receiver's sum is no more than that above the threads' sum.
-/

open scoped BigOperators

namespace Spectator

/-- What a receiver adds for a decoded line to the counters that it selects: the number that the
value says, without the newline that `ParseProtocolLine` leaves there. -/
def counterLine (select : MeterId → Bool) : Option ProtocolLine → ℚ
  | some line =>
    if line.symbol = ch 'c' ∧ select line.id = true then (readDecimal line.value.dropLast).getD 0
    else 0
  | none => 0

/-- The sum over decoded lines. -/
def counterTotal (select : MeterId → Bool) (lines : List (Option ProtocolLine)) : ℚ :=
  (lines.map (counterLine select)).sum

/-- What a receiver adds for a message. -/
def counterMessage (ord : (tags : Tags) → tags.Iteration) (select : MeterId → Bool)
    (line : Str) : ℚ :=
  counterLine select (parseProtocolLine ord (line ++ [newLine]))

/-! ## One call -/

namespace MeterCall

variable (ord : (tags : Tags) → tags.Iteration) (select : MeterId → Bool) (c : MeterCall)

/-- What the call counts on the selected counters: the finite numbers above zero that `Increment`
is called with. A counter is selected by its id as the receiver has it. -/
def increment : ℚ :=
  match c.operation with
  | .counterIncrement delta =>
    if delta.isFinite = true ∧ 0 < delta.value ∧ select (c.decoded ord).id = true then delta.value
    else 0
  | _ => 0

/-- What the receiver adds for the call. -/
def contribution : ℚ := c.message.elim 0 (counterMessage ord select)

theorem contribution_of_none (h : c.message = none) : c.contribution ord select = 0 := by
  rw [contribution, h]
  rfl

theorem contribution_of_some {line : Str} (h : c.message = some line) :
    c.contribution ord select = if c.operation.kind = .counter ∧ select (c.decoded ord).id = true then
      (readDecimal c.operation.amount.toStr).getD 0 else 0 := by
  rw [contribution, h, Option.elim_some, counterMessage, parse ord h, counterLine]
  exact if_congr (and_congr_left' (c.operation.kind.symbol_head_eq c.id))
    (by rw [decoded, List.dropLast_concat]) rfl

/-- The receiver adds a number for the calls that count, the increment in millionths, and nothing
for all others. -/
theorem contribution_cases : c.contribution ord select = 0 ∧ c.increment ord select = 0 ∨
    ∃ delta : Binary64, 0 < delta.value ∧ c.increment ord select = delta.value ∧
      c.contribution ord select = roundedValue delta := by
  cases hop : c.operation with
  | counterIncrement delta =>
    have hinc : c.increment ord select = if delta.isFinite = true ∧ 0 < delta.value ∧
        select (c.decoded ord).id = true then delta.value else 0 := by rw [increment, hop]
    have hsent (hf : delta.isFinite = true) :
        (∃ line, c.message = some line) ↔ 0 < delta.value := by
      have htest : Check.positive.test (.double delta) = true ↔ Check.positive.Admits delta.value :=
        Check.test_iff (if_pos hf)
      rw [message, Operation.exists_run, hop]
      exact htest
    by_cases h : delta.isFinite = true ∧ 0 < delta.value ∧ select (c.decoded ord).id = true
    · obtain ⟨hf, hpos, hselect⟩ := h
      obtain ⟨line, hm⟩ := (hsent hf).mpr hpos
      refine .inr ⟨delta, hpos, by rw [hinc, if_pos ⟨hf, hpos, hselect⟩], ?_⟩
      rw [c.contribution_of_some ord select hm, hop, if_pos ⟨rfl, hselect⟩, Operation.amount, Amount.toStr,
        readDecimal_toFixed hf, Option.getD_some]
    · refine .inl ⟨?_, by rw [hinc, if_neg h]⟩
      cases hm : c.message with
      | none => exact c.contribution_of_none ord select hm
      | some line =>
        rw [c.contribution_of_some ord select hm, hop]
        by_cases hselect : select (c.decoded ord).id = true
        · -- The check passes only infinity here, and its text is not a number.
          cases hf : delta.isFinite with
          | true => exact absurd ⟨hf, (hsent hf).mp ⟨line, hm⟩, hselect⟩ h
          | false =>
            rw [if_pos ⟨rfl, hselect⟩, Operation.amount, Amount.toStr,
              readDecimal_toFixed_of_not_finite hf, Option.getD_none]
        · exact if_neg fun hh => hselect hh.2
  | _ =>
    refine .inl ⟨?_, by rw [increment, hop]⟩
    cases hm : c.message with
    | none => exact c.contribution_of_none ord select hm
    | some line =>
      rw [c.contribution_of_some ord select hm, hop, if_neg]
      rintro ⟨hk, -⟩
      cases hk

theorem abs_contribution_sub_le : |c.contribution ord select - c.increment ord select| ≤
    if decide (0 < c.increment ord select) then 1 / (2 * 10 ^ 6) else 0 := by
  rcases c.contribution_cases ord select with ⟨hc, hi⟩ | ⟨delta, hpos, hi, hc⟩
  · simp [hc, hi]
  · rw [hc, hi, if_pos (decide_eq_true hpos)]
    exact abs_roundedValue_sub_le delta

theorem contribution_eq_increment (h : ∃ k : ℤ, c.increment ord select = k / 10 ^ 6) :
    c.contribution ord select = c.increment ord select := by
  rcases c.contribution_cases ord select with ⟨hc, hi⟩ | ⟨delta, hpos, hi, hc⟩
  · rw [hc, hi]
  · rw [hi] at h
    rw [hc, hi, roundedValue_eq_value h]

theorem contribution_nonneg : 0 ≤ c.contribution ord select := by
  rcases c.contribution_cases ord select with ⟨hc, -⟩ | ⟨delta, hpos, -, hc⟩
  · exact hc.ge
  · rw [hc]
    exact roundedValue_nonneg hpos.le

theorem increment_one (name : Str) :
    (untagged name (.counterIncrement .one)).increment ord (fun _ => true) = 1 := by
  rw [← Binary64.value_one]
  exact if_pos ⟨rfl, by rw [Binary64.value_one]; exact one_pos, rfl⟩

end MeterCall

/-! ## Many calls -/

section Lists

variable (ord : (tags : Tags) → tags.Iteration) (select : MeterId → Bool)

/-- The sum over the messages of calls. -/
theorem sum_counterMessage (cs : List MeterCall) :
    ((cs.filterMap MeterCall.message).map (counterMessage ord select)).sum =
      (cs.map (MeterCall.contribution ord select)).sum := by
  induction cs with
  | nil => rfl
  | cons c cs ih =>
    cases hm : c.message with
    | none =>
      rw [List.filterMap_cons_none hm, ih, List.map_cons, List.sum_cons,
        c.contribution_of_none ord select hm, zero_add]
    | some line =>
      have hc : c.contribution ord select = counterMessage ord select line := by
        rw [MeterCall.contribution, hm, Option.elim_some]
      rw [List.filterMap_cons_some hm, List.map_cons, List.map_cons, List.sum_cons, List.sum_cons,
        ih, hc]

/-- The sum over datagrams of whole lines. -/
theorem counterTotal_chunks {chunks : List (List Str)}
    (h : ∀ line ∈ chunks.flatten, newLine ∉ line) :
    counterTotal select ((chunks.map linesText).flatMap (decodeDatagram ord)) =
      (chunks.flatten.map (counterMessage ord select)).sum := by
  rw [counterTotal, decode_chunks ord h, List.map_map]
  rfl

/-- The error of the sum over all threads. -/
theorem abs_sum_contribution_sub_le {ι : Type} [Fintype ι] (meterCalls : ι → List MeterCall) :
    |∑ i, ((meterCalls i).map (MeterCall.contribution ord select)).sum -
        ∑ i, ((meterCalls i).map (MeterCall.increment ord select)).sum| ≤
      (∑ i, (meterCalls i).countP fun c => 0 < c.increment ord select : ℕ) / (2 * 10 ^ 6) := by
  have hthread : ∀ i, |((meterCalls i).map (MeterCall.contribution ord select)).sum -
      ((meterCalls i).map (MeterCall.increment ord select)).sum| ≤
        (meterCalls i).countP (fun c => decide (0 < c.increment ord select)) *
          (1 / (2 * 10 ^ 6)) := fun i =>
    Rounding.abs_sum_sub_le fun c _ => MeterCall.abs_contribution_sub_le ord select c
  rw [← Finset.sum_sub_distrib]
  calc |∑ i, (((meterCalls i).map (MeterCall.contribution ord select)).sum -
        ((meterCalls i).map (MeterCall.increment ord select)).sum)|
      ≤ ∑ i, |((meterCalls i).map (MeterCall.contribution ord select)).sum -
        ((meterCalls i).map (MeterCall.increment ord select)).sum| :=
        Finset.abs_sum_le_sum_abs _ _
    _ ≤ ∑ i, ((meterCalls i).countP (fun c => decide (0 < c.increment ord select)) *
        (1 / (2 * 10 ^ 6)) : ℚ) := Finset.sum_le_sum fun i _ => hthread i
    _ = _ := by rw [← Finset.sum_mul, Nat.cast_sum, mul_one_div]

end Lists

section Threads

variable {ι : Type} [DecidableEq ι] {f : Writer.Faults} {type : WriterType} {param : Str}
  {port : Int} {n : Nat} {w : Writer} {tr : List (Label ι)} {s : State ι}
  {meterCalls : ι → List MeterCall}

theorem newLine_notMem_of_appended
    (hw : Writer.initializeWriter f type param port n {} = .returned w) (hn : 0 < n)
    (h : Lts.Run Step (State.start w fun i => (meterCalls i).filterMap MeterCall.message) tr s)
    {line : Str} (hl : line ∈ appended tr) : newLine ∉ line := by
  obtain ⟨i, hi⟩ := mem_of_appended hw hn h hl
  obtain ⟨c, -, hm⟩ := List.mem_filterMap.mp hi
  exact c.newLine_notMem hm

variable [Fintype ι]

/-- **The counters add up.** While `~Writer` does not move, let no producer and no sender have a
step left, and let every batch have been sent as a datagram. Then the decoded counter lines, those
still in the buffer included, add up to what all threads have counted, for any selection of
counters: within half a millionth for each increment, and exactly if the increments are numbers of
millionths. -/
theorem counter_total (hw : Writer.initializeWriter f type param port n {} = .returned w)
    (hn : 0 < n)
    (h : Lts.Run Step (State.start w fun i => (meterCalls i).filterMap MeterCall.message) tr s)
    (hd : s.writer.shutdown = false) (hend : Lts.Stuck Working s) {s₀ : SocketWriter}
    (hs : ∃ impl, w.impl = some impl ∧ impl.Behind s₀) {cs : List SocketCall}
    (hcs : cs.map SocketCall.event = calls tr)
    (hcreate : ∀ message os, .write message os ∈ cs → os.create.works = true)
    (hok : ∀ message os, .write message os ∈ cs → os.Delivers message)
    (ord : (tags : Tags) → tags.Iteration) (select : MeterId → Bool) :
    let total := counterTotal select
      ((s₀.datagrams cs).flatMap (decodeDatagram ord) ++ decodeDatagram ord s.writer.buffer)
    let counted := ∑ i, ((meterCalls i).map (MeterCall.increment ord select)).sum
    |total - counted| ≤
        (∑ i, (meterCalls i).countP fun c => 0 < c.increment ord select : ℕ) / (2 * 10 ^ 6) ∧
      ((∀ i, ∀ c ∈ meterCalls i, ∃ k : ℤ, c.increment ord select = k / 10 ^ 6) →
        total = counted) := by
  intro total counted
  obtain ⟨chunks, rest, hdatagrams, hbuf, hflat⟩ :=
    exists_chunks_of_rest hw hn h hd hend hs hcs hcreate hok
  have hall : (chunks ++ [rest]).flatten = appended tr := by
    rw [List.flatten_append, List.flatten_singleton, hflat]
  have htotal : total = ∑ i, ((meterCalls i).map (MeterCall.contribution ord select)).sum := by
    calc total
        = counterTotal select (((chunks ++ [rest]).map linesText).flatMap (decodeDatagram ord)) := by
          rw [List.map_append, List.flatMap_append, ← hdatagrams, List.map_singleton,
            List.flatMap_singleton, ← hbuf]
      _ = ((appended tr).map (counterMessage ord select)).sum := by
          rw [counterTotal_chunks, hall]
          rw [hall]
          exact fun line hl => newLine_notMem_of_appended hw hn h hl
      _ = ∑ i, (((meterCalls i).filterMap MeterCall.message).map
            (counterMessage ord select)).sum :=
          Sums.sum_map_eq_of_count (count_appended_of_rest hw hn h hd hend) _
      _ = ∑ i, ((meterCalls i).map (MeterCall.contribution ord select)).sum :=
          Finset.sum_congr rfl fun i _ => sum_counterMessage ord select (meterCalls i)
  refine ⟨?_, fun hk => ?_⟩
  · rw [htotal]
    exact abs_sum_contribution_sub_le ord select meterCalls
  · rw [htotal]
    refine Finset.sum_congr rfl fun i _ => ?_
    rw [List.map_congr_left fun c hc => c.contribution_eq_increment ord select (hk i c hc)]

/-- One increment by 1. -/
theorem counter_total_one : ∃ (s : State Unit) (s₀ : SocketWriter) (cs : List SocketCall)
    (c : MeterCall) (ord : (tags : Tags) → tags.Iteration),
    s₀.datagrams cs = [str "c:x_y:1.000000\n"] ∧ c.increment ord (fun _ => true) = 1 ∧
    counterTotal (fun _ => true)
      ((s₀.datagrams cs).flatMap (decodeDatagram ord) ++ decodeDatagram ord s.writer.buffer) = 1 := by
  let c : MeterCall := .untagged (str "x y") (.counterIncrement .one)
  let ord : (tags : Tags) → tags.Iteration := fun tags => (UMap.Iteration.nonempty tags).some
  have hc : [c].filterMap MeterCall.message = [str "c:x_y:1.000000"] := by decide +kernel
  obtain ⟨tr, s, run, hd, hend, -, hcalls⟩ :=
    run_one_line (.unix (str "/run/x")) (n := 2) (m := str "c:x_y:1.000000") (by decide) (by decide)
  rw [← hc] at run
  have hw : Writer.initializeWriter {} .unix (str "/run/x") 0 2 {} =
    .returned (Writer.buffered (.unix (str "/run/x")) 2) := rfl
  let cs : List SocketCall :=
    [.write (str "c:x_y:1.000000\n") { send := fun _ => .returned false 15 }]
  have hcs : cs.map SocketCall.event = calls tr := by rw [hcalls]; rfl
  have hworks : ∀ message os, SocketCall.write message os ∈ cs →
      os.create.works = true ∧ os.Delivers message := by
    intro message os hm
    obtain ⟨rfl, rfl⟩ := SocketCall.write.inj (List.mem_singleton.mp hm)
    exact ⟨rfl, by decide⟩
  have hinc : c.increment ord (fun _ => true) = 1 := MeterCall.increment_one ord _
  have htotal := (counter_total hw (by decide) run hd hend ⟨_, rfl, .unix (str "/run/x") {}⟩ hcs
    (fun message os hm => (hworks message os hm).1) (fun message os hm => (hworks message os hm).2)
    ord fun _ => true).2
  refine ⟨s, _, cs, c, ord, rfl, hinc, (htotal fun _ c' hc' => ?_).trans ?_⟩
  · rw [List.mem_singleton.mp hc', hinc]
    exact ⟨10 ^ 6, by norm_num⟩
  · simp [hinc]

/-- **No counter reads too high.** In every state of every run, whatever is lost on the way, the
decoded counter lines add up to at most what the threads have counted, and half a millionth for each
increment. -/
theorem counter_never_over (hw : Writer.initializeWriter f type param port n {} = .returned w)
    (hn : 0 < n)
    (h : Lts.Run Step (State.start w fun i => (meterCalls i).filterMap MeterCall.message) tr s)
    {s₀ : SocketWriter} (hs : ∃ impl, w.impl = some impl ∧ impl.Behind s₀) {cs : List SocketCall}
    (hcs : cs.map SocketCall.event = calls tr) (ord : (tags : Tags) → tags.Iteration)
    (select : MeterId → Bool) :
    counterTotal select ((s₀.datagrams cs).flatMap (decodeDatagram ord)) ≤
      ∑ i, ((meterCalls i).map (MeterCall.increment ord select)).sum +
        (∑ i, (meterCalls i).countP fun c => 0 < c.increment ord select : ℕ) / (2 * 10 ^ 6) := by
  obtain ⟨impl, -, hb⟩ := hs
  obtain ⟨peer, he⟩ := hb.established
  obtain ⟨sent, hsent, hsub, -⟩ := exists_sent hw hn h he hcs
  have hcount : ∀ m, sent.flatten.count m ≤
      ∑ i, ((meterCalls i).filterMap MeterCall.message).count m := fun m => by
    obtain ⟨impl', -, rfl⟩ := Writer.eq_buffered hw hn
    exact (hsub.count_le m).trans (Buffered.count_appended_le (.fresh impl' hn) h m)
  have hnonneg : ∀ i, ∀ line ∈ (meterCalls i).filterMap MeterCall.message,
      0 ≤ counterMessage ord select line := by
    intro i line hl
    obtain ⟨c, -, hm⟩ := List.mem_filterMap.mp hl
    have hc := c.contribution_nonneg ord select
    rwa [MeterCall.contribution, hm] at hc
  calc counterTotal select ((s₀.datagrams cs).flatMap (decodeDatagram ord))
      = (sent.flatten.map (counterMessage ord select)).sum := by
        rw [hsent]
        exact counterTotal_chunks ord select fun line hl =>
          newLine_notMem_of_appended hw hn h (hsub.subset hl)
    _ ≤ ∑ i, (((meterCalls i).filterMap MeterCall.message).map
          (counterMessage ord select)).sum := Sums.sum_map_le_of_count hcount hnonneg
    _ = ∑ i, ((meterCalls i).map (MeterCall.contribution ord select)).sum :=
        Finset.sum_congr rfl fun i _ => sum_counterMessage ord select (meterCalls i)
    _ ≤ _ := by
        have herr := (abs_le.mp (abs_sum_contribution_sub_le ord select meterCalls)).2
        rwa [sub_le_iff_le_add'] at herr

/-- One increment by 1, in a datagram that is lost. -/
theorem counter_never_over_lost : ∃ (s₀ : SocketWriter) (cs : List SocketCall) (c : MeterCall)
    (ord : (tags : Tags) → tags.Iteration),
    s₀.datagrams cs = [] ∧ c.increment ord (fun _ => true) = 1 ∧
    counterTotal (fun _ => true) ((s₀.datagrams cs).flatMap (decodeDatagram ord)) ≤
      1 + 1 / (2 * 10 ^ 6) := by
  let c : MeterCall := .untagged (str "x y") (.counterIncrement .one)
  let ord : (tags : Tags) → tags.Iteration := fun tags => (UMap.Iteration.nonempty tags).some
  have hc : [c].filterMap MeterCall.message = [str "c:x_y:1.000000"] := by decide +kernel
  obtain ⟨tr, s, run, -, -, -, hcalls⟩ :=
    run_one_line (.udp (str "127.0.0.1") 1234) (n := 2) (m := str "c:x_y:1.000000") (by decide)
      (by decide)
  rw [← hc] at run
  have hw : Writer.initializeWriter {} .udp (str "127.0.0.1") 1234 2 {} =
    .returned (Writer.buffered (.udp (str "127.0.0.1") 1234) 2) := rfl
  let cs : List SocketCall := [.write (str "c:x_y:1.000000\n") { send := fun _ => .threw }]
  have hcs : cs.map SocketCall.event = calls tr := by rw [hcalls]; rfl
  have hinc : c.increment ord (fun _ => true) = 1 := MeterCall.increment_one ord _
  have hle := counter_never_over hw (by decide) run ⟨_, rfl, .udp (str "127.0.0.1") 1234 {}⟩ hcs
    ord fun _ => true
  exact ⟨_, cs, c, ord, rfl, hinc, hle.trans_eq (by simp [hinc])⟩

end Threads

end Spectator
