import Spectator.Meter.Operations
import Spectator.Meter.WireKeys
import Spectator.Writer.Datagrams
import Spectator.Writer.Quiescence
import Spectator.Writer.WaitFree

/-!
# From a call of a meter to a decoded line

The whole path: threads call the methods of meters, the buffered mode puts the lines into batches, a
socket writer sends the batches as datagrams, and a receiver cuts a datagram at newlines and decodes
each line with `ParseProtocolLine`.

* `MeterCall`: a call of a method, with the id of its meter. `MeterCall.decoded`: what the decoder
  gives for its line.
* `decodeDatagram`: the receiver. `decodeDatagram_linesText`: on the text of some lines.
* `received_calls`: what is received is what was called, for some of the calls, in order.
  `received_all`: where no batch is lost, for all of them, but for what is still in the buffer.
* `NonBuffered.received_in_order`: the same without a buffer, where each line is a datagram.
-/

open scoped BigOperators

namespace Spectator

/-- A call of a method on a meter whose id has the given name and well-formed tags. -/
structure MeterCall where
  name : Str
  tags : Tags
  order : tags.Iteration
  wellFormed : tags.WellFormed
  operation : Operation

namespace MeterCall

/-- The id of the meter. -/
def id (c : MeterCall) : MeterId := .new c.name c.order

/-- The message for `Writer::Write`. -/
def message (c : MeterCall) : Option Str := c.operation.run c.id

/-- What the decoder gives for the line of the call: the first character of the type symbol, the
sanitised name and tags, and the text of the amount with the newline. -/
def decoded (ord : (tags : Tags) → tags.Iteration) (c : MeterCall) : ProtocolLine where
  symbol := (c.operation.kind.meter c.id).meterTypeSymbol.headD 0
  id := .new (replaceInvalidChars c.name) (ord (UMap.assign ∅ (c.order.toList.map sanitize)))
  value := c.operation.amount.toStr ++ [newLine]

variable {c : MeterCall} {line : Str}

theorem line_eq (h : c.message = some line) :
    line = (c.operation.kind.meter (.new c.name c.order)).constructLine
      c.operation.amount.toStr := by
  rw [message, Operation.run_eq, Meter.emit_eq_some] at h
  exact h.2

theorem newLine_notMem (h : c.message = some line) : newLine ∉ line := by
  rw [line_eq h]
  exact newLine_notMem_constructLine _ _ _ c.operation.amount.valueText.newline

/-- The decoder on the line of a call. -/
theorem parse (ord : (tags : Tags) → tags.Iteration) (h : c.message = some line) :
    parseProtocolLine ord (line ++ [newLine]) = some (c.decoded ord) := by
  obtain ⟨ch₀, rest, hsym, hc, -⟩ := c.operation.kind.symbol_cons (.new c.name c.order)
  rw [line_eq h, parse_line ord c.wellFormed hc hsym c.operation.amount.valueText.colon, decoded,
    id, hsym]
  rfl

/-- The tags of the decoded line are the sanitised tags. -/
theorem decoded_tags (ord : (tags : Tags) → tags.Iteration) (c : MeterCall) :
    (c.decoded ord).id.tags = UMap.assign ∅ (c.order.toList.map sanitize) :=
  MeterId.new_tags_eq (wellFormed_sanitize c.wellFormed) _

/-- The decoder makes up no tag. -/
theorem mem_of_decoded_lookup {ord : (tags : Tags) → tags.Iteration} {c : MeterCall} {k v : Str}
    (h : (c.decoded ord).id.tags.lookup k = some v) : ∃ k₀ v₀, c.tags.lookup k₀ = some v₀ ∧
      k = replaceInvalidChars k₀ ∧ v = replaceInvalidChars v₀ := by
  rw [decoded_tags] at h
  rcases UMap.mem_of_lookup_assign h with hmem | hempty
  · obtain ⟨⟨k₀, v₀⟩, he, heq⟩ := List.mem_map.mp hmem
    cases heq
    exact ⟨k₀, v₀, (c.order.mem_iff k₀ v₀).mp he, rfl, rfl⟩
  · simp at hempty

/-- The decoder loses no tag, if the keys stay distinct. -/
theorem decoded_lookup {ord : (tags : Tags) → tags.Iteration} {c : MeterCall}
    (hd : c.tags.StayDistinct) {k v : Str} (h : c.tags.lookup k = some v) :
    (c.decoded ord).id.tags.lookup (replaceInvalidChars k) = some (replaceInvalidChars v) := by
  rw [decoded_tags, UMap.lookup_assign_empty (nodup_sanitize hd), List.mem_map]
  exact ⟨(k, v), (c.order.mem_iff k v).mpr h, rfl⟩

end MeterCall

/-- A receiver that cuts a datagram at newlines and decodes every line. -/
def decodeDatagram (ord : (tags : Tags) → tags.Iteration) (datagram : Str) :
    List (Option ProtocolLine) :=
  (datagram.splitOn newLine).dropLast.map fun line => parseProtocolLine ord (line ++ [newLine])

theorem decodeDatagram_linesText (ord : (tags : Tags) → tags.Iteration) {lines : List Str}
    (h : ∀ line ∈ lines, newLine ∉ line) : decodeDatagram ord (linesText lines) =
      lines.map fun line => parseProtocolLine ord (line ++ [newLine]) := by
  rw [decodeDatagram, splitOn_linesText h, List.dropLast_concat]

/-- A list of images is the image of a list. -/
theorem exists_map_eq {α β : Type} {f : α → β} {P : α → Prop} {bs : List β}
    (h : ∀ b ∈ bs, ∃ a, P a ∧ f a = b) : ∃ as : List α, (∀ a ∈ as, P a) ∧ as.map f = bs := by
  induction bs with
  | nil => exact ⟨[], nofun, rfl⟩
  | cons b bs ih =>
    obtain ⟨a, ha, hf⟩ := h b List.mem_cons_self
    obtain ⟨as, has, hfs⟩ := ih fun b' hb' => h b' (List.mem_cons_of_mem _ hb')
    refine ⟨a :: as, List.forall_mem_cons.mpr ⟨ha, has⟩, ?_⟩
    rw [List.map_cons, hf, hfs]

/-- The decoder on the messages of calls. -/
theorem map_parse (ord : (tags : Tags) → tags.Iteration) {cs : List MeterCall} {ms : List Str}
    (h : cs.map MeterCall.message = ms.map some) :
    (ms.map fun line => parseProtocolLine ord (line ++ [newLine])) =
      cs.map fun c => some (c.decoded ord) := by
  induction ms generalizing cs with
  | nil =>
    rw [List.map_nil, List.map_eq_nil_iff] at h
    rw [h]
    rfl
  | cons m ms ih =>
    obtain ⟨c, cs, rfl, hm, hms⟩ := List.map_eq_cons_iff.mp h
    rw [List.map_cons, List.map_cons, ih hms, MeterCall.parse ord hm]

/-- The decoder on datagrams of whole lines. -/
theorem decode_chunks (ord : (tags : Tags) → tags.Iteration) {chunks : List (List Str)}
    (h : ∀ line ∈ chunks.flatten, newLine ∉ line) :
    (chunks.map linesText).flatMap (decodeDatagram ord) =
      chunks.flatten.map fun line => parseProtocolLine ord (line ++ [newLine]) := by
  rw [List.flatMap_map, List.map_flatten, List.flatMap_def]
  congr 1
  exact List.map_congr_left fun chunk hc =>
    decodeDatagram_linesText ord fun line hl => h line (List.mem_flatten_of_mem hc hl)

/-- The decoder on the datagrams that the messages of calls are sent in. -/
theorem decode_calls (ord : (tags : Tags) → tags.Iteration) {cs : List MeterCall}
    {chunks : List (List Str)} (h : cs.map MeterCall.message = chunks.flatten.map some) :
    (chunks.map linesText).flatMap (decodeDatagram ord) = cs.map fun c => some (c.decoded ord) := by
  have hline : ∀ line ∈ chunks.flatten, newLine ∉ line := by
    intro line hl
    have hmem : some line ∈ chunks.flatten.map some := List.mem_map_of_mem hl
    rw [← h] at hmem
    obtain ⟨c, -, hmsg⟩ := List.mem_map.mp hmem
    exact c.newLine_notMem hmsg
  rw [decode_chunks ord hline, map_parse ord h]

/-- The decoder on datagrams of one line each. -/
theorem decode_messages (ord : (tags : Tags) → tags.Iteration) (cs : List MeterCall) :
    ((cs.filterMap MeterCall.message).map Writer.nonBufferedText).map (decodeDatagram ord) =
      (cs.filter fun c => c.message.isSome).map fun c => [some (c.decoded ord)] := by
  induction cs with
  | nil => rfl
  | cons c cs ih =>
    cases hm : c.message with
    | none => simpa [hm] using ih
    | some line =>
      have hline : decodeDatagram ord (Writer.nonBufferedText line) = [some (c.decoded ord)] := by
        have h1 : linesText [line] = Writer.nonBufferedText line := by simp [linesText]
        rw [← h1, decodeDatagram_linesText ord (by simpa using c.newLine_notMem hm),
          List.map_singleton, MeterCall.parse ord hm]
      rw [List.filterMap_cons_some hm, List.filter_cons_of_pos (by rw [hm]; rfl)]
      simp only [List.map_cons, hline, ih]

section Threads

variable {ι : Type} [DecidableEq ι] {f : Writer.Faults} {type : WriterType} {param : Str}
  {port : Int} {n : Nat} {w : Writer} {tr : List (Label ι)} {s : State ι}
  {meterCalls : ι → List MeterCall}

/-- The messages that the threads have appended are the messages of their calls. -/
theorem exists_calls (hw : Writer.initializeWriter f type param port n {} = .returned w)
    (hn : 0 < n)
    (h : Lts.Run Step (State.start w fun i => (meterCalls i).filterMap MeterCall.message) tr s)
    {ms : List Str} (hms : ms ⊆ appended tr) : ∃ cs : List MeterCall,
      (∀ c ∈ cs, ∃ i, c ∈ meterCalls i) ∧ cs.map MeterCall.message = ms.map some := by
  refine exists_map_eq (List.forall_mem_map.mpr fun m hm => ?_)
  obtain ⟨i, hi⟩ := mem_of_appended hw hn h (hms hm)
  obtain ⟨c, hc, hmsg⟩ := List.mem_filterMap.mp hi
  exact ⟨c, ⟨i, hc⟩, hmsg⟩

/-- What the socket of a writer that is set up sends is decoded to some of the calls. -/
theorem exists_received (hw : Writer.initializeWriter f type param port n {} = .returned w)
    (hn : 0 < n)
    (h : Lts.Run Step (State.start w fun i => (meterCalls i).filterMap MeterCall.message) tr s)
    {peer : Peer} {s₀ : SocketWriter} (he : SocketWriter.Established peer s₀) {cs : List SocketCall}
    (hcs : cs.map SocketCall.event = calls tr) (ord : (tags : Tags) → tags.Iteration) :
    ∃ received : List MeterCall, (∀ c ∈ received, ∃ i, c ∈ meterCalls i) ∧
      (received.map MeterCall.message).Sublist ((appended tr).map some) ∧
      (s₀.datagrams cs).flatMap (decodeDatagram ord) =
        received.map fun c => some (c.decoded ord) := by
  obtain ⟨sent, hsent, hsub, -⟩ := exists_sent hw hn h he hcs
  obtain ⟨received, hrec, hmsgs⟩ := exists_calls hw hn h hsub.subset
  refine ⟨received, hrec, ?_, ?_⟩
  · rw [hmsgs]
    exact hsub.map some
  · rw [hsent]
    exact decode_calls ord hmsgs

/-- **What is received is what was called.** Threads make any calls of meters; the writer is
initialised once, with a buffer and a socket; the threads are interleaved in any way and the system
calls return anything. Then the receiver decodes every line of every datagram, and what it decodes
is the sanitised content of some of the calls, each at most once and in the order in which the
messages were accepted. -/
theorem received_calls (hw : Writer.initializeWriter f type param port n {} = .returned w)
    (hn : 0 < n)
    (h : Lts.Run Step (State.start w fun i => (meterCalls i).filterMap MeterCall.message) tr s)
    {s₀ : SocketWriter} (hs : ∃ impl, w.impl = some impl ∧ impl.Behind s₀) {cs : List SocketCall}
    (hcs : cs.map SocketCall.event = calls tr) (ord : (tags : Tags) → tags.Iteration) :
    ∃ received : List MeterCall, (∀ c ∈ received, ∃ i, c ∈ meterCalls i) ∧
      (received.map MeterCall.message).Sublist ((appended tr).map some) ∧
      (s₀.datagrams cs).flatMap (decodeDatagram ord) =
        received.map fun c => some (c.decoded ord) := by
  obtain ⟨impl, -, hb⟩ := hs
  obtain ⟨peer, he⟩ := hb.established
  exact exists_received hw hn h he hcs ord

/-- The calls with the message `m`. -/
theorem count_message {cs : List MeterCall} {ms : List Str}
    (h : cs.map MeterCall.message = ms.map some) (m : Str) :
    cs.countP (fun c => c.message = some m) = ms.count m := by
  rw [← List.count_map_of_injective ms some (Option.some_injective _), ← h, List.count,
    List.countP_map]
  refine List.countP_congr fun c _ => ?_
  simp

/-- Where the threads have come to rest and no batch was lost, the datagrams and the buffer hold the
lines of all messages. -/
theorem exists_chunks_of_rest
    (hw : Writer.initializeWriter f type param port n {} = .returned w) (hn : 0 < n)
    (h : Lts.Run Step (State.start w fun i => (meterCalls i).filterMap MeterCall.message) tr s)
    (hd : s.writer.shutdown = false) (hend : Lts.Stuck Working s) {s₀ : SocketWriter}
    (hs : ∃ impl, w.impl = some impl ∧ impl.Behind s₀) {cs : List SocketCall}
    (hcs : cs.map SocketCall.event = calls tr)
    (hcreate : ∀ message os, .write message os ∈ cs → os.create.works = true)
    (hok : ∀ message os, .write message os ∈ cs → os.Delivers message) :
    ∃ (chunks : List (List Str)) (rest : List Str), s₀.datagrams cs = chunks.map linesText ∧
      s.writer.buffer = linesText rest ∧ chunks.flatten ++ rest = appended tr := by
  obtain ⟨impl, -, hb⟩ := hs
  obtain ⟨peer, he⟩ := hb.established
  have hsettled := Settled.of_stuck hw hn h hd (not_canStep_of_working hend)
  obtain ⟨chunks, rest, hg, hsent, hbuf, -⟩ := (Delivery.of_initialize hw hn h).chunks
  have hflight : s.sender.inFlight = [] := by rw [hsettled.sender]; rfl
  rw [hflight, List.append_nil] at hsent
  refine ⟨chunks, rest, ?_, hbuf, hg.flatten⟩
  rw [SocketWriter.datagrams_eq_filter he hcreate, filterMap_delivered hok, hcs, text_calls, hsent]

/-- Where the threads have come to rest, each message was accepted as often as it is the message of
a call. -/
theorem count_appended_of_rest [Fintype ι]
    (hw : Writer.initializeWriter f type param port n {} = .returned w) (hn : 0 < n)
    (h : Lts.Run Step (State.start w fun i => (meterCalls i).filterMap MeterCall.message) tr s)
    (hd : s.writer.shutdown = false) (hend : Lts.Stuck Working s) (m : Str) :
    (appended tr).count m = ∑ i, ((meterCalls i).filterMap MeterCall.message).count m := by
  have hsettled := Settled.of_stuck hw hn h hd (not_canStep_of_working hend)
  obtain ⟨impl, -, rfl⟩ := Writer.eq_buffered hw hn
  exact hsettled.count_appended (.fresh impl hn) h m

/-- **Nothing is lost but by the network.** While `~Writer` does not move, let no producer and no
sender have a step left, and let every batch have been sent as a datagram. Then what is received and
what is still in the buffer, which is less than its size, decode to all calls that send a line, each
exactly once. -/
theorem received_all [Fintype ι]
    (hw : Writer.initializeWriter f type param port n {} = .returned w) (hn : 0 < n)
    (h : Lts.Run Step (State.start w fun i => (meterCalls i).filterMap MeterCall.message) tr s)
    (hd : s.writer.shutdown = false) (hend : Lts.Stuck Working s) {s₀ : SocketWriter}
    (hs : ∃ impl, w.impl = some impl ∧ impl.Behind s₀) {cs : List SocketCall}
    (hcs : cs.map SocketCall.event = calls tr)
    (hcreate : ∀ message os, .write message os ∈ cs → os.create.works = true)
    (hok : ∀ message os, .write message os ∈ cs → os.Delivers message)
    (ord : (tags : Tags) → tags.Iteration) :
    ∃ received kept : List MeterCall, (∀ c ∈ received ++ kept, ∃ i, c ∈ meterCalls i) ∧
      (s₀.datagrams cs).flatMap (decodeDatagram ord) =
        received.map (fun c => some (c.decoded ord)) ∧
      decodeDatagram ord s.writer.buffer = kept.map (fun c => some (c.decoded ord)) ∧
      s.writer.buffer.length < n ∧
      ∀ m, (received ++ kept).countP (fun c => c.message = some m) =
        ∑ i, (meterCalls i).countP fun c => c.message = some m := by
  have hsettled := Settled.of_stuck hw hn h hd (not_canStep_of_working hend)
  obtain ⟨chunks, rest, hdatagrams, hbuf, hflat⟩ :=
    exists_chunks_of_rest hw hn h hd hend hs hcs hcreate hok
  have hleft : chunks.flatten ⊆ appended tr := hflat ▸ List.subset_append_left _ _
  have hright : rest ⊆ appended tr := hflat ▸ List.subset_append_right _ _
  obtain ⟨received, hrec, hmsgs⟩ := exists_calls hw hn h hleft
  obtain ⟨kept, hkept, hmsgs'⟩ := exists_calls hw hn h hright
  refine ⟨received, kept, ?_, ?_, ?_, hsettled.room, fun m => ?_⟩
  · exact List.forall_mem_append.mpr ⟨hrec, hkept⟩
  · rw [hdatagrams]
    exact decode_calls ord hmsgs
  · rw [hbuf]
    have hone : ([rest].map linesText).flatMap (decodeDatagram ord) = _ :=
      decode_calls ord (by simpa using hmsgs')
    simpa using hone
  · have hall : (received ++ kept).map MeterCall.message = (appended tr).map some := by
      rw [List.map_append, hmsgs, hmsgs', ← List.map_append, hflat]
    rw [count_message hall, count_appended_of_rest hw hn h hd hend]
    refine Finset.sum_congr rfl fun i _ => ?_
    rw [List.count_filterMap]
    exact List.countP_congr fun c _ => by simp

end Threads

/-- A call on a meter without tags. -/
def MeterCall.untagged (name : Str) (operation : Operation) : MeterCall where
  name := name
  tags := UMap.assignIf validTag ∅ []
  order := .ofAssignIf validTag [] (by decide)
  wellFormed := validateTags_wellFormed []
  operation := operation

/-- `Now` on an age gauge without tags. -/
def MeterCall.ageGaugeNow (name : Str) : MeterCall := .untagged name .ageGaugeNow

/-- One message that fills the buffer: it is sent, and the threads come to rest. -/
theorem run_one_line (impl : Impl) {n : Nat} {m : Str} (hn : 0 < n)
    (hm : n ≤ (m ++ [newLine]).length) : ∃ (tr : List (Label Unit)) (s : State Unit),
      Lts.Run Step (State.start (Writer.buffered impl n) fun _ => [m]) tr s ∧
      s.writer.shutdown = false ∧ Lts.Stuck Working s ∧ s.writer.buffer = [] ∧
      calls tr = [.write (m ++ [newLine])] := by
  have start : Lts.Run Step (State.start (Writer.buffered impl n) fun _ : Unit => [m]) [] _ := .nil
  have hroom : Writer.receiverReady (Writer.buffered impl n) = true :=
    Writer.receiverReady_iff.mpr (.inl hn)
  have full := run_append start (i := ()) rfl (Option.some_ne_none _) rfl rfl hroom rfl
    |>.snoc (.senderEnter rfl rfl)
  have run := run_send full rfl rfl (Writer.senderReady_iff.mpr (.inl hm)) rfl (fun _ => rfl)
    |>.snoc (.readRoom (i := ()) rfl hn)
    |>.snoc (.producerNotifyReceiver (i := ()) rfl (.nobody fun _ => rfl))
    |>.snoc (.senderEnter rfl rfl)
    |>.snoc (.senderLock rfl rfl)
    |>.snoc (.senderNotReady rfl (Writer.senderReady_eq_false.mpr ⟨hn, rfl⟩))
    |>.snoc (.senderBlock rfl)
  exact ⟨_, _, run, rfl, stuck_of_idle (fun _ => rfl) rfl, rfl, rfl⟩

/-- One age gauge, sent in one datagram. -/
theorem received_calls_age_gauge : ∃ (tr : List (Label Unit)) (s₀ : SocketWriter)
    (cs : List SocketCall) (c : MeterCall) (ord : (tags : Tags) → tags.Iteration),
    s₀.datagrams cs = [str "A:x_y:0\n"] ∧
    ∃ received : List MeterCall, (∀ c' ∈ received, ∃ _i : Unit, c' ∈ [c]) ∧
      (received.map MeterCall.message).Sublist ((appended tr).map some) ∧
      (s₀.datagrams cs).flatMap (decodeDatagram ord) =
        received.map fun c => some (c.decoded ord) := by
  let c : MeterCall := .ageGaugeNow (str "x y")
  have hc : [c].filterMap MeterCall.message = [str "A:x_y:0"] := by decide
  obtain ⟨tr, s, run, -, -, -, hcalls⟩ :=
    run_one_line (.unix (str "/run/x")) (n := 2) (m := str "A:x_y:0") (by decide) (by decide)
  rw [← hc] at run
  have hw : Writer.initializeWriter {} .unix (str "/run/x") 0 2 {} =
    .returned (Writer.buffered (.unix (str "/run/x")) 2) := rfl
  let cs : List SocketCall :=
    [.write (str "A:x_y:0\n") { send := fun _ => .returned false 8 }]
  have hcs : cs.map SocketCall.event = calls tr := by rw [hcalls]; rfl
  exact ⟨_, UDSWriter.new (str "/run/x") {}, cs, c,
    fun tags => (UMap.Iteration.nonempty tags).some, rfl,
    received_calls hw (by decide) run ⟨_, rfl, .unix _ _⟩ hcs _⟩

/-- One age gauge again: it is received, and the threads come to rest. -/
theorem received_all_age_gauge : ∃ (s : State Unit) (s₀ : SocketWriter) (cs : List SocketCall)
    (c : MeterCall) (ord : (tags : Tags) → tags.Iteration),
    s₀.datagrams cs = [str "A:x_y:0\n"] ∧
    ∃ received kept : List MeterCall, (∀ c' ∈ received ++ kept, ∃ _i : Unit, c' ∈ [c]) ∧
      (s₀.datagrams cs).flatMap (decodeDatagram ord) =
        received.map (fun c => some (c.decoded ord)) ∧
      decodeDatagram ord s.writer.buffer = kept.map (fun c => some (c.decoded ord)) ∧
      s.writer.buffer.length < 2 ∧
      ∀ m, (received ++ kept).countP (fun c => c.message = some m) =
        ∑ _i : Unit, [c].countP fun c => c.message = some m := by
  let c : MeterCall := .ageGaugeNow (str "x y")
  have hc : [c].filterMap MeterCall.message = [str "A:x_y:0"] := by decide
  obtain ⟨tr, s, run, hd, hend, -, hcalls⟩ :=
    run_one_line (.unix (str "/run/x")) (n := 2) (m := str "A:x_y:0") (by decide) (by decide)
  rw [← hc] at run
  have hw : Writer.initializeWriter {} .unix (str "/run/x") 0 2 {} =
    .returned (Writer.buffered (.unix (str "/run/x")) 2) := rfl
  let cs : List SocketCall :=
    [.write (str "A:x_y:0\n") { send := fun _ => .returned false 8 }]
  have hcs : cs.map SocketCall.event = calls tr := by rw [hcalls]; rfl
  have hworks : ∀ message os, SocketCall.write message os ∈ cs →
      os.create.works = true ∧ os.Delivers message := by
    intro message os hm
    obtain ⟨rfl, rfl⟩ := SocketCall.write.inj (List.mem_singleton.mp hm)
    exact ⟨rfl, by decide⟩
  have hall := received_all hw (by decide) run hd hend ⟨_, rfl, .unix (str "/run/x") {}⟩ hcs
    (fun message os hm => (hworks message os hm).1) (fun message os hm => (hworks message os hm).2)
    fun tags => (UMap.Iteration.nonempty tags).some
  exact ⟨_, _, cs, c, _, rfl, hall⟩

/-! ## Without a buffer -/

namespace NonBuffered

/-- **Without a buffer, each call is received by itself.** Threads make any calls of meters on one
socket writer, without a buffer; they are interleaved in any way and the system calls return
anything. Then every datagram of a thread is decoded to one line, and what it says is the sanitised
content of one of the thread's calls; no call is received twice, and the order is that of the
calls. -/
theorem received_in_order {ι : Type} [DecidableEq ι] {w : SocketWriter}
    {meterCalls : ι → List MeterCall} {tr : List (Label ι)} {s : State ι}
    (h : Lts.Run Step (State.start w fun i => (meterCalls i).filterMap MeterCall.message) tr s)
    (i : ι) (ord : (tags : Tags) → tags.Iteration) :
    ∃ received : List MeterCall, received.Sublist (meterCalls i) ∧
      (transmitted i tr).map (decodeDatagram ord) =
        received.map fun c => [some (c.decoded ord)] := by
  obtain ⟨ms, hsub, hms⟩ := List.sublist_map_iff.mp (Ordered.of_run h i).transmitted_sublist
  obtain ⟨cs, hcs, rfl⟩ := List.sublist_filterMap_iff.mp hsub
  refine ⟨cs.filter fun c => c.message.isSome, List.filter_sublist.trans hcs, ?_⟩
  rw [hms]
  exact decode_messages ord cs

/-- The first of two age gauges is lost, the second one is received. -/
theorem received_in_order_lost : ∃ (tr : List (Label Unit)) (a b : MeterCall)
    (ord : (tags : Tags) → tags.Iteration), transmitted () tr = [str "A:b:0\n"] ∧
    ∃ received : List MeterCall, received.Sublist [a, b] ∧
      (transmitted () tr).map (decodeDatagram ord) =
        received.map fun c => [some (c.decoded ord)] := by
  let calls : List MeterCall := [.ageGaugeNow (str "a"), .ageGaugeNow (str "b")]
  have hp : (State.start (UDPWriter.new (str "127.0.0.1") 1234 {})
      fun _ : Unit => calls.filterMap MeterCall.message).threads () =
        ⟨[str "A:a:0", str "A:b:0"], .idle⟩ := by
    have ha : (MeterCall.ageGaugeNow (str "a")).message = some (str "A:a:0") := by decide
    have hb : (MeterCall.ageGaugeNow (str "b")).message = some (str "A:b:0") := by decide
    simp [State.start, calls, ha, hb]
  have start : Lts.Run Step (State.start (UDPWriter.new (str "127.0.0.1") 1234 {})
    fun _ : Unit => calls.filterMap MeterCall.message) [] _ := .nil
  have run := start
    |>.snoc (.call (i := ()) hp)
    |>.snoc (.established (i := ()) rfl rfl)
    |>.snoc (.threw (i := ()) rfl (by decide) (Option.some_ne_none _))
    |>.snoc (.close (i := ()) .closed rfl)
    |>.snoc (.done (i := ()) rfl)
    |>.snoc (.call (i := ()) rfl)
    |>.snoc (.notEstablished (i := ()) rfl rfl)
    |>.snoc (.created (i := ()) {} rfl rfl)
    |>.snoc (.sent (i := ()) (.returned false 6) rfl (by decide) (Option.some_ne_none _) rfl)
  exact ⟨_, _, _, fun tags => (UMap.Iteration.nonempty tags).some, rfl, received_in_order run () _⟩

end NonBuffered

end Spectator
