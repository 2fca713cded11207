import Spectator.Writer.Refinement
import Spectator.Writer.Shutdown

/-!
# The calls of the writer object

What the object behind `m_impl` sees of a run of the buffered mode.

* `calls`: the calls of `Write` and `Close` on it. `buffered_calls`: up to the end of the body of
  `~Writer` they are the batches, and after them at most one `Close`; the object is what these calls
  make of it.
* `Late`: the steps after the store to `shutdown`. `shutdown_last_calls`: one more message and one
  more batch at most.
* `buffered_bounds`: how long a batch and the buffer can get.
-/

namespace Spectator

/-- A call of `m_impl`, as far as the object itself changes. -/
def Impl.call (impl : Impl) : Event → Impl
  | .write text => impl.write text
  | .close => impl.close
  | _ => impl

variable {ι : Type}

/-- The call of `m_impl` that the step made. -/
def Label.call? : Label ι → Option Event
  | .event _ (.write text) => some (.write text)
  | .event _ .close => some .close
  | _ => none

/-- The calls of `m_impl`, in order. -/
def calls (tr : List (Label ι)) : List Event := tr.filterMap Label.call?

theorem calls_snoc (tr : List (Label ι)) (l : Label ι) :
    calls (tr ++ [l]) = calls tr ++ l.call?.toList := by
  cases h : l.call? <;> simp [calls, h]

/-- What the object has been called with: the batches, and at the end of the body of `~Writer` a
`Close`. -/
structure Called (impl : Impl) (tr : List (Label ι)) (s : State ι) : Prop where
  impl : s.writer.impl = some ((calls tr).foldl Impl.call impl)
  before : s.destructor ≠ .done → calls tr = (written tr).map .write
  after : s.destructor = .done → calls tr = (written tr).map .write ++ [.close]

variable {s s' : State ι} {l : Label ι} {tr : List (Label ι)} {impl : Impl}

/-- A step that calls nothing. -/
theorem Called.silent (h : Called impl tr s) (hc : l.call? = none) (hw : l.written? = none)
    (hi : s'.writer.impl = s.writer.impl) (hd : s'.destructor = .done ↔ s.destructor = .done) :
    Called impl (tr ++ [l]) s' := by
  have ec : calls (tr ++ [l]) = calls tr := by rw [calls_snoc, hc]; simp
  have ew : written (tr ++ [l]) = written tr := by rw [written_snoc, hw]; simp
  refine ⟨?_, fun hne => ?_, fun heq => ?_⟩
  · rw [ec, hi]
    exact h.impl
  · rw [ec, ew]
    exact h.before fun he => hne (hd.mpr he)
  · rw [ec, ew]
    exact h.after (hd.mp heq)

variable [DecidableEq ι]

/-- The sender calls `Write` before the end of the body of `~Writer`, and the destructor calls
`Close` at it. -/
theorem Step.called (hst : Step s l s') (hb : Buffered s.writer) (hj : Joining s)
    (h : Called impl tr s) : Called impl (tr ++ [l]) s' := by
  cases hst with
  | nonBufferedWrite _ _ hw => exact absurd hw hb.not_nonBuffered
  | @senderSend message hs =>
    have hne : s.destructor ≠ .done := by
      intro hd
      have he := hj.ended (by rw [hd]; rfl)
      rw [hs] at he
      cases he
    refine ⟨?_, fun _ => ?_, fun hd => absurd hd hne⟩
    · rw [calls_snoc, List.foldl_append, Writer.tryToSend, h.impl]
      rfl
    · rw [calls_snoc, written_snoc, List.map_append, h.before hne]
      rfl
  | destructorClose hd hi =>
    refine ⟨?_, fun hne => absurd rfl hne, fun _ => ?_⟩
    · rw [calls_snoc, List.foldl_append, Writer.close, h.impl]
      rfl
    · have hne : s.destructor ≠ .done := by simp only [hd, ne_eq, reduceCtorEq, not_false_eq_true]
      rw [calls_snoc, written_snoc, h.before hne]
      simp [Label.written?, Label.call?]
  | destructorUninitialized _ hi => exact absurd hi hb.impl
  | destructorShutdown hd | destructorUnbuffered hd | destructorNotifyReceiver hd
  | destructorNotifySender hd | destructorJoin hd =>
    refine h.silent rfl rfl rfl ?_
    simp only [hd, reduceCtorEq]
  | _ => exact h.silent rfl rfl rfl Iff.rfl

/-! ## After `shutdown` -/

/-- The sender has still to hand over a batch, whatever `shutdown` is. -/
def SenderPc.sends : SenderPc → Bool
  | .take | .notify _ | .send _ => true
  | _ => false

theorem WritePc.passed_of_not_holds {pc : WritePc} (h : pc.holds = false) : pc.passed = false := by
  cases pc with
  | append => cases h
  | _ => rfl

/-- Once `shutdown` is set, no producer passes its check. -/
theorem Step.passed_eq_false (hst : Step s l s') (hd : s.writer.shutdown = true)
    (h : ∀ i, (s.producers i).pc.passed = false) (i : ι) : (s'.producers i).pc.passed = false := by
  refine hst.producer_outside (P := WritePc.passed) (fun pc hpc => ?_) (fun _ _ => rfl) hd h i
  cases pc <;> first | exact hpc | rfl

/-- Once `shutdown` is set, the sender takes no further batch. -/
theorem Step.sends_eq_false (hst : Step s l s') (hd : s.writer.shutdown = true)
    (h : s.sender.sends = false) : s'.sender.sends = false := by
  refine hst.sender_outside (P := SenderPc.sends) (fun pc hpc => ?_) (fun _ => rfl) (fun _ => id)
    (fun _ => id) hd h
  cases pc <;> first | exact hpc | rfl

/-- What the steps after the store to `shutdown` have appended and sent. -/
structure Late (tr : List (Label ι)) (s : State ι) : Prop where
  lock : LockInv s
  buffered : Buffered s.writer
  shutdown : s.writer.shutdown = true
  append : appended tr = [] ∨
    (appended tr).length = 1 ∧ ∀ i, (s.producers i).pc.passed = false
  send : written tr = [] ∨ (written tr).length = 1 ∧ s.sender.sends = false

theorem Step.late (hst : Step s l s') (h : Late tr s) : Late (tr ++ [l]) s' := by
  have hl := hst.lockInv h.lock
  refine ⟨hl, h.buffered.same hst.sameSetup, hst.shutdown_mono h.shutdown, ?_, ?_⟩
  · rw [appended_snoc]
    have later : l.appended? = none → appended tr ++ l.appended?.toList = [] ∨
        (appended tr ++ l.appended?.toList).length = 1 ∧
          ∀ i, (s'.producers i).pc.passed = false := by
      intro hn
      rw [hn, Option.toList_none, List.append_nil]
      exact h.append.imp_right fun ⟨h1, hp⟩ => ⟨h1, hst.passed_eq_false h.shutdown hp⟩
    cases hst with
    | @producerAppend i m todo hi =>
      -- The appending producer held the mutex, so no other one is past its check.
      rcases h.append with he | ⟨-, hp⟩
      · exact .inr ⟨by rw [he]; rfl, fun j =>
          WritePc.passed_of_not_holds (hl.producer_free (i := j) nofun)⟩
      · have hpi := hp i
        rw [hi] at hpi
        cases hpi
    | _ => exact later rfl
  · rw [written_snoc]
    have later : l.written? = none → written tr ++ l.written?.toList = [] ∨
        (written tr ++ l.written?.toList).length = 1 ∧ s'.sender.sends = false := by
      intro hn
      rw [hn, Option.toList_none, List.append_nil]
      exact h.send.imp_right fun ⟨h1, hp⟩ => ⟨h1, hst.sends_eq_false h.shutdown hp⟩
    cases hst with
    | nonBufferedWrite _ _ hw => exact absurd hw h.buffered.not_nonBuffered
    | senderSend hs =>
      rcases h.send with he | ⟨-, hp⟩
      · exact .inr ⟨by rw [he]; rfl, rfl⟩
      · rw [hs] at hp
        cases hp
    | _ => exact later rfl

section Runs

variable {f : Writer.Faults} {type : WriterType} {param : Str} {port : Int} {n : Nat} {w : Writer}
  {todo : ι → List Str}

/-- **What the writer object sees.** In every state of every run of the buffered mode, the object
has been called with the batches, one `Write` each; at the end of the body of `~Writer`, with one
`Close` after them, and with nothing after this `Close`. It is the object that these calls leave.
The release of `m_impl` comes later: the destructor of a socket writer calls its `Close` again. -/
theorem buffered_calls (hw : Writer.initializeWriter f type param port n {} = .returned w)
    (hn : 0 < n) (h : Lts.Run Step (State.start w todo) tr s) :
    (s.destructor ≠ .done → calls tr = (written tr).map .write) ∧
      (s.destructor = .done → calls tr = (written tr).map .write ++ [.close]) ∧
      s.writer.impl = w.impl.map fun impl => (calls tr).foldl Impl.call impl := by
  obtain ⟨impl, -, rfl⟩ := Writer.eq_buffered hw hn
  have hi : Buffered s.writer ∧ Joining s ∧ Called impl tr s := by
    refine h.induct (I := fun tr s => Buffered s.writer ∧ Joining s ∧ Called impl tr s) ?_ ?_
    · exact ⟨.fresh impl hn, Joining.of_run hn .nil, rfl, fun _ => rfl, nofun⟩
    · rintro tr s₁ l s₂ ⟨hb, hj, hc⟩ hst
      exact ⟨hb.same hst.sameSetup, hst.joining hb hj, hst.called hb hj hc⟩
  exact ⟨hi.2.2.before, hi.2.2.after, hi.2.2.impl⟩

/-- One batch, then the end of the body of `~Writer`: the memory is empty again. -/
theorem buffered_calls_closed : ∃ (tr : List (Label Unit)) (s : State Unit),
    calls tr = [.write (str "ab\n"), .close] ∧ s.writer.impl = some (.memory []) ∧
    ((s.destructor ≠ .done → calls tr = (written tr).map .write) ∧
      (s.destructor = .done → calls tr = (written tr).map .write ++ [.close]) ∧
      s.writer.impl = some ((calls tr).foldl Impl.call (.memory []))) := by
  have start : Lts.Run Step (State.start (Writer.buffered (.memory []) 2)
    fun _ : Unit => [str "ab"]) [] _ := .nil
  have full := run_append start (i := ()) rfl nofun rfl rfl rfl rfl
    |>.snoc (.senderEnter rfl rfl)
  have run := run_send full rfl rfl rfl rfl (fun _ => rfl)
    |>.snoc (.destructorShutdown rfl rfl)
    |>.snoc (.destructorNotifyReceiver rfl)
    |>.snoc (.destructorNotifySender rfl)
    |>.snoc (.senderLeave rfl rfl)
    |>.snoc (.destructorJoin rfl fun _ => rfl)
    |>.snoc (.destructorClose rfl nofun)
  have hw := Writer.initializeWriter_memory (n := 2) (by decide)
  exact ⟨_, _, rfl, rfl, buffered_calls hw (by decide) run⟩

/-- **The last calls.** After the store of `~Writer` to `shutdown`, at most one more message is
appended and at most one more batch is handed to `m_impl->Write`, whatever the producers still have
to write. -/
theorem shutdown_last_calls
    (hw : Writer.initializeWriter f type param port n {} = .returned w) (hn : 0 < n)
    (h : Lts.Run Step (State.start w todo) tr s) (hd : s.writer.shutdown = true)
    {tr' : List (Label ι)} (h' : Lts.Run Step s tr' s') :
    (appended tr').length ≤ 1 ∧ (written tr').length ≤ 1 := by
  have hdel := Delivery.of_initialize hw hn h
  have hlate : Late tr' s' :=
    h'.induct (I := Late) ⟨hdel.lock, hdel.buffered, hd, .inl rfl, .inl rfl⟩
      fun _ _ _ _ h₁ hst => hst.late h₁
  refine ⟨?_, ?_⟩
  · rcases hlate.append with he | ⟨h1, -⟩
    · simp [he]
    · omega
  · rcases hlate.send with he | ⟨h1, -⟩
    · simp [he]
    · omega

/-- `shutdown` comes between the check and the append. -/
theorem shutdown_last_calls_append : ∃ tr' : List (Label Unit), appended tr' = [str "x"] ∧
    (appended tr').length ≤ 1 ∧ (written tr').length ≤ 1 := by
  have start : Lts.Run Step (State.start (Writer.buffered (.memory []) 16)
    fun _ : Unit => [str "x", str "y"]) [] _ := .nil
  have run := start
    |>.snoc (.bufferedWrite (i := ()) rfl nofun rfl)
    |>.snoc (.producerLock (i := ()) rfl rfl)
    |>.snoc (.producerReady (i := ()) rfl rfl)
    |>.snoc (.producerPass (i := ()) rfl rfl)
    |>.snoc (.destructorShutdown rfl rfl)
  have hw := Writer.initializeWriter_memory (n := 16) (by decide)
  exact ⟨[.event (.producer ()) (.append (str "x"))], rfl,
    shutdown_last_calls hw (by decide) run rfl (Lts.Run.nil.snoc (.producerAppend rfl))⟩

/-- Every message appended is one that a producer had to write. -/
theorem mem_of_appended (hw : Writer.initializeWriter f type param port n {} = .returned w)
    (hn : 0 < n) (h : Lts.Run Step (State.start w todo) tr s) {m : Str} (hm : m ∈ appended tr) :
    ∃ i, m ∈ todo i := by
  obtain ⟨impl, -, rfl⟩ := Writer.eq_buffered hw hn
  have horder := fun i => (Buffered.program_order (.fresh impl hn) h i).1
  have hmem : Writer.nonBufferedText m ∈ (accepted tr).map Prod.snd := by
    rw [accepted_eq_appended (.fresh impl hn) h]
    exact List.mem_map_of_mem hm
  obtain ⟨⟨i, text⟩, ha, he⟩ := List.mem_map.mp hmem
  have hby : text ∈ acceptedBy i tr := List.mem_filterMap.mpr ⟨_, ha, by simp⟩
  obtain ⟨m', hm', he'⟩ := List.mem_map.mp ((horder i).subset hby)
  obtain rfl : m' = m := List.append_cancel_right (he'.trans he)
  exact ⟨i, hm'⟩

/-- Lines that are short, but for the last: the total is below the bound and one more line. -/
theorem length_linesText_lt {L : Nat} {ms : List Str} (hL : ∀ m ∈ ms, lineSize m ≤ L)
    (hd : Chunk.total lineSize ms.dropLast < n) : (linesText ms).length < n + L := by
  rw [length_linesText]
  rcases List.eq_nil_or_concat' ms with rfl | ⟨ms', m, rfl⟩
  · rw [List.dropLast_nil] at hd
    omega
  · rw [List.dropLast_concat] at hd
    have hm := hL m (by simp)
    rw [Chunk.total_append, Chunk.total, Chunk.total_nil]
    omega

/-- **How long a batch gets.** With lines of at most `L` bytes, each batch handed to
`m_impl->Write` has at least the buffer size and less than `L` bytes more, and the buffer never
grows beyond that. -/
theorem buffered_bounds (hw : Writer.initializeWriter f type param port n {} = .returned w)
    (hn : 0 < n) (h : Lts.Run Step (State.start w todo) tr s) {L : Nat}
    (hL : ∀ i, ∀ m ∈ todo i, lineSize m ≤ L) :
    (∀ batch ∈ written tr ++ s.sender.inFlight, n ≤ batch.length ∧ batch.length < n + L) ∧
      s.writer.buffer.length < n + L := by
  obtain ⟨chunks, rest, hg, hsent, hbuf, hlast⟩ := (Delivery.of_initialize hw hn h).chunks
  have hall : ∀ m ∈ appended tr, lineSize m ≤ L := fun m hm => by
    obtain ⟨i, hi⟩ := mem_of_appended hw hn h hm
    exact hL i m hi
  rw [← hg.flatten] at hall
  refine ⟨fun batch hb => ?_, ?_⟩
  · rw [hsent] at hb
    obtain ⟨c, hc, rfl⟩ := List.mem_map.mp hb
    obtain ⟨-, hfull, hdrop⟩ := hg.bounds hn c hc
    refine ⟨by rw [length_linesText]; exact hfull, length_linesText_lt (fun m hm => ?_) hdrop⟩
    exact hall m (List.mem_append_left _ (List.mem_flatten_of_mem hc hm))
  · rw [hbuf]
    exact length_linesText_lt (fun m hm => hall m (List.mem_append_right _ hm)) hlast

/-- A batch of one line of three bytes, in a buffer of two. -/
theorem buffered_bounds_one_line : ∃ (tr : List (Label Unit)) (s : State Unit),
    s.writer.buffer = str "ab\n" ∧
    (∀ batch ∈ written tr ++ s.sender.inFlight, 2 ≤ batch.length ∧ batch.length < 2 + 3) ∧
      s.writer.buffer.length < 2 + 3 := by
  have start : Lts.Run Step (State.start (Writer.buffered (.memory []) 2)
    fun _ : Unit => [str "ab"]) [] _ := .nil
  have run := run_append start (i := ()) rfl nofun rfl rfl rfl rfl
  have hw := Writer.initializeWriter_memory (n := 2) (by decide)
  exact ⟨_, _, rfl, buffered_bounds hw (by decide) run fun _ => by decide⟩

end Runs

end Spectator
