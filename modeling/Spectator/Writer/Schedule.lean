import Spectator.Writer.Refinement

/-!
# Every order of the lines

The converse of the refinement: buffering forbids no order. Whatever lines the unbuffered mode takes
over, in whatever order, the buffered mode can take over, by letting each call of `Write` run to its
end and the sender empty a full buffer before the next one.

* `Calm`: no call is under way and the buffer has room. `Calm.accept`: the next message of any
  producer is accepted, and the state is calm again.
* `direct_refines`: the simulation. `modes_accept_same`: the two modes take over the same sequences
  of lines.
-/

namespace Spectator

variable {ι : Type}

/-- No call of `Write` is under way, the mutex is free, and `shutdown` is not set. -/
structure Quiet (s : State ι) : Prop where
  idle : ∀ i, (s.producers i).pc = .idle
  mutex : s.mutex = none
  shutdown : s.writer.shutdown = false
  buffered : Buffered s.writer

/-- A quiet state in which the buffer has room, and the sender is before its lock or waits. -/
structure Calm (s : State ι) : Prop extends Quiet s where
  sender : s.sender = .loop ∨ s.sender = .waiting
  room : s.writer.buffer.length < s.writer.bufferSize

theorem Calm.start (impl : Impl) {n : Nat} (hn : 0 < n) (todo : ι → List Str) :
    Calm (State.start (Writer.buffered impl n) todo) :=
  ⟨⟨fun _ => rfl, rfl, rfl, .fresh impl hn⟩, .inl rfl, hn⟩

theorem Producer.wake_of_idle {p : Producer} (h : p.pc = .idle) : p.wake = none := by
  simp only [Producer.wake, h]

variable [DecidableEq ι] {s : State ι}

theorem Buffered.of_run {s' : State ι} {tr : List (Label ι)} (hb : Buffered s.writer)
    (h : Lts.Run Step s tr s') : Buffered s'.writer :=
  h.invariant (I := fun s => Buffered s.writer) hb fun _ _ _ hb hst => hb.same hst.sameSetup

/-- The sender empties a full buffer. -/
theorem Quiet.drain (h : Quiet s) (hs : s.sender = .lock)
    (hfull : s.writer.bufferSize ≤ s.writer.buffer.length) :
    ∃ tr s', Lts.Run Step s tr s' ∧ accepted tr = [] ∧ Calm s' ∧ s'.producers = s.producers := by
  have hready : s.writer.senderReady = true := Writer.senderReady_iff.mpr (.inl hfull)
  have run := run_send .nil hs h.mutex hready h.shutdown fun i => Producer.wake_of_idle (h.idle i)
  exact ⟨_, _, run, rfl, ⟨⟨h.idle, rfl, h.shutdown, h.buffered.of_run run⟩, .inl rfl,
    h.buffered.pos⟩, rfl⟩

/-- After its append, a call of `Write` runs to its end, and the sender empties the buffer if it
is full. -/
theorem exists_calm {i : ι} {todo : List Str} (hp : s.producers i = ⟨todo, .readSize⟩)
    (hidle : ∀ j, j ≠ i → (s.producers j).pc = .idle) (hm : s.mutex = none)
    (hd : s.writer.shutdown = false) (hb : Buffered s.writer)
    (hs : s.sender = .loop ∨ s.sender = .waiting) :
    ∃ tr s', Lts.Run Step s tr s' ∧ accepted tr = [] ∧ Calm s' ∧
      s'.producers = Function.update s.producers i ⟨todo, .idle⟩ := by
  have idle : ∀ (pc : WritePc) (j : ι),
      (Function.update (Function.update s.producers i ⟨todo, pc⟩) i ⟨todo, .idle⟩ j).pc =
        .idle := by
    intro pc
    rw [Function.update_idem]
    exact CondVar.forall_update (P := fun _ (q : Producer) => q.pc = .idle) rfl hidle
  have start : Lts.Run Step s [] s := .nil
  rcases Nat.lt_or_ge s.writer.buffer.length s.writer.bufferSize with hroom | hfull
  · -- There is room: the notify finds nobody.
    have run := start
      |>.snoc (.readRoom hp hroom)
      |>.snoc (.producerNotifyReceiver (i := i) (Function.update_self ..)
        (.nobody fun j => Producer.wake_of_idle (idle _ j)))
    exact ⟨_, _, run, rfl, ⟨⟨idle _, hm, hd, hb⟩, hs, hroom⟩, Function.update_idem ..⟩
  · have run := start
      |>.snoc (.readFull hp hfull)
      |>.snoc (.producerNotifySender (i := i) (Function.update_self ..))
    have lock : ∃ tr s', Lts.Run Step s tr s' ∧ accepted tr = [] ∧ Quiet s' ∧ s'.sender = .lock ∧
        s'.writer.bufferSize ≤ s'.writer.buffer.length ∧
        s'.producers = Function.update s.producers i ⟨todo, .idle⟩ := by
      rcases hs with hs | hs
      · have hwake : s.sender.wake = .loop := by rw [hs]; rfl
        have enter := run.snoc (.senderEnter hwake hd)
        exact ⟨_, _, enter, rfl, ⟨idle _, hm, hd, hb⟩, rfl, hfull, Function.update_idem ..⟩
      · have hwake : s.sender.wake = .lock := by rw [hs]; rfl
        exact ⟨_, _, run, rfl, ⟨idle _, hm, hd, hb⟩, hwake, hfull, Function.update_idem ..⟩
    obtain ⟨tr₁, s₁, hrun₁, ha₁, hq, hs₁, hfull₁, hp₁⟩ := lock
    obtain ⟨tr₂, s₂, hrun₂, ha₂, hc, hp₂⟩ := hq.drain hs₁ hfull₁
    refine ⟨tr₁ ++ tr₂, s₂, hrun₁.append hrun₂, ?_, hc, hp₂.trans hp₁⟩
    rw [accepted_append, ha₁, ha₂]
    rfl

/-- The next message of any producer is accepted, and the state is calm again. -/
theorem Calm.accept (h : Calm s) {i : ι} {m : Str} {todo : List Str}
    (hp : s.producers i = ⟨m :: todo, .idle⟩) :
    ∃ tr s', Lts.Run Step s tr s' ∧ accepted tr = [(i, Writer.nonBufferedText m)] ∧ Calm s' ∧
      s'.producers = Function.update s.producers i ⟨todo, .idle⟩ := by
  have hready : s.writer.receiverReady = true := Writer.receiverReady_iff.mpr (.inl h.room)
  have append := run_append .nil hp h.buffered.impl h.buffered.writeImpl h.mutex hready h.shutdown
  have hidle : ∀ j, j ≠ i → (Function.update s.producers i ⟨todo, .readSize⟩ j).pc = .idle := by
    intro j hj
    rw [Function.update_of_ne hj]
    exact h.idle j
  obtain ⟨tr, s', hrun, ha, hc, hp'⟩ := exists_calm
    (s := { s.setProducer i ⟨todo, .readSize⟩ with
      writer := { s.writer with buffer := Writer.appendLine s.writer.buffer m }, mutex := none })
    (Function.update_self ..) hidle rfl h.shutdown (h.buffered.of_run append) h.sender
  refine ⟨_, s', append.append hrun, ?_, hc, hp'.trans (Function.update_idem ..)⟩
  rw [accepted_append, ha]
  rfl

/-! ## The simulation -/

/-- State `t` of the unbuffered mode against a calm state of the buffered mode: the producers have
the same messages before them. -/
structure Matches (t s : State ι) : Prop where
  plain : Plain t
  calm : Calm s
  producers : s.producers = t.producers

/-- An unbuffered write is one call of the buffered mode, with the sender's batch if the buffer
is full after it. -/
theorem direct_refines : Lts.Simulates Step Step Label.accepted Label.accepted
    (Matches (ι := ι)) := by
  intro t l t' s h hst
  obtain ⟨-, ⟨ha, -, hp⟩ | ⟨i, m, todo, hi, rfl, hp⟩⟩ := hst.plain_cases h.plain
  · exact ⟨[], s, .nil, ha.symm, hst.plain h.plain, h.calm, h.producers.trans hp.symm⟩
  · obtain ⟨tr, s', hrun, ha, hc, hp'⟩ := h.calm.accept (by rw [h.producers]; exact hi)
    refine ⟨tr, s', hrun, ha, hst.plain h.plain, hc, ?_⟩
    rw [hp', hp, h.producers]

/-- **The two modes take over the same sequences of lines.** For every sequence of lines and the
threads they come from: some run of the buffered mode takes over exactly these, in this order, if
and only if some run of the unbuffered mode on the same messages does. -/
theorem modes_accept_same {f f₀ : Writer.Faults} {type type₀ : WriterType}
    {param param₀ : Str} {port port₀ : Int} {n : Nat} {w w₀ : Writer}
    (hw : Writer.initializeWriter f type param port n {} = .returned w) (hn : 0 < n)
    (hw₀ : Writer.initializeWriter f₀ type₀ param₀ port₀ 0 {} = .returned w₀)
    (todo : ι → List Str) (lines : List (ι × Str)) :
    (∃ tr s, Lts.Run Step (State.start w todo) tr s ∧ accepted tr = lines) ↔
      ∃ tr s, Lts.Run Step (State.start w₀ todo) tr s ∧ accepted tr = lines := by
  obtain ⟨hi, hf, ht⟩ := Writer.eq_nonBuffered hw₀
  obtain ⟨impl, -, rfl⟩ := Writer.eq_buffered hw hn
  constructor
  · rintro ⟨tr, s, h, rfl⟩
    obtain ⟨tr₀, s₀, h₀, hacc, -⟩ := exists_unbuffered_run (.fresh impl hn) hi hf h
    exact ⟨tr₀, s₀, h₀, hacc⟩
  · rintro ⟨tr₀, s₀, h₀, rfl⟩
    have hstart : Matches (State.start w₀ todo) (State.start (Writer.buffered impl n) todo) :=
      ⟨.start hi hf ht todo, .start impl hn todo, rfl⟩
    obtain ⟨tr, s, h, hacc, -⟩ := direct_refines.run h₀ hstart
    exact ⟨tr, s, h, hacc⟩

/-- Two threads, both orders: the unbuffered run gives the buffered one. -/
theorem modes_accept_same_two_threads : ∃ tr s, Lts.Run Step
    (State.start (Writer.buffered (.memory []) 2) fun b : Bool => [str (bif b then "a" else "b")])
      tr s ∧ accepted tr = [(false, str "b\n"), (true, str "a\n")] := by
  have hw := Writer.initializeWriter_memory (n := 2) (by decide)
  have hw₀ : Writer.initializeWriter {} .memory [] 0 0 {} =
    .returned (.unbuffered (.memory [])) := rfl
  have start : Lts.Run Step (State.start (Writer.unbuffered (.memory []))
    fun b : Bool => [str (bif b then "a" else "b")]) [] _ := .nil
  have run := start
    |>.snoc (.nonBufferedWrite (i := false) rfl nofun rfl)
    |>.snoc (.nonBufferedWrite (i := true) rfl nofun rfl)
  exact (modes_accept_same hw (by decide) hw₀ _ _).mpr ⟨_, _, run, rfl⟩

end Spectator
