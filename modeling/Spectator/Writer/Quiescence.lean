import Spectator.Writer.Refinement
import Spectator.Writer.Termination

/-!
# Where the threads come to rest

What is true of a state in which no step is left, and that every run comes to such a state. Together
with the bound on the runs this is liveness without a fairness assumption: whatever the scheduler
does, it runs out of steps, and then the work is done.

* `Working`: the producers and the sender, while `~Writer` does not move. `Settled`: every message
  is accepted, the sender waits, and less than one buffer is left (`buffered_settles`).
* `Heard`: all threads, with the destructor's notifications heard. `Destroyed`: the body of
  `~Writer` is at its end and every `Write` has returned (`destruction_completes`).
-/

namespace Spectator

variable {ι : Type} [DecidableEq ι] {s s' : State ι} {l : Label ι} {tr : List (Label ι)}

/-- The steps of the producers and the sender without spurious wakeups. -/
def Working : State ι → Label ι → State ι → Prop :=
  Lts.restrict Step fun _ l => l.isSpurious = false ∧ l.thread ≠ .destructor

/-- The steps of all threads without spurious wakeups, in which the notifications of `~Writer` come
when no thread is between its predicate and its block. -/
def Heard : State ι → Label ι → State ι → Prop :=
  Lts.restrict Step fun s l => l.isSpurious = false ∧ NotifyHeard s l

theorem not_canStep_of_working (h : Lts.Stuck Working s) : ¬ CanStep s := by
  rintro ⟨l, s', ⟨hst, hl⟩, ht⟩
  exact h l s' ⟨hst, hl, ht⟩

theorem not_canStep_of_heard (h : Lts.Stuck Heard s) : ¬ CanStep s := by
  rintro ⟨l, s', ⟨hst, hl⟩, ht⟩
  exact h l s' ⟨hst, hl, fun hd => absurd hd ht⟩

/-! ## States without steps -/

/-- A producer that can go no further is between two calls, or waits. -/
theorem producer_of_not_canStep (h : ¬ CanStep s) (hl : LockInv s) (hb : Buffered s.writer) (i : ι)
    (hw : ∀ m, (s.producers i).pc ≠ .waiting m) : s.producers i = ⟨[], .idle⟩ := by
  have hidle : (s.producers i).pc = .idle := by
    by_contra hne
    exact h (hl.canStep_of_producer hne hw)
  rcases hp : s.producers i with ⟨_ | ⟨m, todo⟩, pc⟩
  · rw [hp] at hidle
    cases hidle
    rfl
  · rw [hp] at hidle
    cases hidle
    exact absurd ⟨_, _, ⟨.bufferedWrite hp hb.impl hb.writeImpl, rfl⟩, nofun⟩ h

/-- Everything that the buffered mode can deliver is delivered. -/
structure Settled (n : Nat) (todo : ι → List Str) (tr : List (Label ι)) (s : State ι) : Prop where
  producers : ∀ i, s.producers i = ⟨[], .idle⟩
  accepted : ∀ i, acceptedBy i tr = (todo i).map Writer.nonBufferedText
  sender : s.sender = .waiting
  delivered : (written tr).flatten ++ s.writer.buffer = linesText (appended tr)
  room : s.writer.buffer.length < n

/-- The body of `~Writer` has come to its end, and every `Write` has returned. -/
structure Destroyed (tr : List (Label ι)) (s : State ι) : Prop where
  destructor : s.destructor = .done
  producers : ∀ i, s.producers i = ⟨[], .idle⟩
  sender : s.sender = .exited
  delivered : (written tr).flatten ++ s.writer.buffer = linesText (appended tr)

/-- A settled state has no steps. -/
theorem stuck_of_idle (hp : ∀ i, s.producers i = ⟨[], .idle⟩) (hs : s.sender = .waiting) :
    Lts.Stuck Working s := by
  have idle : ∀ {i : ι} {p : Producer}, s.producers i = p → p ≠ ⟨[], .idle⟩ → False :=
    fun hi hne => hne (hi.symm.trans (hp _))
  have waiting : ∀ {pc : SenderPc}, s.sender = pc → pc ≠ .waiting → False :=
    fun hpc hne => hne (hpc.symm.trans hs)
  rintro l s' ⟨hst, hl, ht⟩
  cases hst with
  | uninitialized hi | nonBufferedWrite hi | bufferedWrite hi | producerLock hi | producerReady hi
  | producerNotReady hi | producerBlock hi | producerAbort hi | producerPass hi | producerAppend hi
  | readFull hi | readRoom hi | producerNotifySender hi | producerNotifyReceiver hi =>
    exact idle hi (by simp)
  | senderLeave hpc | senderEnter hpc | senderLock hpc | senderReady hpc | senderNotReady hpc
  | senderBlock hpc | senderReturn hpc | senderPass hpc | senderTake hpc | senderNotify hpc
  | senderSend hpc => exact waiting hpc (by simp)
  | producerSpurious | senderSpurious => cases hl
  | _ => exact ht rfl

section Rest

variable {f : Writer.Faults} {type : WriterType} {param : Str} {port : Int} {n : Nat} {w : Writer}
  {todo : ι → List Str}

theorem Settled.of_stuck (hw : Writer.initializeWriter f type param port n {} = .returned w)
    (hn : 0 < n) (h : Lts.Run Step (State.start w todo) tr s) (hd : s.writer.shutdown = false)
    (hstuck : ¬ CanStep s) : Settled n todo tr s := by
  have hdel := Delivery.of_initialize hw hn h
  obtain ⟨impl, -, rfl⟩ := Writer.eq_buffered hw hn
  have horder := fun i => (Buffered.program_order (.fresh impl hn) h i).2 hd
  obtain ⟨hl, hb, ha⟩ := Awake.of_run hn h
  have ha := ha hd
  have hp := fun i => producer_of_not_canStep hstuck hl hb i
    fun m hm => hstuck (ha.canStep_of_waiting hl hm)
  have hs : s.sender = .waiting := by
    by_contra hne
    exact hstuck (hl.canStep_of_sender ha.running.1 hne ha.running.2)
  refine ⟨hp, fun i => ?_, hs, ?_, ?_⟩
  · have ho := horder i
    rw [hp i] at ho
    simpa [Producer.ahead, WritePc.message] using ho
  · have hc := hdel.conserved
    rw [hs] at hc
    simpa [SenderPc.inFlight] using hc
  · -- A full buffer would leave a producer on its way to notify the sender.
    by_contra hge
    obtain ⟨i, hi⟩ := ha.sender hs (by rw [hdel.size]; omega)
    rw [hp i] at hi
    cases hi

/-- In a run with the notifications heard, a state without steps is the end of the body of
`~Writer`. -/
theorem Destroyed.of_stuck (hw : Writer.initializeWriter f type param port n {} = .returned w)
    (hn : 0 < n) (h : Lts.Run Heard (State.start w todo) tr s) (hstuck : Lts.Stuck Heard s) :
    Destroyed tr s := by
  have hstep : Lts.Run Step (State.start w todo) tr s := h.mono fun _ _ _ hst => hst.1
  have hdel := Delivery.of_initialize hw hn hstep
  obtain ⟨impl, -, rfl⟩ := Writer.eq_buffered hw hn
  have hheard : Lts.Run (Lts.restrict Step NotifyHeard) (State.start (Writer.buffered impl n) todo)
    tr s := h.mono fun _ _ _ hst => ⟨hst.1, hst.2.2⟩
  obtain ⟨hl, hb, hpresent, ha⟩ := AllWoken.of_run hn hheard
  have hjoin := Joining.of_run hn hstep
  have hcan := not_canStep_of_heard hstuck
  -- Nobody is at its block, so every notification would be heard.
  have hblock : ∀ i m, (s.producers i).pc ≠ .block m := fun i m hm =>
    hcan (canStep_of_producer (i := i) (by rw [hm]; rfl))
  have hblock' : s.sender ≠ .block := fun hs => hcan (canStep_of_sender (by rw [hs]; rfl))
  have nostep : ∀ {l s'}, Step s l s' → l.isSpurious = false → False := fun hst hl =>
    hstuck _ _ ⟨hst, hl, fun _ => ⟨fun _ => hblock, fun _ => hblock'⟩⟩
  have hdone : s.destructor = .done := by
    cases hd : s.destructor with
    | done => rfl
    | alive => exact (nostep (.destructorShutdown hd hb.bufferingEnabled) rfl).elim
    | notifyReceiver => exact (nostep (.destructorNotifyReceiver hd) rfl).elim
    | notifySender => exact (nostep (.destructorNotifySender hd) rfl).elim
    | join =>
      refine (nostep (.destructorJoin hd fun _ => ?_) rfl).elim
      by_contra he
      exact hcan (join_canStep hn hheard hd he)
    | close => exact (nostep (.destructorClose hd hb.impl) rfl).elim
  have hs : s.sender = .exited := hjoin.ended (by rw [hdone]; rfl)
  refine ⟨hdone, fun i => ?_, hs, ?_⟩
  · refine producer_of_not_canStep hcan hl hb i fun m hm => ?_
    have hblocks := ha.producers (by rw [hdone]; rfl) i
    rw [hm] at hblocks
    cases hblocks
  · have hc := hdel.conserved
    rw [hs] at hc
    simpa [SenderPc.inFlight] using hc

/-! ## The threads come to rest -/

variable [Fintype ι]

/-- Every line that is taken over is one of exactly one producer. -/
theorem count_accepted (tr : List (Label ι)) (text : Str) :
    ((accepted tr).map Prod.snd).count text = ∑ i, (acceptedBy i tr).count text := by
  unfold acceptedBy
  induction accepted tr with
  | nil => simp
  | cons a as ih =>
    have hcons : ∀ i, ((a :: as).filterMap fun a => if a.1 = i then some a.2 else none).count text =
        (as.filterMap fun a => if a.1 = i then some a.2 else none).count text +
          if a.1 = i then (if a.2 = text then 1 else 0) else 0 := by
      intro i
      rw [List.filterMap_cons]
      by_cases hi : a.1 = i
      · simp [hi, List.count_cons]
      · simp [hi]
    simp only [hcons, Finset.sum_add_distrib, Finset.sum_ite_eq, Finset.mem_univ, if_true]
    rw [List.map_cons, List.count_cons, ih]
    simp

theorem nonBufferedText_injective : Function.Injective Writer.nonBufferedText :=
  fun _ _ he => List.append_cancel_right he

/-- Every append is the line of exactly one producer. -/
theorem Buffered.count_appended (hw : Buffered w) (h : Lts.Run Step (State.start w todo) tr s)
    (m : Str) :
    (appended tr).count m = ∑ i, (acceptedBy i tr).count (Writer.nonBufferedText m) := by
  have hcount := count_accepted tr (Writer.nonBufferedText m)
  rwa [accepted_eq_appended hw h, List.count_map_of_injective _ _ nonBufferedText_injective]
    at hcount

/-- No message is accepted more often than the producers have it. -/
theorem Buffered.count_appended_le (hw : Buffered w) (h : Lts.Run Step (State.start w todo) tr s)
    (m : Str) : (appended tr).count m ≤ ∑ i, (todo i).count m := by
  rw [hw.count_appended h]
  refine Finset.sum_le_sum fun i _ => ?_
  rw [← List.count_map_of_injective (todo i) _ nonBufferedText_injective]
  exact (hw.program_order h i).1.sublist.count_le _

/-- Every message is accepted as often as the producers have it. -/
theorem Settled.count_appended (hs : Settled n todo tr s) (hw : Buffered w)
    (h : Lts.Run Step (State.start w todo) tr s) (m : Str) :
    (appended tr).count m = ∑ i, (todo i).count m := by
  rw [hw.count_appended h]
  simp only [hs.accepted, List.count_map_of_injective _ _ nonBufferedText_injective]

/-- **The buffered mode delivers.** In every state reached while `shutdown` is not set, the
producers and the sender can take only finitely many steps, however they are scheduled; and where
they can take none, every message has been accepted, in the order of its producer, the sender waits,
and less than one buffer of the accepted lines is not yet sent. -/
theorem buffered_settles (hw : Writer.initializeWriter f type param port n {} = .returned w)
    (hn : 0 < n) (h : Lts.Run Step (State.start w todo) tr s) (hd : s.writer.shutdown = false) :
    (∀ tr' s', Lts.Run Working s tr' s' → tr'.length ≤ s.potential ∧
      (Lts.Stuck Working s' → Settled n todo (tr ++ tr') s')) ∧
    ∃ tr' s', Lts.Run Working s tr' s' ∧ Lts.Stuck Working s' := by
  have hm : Measured s := by
    obtain ⟨impl, -, rfl⟩ := Writer.eq_buffered hw hn
    obtain ⟨hl, hb, -⟩ := Awake.of_run hn h
    exact ⟨hl, hb⟩
  refine ⟨fun tr' s' hr => ⟨?_, fun hstuck => ?_⟩, notified_run_ends hm fun _ _ hok => hok.1⟩
  · have hle := hm.length_add_le (fun _ _ hok => hok.1) hr
    omega
  · have hd' : s'.writer.shutdown = false := by
      refine hr.invariant (I := fun s => s.writer.shutdown = false) hd ?_
      rintro s₁ l s₂ hd₁ ⟨hst, -, hl⟩
      rw [(hst.destructor_of_ne hl).2.1, hd₁]
    exact Settled.of_stuck hw hn (h.append (hr.mono fun _ _ _ hst => hst.1)) hd'
      (not_canStep_of_working hstuck)

/-- A producer has filled the buffer, and the sender has still to see it. -/
theorem buffered_settles_full_buffer : ∃ (tr : List (Label Unit)) (s : State Unit),
    s.writer.buffer = str "ab\n" ∧
    (∀ tr' s', Lts.Run Working s tr' s' → tr'.length ≤ s.potential ∧
      (Lts.Stuck Working s' → Settled 2 (fun _ => [str "ab"]) (tr ++ tr') s')) ∧
    ∃ tr' s', Lts.Run Working s tr' s' ∧ Lts.Stuck Working s' := by
  have start : Lts.Run Step (State.start (Writer.buffered (.memory []) 2)
    fun _ : Unit => [str "ab"]) [] _ := .nil
  have run := run_append start (i := ()) rfl nofun rfl rfl rfl rfl
  have hw := Writer.initializeWriter_memory (n := 2) (by decide)
  exact ⟨_, _, rfl, buffered_settles hw (by decide) run rfl⟩

/-- **Destruction completes, if its notifications are heard.** Under the condition of
`NotifyHeard`, every run is bounded and can be continued until no step is left; then the body of
`~Writer` is at its end, the sender thread has ended, every `Write` has returned, and the lines that
were accepted and not sent are in `buffer`. -/
theorem destruction_completes
    (hw : Writer.initializeWriter f type param port n {} = .returned w) (hn : 0 < n)
    (h : Lts.Run Heard (State.start w todo) tr s) :
    tr.length ≤ 20 * (∑ i, (todo i).length) + 3 * Fintype.card ι + 12 ∧
      (Lts.Stuck Heard s → Destroyed tr s) ∧
      ∃ tr' s', Lts.Run Heard s tr' s' ∧ Destroyed (tr ++ tr') s' := by
  have hm : Measured s := by
    obtain ⟨impl, -, rfl⟩ := Writer.eq_buffered hw hn
    exact h.invariant (I := Measured) (.start (.fresh impl hn) todo)
      fun _ _ _ hm hst => hst.1.measured hm
  refine ⟨?_, Destroyed.of_stuck hw hn h, ?_⟩
  · obtain ⟨impl, -, rfl⟩ := Writer.eq_buffered hw hn
    have hle := (Measured.start (.fresh impl hn) todo).length_add_le (fun _ _ hok => hok.1) h
    rw [State.potential_start] at hle
    omega
  · have hends : ∃ tr' s', Lts.Run Heard s tr' s' ∧ Lts.Stuck Heard s' :=
      notified_run_ends hm fun _ _ hok => hok.1
    obtain ⟨tr', s', hr, hstuck⟩ := hends
    exact ⟨tr', s', hr, .of_stuck hw hn (h.append hr) hstuck⟩

/-- The destructor starts while the sender is blocked. -/
theorem destruction_completes_blocked : ∃ (tr : List (Label Unit)) (s : State Unit),
    s.sender = .waiting ∧ s.destructor = .notifyReceiver ∧
    (tr.length ≤ 20 * (∑ _i : Unit, [str "x"].length) + 3 * Fintype.card Unit + 12 ∧
      (Lts.Stuck Heard s → Destroyed tr s) ∧
      ∃ tr' s', Lts.Run Heard s tr' s' ∧ Destroyed (tr ++ tr') s') := by
  have start : Lts.Run Heard
    (State.start (Writer.buffered (.memory []) 16) fun _ : Unit => [str "x"]) [] _ := .nil
  have run := start
    |>.snoc ⟨.senderEnter rfl rfl, rfl, nofun⟩
    |>.snoc ⟨.senderLock rfl rfl, rfl, nofun⟩
    |>.snoc ⟨.senderNotReady rfl rfl, rfl, nofun⟩
    |>.snoc ⟨.senderBlock rfl, rfl, nofun⟩
    |>.snoc ⟨.destructorShutdown rfl rfl, rfl, fun _ => ⟨nofun, nofun⟩⟩
  have hw := Writer.initializeWriter_memory (n := 16) (by decide)
  exact ⟨_, _, rfl, rfl, destruction_completes hw (by decide) run⟩

end Rest

end Spectator
