import Spectator.Writer.Frame
import Spectator.Writer.Progress
import Spectator.Writer.Delivery

/-!
# No lost wakeup

While `shutdown` is not set, the two condition variables never lose a wakeup. `notify_one` hands
the right to go on from thread to thread; the invariant says who has it.

* `Awake`: a sender that waits although the buffer is full will be notified, because a producer has
  still to read the size or to notify `cv_sender` (`signals`). A producer that waits although the
  buffer has room will be notified, because the sender is at its notify, or a producer is on the way
  through its critical section to one (`passes`).
* `Step.awake`: every step keeps it, also the one that reads the size after it changed.
* `buffered_no_deadlock`: an unfinished `Write` implies that somebody can step.
-/

namespace Spectator

/-- The producer has still to read the size, or to notify `cv_sender`. -/
def WritePc.signals : WritePc → Bool
  | .readSize | .notifySender => true
  | _ => false

/-- The producer does not wait, and comes to a notify of `cv_receiver` if the buffer keeps room. -/
def WritePc.passes : WritePc → Bool
  | .lock _ | .eval _ | .check _ | .append _ | .readSize | .notifyReceiver => true
  | _ => false

variable {ι : Type} {s s' : State ι} {l : Label ι}

/-- Who has a wakeup to hand on (module doc). -/
structure Awake (s : State ι) : Prop where
  alive : s.destructor = .alive
  running : s.sender ≠ .absent ∧ s.sender ≠ .exited
  sender : s.sender = .waiting → s.writer.bufferSize ≤ s.writer.buffer.length →
    ∃ i, (s.producers i).pc.signals = true
  receivers : s.writer.buffer.length < s.writer.bufferSize →
    (∃ i m, (s.producers i).pc = .waiting m) →
    (∃ message, s.sender = .notify message) ∨ ∃ i, (s.producers i).pc.passes = true

theorem Producer.wake_of_signals {p : Producer} (h : p.pc.signals = true) : p.wake = none := by
  obtain ⟨todo, pc⟩ := p
  cases pc <;> first | rfl | cases h

variable [DecidableEq ι]

/-- After `notify_one` on `cv_receiver`, either nobody waits there or the woken producer is on its
way. -/
theorem passes_of_notifyOne {f g : ι → Producer} (h : CondVar.NotifyOne Producer.wake f g)
    (hw : ∃ i m, (g i).pc = .waiting m) : ∃ i, (g i).pc.passes = true := by
  obtain ⟨i, m, hi⟩ := hw
  rcases h.cases_at i with e | e
  · have hwake : (f i).wake = some ⟨(f i).todo, .lock m⟩ := by
      rw [e] at hi
      simp only [Producer.wake, hi]
    obtain ⟨j, hj⟩ := h.woken hwake
    obtain ⟨m', -, hq⟩ := Producer.wake_eq_some hj
    exact ⟨j, by rw [hq]; rfl⟩
  · obtain ⟨m', -, hq⟩ := Producer.wake_eq_some e
    rw [hq] at hi
    cases hi

/-- The sender is never left waiting at a full buffer. -/
theorem Step.awake_sender (hst : Step s l s') (hl : LockInv s) (h : Awake s)
    (hw : s'.sender = .waiting) (hfull : s'.writer.bufferSize ≤ s'.writer.buffer.length) :
    ∃ i, (s'.producers i).pc.signals = true := by
  have other : ∀ {i : ι} {p q : Producer}, s.producers i = p → p.pc.signals = false →
      s.sender = .waiting → s.writer.bufferSize ≤ s.writer.buffer.length →
      ∃ j, (Function.update s.producers i q j).pc.signals = true := by
    intro i p q hi hp hs hn
    have hsig := h.sender hs hn
    refine CondVar.exists_update (P := fun q : Producer => q.pc.signals = true) q ?_ hsig
    rw [hi, hp]
    nofun
  have self : ∀ {i : ι} {q : Producer}, q.pc.signals = true →
      ∃ j, (Function.update s.producers i q j).pc.signals = true :=
    fun {i q} hq => ⟨i, by rw [Function.update_self]; exact hq⟩
  cases hst with
  | producerAppend | readFull => exact self rfl
  | readRoom hi hr => exact absurd hfull (Nat.not_le.mpr hr)
  | producerNotifySender | destructorNotifySender => exact absurd hw (SenderPc.wake_ne_waiting _)
  | producerNotifyReceiver hi hf =>
    exact hf.exists (fun _ => Producer.wake_of_signals) (other hi rfl hw hfull)
  | uninitialized hi | nonBufferedWrite hi | bufferedWrite hi | producerLock hi | producerReady hi
  | producerNotReady hi | producerBlock hi | producerAbort hi | producerPass hi
  | producerSpurious hi => exact other hi rfl hw hfull
  | senderBlock hs =>
    have hg := hl.senderGuard
    rw [hs] at hg
    exact absurd hfull (Nat.not_le.mpr hg)
  | senderLeave | senderEnter | senderLock | senderReady | senderNotReady | senderReturn
  | senderPass | senderTake | senderNotify | senderSend | senderSpurious => cases hw
  | destructorShutdown | destructorUnbuffered | destructorJoin | destructorClose
  | destructorUninitialized => exact h.sender hw hfull
  | destructorNotifyReceiver hd => rw [h.alive] at hd; cases hd

/-- While the buffer has room, a producer that waits for it will be notified. -/
theorem Step.awake_receivers (hst : Step s l s') (hl : LockInv s) (hb : Buffered s.writer)
    (hd : s.writer.shutdown = false) (h : Awake s)
    (hroom : s'.writer.buffer.length < s'.writer.bufferSize)
    (hw : ∃ i m, (s'.producers i).pc = .waiting m) :
    (∃ message, s'.sender = .notify message) ∨ ∃ i, (s'.producers i).pc.passes = true := by
  have self : ∀ {i : ι} {q : Producer}, q.pc.passes = true →
      ∃ j, (Function.update s.producers i q j).pc.passes = true :=
    fun {i q} hq => ⟨i, by rw [Function.update_self]; exact hq⟩
  -- The sender is not at its notify, so a producer is on the way.
  have pass : s.writer.buffer.length < s.writer.bufferSize →
      (∃ i m, (s.producers i).pc = .waiting m) → (∀ message, s.sender ≠ .notify message) →
      ∃ i, (s.producers i).pc.passes = true := fun hr hw hn =>
    (h.receivers hr hw).resolve_left fun ⟨message, hm⟩ => hn message hm
  cases hst with
  | bufferedWrite | producerLock | producerReady | producerPass | producerAppend | readRoom
  | producerSpurious => exact .inr (self rfl)
  | uninitialized _ hi => exact absurd hi hb.impl
  | nonBufferedWrite _ _ hi => exact absurd hi hb.not_nonBuffered
  | producerNotReady _ hr =>
    exact absurd hroom (Nat.not_lt.mpr (Writer.receiverReady_eq_false.mp hr).1)
  | @producerBlock i m todo hi =>
    have hg := hl.producerGuard i
    rw [hi] at hg
    exact absurd hroom (Nat.not_lt.mpr hg)
  | producerAbort _ ht | senderLeave _ ht | senderReturn _ ht => rw [hd] at ht; cases ht
  | readFull _ hr => exact absurd hroom (Nat.not_lt.mpr hr)
  | @producerNotifySender i todo hi =>
    have hw' : ∃ j m, (s.producers j).pc = .waiting m := by
      obtain ⟨j, m, hj⟩ := hw
      have hne : j ≠ i := by
        rintro rfl
        have hj' : (Function.update s.producers j ⟨todo, .idle⟩ j).pc = .waiting m := hj
        rw [Function.update_self] at hj'
        cases hj'
      have hj' : (Function.update s.producers i ⟨todo, .idle⟩ j).pc = .waiting m := hj
      rw [Function.update_of_ne hne] at hj'
      exact ⟨j, m, hj'⟩
    rcases h.receivers hroom hw' with ⟨message, hs⟩ | hp
    · refine .inl ⟨message, ?_⟩
      show s.sender.wake = _
      rw [hs]
      rfl
    · refine .inr (CondVar.exists_update (P := fun q : Producer => q.pc.passes = true) _ ?_ hp)
      rw [hi]
      nofun
  | producerNotifyReceiver _ hf => exact .inr (passes_of_notifyOne hf hw)
  | senderNotify _ hf => exact .inr (passes_of_notifyOne hf hw)
  | senderTake hs => exact .inl ⟨_, rfl⟩
  | senderEnter hs | senderLock hs | senderReady hs | senderNotReady hs | senderBlock hs
  | senderPass hs | senderSend hs | senderSpurious hs =>
    exact .inr (pass hroom hw fun _ hn => absurd (hs.symm.trans hn) nofun)
  | destructorShutdown | destructorUnbuffered | destructorJoin | destructorClose
  | destructorUninitialized => exact h.receivers hroom hw
  | destructorNotifyReceiver hd | destructorNotifySender hd => rw [h.alive] at hd; cases hd

/-- The sender thread does not end. -/
theorem Step.awake_running (hst : Step s l s') (hd : s'.writer.shutdown = false)
    (h : s.sender ≠ .exited) : s'.sender ≠ .exited := by
  cases hst with
  | producerNotifySender | destructorNotifySender =>
    show s.sender.wake ≠ .exited
    revert h
    cases s.sender <;> first | exact id | exact fun _ => nofun
  | senderLeave _ ht | senderReturn _ ht => rw [ht] at hd; cases hd
  | senderEnter | senderLock | senderReady | senderNotReady | senderBlock | senderPass | senderTake
  | senderNotify | senderSend | senderSpurious => nofun
  | _ => exact h

/-- While `shutdown` is not set, every step keeps the wakeups. -/
theorem Step.awake (hst : Step s l s') (hl : LockInv s) (hb : Buffered s.writer)
    (hd : s'.writer.shutdown = false) (h : Awake s) : Awake s' := by
  refine ⟨?_, ⟨hst.present h.running.1, hst.awake_running hd h.running.2⟩, hst.awake_sender hl h,
    hst.awake_receivers hl hb (hst.shutdown_eq_false hd) h⟩
  by_cases ht : l.thread = .destructor
  · cases hst with
    | destructorShutdown => cases hd
    | destructorUnbuffered _ hn => rw [hb.bufferingEnabled] at hn; cases hn
    | destructorNotifyReceiver hn | destructorNotifySender hn | destructorJoin hn
    | destructorClose hn | destructorUninitialized hn => exact absurd (h.alive.symm.trans hn) nofun
    | _ => cases ht
  · rw [(hst.destructor_of_ne ht).1]
    exact h.alive

theorem Awake.of_run {n : Nat} {impl : Impl} {todo : ι → List Str} {tr : List (Label ι)}
    (hn : 0 < n) (h : Lts.Run Step (State.start (Writer.buffered impl n) todo) tr s) :
    LockInv s ∧ Buffered s.writer ∧ (s.writer.shutdown = false → Awake s) := by
  refine h.invariant
    (I := fun s => LockInv s ∧ Buffered s.writer ∧ (s.writer.shutdown = false → Awake s)) ?_ ?_
  · exact ⟨.start _ todo, .fresh impl hn, fun _ =>
      ⟨rfl, ⟨nofun, nofun⟩, nofun, fun _ ⟨i, m, hi⟩ => nomatch hi⟩⟩
  · rintro s₁ l s₂ ⟨hl, hb, ha⟩ hst
    exact ⟨hst.lockInv hl, hb.same hst.sameSetup,
      fun hd => hst.awake hl hb hd (ha (hst.shutdown_eq_false hd))⟩

/-- A producer that waits does not stop the others for ever. -/
theorem Awake.canStep_of_waiting (h : Awake s) (hl : LockInv s) {i : ι} {m : Str}
    (hi : (s.producers i).pc = .waiting m) : CanStep s := by
  by_cases hs : s.sender = .waiting
  · rcases Nat.lt_or_ge s.writer.buffer.length s.writer.bufferSize with hr | hr
    · rcases h.receivers hr ⟨i, m, hi⟩ with ⟨message, hn⟩ | ⟨j, hj⟩
      · exact absurd (hs.symm.trans hn) nofun
      · refine hl.canStep_of_producer (i := j) ?_ fun m hm => ?_
        · rintro he
          rw [he] at hj
          cases hj
        · rw [hm] at hj
          cases hj
    · obtain ⟨j, hj⟩ := h.sender hs hr
      refine canStep_of_producer (i := j) ?_
      revert hj
      cases (s.producers j).pc <;> first | exact fun _ => rfl | nofun
  · exact hl.canStep_of_sender h.running.1 hs h.running.2

/-- **No deadlock and no lost wakeup.** After one `Initialize` with a positive buffer size, in every
state that any number of producers and the sender reach by any interleaving while `shutdown` is not
set: with a `Write` unfinished or still to come, a producer or the sender can step without a
spurious wakeup; and the sender does not wait at a full buffer unless a producer has still to read
the size or to notify it. -/
theorem buffered_no_deadlock {f : Writer.Faults} {type : WriterType} {param : Str} {port : Int}
    {n : Nat} {w : Writer} (hw : Writer.initializeWriter f type param port n {} = .returned w)
    (hn : 0 < n) {todo : ι → List Str} {tr : List (Label ι)}
    (h : Lts.Run Step (State.start w todo) tr s) (hd : s.writer.shutdown = false) :
    ((∃ i, s.producers i ≠ ⟨[], .idle⟩) → CanStep s) ∧
      ¬ (s.writer.bufferSize ≤ s.writer.buffer.length ∧ s.sender = .waiting ∧
        ∀ i, (s.producers i).pc ≠ .readSize ∧ (s.producers i).pc ≠ .notifySender) := by
  obtain ⟨impl, -, rfl⟩ := Writer.eq_buffered hw hn
  obtain ⟨hl, hb, ha⟩ := Awake.of_run hn h
  have ha := ha hd
  refine ⟨?_, ?_⟩
  · rintro ⟨i, hi⟩
    by_cases hw : ∃ m, (s.producers i).pc = .waiting m
    · obtain ⟨m, hm⟩ := hw
      exact ha.canStep_of_waiting hl hm
    · by_cases hidle : (s.producers i).pc = .idle
      · rcases hp : s.producers i with ⟨_ | ⟨m, todo⟩, pc⟩
        all_goals
          rw [hp] at hidle hi
          cases hidle
        · exact absurd rfl hi
        · exact ⟨_, _, ⟨.bufferedWrite hp hb.impl hb.writeImpl, rfl⟩, nofun⟩
      · exact hl.canStep_of_producer hidle fun m hm => hw ⟨m, hm⟩
  · rintro ⟨hfull, hs, hnone⟩
    obtain ⟨i, hi⟩ := ha.sender hs hfull
    have hi' := hnone i
    cases hp : (s.producers i).pc with
    | readSize => exact hi'.1 hp
    | notifySender => exact hi'.2 hp
    | _ => rw [hp] at hi; cases hi

/-- A producer waits at a full buffer, and the sender has still to see it. -/
theorem buffered_no_deadlock_waiting : ∃ (tr : List (Label Unit)) (s : State Unit),
    Lts.Run Step (State.start (Writer.buffered (.memory []) 2) fun _ => [str "ab", str "c"]) tr s ∧
    s.producers () = ⟨[], .waiting (str "c")⟩ ∧ CanStep s := by
  have start : Lts.Run Step (State.start (Writer.buffered (.memory []) 2)
    fun _ : Unit => [str "ab", str "c"]) [] _ := .nil
  have run := run_append start (i := ()) rfl nofun rfl rfl rfl rfl
    |>.snoc (.readFull (i := ()) rfl (by decide))
    |>.snoc (.producerNotifySender (i := ()) rfl)
    |>.snoc (.bufferedWrite (i := ()) rfl nofun rfl)
    |>.snoc (.producerLock (i := ()) rfl rfl)
    |>.snoc (.producerNotReady (i := ()) rfl rfl)
    |>.snoc (.producerBlock (i := ()) rfl)
  have hw := Writer.initializeWriter_memory (n := 2) (by decide)
  exact ⟨_, _, run, rfl, (buffered_no_deadlock hw (by decide) run rfl).1 ⟨(), nofun⟩⟩

end Spectator
