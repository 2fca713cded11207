import Spectator.Writer.Delivery
import Spectator.Writer.Progress

/-!
# Shutdown

`~Writer` against the other threads: it sets `shutdown`, notifies both condition variables and joins
the sender thread, all without `writeMutex`.

* `Joining`: `Close` comes after the end of the sender thread, so no batch is in flight then.
  `close_delivery`: what has been sent when `Close` is called, and what is left behind in `buffer`.
  `shutdown_drops_line`: a line that was accepted before `shutdown` and is never sent.
* `NotifyHeard`: the destructor's notify comes when no thread is between its predicate and its
  block. `AllWoken`: under this condition nobody waits any more once the destructor has notified.
  `join_not_hung`: the join does not hang; `join_hangs`: without the condition it may.
-/

namespace Spectator

variable {ι : Type} {s s' : State ι} {l : Label ι}

/-! ## The join -/

/-- The destructor is past its join. -/
def DestructorPc.joined : DestructorPc → Bool
  | .close | .done => true
  | _ => false

/-- The destructor waits for the end of the sender thread. -/
structure Joining (s : State ι) : Prop where
  running : s.destructor.joined = false → s.writer.sendingThread = true
  ended : s.destructor.joined = true → s.sender = .exited

theorem Step.joining [DecidableEq ι] (hst : Step s l s') (hb : Buffered s.writer)
    (h : Joining s) : Joining s' := by
  by_cases hl : l.thread = .destructor
  · cases hst with
    | destructorShutdown hd _ =>
      exact ⟨fun _ => h.running (by rw [hd]; rfl), nofun⟩
    | destructorUnbuffered _ hn =>
      rw [hb.bufferingEnabled] at hn
      cases hn
    | destructorNotifyReceiver hd => exact ⟨fun _ => h.running (by rw [hd]; rfl), nofun⟩
    | destructorNotifySender hd => exact ⟨fun _ => h.running (by rw [hd]; rfl), nofun⟩
    | destructorJoin hd hj => exact ⟨nofun, fun _ => hj (h.running (by rw [hd]; rfl))⟩
    | destructorClose hd _ => exact ⟨nofun, fun _ => h.ended (by rw [hd]; rfl)⟩
    | destructorUninitialized hd _ => exact ⟨nofun, fun _ => h.ended (by rw [hd]; rfl)⟩
    | _ => cases hl
  · obtain ⟨hd, -, ht⟩ := hst.destructor_of_ne hl
    refine ⟨fun hj => ?_, fun hj => ?_⟩
    · rw [ht]; exact h.running (by rw [← hd]; exact hj)
    · exact hst.exited (h.ended (by rw [← hd]; exact hj))

variable [DecidableEq ι] {n : Nat} {impl : Impl} {todo : ι → List Str} {tr : List (Label ι)}

theorem Joining.of_run (hn : 0 < n)
    (h : Lts.Run Step (State.start (Writer.buffered impl n) todo) tr s) : Joining s := by
  have hi : Buffered s.writer ∧ Joining s := by
    refine h.invariant (I := fun s => Buffered s.writer ∧ Joining s) ?_ ?_
    · exact ⟨.fresh impl hn, fun _ => rfl, nofun⟩
    · rintro s₁ l s₂ ⟨hb, hj⟩ hst
      exact ⟨hb.same hst.sameSetup, hst.joining hb hj⟩
  exact hi.2

/-- **What shutdown delivers.** When `Close` is called, every batch that the sender moved out of
`buffer` has been sent: the batches sent are the first chunks of the lines that were appended before
or after `shutdown`, and the lines left, which are never sent, are those in `buffer`. Without the
last of them they do not fill a buffer. -/
theorem close_delivery {f : Writer.Faults} {type : WriterType} {param : Str} {port : Int}
    {w : Writer} (hw : Writer.initializeWriter f type param port n {} = .returned w)
    (hn : 0 < n) (h : Lts.Run Step (State.start w todo) tr s)
    (hc : Step s (.event .destructor .close) s') :
    ∃ (sent : List (List Str)) (left : List Str), appended tr = sent.flatten ++ left ∧
      written tr = sent.map linesText ∧ s.writer.buffer = linesText left ∧
      (linesText left.dropLast).length < n ∧
      ∀ c ∈ sent, c ≠ [] ∧ n ≤ (linesText c).length ∧ (linesText c.dropLast).length < n := by
  have hd := Delivery.of_initialize hw hn h
  obtain ⟨chunks, rest, hg, hsent, hbuf, hlast⟩ := hd.chunks
  obtain ⟨impl, -, rfl⟩ := Writer.eq_buffered hw hn
  have hexit : s.sender = .exited := by
    refine (Joining.of_run hn h).ended ?_
    cases hc with
    | destructorClose hd _ => rw [hd]; rfl
  rw [hexit] at hsent
  refine ⟨chunks, rest, hg.flatten.symm, by simpa [SenderPc.inFlight] using hsent, hbuf, ?_, ?_⟩
  · rw [length_linesText]; exact hlast
  · intro c hc
    rw [length_linesText, length_linesText]
    exact hg.bounds hn c hc

/-- One batch is sent, and a line stays behind. -/
theorem close_delivery_one_batch : ∃ (tr : List (Label Unit)) (s s' : State Unit),
    Lts.Run Step (State.start (Writer.buffered (.memory []) 2) fun _ => [str "x", str ""]) tr s ∧
    Step s (.event .destructor .close) s' ∧ appended tr = [str "x", str ""] ∧
    ∃ (sent : List (List Str)) (left : List Str), appended tr = sent.flatten ++ left ∧
      written tr = sent.map linesText ∧ s.writer.buffer = linesText left ∧
      (linesText left.dropLast).length < 2 ∧
      ∀ c ∈ sent, c ≠ [] ∧ 2 ≤ (linesText c).length ∧ (linesText c.dropLast).length < 2 := by
  have start : Lts.Run Step (State.start (Writer.buffered (.memory []) 2)
    fun _ : Unit => [str "x", str ""]) [] _ := .nil
  have batch := run_append start (i := ()) rfl nofun rfl rfl rfl rfl
    |>.snoc (.readFull (i := ()) rfl (by decide))
    |>.snoc (.producerNotifySender (i := ()) rfl)
    |>.snoc (.senderEnter rfl rfl)
    |>.snoc (.senderLock rfl rfl)
    |>.snoc (.senderReady rfl rfl)
    |>.snoc (.senderPass rfl rfl)
    |>.snoc (.senderTake rfl)
    |>.snoc (.senderNotify rfl (.nobody fun _ => rfl))
    |>.snoc (.senderSend rfl)
  have run := run_append batch (i := ()) rfl nofun rfl rfl rfl rfl
    |>.snoc (.destructorShutdown rfl rfl)
    |>.snoc (.destructorNotifyReceiver rfl)
    |>.snoc (.destructorNotifySender rfl)
    |>.snoc (.senderLeave rfl rfl)
    |>.snoc (.destructorJoin rfl fun _ => rfl)
  have hw := Writer.initializeWriter_memory (n := 2) (by decide)
  exact ⟨_, _, _, run, .destructorClose rfl nofun, rfl,
    close_delivery hw (by decide) run (.destructorClose rfl nofun)⟩

/-- A line may be lost. A message is appended before `shutdown` is set, the destructor runs to
its end, and nothing is ever handed to `m_impl->Write`. -/
theorem shutdown_drops_line : ∃ (tr₁ tr₂ : List (Label Unit)) (s : State Unit),
    Lts.Run Step (State.start (Writer.buffered (.memory []) 16) fun _ => [str "x"])
      (tr₁ ++ .event .destructor .shutdown :: (tr₂ ++ [.event .destructor .close])) s ∧
    s.destructor = .done ∧ str "x" ∈ appended tr₁ ∧
    written (tr₁ ++ .event .destructor .shutdown :: tr₂) = [] := by
  have start : Lts.Run Step (State.start (Writer.buffered (.memory []) 16)
    fun _ : Unit => [str "x"]) [] _ := .nil
  have run := run_append start (i := ()) rfl nofun rfl rfl rfl rfl
    |>.snoc (.destructorShutdown rfl rfl)
    |>.snoc (.destructorNotifyReceiver rfl)
    |>.snoc (.destructorNotifySender rfl)
    |>.snoc (.senderLeave rfl rfl)
    |>.snoc (.destructorJoin rfl fun _ => rfl)
    |>.snoc (.destructorClose rfl nofun)
  exact ⟨appendLabels () (str "x"),
    [.tau .destructor, .tau .destructor, .tau .sender, .tau .destructor], _, run, rfl,
    by decide, rfl⟩

/-! ## The notifications -/

/-- The thread is between a predicate that was false and the return of its wait. -/
def WritePc.blocks : WritePc → Bool
  | .block _ | .waiting _ => true
  | _ => false

/-- The sender is between a predicate that was false and the return of its wait. -/
def SenderPc.blocks : SenderPc → Bool
  | .block | .waiting => true
  | _ => false

/-- If the step is a notify of the destructor, then no thread that it is for is between its
predicate and its block. -/
def NotifyHeard (s : State ι) (l : Label ι) : Prop :=
  l.thread = .destructor →
    (s.destructor = .notifyReceiver → ∀ i m, (s.producers i).pc ≠ .block m) ∧
    (s.destructor = .notifySender → s.sender ≠ .block)

/-- The destructor waits in its join, and the sender or a producer is blocked with no notification
still to come. -/
def Hung (s : State ι) : Prop :=
  s.destructor = .join ∧
    (Lts.Forever Notified (fun s => s.sender = .waiting) s ∨
      ∃ i m, Lts.Forever Notified (fun s => (s.producers i).pc = .waiting m) s)

/-- The destructor has notified `cv_receiver`. -/
def DestructorPc.pastReceiver : DestructorPc → Bool
  | .alive | .notifyReceiver => false
  | _ => true

/-- The destructor has notified `cv_sender`. -/
def DestructorPc.pastSender : DestructorPc → Bool
  | .alive | .notifyReceiver | .notifySender => false
  | _ => true

/-- The points that a producer enters only while `shutdown` is not set, and the wait after them. -/
def WritePc.early : WritePc → Bool
  | .block _ | .waiting _ | .append _ => true
  | _ => false

/-- The points that the sender enters only while `shutdown` is not set, and those after them. -/
def SenderPc.early : SenderPc → Bool
  | .block | .waiting | .take | .notify _ | .send _ => true
  | _ => false

/-- Once `shutdown` is set, a producer that is at no point of `P` stays outside of it: `P` has early
points only, and the wait only with the block before it. -/
theorem Step.producer_outside {P : WritePc → Bool}
    (hP : ∀ pc : WritePc, pc.early = false → P pc = false)
    (hwait : ∀ m, P (.block m) = false → P (.waiting m) = false) (hst : Step s l s')
    (hd : s.writer.shutdown = true) (h : ∀ i, P (s.producers i).pc = false) (i : ι) :
    P (s'.producers i).pc = false := by
  have move : ∀ (i : ι) (p : Producer), P p.pc = false →
      ∀ j, P (Function.update s.producers i p j).pc = false := fun i p hp =>
    CondVar.forall_update (P := fun _ (q : Producer) => P q.pc = false) hp fun j _ => h j
  have woken : ∀ (i : ι) (p q : Producer), P p.pc = false → p.wake = some q → P q.pc = false := by
    rintro _ p q - hq
    obtain ⟨m, -, rfl⟩ := Producer.wake_eq_some hq
    exact hP _ rfl
  cases hst with
  | producerNotReady _ hr =>
    rw [Writer.receiverReady_eq_false, hd] at hr
    cases hr.2
  | producerPass _ hf =>
    rw [hd] at hf
    cases hf
  | @producerBlock i m todo hi =>
    have hb := h i
    rw [hi] at hb
    exact move _ _ (hwait m hb) _
  | producerNotifyReceiver hi hf => exact hf.forall (move _ _ (hP _ rfl)) woken i
  | senderNotify _ hf => exact hf.forall h woken i
  | destructorNotifyReceiver _ =>
    exact CondVar.notifyAll_forall (P := fun _ (q : Producer) => P q.pc = false) h woken i
  | uninitialized | nonBufferedWrite | bufferedWrite | producerLock | producerReady
  | producerAbort | producerAppend | readFull | readRoom | producerNotifySender
  | producerSpurious => exact move _ _ (hP _ rfl) i
  | _ => exact h i

/-- Once `shutdown` is set, a sender that is at no point of `P` stays outside of it: `P` has early
points only, and each of them only with the one before it. -/
theorem Step.sender_outside {P : SenderPc → Bool}
    (hP : ∀ pc : SenderPc, pc.early = false → P pc = false)
    (hwait : P .block = false → P .waiting = false)
    (hnotify : ∀ m, P .take = false → P (.notify m) = false)
    (hsend : ∀ m, P (.notify m) = false → P (.send m) = false) (hst : Step s l s')
    (hd : s.writer.shutdown = true) (h : P s.sender = false) : P s'.sender = false := by
  have woken : P s.sender.wake = false := by
    cases hs : s.sender with
    | waiting => exact hP _ rfl
    | _ => rw [hs] at h; exact h
  cases hst with
  | senderNotReady _ hr =>
    rw [Writer.senderReady_eq_false, hd] at hr
    cases hr.2
  | senderPass _ hf =>
    rw [hd] at hf
    cases hf
  | senderBlock hs => rw [hs] at h; exact hwait h
  | senderTake hs => rw [hs] at h; exact hnotify _ h
  | senderNotify hs => rw [hs] at h; exact hsend _ h
  | producerNotifySender | destructorNotifySender => exact woken
  | senderLeave | senderEnter | senderLock | senderReady | senderReturn | senderSend
  | senderSpurious => exact hP _ rfl
  | _ => exact h

/-- Once `shutdown` is set, no producer starts to wait. -/
theorem Step.producer_blocks (hst : Step s l s') (hd : s.writer.shutdown = true)
    (h : ∀ i, (s.producers i).pc.blocks = false) (i : ι) : (s'.producers i).pc.blocks = false := by
  refine hst.producer_outside (P := WritePc.blocks) (fun pc hpc => ?_) (fun _ => id) hd h i
  cases pc <;> first | exact hpc | rfl

/-- Once `shutdown` is set, the sender does not start to wait. -/
theorem Step.sender_blocks (hst : Step s l s') (hd : s.writer.shutdown = true)
    (h : s.sender.blocks = false) : s'.sender.blocks = false := by
  refine hst.sender_outside (P := SenderPc.blocks) (fun pc hpc => ?_) id (fun _ _ => rfl)
    (fun _ => id) hd h
  cases pc <;> first | exact hpc | rfl

/-- Nobody waits for the destructor's notifications any more. -/
structure AllWoken (s : State ι) : Prop where
  shutdown : s.destructor ≠ .alive → s.writer.shutdown = true
  producers : s.destructor.pastReceiver = true → ∀ i, (s.producers i).pc.blocks = false
  sender : s.destructor.pastSender = true → s.sender.blocks = false

/-- A predicate that is false before `~Writer` holds only after its start. -/
theorem DestructorPc.ne_alive {past : DestructorPc → Bool} (h0 : past .alive = false)
    {pc : DestructorPc} (h : past pc = true) : pc ≠ .alive := by
  rintro rfl
  rw [h0] at h
  cases h

/-- A step keeps it, unless it is a notify that comes between a predicate and its block. -/
theorem Step.allWoken (hst : Step s l s') (hb : Buffered s.writer) (hok : NotifyHeard s l)
    (h : AllWoken s) : AllWoken s' := by
  by_cases hl : l.thread = .destructor
  · have hk := hok hl
    cases hst with
    | destructorShutdown _ _ => exact ⟨fun _ => rfl, nofun, nofun⟩
    | destructorUnbuffered _ hn =>
      rw [hb.bufferingEnabled] at hn
      cases hn
    | destructorNotifyReceiver hd =>
      refine ⟨fun _ => h.shutdown (by rw [hd]; nofun), fun _ i => ?_, nofun⟩
      -- Nobody was at its block, and the blocked ones are woken.
      rcases CondVar.notifyAll_cases_at Producer.wake s.producers i with ⟨e, hw⟩ | e
      · have h1 := hk.1 hd i
        have h2 := Producer.wake_eq_none hw
        show (CondVar.notifyAll Producer.wake s.producers i).pc.blocks = false
        rw [e]
        cases hpc : (s.producers i).pc with
        | block m => exact absurd hpc (h1 m)
        | waiting m => exact absurd hpc (h2 m)
        | _ => rfl
      · obtain ⟨m, -, hq⟩ := Producer.wake_eq_some e
        show (CondVar.notifyAll Producer.wake s.producers i).pc.blocks = false
        rw [hq]
        rfl
    | destructorNotifySender hd =>
      refine ⟨fun _ => h.shutdown (by rw [hd]; nofun), fun _ => h.producers (by rw [hd]; rfl),
        fun _ => ?_⟩
      have h1 := hk.2 hd
      show s.sender.wake.blocks = false
      cases hpc : s.sender with
      | block => exact absurd hpc h1
      | _ => rfl
    | destructorJoin hd _ | destructorClose hd _ | destructorUninitialized hd _ =>
      exact ⟨fun _ => h.shutdown (by rw [hd]; nofun), fun _ => h.producers (by rw [hd]; rfl),
        fun _ => h.sender (by rw [hd]; rfl)⟩
    | _ => cases hl
  · obtain ⟨hd, hs, -⟩ := hst.destructor_of_ne hl
    refine ⟨?_, ?_, ?_⟩
    · rw [hd, hs]; exact h.shutdown
    · rw [hd]
      intro hp
      exact hst.producer_blocks (h.shutdown (DestructorPc.ne_alive rfl hp)) (h.producers hp)
    · rw [hd]
      intro hp
      exact hst.sender_blocks (h.shutdown (DestructorPc.ne_alive rfl hp)) (h.sender hp)

theorem AllWoken.of_run (hn : 0 < n)
    (h : Lts.Run (Lts.restrict Step NotifyHeard) (State.start (Writer.buffered impl n) todo) tr s) :
    LockInv s ∧ Buffered s.writer ∧ s.sender ≠ .absent ∧ AllWoken s := by
  refine h.invariant
    (I := fun s => LockInv s ∧ Buffered s.writer ∧ s.sender ≠ .absent ∧ AllWoken s) ?_ ?_
  · exact ⟨.start _ todo, .fresh impl hn, nofun, fun h => absurd rfl h, nofun, nofun⟩
  · rintro s₁ l s₂ ⟨hl, hb, hp, hw⟩ ⟨hst, hok⟩
    exact ⟨hst.lockInv hl, hb.same hst.sameSetup, hst.present hp, hst.allWoken hb hok hw⟩

/-- The join makes progress: until the sender thread has ended, somebody can step. -/
theorem join_canStep (hn : 0 < n)
    (h : Lts.Run (Lts.restrict Step NotifyHeard) (State.start (Writer.buffered impl n) todo) tr s)
    (hj : s.destructor = .join) (he : s.sender ≠ .exited) : CanStep s := by
  obtain ⟨hl, -, hp, ha⟩ := AllWoken.of_run hn h
  refine hl.canStep_of_sender hp (fun hw => ?_) he
  have hb := ha.sender (by rw [hj]; rfl)
  rw [hw] at hb
  cases hb

/-- **Destruction does not hang, if its notifications are heard.** In every run whose steps all
meet the condition, no reached state is hung. -/
theorem join_not_hung {f : Writer.Faults} {type : WriterType} {param : Str} {port : Int}
    {w : Writer} (hw : Writer.initializeWriter f type param port n {} = .returned w)
    (hn : 0 < n) (h : Lts.Run (Lts.restrict Step NotifyHeard) (State.start w todo) tr s) :
    ¬ Hung s := by
  obtain ⟨impl, -, rfl⟩ := Writer.eq_buffered hw hn
  obtain ⟨-, -, -, ha⟩ := AllWoken.of_run hn h
  rintro ⟨hj, hs | ⟨i, m, hp⟩⟩
  · have hb := ha.sender (by rw [hj]; rfl)
    rw [hs.now] at hb
    cases hb
  · have hb := ha.producers (by rw [hj]; rfl) i
    rw [hp.now] at hb
    cases hb

/-- The notifications find the sender blocked, and wake it. -/
theorem join_not_hung_blocked : ∃ (tr : List (Label Unit)) (s : State Unit),
    Lts.Run (Lts.restrict Step NotifyHeard)
      (State.start (Writer.buffered (.memory []) 16) fun _ => [str "x"]) tr s ∧
    s.destructor = .join ∧ s.sender = .lock ∧ ¬ Hung s := by
  have start : Lts.Run (Lts.restrict Step NotifyHeard)
    (State.start (Writer.buffered (.memory []) 16) fun _ : Unit => [str "x"]) [] _ := .nil
  have run := start
    |>.snoc ⟨.senderEnter rfl rfl, nofun⟩
    |>.snoc ⟨.senderLock rfl rfl, nofun⟩
    |>.snoc ⟨.senderNotReady rfl rfl, nofun⟩
    |>.snoc ⟨.senderBlock rfl, nofun⟩
    |>.snoc ⟨.destructorShutdown rfl rfl, fun _ => ⟨nofun, nofun⟩⟩
    |>.snoc ⟨.destructorNotifyReceiver rfl, fun _ => ⟨fun _ _ _ => nofun, nofun⟩⟩
    |>.snoc ⟨.destructorNotifySender rfl, fun _ => ⟨nofun, fun _ => nofun⟩⟩
  have hw := Writer.initializeWriter_memory (n := 16) (by decide)
  exact ⟨_, _, run, rfl, rfl, join_not_hung hw (by decide) run⟩

/-- Without producers, nobody wakes a sender that waits after the notifications. -/
theorem not_notified_of_join [IsEmpty ι] (hs : s.sender = .waiting) (hd : s.destructor = .join)
    (ht : s.writer.sendingThread = true) (l : Label ι) (s' : State ι) : ¬ Notified s l s' := by
  rintro ⟨hst, hl⟩
  cases hst with
  | @uninitialized i | @nonBufferedWrite i | @bufferedWrite i | @producerLock i | @producerReady i
  | @producerNotReady i | @producerBlock i | @producerAbort i | @producerPass i
  | @producerAppend i | @readFull i | @readRoom i | @producerNotifySender i
  | @producerNotifyReceiver i | @producerSpurious i => exact isEmptyElim i
  | senderLeave h | senderEnter h | senderLock h | senderReady h | senderNotReady h
  | senderBlock h | senderReturn h | senderPass h | senderTake h | senderNotify h
  | senderSend h => exact absurd (hs.symm.trans h) nofun
  | senderSpurious => cases hl
  | destructorJoin _ hj => exact absurd (hs.symm.trans (hj ht)) nofun
  | destructorShutdown h | destructorUnbuffered h | destructorNotifyReceiver h
  | destructorNotifySender h | destructorClose h | destructorUninitialized h =>
    exact absurd (hd.symm.trans h) nofun

/-- Destruction may hang. Without producers: `shutdown` and both notifications come after the
sender evaluated its predicate and before it blocks. -/
theorem join_hangs : ∃ (tr : List (Label Empty)) (s : State Empty),
    Lts.Run Step (State.start (Writer.buffered (.memory []) 16) nofun) tr s ∧ Hung s := by
  have start : Lts.Run Step (State.start (Writer.buffered (.memory []) 16)
    (nofun : Empty → List Str)) [] _ := .nil
  have run := start
    |>.snoc (.senderEnter rfl rfl)
    |>.snoc (.senderLock rfl rfl)
    |>.snoc (.senderNotReady rfl rfl)
    |>.snoc (.destructorShutdown rfl rfl)
    |>.snoc (.destructorNotifyReceiver rfl)
    |>.snoc (.destructorNotifySender rfl)
    |>.snoc (.senderBlock rfl)
  exact ⟨_, _, run, rfl, .inl (.of_stuck rfl (not_notified_of_join rfl rfl rfl))⟩

end Spectator
