import Spectator.Writer.Threads

/-!
# The critical sections

What `writeMutex` gives the threads, in every state of every run from `State.start`.

* `LockInv`: the mutex is held exactly by the thread that is in a critical section, and a thread
  in a critical section knows about the buffer what its last test showed (`Guard`): the others
  cannot change the buffer, and `shutdown` is never reset.
* `Step.lockInv`: every step keeps it. A thread moves inside or outside its section (`keep`), takes
  the mutex (`acquire`) or leaves its section (`release`).
-/

namespace Spectator

/-- What a producer knows about the singleton, by where it is. -/
def WritePc.Guard (w : Writer) : WritePc → Prop
  | .block _ => w.bufferSize ≤ w.buffer.length
  | .check _ => w.buffer.length < w.bufferSize ∨ w.shutdown = true
  | .append _ => w.buffer.length < w.bufferSize
  | _ => True

/-- What the sender knows about the singleton, by where it is. -/
def SenderPc.Guard (w : Writer) : SenderPc → Prop
  | .block => w.buffer.length < w.bufferSize
  | .check => w.bufferSize ≤ w.buffer.length ∨ w.shutdown = true
  | .take => w.bufferSize ≤ w.buffer.length
  | _ => True

theorem WritePc.Guard.of_not_holds {pc : WritePc} (h : pc.holds = false) (w : Writer) :
    pc.Guard w := by
  cases pc <;> trivial

theorem SenderPc.Guard.of_not_holds {pc : SenderPc} (h : pc.holds = false) (w : Writer) :
    pc.Guard w := by
  cases pc <;> trivial

/-- A store of `true` to `shutdown` keeps what a producer knows. -/
theorem WritePc.Guard.shutdown {pc : WritePc} {w : Writer} (h : pc.Guard w) :
    pc.Guard { w with shutdown := true } := by
  cases pc with
  | check => exact .inr rfl
  | _ => exact h

theorem SenderPc.Guard.shutdown {pc : SenderPc} {w : Writer} (h : pc.Guard w) :
    pc.Guard { w with shutdown := true } := by
  cases pc with
  | check => exact .inr rfl
  | _ => exact h

theorem Writer.receiverReady_iff {w : Writer} :
    w.receiverReady = true ↔ w.buffer.length < w.bufferSize ∨ w.shutdown = true := by
  simp [receiverReady]

theorem Writer.receiverReady_eq_false {w : Writer} :
    w.receiverReady = false ↔ w.bufferSize ≤ w.buffer.length ∧ w.shutdown = false := by
  simp [receiverReady]

theorem Writer.senderReady_iff {w : Writer} :
    w.senderReady = true ↔ w.bufferSize ≤ w.buffer.length ∨ w.shutdown = true := by
  simp [senderReady]

theorem Writer.senderReady_eq_false {w : Writer} :
    w.senderReady = false ↔ w.buffer.length < w.bufferSize ∧ w.shutdown = false := by
  simp [senderReady]

/-! ## Wakeups -/

/-- A woken producer was blocked, and is at the lock. -/
theorem Producer.wake_eq_some {p q : Producer} (h : p.wake = some q) :
    ∃ m, p.pc = .waiting m ∧ q = ⟨p.todo, .lock m⟩ := by
  obtain ⟨todo, pc⟩ := p
  cases pc with
  | waiting m => exact ⟨m, rfl, (Option.some.inj h).symm⟩
  | _ => cases h

theorem Producer.wake_eq_none {p : Producer} (h : p.wake = none) (m : Str) : p.pc ≠ .waiting m := by
  rintro he
  simp only [Producer.wake, he] at h
  cases h

@[simp] theorem SenderPc.holds_wake (pc : SenderPc) : pc.wake.holds = pc.holds := by
  cases pc <;> rfl

@[simp] theorem SenderPc.inFlight_wake (pc : SenderPc) : pc.wake.inFlight = pc.inFlight := by
  cases pc <;> rfl

theorem SenderPc.wake_ne_waiting (pc : SenderPc) : pc.wake ≠ .waiting := by
  cases pc <;> nofun

theorem SenderPc.Guard.wake {pc : SenderPc} {w : Writer} (h : pc.Guard w) : pc.wake.Guard w := by
  cases pc <;> exact h

/-! ## The invariant -/

variable {ι : Type}

/-- The mutex and the critical sections (module doc). -/
structure LockInv (s : State ι) : Prop where
  sender : s.sender.holds = true ↔ s.mutex = some .sender
  producer : ∀ i, (s.producers i).pc.holds = true ↔ s.mutex = some (.producer i)
  destructor : s.mutex ≠ some .destructor
  senderGuard : s.sender.Guard s.writer
  producerGuard : ∀ i, (s.producers i).pc.Guard s.writer

namespace LockInv

variable {s : State ι}

/-- Nobody is in a critical section. -/
theorem of_free (hm : s.mutex = none) (hs : s.sender.holds = false)
    (hp : ∀ i, (s.producers i).pc.holds = false) : LockInv s := by
  refine ⟨?_, fun i => ?_, by rw [hm]; nofun, .of_not_holds hs _, fun i => .of_not_holds (hp i) _⟩
  · rw [hs, hm]; simp
  · rw [hp i, hm]; simp

theorem sender_free (h : LockInv s) (hm : s.mutex ≠ some .sender) : s.sender.holds = false := by
  rw [← Bool.not_eq_true, h.sender]
  exact hm

theorem producer_free (h : LockInv s) {i : ι} (hm : s.mutex ≠ some (.producer i)) :
    (s.producers i).pc.holds = false := by
  rw [← Bool.not_eq_true, h.producer]
  exact hm

/-- The producers change, but not who is in a critical section, nor the mutex and the singleton. -/
theorem producers (h : LockInv s) {f : ι → Producer}
    (hf : ∀ i, (f i).pc.holds = (s.producers i).pc.holds ∧ (f i).pc.Guard s.writer) :
    LockInv { s with producers := f } :=
  ⟨h.sender, fun i => by rw [(hf i).1]; exact h.producer i, h.destructor, h.senderGuard,
    fun i => (hf i).2⟩

theorem notifyAll (h : LockInv s) :
    LockInv { s with producers := CondVar.notifyAll Producer.wake s.producers } := by
  refine h.producers fun i => ?_
  rcases CondVar.notifyAll_cases_at Producer.wake s.producers i with ⟨e, -⟩ | e
  · rw [e]; exact ⟨rfl, h.producerGuard i⟩
  · obtain ⟨m, hm, hq⟩ := Producer.wake_eq_some e
    rw [hq, hm]
    exact ⟨rfl, trivial⟩

/-- The destructor moves: it is never in a critical section. -/
theorem destructorMove (h : LockInv s) (pc : DestructorPc) : LockInv { s with destructor := pc } :=
  ⟨h.sender, h.producer, h.destructor, h.senderGuard, h.producerGuard⟩

/-- The sender moves outside the critical section, or inside it. -/
theorem senderKeep (h : LockInv s) (pc : SenderPc) (hh : pc.holds = s.sender.holds)
    (hg : pc.Guard s.writer) : LockInv { s with sender := pc } :=
  ⟨by rw [hh]; exact h.sender, h.producer, h.destructor, hg, h.producerGuard⟩

/-- The sender takes the mutex. -/
theorem senderAcquire (h : LockInv s) (hm : s.mutex = none) {pc : SenderPc}
    (hh : pc.holds = true) (hg : pc.Guard s.writer) :
    LockInv { s with sender := pc, mutex := some .sender } := by
  refine ⟨by simp [hh], fun i => ?_, nofun, hg, h.producerGuard⟩
  rw [h.producer_free (by rw [hm]; nofun)]
  simp

/-- The sender leaves its critical section; it may have changed the singleton there. -/
theorem senderRelease (h : LockInv s) (hs : s.sender.holds = true) {pc : SenderPc} (w : Writer)
    (hh : pc.holds = false) : LockInv { s with sender := pc, mutex := none, writer := w } := by
  refine of_free rfl hh fun i => h.producer_free ?_
  rw [h.sender.mp hs]
  nofun

variable [DecidableEq ι] {i : ι} {p : Producer}

theorem notifyOne (h : LockInv s) {f : ι → Producer}
    (hf : CondVar.NotifyOne Producer.wake s.producers f) : LockInv { s with producers := f } := by
  refine h.producers fun i => ?_
  rcases hf.cases_at i with e | e
  · rw [e]; exact ⟨rfl, h.producerGuard i⟩
  · obtain ⟨m, hm, hq⟩ := Producer.wake_eq_some e
    rw [hq, hm]
    exact ⟨rfl, trivial⟩

/-- A producer moves outside the critical section, or inside it. -/
theorem keep (h : LockInv s) (hh : p.pc.holds = (s.producers i).pc.holds)
    (hg : p.pc.Guard s.writer) : LockInv (s.setProducer i p) :=
  h.producers (CondVar.forall_update
    (P := fun j (q : Producer) => q.pc.holds = (s.producers j).pc.holds ∧ q.pc.Guard s.writer)
    ⟨hh, hg⟩ fun j _ => ⟨rfl, h.producerGuard j⟩)

/-- A producer takes the mutex. -/
theorem acquire (h : LockInv s) (hm : s.mutex = none) (hh : p.pc.holds = true)
    (hg : p.pc.Guard s.writer) :
    LockInv { s.setProducer i p with mutex := some (.producer i) } := by
  refine ⟨?_, CondVar.forall_update
      (P := fun j (q : Producer) =>
        q.pc.holds = true ↔ some (.producer i) = some (Thread.producer j))
      (by simp [hh]) fun j hj => ?_, nofun, h.senderGuard,
    CondVar.forall_update (P := fun _ (q : Producer) => q.pc.Guard s.writer) hg
      fun j _ => h.producerGuard j⟩
  · show s.sender.holds = true ↔ _
    rw [h.sender_free (by rw [hm]; nofun)]
    simp
  · rw [h.producer_free (by rw [hm]; nofun)]
    simp [Ne.symm hj]

/-- A producer leaves its critical section; it may have changed the singleton there. -/
theorem release (h : LockInv s) (hi : (s.producers i).pc.holds = true) (w : Writer)
    (hh : p.pc.holds = false) :
    LockInv { s.setProducer i p with mutex := none, writer := w } := by
  have hm := (h.producer i).mp hi
  refine of_free rfl (h.sender_free (by rw [hm]; nofun)) ?_
  refine CondVar.forall_update (P := fun _ (q : Producer) => q.pc.holds = false) hh
    fun j hj => h.producer_free ?_
  rw [hm]
  exact fun e => hj (by cases e; rfl)

end LockInv

theorem LockInv.start (w : Writer) (todo : ι → List Str) : LockInv (State.start w todo) := by
  refine .of_free rfl ?_ fun _ => rfl
  unfold State.start
  dsimp only
  split <;> rfl

section Steps

variable {s s' : State ι} {l : Label ι}

/-- A change of the fields that no wait reads. -/
theorem LockInv.writer (h : LockInv s) {w : Writer} (hb : w.buffer = s.writer.buffer)
    (hn : w.bufferSize = s.writer.bufferSize) (hd : w.shutdown = s.writer.shutdown) :
    LockInv { s with writer := w } := by
  have hp : ∀ pc : WritePc, pc.Guard s.writer → pc.Guard w := by
    intro pc hg
    cases pc <;> simp only [WritePc.Guard, hb, hn, hd] at hg ⊢ <;> exact hg
  have hs : ∀ pc : SenderPc, pc.Guard s.writer → pc.Guard w := by
    intro pc hg
    cases pc <;> simp only [SenderPc.Guard, hb, hn, hd] at hg ⊢ <;> exact hg
  exact ⟨h.sender, h.producer, h.destructor, hs _ h.senderGuard, fun i => hp _ (h.producerGuard i)⟩

variable [DecidableEq ι]

/-- Every step keeps the invariant of the critical sections. -/
theorem Step.lockInv (hst : Step s l s') (h : LockInv s) : LockInv s' := by
  cases hst with
  | uninitialized hi _ => exact h.keep (by rw [hi]) trivial
  | @nonBufferedWrite i m todo hi _ _ =>
    have h' := h.keep (i := i) (p := ⟨todo, .idle⟩) (by rw [hi]) trivial
    exact h'.writer rfl rfl rfl
  | bufferedWrite hi _ _ => exact h.keep (by rw [hi]; rfl) trivial
  | producerLock hi hm => exact h.acquire hm rfl trivial
  | producerReady hi hr =>
    exact h.keep (by rw [hi]; rfl) (Writer.receiverReady_iff.mp hr)
  | producerNotReady hi hr =>
    exact h.keep (by rw [hi]; rfl) (Writer.receiverReady_eq_false.mp hr).1
  | producerBlock hi => exact h.release (by rw [hi]; rfl) s.writer rfl
  | producerAbort hi _ => exact h.release (by rw [hi]; rfl) s.writer rfl
  | @producerPass i _ _ hi hd =>
    -- With `shutdown` not set, the predicate was true because of the buffer.
    have hg := h.producerGuard i
    rw [hi] at hg
    exact h.keep (by rw [hi]; rfl) (hg.resolve_right (by rw [hd]; nofun))
  | producerAppend hi => exact h.release (by rw [hi]; rfl) _ rfl
  | readFull hi _ => exact h.keep (by rw [hi]; rfl) trivial
  | readRoom hi _ => exact h.keep (by rw [hi]; rfl) trivial
  | @producerNotifySender i todo hi =>
    have h' := h.keep (i := i) (p := ⟨todo, .idle⟩) (by rw [hi]; rfl) trivial
    exact h'.senderKeep _ (SenderPc.holds_wake _) h.senderGuard.wake
  | @producerNotifyReceiver i todo f hi hf =>
    have h' := h.keep (i := i) (p := ⟨todo, .idle⟩) (by rw [hi]; rfl) trivial
    exact h'.notifyOne hf
  | producerSpurious hi => exact h.keep (by rw [hi]; rfl) trivial
  | senderLeave hs _ => exact h.senderKeep _ (by rw [hs]; rfl) trivial
  | senderEnter hs _ => exact h.senderKeep _ (by rw [hs]; rfl) trivial
  | senderLock hs hm => exact h.senderAcquire hm rfl trivial
  | senderReady hs hr => exact h.senderKeep _ (by rw [hs]; rfl) (Writer.senderReady_iff.mp hr)
  | senderNotReady hs hr =>
    exact h.senderKeep _ (by rw [hs]; rfl) (Writer.senderReady_eq_false.mp hr).1
  | senderBlock hs => exact h.senderRelease (by rw [hs]; rfl) s.writer rfl
  | senderReturn hs _ => exact h.senderRelease (by rw [hs]; rfl) s.writer rfl
  | senderPass hs hd =>
    have hg := h.senderGuard
    rw [hs] at hg
    exact h.senderKeep _ (by rw [hs]; rfl) (hg.resolve_right (by rw [hd]; nofun))
  | senderTake hs => exact h.senderRelease (by rw [hs]; rfl) _ rfl
  | @senderNotify message f hs hf =>
    have h' := h.senderKeep (.send message) (by rw [hs]; rfl) trivial
    exact h'.notifyOne hf
  | senderSend hs =>
    have h' := h.senderKeep .loop (by rw [hs]; rfl) trivial
    exact h'.writer rfl rfl rfl
  | senderSpurious hs => exact h.senderKeep _ (by rw [hs]; rfl) trivial
  | destructorShutdown _ _ =>
    exact ⟨h.sender, h.producer, h.destructor, h.senderGuard.shutdown,
      fun i => (h.producerGuard i).shutdown⟩
  | destructorUnbuffered _ _ | destructorUninitialized _ _ => exact h.destructorMove _
  | destructorNotifyReceiver _ => exact h.notifyAll.destructorMove _
  | destructorNotifySender _ =>
    have h' := h.senderKeep _ (SenderPc.holds_wake _) h.senderGuard.wake
    exact h'.destructorMove _
  | destructorJoin _ _ =>
    have h' := h.writer (w := { s.writer with sendingThread := false }) rfl rfl rfl
    exact h'.destructorMove _
  | destructorClose _ _ =>
    have h' := h.writer (w := s.writer.close) rfl rfl rfl
    exact h'.destructorMove _

end Steps

end Spectator
