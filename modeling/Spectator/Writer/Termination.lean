import Mathlib.Algebra.BigOperators.Ring.Finset
import Spectator.Lib.Potential
import Spectator.Writer.Shutdown
import Spectator.Writer.Wakeup

/-!
# Termination

Finitely many producers, each with finitely many messages. Without spurious wakeups the threads come
to an end, whatever the scheduler does: no fairness is assumed.

* `State.potential`: what the threads have still to do. A thread that will notify pays for the
  wakeup, and an append pays for the batch that the sender will move out.
* `Step.potential`: every step that is no spurious wakeup lowers it.
* `notified_run_length`: a bound on the steps of every run. `notified_run_ends`: under any
  condition on the steps, the threads come to a state where none is left.
-/

open scoped BigOperators

namespace Spectator

/-- What a producer has still to do for its current message. -/
def WritePc.potential : WritePc → Nat
  | .idle => 0
  | .notifySender | .notifyReceiver => 4
  | .readSize => 5
  | .append _ | .waiting _ => 16
  | .check _ | .block _ => 17
  | .eval _ => 18
  | .lock _ => 19

def Producer.potential (p : Producer) : Nat := 20 * p.todo.length + p.pc.potential

/-- What the sender has still to do until it waits or ends, if it finds no full buffer. -/
def SenderPc.potential : SenderPc → Nat
  | .absent | .exited | .waiting | .take => 0
  | .block | .check => 1
  | .eval => 2
  | .lock => 3
  | .loop => 4
  | .send _ => 5
  | .notify _ => 9

/-- What the destructor has still to do, with `c` producers to notify. -/
def DestructorPc.potential (c : Nat) : DestructorPc → Nat
  | .done => 0
  | .close => 1
  | .join => 2
  | .notifySender => 6
  | .notifyReceiver => 7 + c * 3
  | .alive => 8 + c * 3

/-- What a buffer that is not empty will cost the sender. -/
def bufferPotential (buffer : Str) : Nat := if buffer = [] then 0 else 10

variable {ι : Type}

/-- Where the potential bounds the steps. -/
def Measured (s : State ι) : Prop := LockInv s ∧ Buffered s.writer

theorem Step.measured [DecidableEq ι] {s s' : State ι} {l : Label ι} (hst : Step s l s')
    (h : Measured s) : Measured s' :=
  ⟨hst.lockInv h.1, h.2.same hst.sameSetup⟩

theorem Measured.start {w : Writer} (hw : Buffered w) (todo : ι → List Str) :
    Measured (State.start w todo) :=
  ⟨.start w todo, hw⟩

variable [Fintype ι]

/-- What the producers have still to do. -/
def work (f : ι → Producer) : Nat := ∑ i, (f i).potential

/-- What all threads have still to do. -/
def State.potential (s : State ι) : Nat :=
  work s.producers + s.sender.potential + bufferPotential s.writer.buffer +
    s.destructor.potential (Fintype.card ι)

theorem Producer.potential_wake (p q : Producer) (h : p.wake = some q) :
    q.potential ≤ p.potential + 3 := by
  obtain ⟨m, hm, rfl⟩ := Producer.wake_eq_some h
  simp [Producer.potential, hm, WritePc.potential]

theorem SenderPc.potential_wake (pc : SenderPc) : pc.wake.potential ≤ pc.potential + 3 := by
  cases pc <;> simp [SenderPc.wake, SenderPc.potential]

theorem bufferPotential_le (buffer : Str) : bufferPotential buffer ≤ 10 := by
  unfold bufferPotential
  split <;> omega

theorem work_notifyAll (f : ι → Producer) :
    work (CondVar.notifyAll Producer.wake f) ≤ work f + Fintype.card ι * 3 :=
  CondVar.sum_notifyAll_le Producer.potential_wake f

/-- The potential at the start: 20 for each message, and 3 for each producer. -/
theorem State.potential_start (impl : Impl) (n : Nat) (todo : ι → List Str) :
    (State.start (Writer.buffered impl n) todo).potential =
      20 * (∑ i, (todo i).length) + 3 * Fintype.card ι + 12 := by
  have hwork : work (fun i => (⟨todo i, .idle⟩ : Producer)) = 20 * ∑ i, (todo i).length := by
    simp [work, Producer.potential, WritePc.potential, Finset.mul_sum]
  have hbuf : bufferPotential [] = 0 := rfl
  simp only [State.potential, State.start, Writer.buffered, if_true, hwork, hbuf,
    SenderPc.potential, DestructorPc.potential]
  omega

variable [DecidableEq ι]

theorem work_update {f : ι → Producer} {i : ι} {p : Producer} (hi : f i = p) (q : Producer) :
    work (Function.update f i q) + p.potential = work f + q.potential := by
  rw [← hi]
  exact CondVar.sum_update _ f i q

theorem work_notifyOne {f g : ι → Producer} (h : CondVar.NotifyOne Producer.wake f g) :
    work g ≤ work f + 3 :=
  h.sum_le Producer.potential_wake

variable {s s' : State ι} {l : Label ι}

/-- Every step lowers the potential, if it is no spurious wakeup. -/
theorem Step.potential (hst : Step s l s') (hl : l.isSpurious = false) (hi : LockInv s)
    (hn : 0 < s.writer.bufferSize) : 1 + s'.potential ≤ s.potential := by
  unfold State.potential
  -- A producer that pays for its own step only.
  have move : ∀ {i : ι} {p q : Producer} {a b c : Nat}, s.producers i = p →
      1 + q.potential ≤ p.potential →
      1 + (work (Function.update s.producers i q) + a + b + c) ≤ work s.producers + a + b + c := by
    intro i p q a b c hp hq
    have h := work_update hp q
    omega
  cases hst with
  | uninitialized hp | nonBufferedWrite hp | bufferedWrite hp =>
    refine move hp ?_
    simp only [Producer.potential, WritePc.potential, List.length_cons]
    omega
  | producerLock hp | producerReady hp | producerNotReady hp | producerBlock hp | producerAbort hp
  | producerPass hp | readFull hp | readRoom hp =>
    refine move hp ?_
    simp only [Producer.potential, WritePc.potential]
    omega
  | @producerAppend i m todo hp =>
    have h := work_update hp ⟨todo, .readSize⟩
    have hb := bufferPotential_le (Writer.appendLine s.writer.buffer m)
    simp only [Producer.potential, WritePc.potential] at h
    simp only [State.setProducer]
    omega
  | @producerNotifySender i todo hp =>
    have h := work_update hp ⟨todo, .idle⟩
    have hw := s.sender.potential_wake
    simp only [Producer.potential, WritePc.potential] at h
    simp only [State.setProducer]
    omega
  | @producerNotifyReceiver i todo f hp hf =>
    have h := work_update hp ⟨todo, .idle⟩
    have hw := work_notifyOne hf
    simp only [Producer.potential, WritePc.potential] at h
    dsimp only
    omega
  | producerSpurious | senderSpurious => cases hl
  | senderTake hs =>
    -- The buffer is not empty: the bound is positive, and the test was true.
    have hg : s.sender.Guard s.writer := hi.senderGuard
    rw [hs, SenderPc.Guard] at hg
    have hne : s.writer.buffer ≠ [] := List.length_pos_iff.mp (Nat.lt_of_lt_of_le hn hg)
    rw [hs]
    simp [SenderPc.potential, bufferPotential, hne]
    omega
  | senderNotify hs hf =>
    have hw := work_notifyOne hf
    rw [hs]
    simp only [SenderPc.potential]
    omega
  | senderLeave hs | senderEnter hs | senderLock hs | senderReady hs | senderNotReady hs
  | senderBlock hs | senderReturn hs | senderPass hs | senderSend hs =>
    rw [hs]
    simp only [SenderPc.potential, Writer.tryToSend]
    omega
  | destructorNotifyReceiver hd =>
    have hw := work_notifyAll s.producers
    rw [hd]
    simp only [DestructorPc.potential]
    omega
  | destructorNotifySender hd =>
    have hw := s.sender.potential_wake
    rw [hd]
    simp only [DestructorPc.potential]
    omega
  | destructorShutdown hd | destructorUnbuffered hd | destructorJoin hd | destructorClose hd
  | destructorUninitialized hd =>
    rw [hd]
    simp only [DestructorPc.potential, Writer.close]
    omega

/-! ## Runs -/

section Restricted

variable {ok : State ι → Label ι → Prop} {tr : List (Label ι)}

/-- The potential bounds the steps of a run without spurious wakeups. -/
theorem Measured.length_add_le (h0 : Measured s) (hok : ∀ s l, ok s l → l.isSpurious = false)
    (h : Lts.Run (Lts.restrict Step ok) s tr s') : tr.length + s'.potential ≤ s.potential := by
  refine h.length_add_le (I := Measured) h0 ?_ ?_
  · exact fun s₁ l s₂ hm hst => hst.1.measured hm
  · exact fun s₁ l s₂ hm hst => hst.1.potential (hok _ _ hst.2) hm.1 hm.2.pos

/-- The threads come to an end, whatever steps are left out. -/
theorem notified_run_ends (h0 : Measured s) (hok : ∀ s l, ok s l → l.isSpurious = false) :
    ∃ tr s', Lts.Run (Lts.restrict Step ok) s tr s' ∧ Lts.Stuck (Lts.restrict Step ok) s' := by
  refine Lts.exists_stuck (I := Measured) (μ := State.potential) h0 ?_ ?_
  · exact fun s₁ l s₂ hm hst => hst.1.measured hm
  · exact fun s₁ l s₂ hm hst => hst.1.potential (hok _ _ hst.2) hm.1 hm.2.pos

end Restricted

/-- **Every run is bounded.** After one `Initialize` with a positive buffer size, the threads take
at most 20 steps for each message and 3 for each producer, and 12 more, in any interleaving without
spurious wakeups. No thread spins, and no notification goes round in a circle. -/
theorem notified_run_length {f : Writer.Faults} {type : WriterType} {param : Str} {port : Int}
    {n : Nat} {w : Writer} (hw : Writer.initializeWriter f type param port n {} = .returned w)
    (hn : 0 < n) {todo : ι → List Str} {tr : List (Label ι)}
    (h : Lts.Run Notified (State.start w todo) tr s) :
    tr.length ≤ 20 * (∑ i, (todo i).length) + 3 * Fintype.card ι + 12 := by
  obtain ⟨impl, -, rfl⟩ := Writer.eq_buffered hw hn
  have hle := (Measured.start (.fresh impl hn) todo).length_add_le (fun _ _ hok => hok) h
  rw [State.potential_start] at hle
  omega

/-- One producer, one message: the run up to its append. -/
theorem notified_run_length_append : ∃ (tr : List (Label Unit)) (s : State Unit),
    Lts.Run Notified (State.start (Writer.buffered (.memory []) 16) fun _ => [str "x"]) tr s ∧
    appended tr = [str "x"] ∧
    tr.length ≤ 20 * (∑ _i : Unit, [str "x"].length) + 3 * Fintype.card Unit + 12 := by
  have start : Lts.Run Notified (State.start (Writer.buffered (.memory []) 16)
    fun _ : Unit => [str "x"]) [] _ := .nil
  have run := start
    |>.snoc ⟨.bufferedWrite (i := ()) rfl nofun rfl, rfl⟩
    |>.snoc ⟨.producerLock (i := ()) rfl rfl, rfl⟩
    |>.snoc ⟨.producerReady (i := ()) rfl rfl, rfl⟩
    |>.snoc ⟨.producerPass (i := ()) rfl rfl, rfl⟩
    |>.snoc ⟨.producerAppend (i := ()) rfl, rfl⟩
  have hw := Writer.initializeWriter_memory (n := 16) (by decide)
  exact ⟨_, _, run, rfl, notified_run_length hw (by decide) run⟩

end Spectator
