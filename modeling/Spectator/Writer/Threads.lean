import Spectator.Lib.CondVar
import Spectator.Lib.Lts
import Spectator.Writer.Writer

/-!
# The threads of the writer

The concurrent model of `writer.cpp`: any number of producers that call `Write`, the sender thread
in `ThreadSend`, and the destructor. A state is the singleton, the holder of `writeMutex` and where
each thread is in its code; a step is one atomic action of one thread.

* `wait(lock, pred)` is a loop of two steps: the predicate is evaluated with the mutex held
  (`eval`), and then, if it was false, the thread blocks and releases the mutex (`block`).
* The read of `buffer.size()` after the critical section of `BufferedWrite` and the notify that it
  picks are steps of their own, without the mutex.
* `notify_one` wakes an arbitrary waiter (`CondVar.NotifyOne`). A spurious wakeup is a step with its
  own label.
* `~Writer` sets `shutdown` and notifies without the mutex. The model ends with its body: what
  the destruction of the members does after it (the object behind `m_impl` closes itself once more,
  and a condition variable with waiters may block) is not in it.

A step shows the event it makes (`Event`): an append to the buffer, a `Write` or `Close` on
`m_impl`, or the store to `shutdown`. `Notified` leaves the spurious wakeups out. `run_append` is
the run of one `BufferedWrite` that finds room, and `run_send` that of one batch.
-/

namespace Spectator

/-- Where a producer is in `Write` and `BufferedWrite`. -/
inductive WritePc where
  /-- Between two calls of `Write`. -/
  | idle
  /-- At the lock of `writeMutex`, or woken in the wait and about to take the mutex again. -/
  | lock (message : Str)
  /-- At the predicate of the wait, with the mutex. -/
  | eval (message : Str)
  /-- The predicate was false; about to block, with the mutex. -/
  | block (message : Str)
  /-- Blocked on `cv_receiver`. -/
  | waiting (message : Str)
  /-- After the wait, at the check of `shutdown`, with the mutex. -/
  | check (message : Str)
  /-- At the append, with the mutex. -/
  | append (message : Str)
  /-- After the critical section, at the read of `buffer.size()`. -/
  | readSize
  | notifySender
  | notifyReceiver
  deriving DecidableEq

/-- A producer: the messages it has still to write, and where it is. -/
structure Producer where
  todo : List Str
  pc : WritePc
  deriving DecidableEq

/-- Where the sender thread is in `ThreadSend`. -/
inductive SenderPc where
  /-- There is no sender thread. -/
  | absent
  /-- At the condition of the `while`. -/
  | loop
  | lock
  | eval
  | block
  /-- Blocked on `cv_sender`. -/
  | waiting
  | check
  /-- At the move of `buffer` into `message`, with the mutex. -/
  | take
  | notify (message : Str)
  | send (message : Str)
  | exited
  deriving DecidableEq

/-- Where the destructor is. -/
inductive DestructorPc where
  /-- `~Writer` has not started. -/
  | alive
  | notifyReceiver
  | notifySender
  | join
  | close
  /-- At the end of the body of `~Writer`; the destruction of the members is to come. -/
  | done
  deriving DecidableEq

/-- A thread of the program. -/
inductive Thread (ι : Type) where
  | producer (i : ι)
  | sender
  | destructor
  deriving DecidableEq

/-- What an observer sees. -/
inductive Event where
  /-- The append of a message to `buffer` completed. -/
  | append (message : Str)
  /-- `m_impl->Write(text)`. -/
  | write (text : Str)
  /-- `shutdown.store(true)`. -/
  | shutdown
  /-- `m_impl->Close()`. -/
  | close
  deriving DecidableEq

/-- The label of a step. -/
inductive Label (ι : Type) where
  | tau (t : Thread ι)
  | event (t : Thread ι) (e : Event)
  /-- Thread `t` leaves its wait without a notification. -/
  | spurious (t : Thread ι)
  deriving DecidableEq

namespace Label

variable {ι : Type}

def thread : Label ι → Thread ι
  | .tau t => t
  | .event t _ => t
  | .spurious t => t

def isSpurious : Label ι → Bool
  | .spurious _ => true
  | _ => false

end Label

/-- A state: the singleton, the holder of `writeMutex`, the threads. -/
structure State (ι : Type) where
  writer : Writer
  mutex : Option (Thread ι)
  producers : ι → Producer
  sender : SenderPc
  destructor : DestructorPc

/-- The critical section of a producer. -/
def WritePc.holds : WritePc → Bool
  | .eval _ | .block _ | .check _ | .append _ => true
  | _ => false

/-- The critical section of the sender. -/
def SenderPc.holds : SenderPc → Bool
  | .eval | .block | .check | .take => true
  | _ => false

/-- A producer that waits on `cv_receiver`, after its wakeup. -/
def Producer.wake (p : Producer) : Option Producer :=
  match p.pc with
  | .waiting message => some { p with pc := .lock message }
  | _ => none

/-- The sender after a notify of `cv_sender`, where only it can wait. -/
def SenderPc.wake : SenderPc → SenderPc
  | .waiting => .lock
  | pc => pc

/-- The batch that the sender has moved out and not yet sent. -/
def SenderPc.inFlight : SenderPc → List Str
  | .notify message | .send message => [message]
  | _ => []

namespace State

variable {ι : Type} [DecidableEq ι]

/-- The state with producer `i` at `p`. -/
def setProducer (s : State ι) (i : ι) (p : Producer) : State ι :=
  { s with producers := Function.update s.producers i p }

/-- The threads when the writer is `w`: each producer has its messages before it, and the sender
thread has started if there is one. -/
def start (w : Writer) (todo : ι → List Str) : State ι where
  writer := w
  mutex := none
  producers i := ⟨todo i, .idle⟩
  sender := if w.sendingThread then .loop else .absent
  destructor := .alive

end State

variable {ι : Type} [DecidableEq ι]

/-- The atomic steps of the threads. -/
inductive Step : State ι → Label ι → State ι → Prop
  -- `Write`: the null check of `m_impl`, then the call through `writeImpl`.
  | uninitialized {s : State ι} {i : ι} {m : Str} {todo : List Str} :
      s.producers i = ⟨m :: todo, .idle⟩ → s.writer.impl = none →
      Step s (.tau (.producer i)) (s.setProducer i ⟨todo, .idle⟩)
  | nonBufferedWrite {s : State ι} {i : ι} {m : Str} {todo : List Str} :
      s.producers i = ⟨m :: todo, .idle⟩ → s.writer.impl ≠ none →
      s.writer.writeImpl = .nonBufferedWrite →
      Step s (.event (.producer i) (.write (Writer.nonBufferedText m)))
        { s.setProducer i ⟨todo, .idle⟩ with
          writer := s.writer.tryToSend (Writer.nonBufferedText m) }
  | bufferedWrite {s : State ι} {i : ι} {m : Str} {todo : List Str} :
      s.producers i = ⟨m :: todo, .idle⟩ → s.writer.impl ≠ none →
      s.writer.writeImpl = .bufferedWrite →
      Step s (.tau (.producer i)) (s.setProducer i ⟨todo, .lock m⟩)
  -- `BufferedWrite`: the critical section.
  | producerLock {s : State ι} {i : ι} {m : Str} {todo : List Str} :
      s.producers i = ⟨todo, .lock m⟩ → s.mutex = none →
      Step s (.tau (.producer i))
        { s.setProducer i ⟨todo, .eval m⟩ with mutex := some (.producer i) }
  | producerReady {s : State ι} {i : ι} {m : Str} {todo : List Str} :
      s.producers i = ⟨todo, .eval m⟩ → s.writer.receiverReady = true →
      Step s (.tau (.producer i)) (s.setProducer i ⟨todo, .check m⟩)
  | producerNotReady {s : State ι} {i : ι} {m : Str} {todo : List Str} :
      s.producers i = ⟨todo, .eval m⟩ → s.writer.receiverReady = false →
      Step s (.tau (.producer i)) (s.setProducer i ⟨todo, .block m⟩)
  | producerBlock {s : State ι} {i : ι} {m : Str} {todo : List Str} :
      s.producers i = ⟨todo, .block m⟩ →
      Step s (.tau (.producer i)) { s.setProducer i ⟨todo, .waiting m⟩ with mutex := none }
  | producerAbort {s : State ι} {i : ι} {m : Str} {todo : List Str} :
      s.producers i = ⟨todo, .check m⟩ → s.writer.shutdown = true →
      Step s (.tau (.producer i)) { s.setProducer i ⟨todo, .idle⟩ with mutex := none }
  | producerPass {s : State ι} {i : ι} {m : Str} {todo : List Str} :
      s.producers i = ⟨todo, .check m⟩ → s.writer.shutdown = false →
      Step s (.tau (.producer i)) (s.setProducer i ⟨todo, .append m⟩)
  | producerAppend {s : State ι} {i : ι} {m : Str} {todo : List Str} :
      s.producers i = ⟨todo, .append m⟩ →
      Step s (.event (.producer i) (.append m))
        { s.setProducer i ⟨todo, .readSize⟩ with
          writer := { s.writer with buffer := Writer.appendLine s.writer.buffer m }
          mutex := none }
  -- `BufferedWrite`: the read and the notify after the critical section.
  | readFull {s : State ι} {i : ι} {todo : List Str} :
      s.producers i = ⟨todo, .readSize⟩ → s.writer.buffer.length ≥ s.writer.bufferSize →
      Step s (.tau (.producer i)) (s.setProducer i ⟨todo, .notifySender⟩)
  | readRoom {s : State ι} {i : ι} {todo : List Str} :
      s.producers i = ⟨todo, .readSize⟩ → s.writer.buffer.length < s.writer.bufferSize →
      Step s (.tau (.producer i)) (s.setProducer i ⟨todo, .notifyReceiver⟩)
  | producerNotifySender {s : State ι} {i : ι} {todo : List Str} :
      s.producers i = ⟨todo, .notifySender⟩ →
      Step s (.tau (.producer i)) { s.setProducer i ⟨todo, .idle⟩ with sender := s.sender.wake }
  | producerNotifyReceiver {s : State ι} {i : ι} {todo : List Str} {f : ι → Producer} :
      s.producers i = ⟨todo, .notifyReceiver⟩ →
      CondVar.NotifyOne Producer.wake (Function.update s.producers i ⟨todo, .idle⟩) f →
      Step s (.tau (.producer i)) { s with producers := f }
  | producerSpurious {s : State ι} {i : ι} {m : Str} {todo : List Str} :
      s.producers i = ⟨todo, .waiting m⟩ →
      Step s (.spurious (.producer i)) (s.setProducer i ⟨todo, .lock m⟩)
  -- `ThreadSend`.
  | senderLeave {s : State ι} : s.sender = .loop → s.writer.shutdown = true →
      Step s (.tau .sender) { s with sender := .exited }
  | senderEnter {s : State ι} : s.sender = .loop → s.writer.shutdown = false →
      Step s (.tau .sender) { s with sender := .lock }
  | senderLock {s : State ι} : s.sender = .lock → s.mutex = none →
      Step s (.tau .sender) { s with sender := .eval, mutex := some .sender }
  | senderReady {s : State ι} : s.sender = .eval → s.writer.senderReady = true →
      Step s (.tau .sender) { s with sender := .check }
  | senderNotReady {s : State ι} : s.sender = .eval → s.writer.senderReady = false →
      Step s (.tau .sender) { s with sender := .block }
  | senderBlock {s : State ι} : s.sender = .block →
      Step s (.tau .sender) { s with sender := .waiting, mutex := none }
  | senderReturn {s : State ι} : s.sender = .check → s.writer.shutdown = true →
      Step s (.tau .sender) { s with sender := .exited, mutex := none }
  | senderPass {s : State ι} : s.sender = .check → s.writer.shutdown = false →
      Step s (.tau .sender) { s with sender := .take }
  | senderTake {s : State ι} : s.sender = .take →
      Step s (.tau .sender) { s with
        sender := .notify s.writer.buffer
        writer := { s.writer with buffer := [] }
        mutex := none }
  | senderNotify {s : State ι} {message : Str} {f : ι → Producer} :
      s.sender = .notify message → CondVar.NotifyOne Producer.wake s.producers f →
      Step s (.tau .sender) { s with sender := .send message, producers := f }
  | senderSend {s : State ι} {message : Str} : s.sender = .send message →
      Step s (.event .sender (.write message))
        { s with sender := .loop, writer := s.writer.tryToSend message }
  | senderSpurious {s : State ι} : s.sender = .waiting →
      Step s (.spurious .sender) { s with sender := .lock }
  -- `~Writer`.
  | destructorShutdown {s : State ι} : s.destructor = .alive → s.writer.bufferingEnabled = true →
      Step s (.event .destructor .shutdown)
        { s with destructor := .notifyReceiver, writer := { s.writer with shutdown := true } }
  | destructorUnbuffered {s : State ι} : s.destructor = .alive →
      s.writer.bufferingEnabled = false → Step s (.tau .destructor) { s with destructor := .close }
  | destructorNotifyReceiver {s : State ι} : s.destructor = .notifyReceiver →
      Step s (.tau .destructor) { s with
        destructor := .notifySender
        producers := CondVar.notifyAll Producer.wake s.producers }
  | destructorNotifySender {s : State ι} : s.destructor = .notifySender →
      Step s (.tau .destructor) { s with destructor := .join, sender := s.sender.wake }
  | destructorJoin {s : State ι} : s.destructor = .join →
      (s.writer.sendingThread = true → s.sender = .exited) →
      Step s (.tau .destructor)
        { s with destructor := .close, writer := { s.writer with sendingThread := false } }
  | destructorClose {s : State ι} : s.destructor = .close → s.writer.impl ≠ none →
      Step s (.event .destructor .close) { s with destructor := .done, writer := s.writer.close }
  | destructorUninitialized {s : State ι} : s.destructor = .close → s.writer.impl = none →
      Step s (.tau .destructor) { s with destructor := .done }

/-- The steps without spurious wakeups. -/
def Notified : State ι → Label ι → State ι → Prop :=
  Lts.restrict Step fun _ l => l.isSpurious = false

/-- The labels of a `BufferedWrite` that finds room, up to its append. -/
def appendLabels (i : ι) (m : Str) : List (Label ι) :=
  [.tau (.producer i), .tau (.producer i), .tau (.producer i), .tau (.producer i),
    .event (.producer i) (.append m)]

/-- A `BufferedWrite` that finds room: the steps of one producer from the call to the append,
with no step of another thread between them. -/
theorem run_append {s₀ s : State ι} {tr : List (Label ι)} {i : ι} {m : Str} {todo : List Str}
    (h : Lts.Run Step s₀ tr s) (hp : s.producers i = ⟨m :: todo, .idle⟩)
    (hi : s.writer.impl ≠ none) (hw : s.writer.writeImpl = .bufferedWrite) (hm : s.mutex = none)
    (hr : s.writer.receiverReady = true) (hd : s.writer.shutdown = false) :
    Lts.Run Step s₀ (tr ++ appendLabels i m)
      { s.setProducer i ⟨todo, .readSize⟩ with
        writer := { s.writer with buffer := Writer.appendLine s.writer.buffer m }
        mutex := none } := by
  have run := h
    |>.snoc (.bufferedWrite hp hi hw)
    |>.snoc (.producerLock (i := i) (Function.update_self ..) hm)
    |>.snoc (.producerReady (i := i) (Function.update_self ..) hr)
    |>.snoc (.producerPass (i := i) (Function.update_self ..) hd)
    |>.snoc (.producerAppend (i := i) (Function.update_self ..))
  simp only [State.setProducer, Function.update_idem, List.append_assoc] at run
  exact run

/-- The labels of a round of `ThreadSend` that finds a full buffer, from its lock on. -/
def sendLabels (message : Str) : List (Label ι) :=
  [.tau .sender, .tau .sender, .tau .sender, .tau .sender, .tau .sender,
    .event .sender (.write message)]

/-- A round of `ThreadSend` that finds a full buffer: the steps of the sender from its lock to
the send, with no step of another thread between them and no producer that waits. -/
theorem run_send {s₀ s : State ι} {tr : List (Label ι)} (h : Lts.Run Step s₀ tr s)
    (hs : s.sender = .lock) (hm : s.mutex = none) (hr : s.writer.senderReady = true)
    (hd : s.writer.shutdown = false) (hw : ∀ i, (s.producers i).wake = none) :
    Lts.Run Step s₀ (tr ++ sendLabels s.writer.buffer)
      { s with
        sender := .loop
        writer := ({ s.writer with buffer := [] } : Writer).tryToSend s.writer.buffer
        mutex := none } := by
  have run := h
    |>.snoc (.senderLock hs hm)
    |>.snoc (.senderReady rfl hr)
    |>.snoc (.senderPass rfl hd)
    |>.snoc (.senderTake rfl)
    |>.snoc (.senderNotify rfl (.nobody hw))
    |>.snoc (.senderSend rfl)
  simp only [List.append_assoc] at run
  exact run

end Spectator
