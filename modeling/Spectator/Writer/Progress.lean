import Spectator.Writer.Lock

/-!
# Who can take a step

No thread but a waiting one needs another's help for ever: a thread in its own code can step, and a
thread at the lock can step or the holder of the mutex can.

* `CanStep`: a producer or the sender can take a step that is no spurious wakeup.
* `canStep_of_producer`, `canStep_of_sender`: a thread in its own code.
* `LockInv.canStep_of_producer`, `LockInv.canStep_of_sender`: a thread that may also be at the lock.
-/

namespace Spectator

/-- A producer that needs neither the mutex nor a notification for its next step. -/
def WritePc.runs : WritePc → Bool
  | .idle | .lock _ | .waiting _ => false
  | _ => true

/-- A sender that needs neither the mutex nor a notification for its next step. -/
def SenderPc.runs : SenderPc → Bool
  | .absent | .lock | .waiting | .exited => false
  | _ => true

theorem WritePc.runs_of_holds {pc : WritePc} (h : pc.holds = true) : pc.runs = true := by
  cases pc <;> first | rfl | exact h

theorem SenderPc.runs_of_holds {pc : SenderPc} (h : pc.holds = true) : pc.runs = true := by
  cases pc <;> first | rfl | exact h

variable {ι : Type} [DecidableEq ι] {s : State ι}

/-- A producer or the sender can take a step, without a spurious wakeup. -/
def CanStep (s : State ι) : Prop := ∃ l s', Notified s l s' ∧ l.thread ≠ .destructor

theorem canStep_of_producer {i : ι} (h : (s.producers i).pc.runs = true) : CanStep s := by
  have step : ∀ {s'}, Step s (.tau (.producer i)) s' → CanStep s :=
    fun hst => ⟨_, _, ⟨hst, rfl⟩, nofun⟩
  rcases hi : s.producers i with ⟨todo, pc⟩
  rw [hi] at h
  cases pc with
  | idle | lock | waiting => cases h
  | eval m =>
    cases hr : s.writer.receiverReady with
    | true => exact step (.producerReady hi hr)
    | false => exact step (.producerNotReady hi hr)
  | block m => exact step (.producerBlock hi)
  | check m =>
    cases hd : s.writer.shutdown with
    | true => exact step (.producerAbort hi hd)
    | false => exact step (.producerPass hi hd)
  | append m => exact ⟨_, _, ⟨.producerAppend hi, rfl⟩, nofun⟩
  | readSize =>
    rcases Nat.lt_or_ge s.writer.buffer.length s.writer.bufferSize with hr | hr
    · exact step (.readRoom hi hr)
    · exact step (.readFull hi hr)
  | notifySender => exact step (.producerNotifySender hi)
  | notifyReceiver =>
    obtain ⟨f, hf⟩ := CondVar.NotifyOne.total Producer.wake
      (Function.update s.producers i ⟨todo, .idle⟩)
    exact step (.producerNotifyReceiver hi hf)

theorem canStep_of_sender (h : s.sender.runs = true) : CanStep s := by
  have step : ∀ {s'}, Step s (.tau .sender) s' → CanStep s :=
    fun hst => ⟨_, _, ⟨hst, rfl⟩, nofun⟩
  cases hs : s.sender with
  | absent | lock | waiting | exited => rw [hs] at h; cases h
  | loop =>
    cases hd : s.writer.shutdown with
    | true => exact step (.senderLeave hs hd)
    | false => exact step (.senderEnter hs hd)
  | eval =>
    cases hr : s.writer.senderReady with
    | true => exact step (.senderReady hs hr)
    | false => exact step (.senderNotReady hs hr)
  | block => exact step (.senderBlock hs)
  | check =>
    cases hd : s.writer.shutdown with
    | true => exact step (.senderReturn hs hd)
    | false => exact step (.senderPass hs hd)
  | take => exact step (.senderTake hs)
  | notify message =>
    obtain ⟨f, hf⟩ := CondVar.NotifyOne.total Producer.wake s.producers
    exact step (.senderNotify hs hf)
  | send message => exact ⟨_, _, ⟨.senderSend hs, rfl⟩, nofun⟩

/-- The holder of the mutex can step. -/
theorem LockInv.canStep_of_held (h : LockInv s) (hm : s.mutex ≠ none) : CanStep s := by
  rcases Option.ne_none_iff_exists'.mp hm with ⟨_ | i | _, ht⟩
  · exact canStep_of_producer (WritePc.runs_of_holds ((h.producer _).mpr ht))
  · exact canStep_of_sender (SenderPc.runs_of_holds (h.sender.mpr ht))
  · exact absurd ht h.destructor

/-- A producer in `Write` that does not wait: it can step, or the holder of the mutex can. -/
theorem LockInv.canStep_of_producer (h : LockInv s) {i : ι} (hi : (s.producers i).pc ≠ .idle)
    (hw : ∀ m, (s.producers i).pc ≠ .waiting m) : CanStep s := by
  rcases hp : s.producers i with ⟨todo, pc⟩
  rw [hp] at hi hw
  cases pc with
  | idle => exact absurd rfl hi
  | waiting m => exact absurd rfl (hw m)
  | lock m =>
    by_cases hm : s.mutex = none
    · exact ⟨_, _, ⟨.producerLock hp hm, rfl⟩, nofun⟩
    · exact h.canStep_of_held hm
  | _ => exact Spectator.canStep_of_producer (i := i) (by rw [hp]; rfl)

/-- A sender that neither waits nor ended: it can step, or the holder of the mutex can. -/
theorem LockInv.canStep_of_sender (h : LockInv s) (ha : s.sender ≠ .absent)
    (hw : s.sender ≠ .waiting) (he : s.sender ≠ .exited) : CanStep s := by
  cases hs : s.sender with
  | absent => exact absurd hs ha
  | waiting => exact absurd hs hw
  | exited => exact absurd hs he
  | lock =>
    by_cases hm : s.mutex = none
    · exact ⟨_, _, ⟨.senderLock hs hm, rfl⟩, nofun⟩
    · exact h.canStep_of_held hm
  | _ => exact Spectator.canStep_of_sender (by rw [hs]; rfl)

end Spectator
