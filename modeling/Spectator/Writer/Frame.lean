import Spectator.Writer.Threads

/-!
# What a step leaves alone

Frame facts of the steps: the setup of the singleton never changes, `shutdown` is never reset, and
a thread moves another one only by waking it.

* `SameSetup`, `Step.sameSetup`: the fields that only `Initialize` writes.
* `Buffered`: what a buffered `Initialize` leaves and every step keeps.
* `Step.shutdown_mono`, `Step.destructor_of_ne`: `shutdown` and the destructor, seen from outside.
* `Step.exited`, `Step.present`: a sender that returned from `ThreadSend` never comes back, and one
  that started never disappears.
-/

namespace Spectator

/-- What no step changes: how the singleton was set up. -/
structure SameSetup (w w' : Writer) : Prop where
  writeImpl : w'.writeImpl = w.writeImpl
  implObject : w'.implObject = w.implObject
  currentType : w'.currentType = w.currentType
  kind : w'.impl.map Impl.kind = w.impl.map Impl.kind
  bufferingEnabled : w'.bufferingEnabled = w.bufferingEnabled
  bufferSize : w'.bufferSize = w.bufferSize

theorem SameSetup.tryToSend (w : Writer) (message : Str) : SameSetup w (w.tryToSend message) := by
  refine ⟨rfl, rfl, rfl, ?_, rfl, rfl⟩
  cases h : w.impl <;> simp [Writer.tryToSend, h]

theorem SameSetup.close (w : Writer) : SameSetup w w.close := by
  refine ⟨rfl, rfl, rfl, ?_, rfl, rfl⟩
  cases h : w.impl <;> simp [Writer.close, h]

theorem SameSetup.impl_eq_none {w w' : Writer} (h : SameSetup w w') :
    w'.impl = none ↔ w.impl = none := by
  have hk := h.kind
  constructor
  · intro hn
    rw [hn] at hk
    simpa using hk.symm
  · intro hn
    rw [hn] at hk
    simpa using hk

/-- A buffered `Initialize` has set up the singleton. -/
structure Buffered (w : Writer) : Prop where
  writeImpl : w.writeImpl = .bufferedWrite
  impl : w.impl ≠ none
  bufferingEnabled : w.bufferingEnabled = true
  pos : 0 < w.bufferSize

theorem Buffered.same {w w' : Writer} (h : Buffered w) (hs : SameSetup w w') : Buffered w' where
  writeImpl := by rw [hs.writeImpl]; exact h.writeImpl
  impl hn := h.impl (hs.impl_eq_none.mp hn)
  bufferingEnabled := by rw [hs.bufferingEnabled]; exact h.bufferingEnabled
  pos := by rw [hs.bufferSize]; exact h.pos

theorem Buffered.not_nonBuffered {w : Writer} (h : Buffered w) :
    w.writeImpl ≠ .nonBufferedWrite := by
  rw [h.writeImpl]
  nofun

theorem Buffered.fresh (impl : Impl) {n : Nat} (hn : 0 < n) :
    Buffered (Writer.buffered impl n) :=
  ⟨rfl, nofun, rfl, hn⟩

section Steps

variable {ι : Type} [DecidableEq ι] {s s' : State ι} {l : Label ι}

/-- No step changes the setup. -/
theorem Step.sameSetup (hst : Step s l s') : SameSetup s.writer s'.writer := by
  cases hst with
  | nonBufferedWrite => exact .tryToSend _ _
  | senderSend => exact .tryToSend _ _
  | destructorClose => exact .close _
  | _ => exact ⟨rfl, rfl, rfl, rfl, rfl, rfl⟩

theorem Step.shutdown_mono (hst : Step s l s') (h : s.writer.shutdown = true) :
    s'.writer.shutdown = true := by
  cases hst with
  | destructorShutdown => rfl
  | _ => exact h

theorem Step.shutdown_eq_false (hst : Step s l s') (h : s'.writer.shutdown = false) :
    s.writer.shutdown = false := by
  rw [← Bool.not_eq_true]
  intro ht
  rw [hst.shutdown_mono ht] at h
  cases h

/-- Only the destructor moves itself, sets `shutdown` and joins the sender thread. -/
theorem Step.destructor_of_ne (hst : Step s l s') (hl : l.thread ≠ .destructor) :
    s'.destructor = s.destructor ∧ s'.writer.shutdown = s.writer.shutdown ∧
      s'.writer.sendingThread = s.writer.sendingThread := by
  cases hst with
  | destructorShutdown | destructorUnbuffered | destructorNotifyReceiver | destructorNotifySender
  | destructorJoin | destructorClose | destructorUninitialized => exact absurd rfl hl
  | _ => exact ⟨rfl, rfl, rfl⟩

/-- A sender thread that ended stays ended. -/
theorem Step.exited (hst : Step s l s') (h : s.sender = .exited) : s'.sender = .exited := by
  cases hst with
  | senderLeave hs | senderEnter hs | senderLock hs | senderReady hs | senderNotReady hs
  | senderBlock hs | senderReturn hs | senderPass hs | senderTake hs | senderNotify hs
  | senderSend hs | senderSpurious hs => exact absurd (h.symm.trans hs) nofun
  | producerNotifySender | destructorNotifySender =>
    show s.sender.wake = .exited
    rw [h]
    rfl
  | _ => exact h

/-- A sender thread that has started stays there. -/
theorem Step.present (hst : Step s l s') (h : s.sender ≠ .absent) : s'.sender ≠ .absent := by
  cases hst with
  | producerNotifySender | destructorNotifySender =>
    show s.sender.wake ≠ .absent
    revert h
    cases s.sender <;> first | exact id | exact fun _ => nofun
  | senderLeave | senderEnter | senderLock | senderReady | senderNotReady | senderBlock
  | senderReturn | senderPass | senderTake | senderNotify | senderSend | senderSpurious => nofun
  | _ => exact h

end Steps

end Spectator
