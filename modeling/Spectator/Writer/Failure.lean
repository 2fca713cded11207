import Spectator.Writer.Progress

/-!
# When `Initialize` fails

`Initialize` assigns the fields of the singleton one after another, and its handler logs the
exception and throws it again; it restores nothing. The first assignment puts a new object into
`m_impl` and destroys the old one: whatever fails after it, the old writer is gone.

* `ImplFails`: the failure comes in the `switch`, before the first assignment.
* `initialize_threw_cases`: what each point of failure leaves.
* `initialize_threw_unchanged_iff`: when a failed call leaves the singleton as it was.
* `initialize_half_done`: a call that fails when it starts the thread; the second line that is
  written afterwards waits, and no sender comes.
-/

namespace Spectator

/-- The `switch` throws: the type is not supported, or the constructor throws. -/
def ImplFails (f : Writer.Faults) (type : WriterType) : Prop :=
  f.construct = true ∨ ∃ value, type = .other value

variable {f : Writer.Faults} {type : WriterType} {param : Str} {port : Int} {n : Nat}
  {w w' : Writer}

theorem makeImpl_eq_none_iff : Writer.makeImpl f type param port = none ↔ ImplFails f type := by
  unfold Writer.makeImpl ImplFails
  cases f.construct with
  | true => simp
  | false => cases type <;> simp

/-- The three points of failure: in the `switch`, nothing is assigned yet; at the `reserve`, a new
object is in `m_impl` and three more fields are assigned; at the start of the thread, `writeImpl` is
too. -/
theorem initialize_threw_cases
    (h : Writer.initializeWriter f type param port n w = .threw w') :
    ImplFails f type ∧ w' = w ∨ ∃ impl, Writer.makeImpl f type param port = some impl ∧
      w' = { w with
        impl := some impl, implObject := w.implObject + 1, currentType := type,
        bufferingEnabled := true, bufferSize := n,
        writeImpl := if f.reserve then w.writeImpl else .bufferedWrite } := by
  unfold Writer.initializeWriter at h
  cases hi : Writer.makeImpl f type param port with
  | none =>
    rw [hi] at h
    cases h
    exact .inl ⟨makeImpl_eq_none_iff.mp hi, rfl⟩
  | some impl =>
    refine .inr ⟨impl, rfl, ?_⟩
    rw [hi] at h
    dsimp only at h
    split at h
    · split at h
      · rename_i hr
        cases h
        rw [if_pos hr]
      · rename_i hr
        split at h
        · cases h
          rw [if_neg hr]
        · split at h <;> cases h
    · cases h

/-- Without a sender, nobody but the destructor wakes the only producer. -/
theorem not_canStep_of_waiting {s : State Unit} {m : Str} (hp : s.producers () = ⟨[], .waiting m⟩)
    (hs : s.sender = .absent) : ¬ CanStep s := by
  rintro ⟨l, s', ⟨hst, hl⟩, hd⟩
  cases hst with
  | uninitialized h | nonBufferedWrite h | bufferedWrite h | producerLock h | producerReady h
  | producerNotReady h | producerBlock h | producerAbort h | producerPass h | producerAppend h
  | readFull h | readRoom h | producerNotifySender h | producerNotifyReceiver h =>
    exact absurd (hp.symm.trans h) nofun
  | senderLeave h | senderEnter h | senderLock h | senderReady h | senderNotReady h
  | senderBlock h | senderReturn h | senderPass h | senderTake h | senderNotify h
  | senderSend h => exact absurd (hs.symm.trans h) nofun
  | producerSpurious | senderSpurious => cases hl
  | _ => exact hd rfl

/-- **When a failed `Initialize` leaves the singleton as it was**: exactly if it fails in the
`switch`; a later failure finds a new object in `m_impl`. And it leaves writes routed to
`BufferedWrite` without a sender thread exactly if there is no such thread and either they were
routed there before, or the failure comes after the `reserve`. -/
theorem initialize_threw_unchanged_iff
    (h : Writer.initializeWriter f type param port n w = .threw w') :
    (w' = w ↔ ImplFails f type) ∧
    ((w'.writeImpl = .bufferedWrite ∧ w'.sendingThread = false) ↔ w.sendingThread = false ∧
      (w.writeImpl = .bufferedWrite ∨ ¬ ImplFails f type ∧ f.reserve = false)) := by
  rcases initialize_threw_cases h with ⟨hf, rfl⟩ | ⟨impl, hi, rfl⟩
  · simp [hf, and_comm]
  · have hf : ¬ ImplFails f type := fun hf => by
      rw [makeImpl_eq_none_iff.mpr hf] at hi
      cases hi
    refine ⟨⟨fun he => ?_, fun hf' => absurd hf' hf⟩, ?_⟩
    · have hobject : w.implObject + 1 = w.implObject := congrArg Writer.implObject he
      omega
    · cases hr : f.reserve <;> simp [hf, and_comm]

/-- An unsupported type on a writer that is in use. -/
theorem initialize_threw_unsupported : ∃ w' : Writer,
    Writer.initializeWriter {} (.other 3) [] 0 16 (.buffered (.memory [str "x\n"]) 4) = .threw w' ∧
    w' = .buffered (.memory [str "x\n"]) 4 := by
  have h : Writer.initializeWriter {} (.other 3) [] 0 16 (.buffered (.memory [str "x\n"]) 4) =
    .threw _ := rfl
  exact ⟨_, h, (initialize_threw_unchanged_iff h).1.mpr (.inr ⟨3, rfl⟩)⟩

/-- A failed `Initialize` is half done. The thread cannot be started: the call throws, and
buffering is on without a sender. The first line that is written fills the buffer; the producer of
the second one blocks, and nobody but the destructor can step. -/
theorem initialize_half_done : ∃ w' : Writer,
    Writer.initializeWriter { startThread := true } .memory [] 0 1 {} = .threw w' ∧ w' ≠ {} ∧
    w'.writeImpl = .bufferedWrite ∧ w'.sendingThread = false ∧
    ∃ (tr : List (Label Unit)) (s : State Unit),
      Lts.Run Step (State.start w' fun _ => [str "x", str "y"]) tr s ∧
      s.producers () = ⟨[], .waiting (str "y")⟩ ∧ ¬ CanStep s := by
  refine ⟨_, rfl, by decide, rfl, rfl, ?_⟩
  have start : Lts.Run Step (State.start
    { impl := some (.memory []), implObject := 1, currentType := .memory, bufferingEnabled := true,
      bufferSize := 1, writeImpl := .bufferedWrite } fun _ : Unit => [str "x", str "y"]) [] _ := .nil
  have run := run_append start (i := ()) rfl nofun rfl rfl rfl rfl
    |>.snoc (.readFull (i := ()) rfl (by decide))
    |>.snoc (.producerNotifySender (i := ()) rfl)
    |>.snoc (.bufferedWrite (i := ()) rfl nofun rfl)
    |>.snoc (.producerLock (i := ()) rfl rfl)
    |>.snoc (.producerNotReady (i := ()) rfl rfl)
    |>.snoc (.producerBlock (i := ()) rfl)
  exact ⟨_, _, run, rfl, not_canStep_of_waiting rfl rfl⟩

end Spectator
