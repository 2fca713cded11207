import Spectator.Writer.Frame

/-!
# Initialising the singleton again

Sessions of the one `Writer`: calls of `Initialize`, and between them any `Write` calls, with the
producers and the sender interleaved in any way. Construction and thread start succeed; the
destructor does not run.

* `InitCall`: the arguments of a call; the writer type is one of the enumerators.
* `Outcome.initializeWriter`: a call of `Initialize` among the threads.
* `Session cs o`: the calls `cs` lead a fresh program to `o`.
* `Unbuffered`: what sessions without buffering keep. `Session.sticky`: what one buffered call
  leaves for ever.
* `initialize_asFresh_iff`: the last call leaves the fields as on a fresh singleton exactly if no
  call before it was buffered.
-/

namespace Spectator

/-- The arguments of a call of `Initialize`, with a supported writer type. -/
structure InitCall where
  type : WriterType
  param : Str
  port : Int
  bufferSize : Nat
  supported : ∀ v, type ≠ .other v

/-- The construction of the writer succeeds. -/
theorem InitCall.makeImpl (c : InitCall) :
    ∃ impl, Writer.makeImpl {} c.type c.param c.port = some impl ∧ impl.kind = c.type := by
  have hs : ∃ impl, Writer.makeImpl {} c.type c.param c.port = some impl := by
    cases ht : c.type with
    | memory => exact ⟨_, rfl⟩
    | udp => exact ⟨_, rfl⟩
    | unix => exact ⟨_, rfl⟩
    | other v => exact absurd ht (c.supported v)
  obtain ⟨impl, hi⟩ := hs
  exact ⟨impl, hi, Writer.makeImpl_kind hi⟩

/-- The program between two calls, or after `std::terminate`. -/
inductive Outcome (ι : Type) where
  | running (s : State ι)
  | terminated

variable {ι : Type}

/-- A call of `Initialize`. A new sender thread starts at the head of its loop. -/
def Outcome.initializeWriter (c : InitCall) : Outcome ι → Outcome ι
  | .terminated => .terminated
  | .running s =>
    match Writer.initializeWriter {} c.type c.param c.port c.bufferSize s.writer with
    | .returned w => .running { s with
        writer := w
        sender := if w.sendingThread && !s.writer.sendingThread then .loop else s.sender }
    | .threw w => .running { s with writer := w }
    | .terminated => .terminated

/-- The sender thread is running. -/
def SenderPc.running (pc : SenderPc) : Prop := pc ≠ .absent ∧ pc ≠ .exited

/-! ## One call -/

theorem initialize_unbuffered (s : State ι) {c : InitCall} (hn : c.bufferSize = 0) :
    ∃ impl, impl.kind = c.type ∧ (Outcome.running s).initializeWriter c = .running { s with
      writer := { s.writer with
        impl := some impl, implObject := s.writer.implObject + 1, currentType := c.type,
        writeImpl := .nonBufferedWrite } } := by
  obtain ⟨impl, hi, hk⟩ := c.makeImpl
  refine ⟨impl, hk, ?_⟩
  have hw : Writer.initializeWriter {} c.type c.param c.port c.bufferSize s.writer = .returned
      { s.writer with
        impl := some impl, implObject := s.writer.implObject + 1, currentType := c.type,
        writeImpl := .nonBufferedWrite } := by
    rw [Writer.initializeWriter, hi, hn]
    rfl
  rw [Outcome.initializeWriter, hw]
  simp

theorem initialize_buffered (s : State ι) {c : InitCall} (hn : 0 < c.bufferSize)
    (ht : s.writer.sendingThread = false) :
    ∃ impl, impl.kind = c.type ∧ (Outcome.running s).initializeWriter c = .running { s with
      writer := { s.writer with
        impl := some impl, implObject := s.writer.implObject + 1, currentType := c.type,
        bufferingEnabled := true, bufferSize := c.bufferSize, writeImpl := .bufferedWrite,
        sendingThread := true }
      sender := .loop } := by
  obtain ⟨impl, hi, hk⟩ := c.makeImpl
  refine ⟨impl, hk, ?_⟩
  have hw : Writer.initializeWriter {} c.type c.param c.port c.bufferSize s.writer = .returned
      { s.writer with
        impl := some impl, implObject := s.writer.implObject + 1, currentType := c.type,
        bufferingEnabled := true, bufferSize := c.bufferSize, writeImpl := .bufferedWrite,
        sendingThread := true } := by
    rw [Writer.initializeWriter, hi]
    simp [hn, ht]
  rw [Outcome.initializeWriter, hw]
  simp [ht]

/-- A second buffered call moves a thread onto one that is still joinable. -/
theorem initialize_terminated (s : State ι) {c : InitCall} (hn : 0 < c.bufferSize)
    (ht : s.writer.sendingThread = true) :
    (Outcome.running s).initializeWriter c = .terminated := by
  obtain ⟨impl, hi, -⟩ := c.makeImpl
  have hw : Writer.initializeWriter {} c.type c.param c.port c.bufferSize s.writer =
      .terminated := by
    rw [Writer.initializeWriter, hi]
    simp [hn, ht]
  rw [Outcome.initializeWriter, hw]

/-! ## The effect on a fresh singleton -/

/-- Buffering was never enabled: nothing but the writer object differs from a fresh program. -/
structure Unbuffered (s : State ι) : Prop where
  bufferingEnabled : s.writer.bufferingEnabled = false
  bufferSize : s.writer.bufferSize = 0
  buffer : s.writer.buffer = []
  writeImpl : s.writer.writeImpl = .nonBufferedWrite
  sendingThread : s.writer.sendingThread = false
  sender : s.sender = .absent
  idle : ∀ i, (s.producers i).pc = .idle

/-- The fields that `Initialize` is to set, and whether a sender thread is running. -/
structure SameFields (s s₀ : State ι) : Prop where
  bufferingEnabled : s.writer.bufferingEnabled = s₀.writer.bufferingEnabled
  bufferSize : s.writer.bufferSize = s₀.writer.bufferSize
  buffer : s.writer.buffer = s₀.writer.buffer
  writeImpl : s.writer.writeImpl = s₀.writer.writeImpl
  currentType : s.writer.currentType = s₀.writer.currentType
  kind : s.writer.impl.map Impl.kind = s₀.writer.impl.map Impl.kind
  sender : s.sender.running ↔ s₀.sender.running

/-- The program runs on after the call `c`, with the fields that `c` alone produces on a fresh
singleton. -/
def AsFresh (c : InitCall) (o : Outcome ι) : Prop :=
  ∃ s s₀, o = .running s ∧
    (Outcome.running (State.start {} fun _ : ι => [])).initializeWriter c = .running s₀ ∧
    SameFields s s₀

/-- After sessions without buffering, a call has the effect that it has on a fresh singleton. -/
theorem Unbuffered.asFresh {s : State ι} (h : Unbuffered s) (c : InitCall) :
    AsFresh c ((Outcome.running s).initializeWriter c) := by
  rcases Nat.eq_zero_or_pos c.bufferSize with hn | hn
  · obtain ⟨impl, hk, hi⟩ := initialize_unbuffered s hn
    obtain ⟨impl₀, hk₀, hi₀⟩ := initialize_unbuffered (State.start {} fun _ : ι => []) hn
    refine ⟨_, _, hi, hi₀, h.bufferingEnabled, h.bufferSize, h.buffer, rfl, rfl, ?_, ?_⟩
    · simp [hk, hk₀]
    · rw [h.sender]; rfl
  · obtain ⟨impl, hk, hi⟩ := initialize_buffered s hn h.sendingThread
    obtain ⟨impl₀, hk₀, hi₀⟩ := initialize_buffered (State.start {} fun _ : ι => []) hn rfl
    refine ⟨_, _, hi, hi₀, rfl, rfl, h.buffer, rfl, rfl, ?_, Iff.rfl⟩
    simp [hk, hk₀]

/-- With `bufferingEnabled` and a sender thread from before, no call has that effect. -/
theorem not_asFresh {s : State ι} (hb : s.writer.bufferingEnabled = true)
    (ht : s.writer.sendingThread = true) (c : InitCall) :
    ¬ AsFresh c ((Outcome.running s).initializeWriter c) := by
  rintro ⟨s', s₀, hs', hs₀, hf⟩
  rcases Nat.eq_zero_or_pos c.bufferSize with hn | hn
  · obtain ⟨impl, -, hi⟩ := initialize_unbuffered s hn
    obtain ⟨impl₀, -, hi₀⟩ := initialize_unbuffered (State.start {} fun _ : ι => []) hn
    rw [hi] at hs'
    rw [hi₀] at hs₀
    cases hs'
    cases hs₀
    -- The branch for size 0 does not reset `bufferingEnabled`.
    have hfield : s.writer.bufferingEnabled = false := hf.bufferingEnabled
    rw [hb] at hfield
    cases hfield
  · rw [initialize_terminated s hn ht] at hs'
    cases hs'

/-- What a call leaves that has the effect it has on a fresh singleton. -/
theorem AsFresh.law {c : InitCall} {o : Outcome ι} (h : AsFresh c o) : ∃ s, o = .running s ∧
    (s.writer.bufferingEnabled = true ↔ 0 < c.bufferSize) ∧
    (s.writer.writeImpl = .bufferedWrite ↔ 0 < c.bufferSize) ∧
    (s.sender.running ↔ 0 < c.bufferSize) ∧ s.writer.buffer = [] := by
  obtain ⟨s, s₀, hs, hs₀, hf⟩ := h
  refine ⟨s, hs, ?_⟩
  rw [hf.bufferingEnabled, hf.writeImpl, hf.sender, hf.buffer]
  rcases Nat.eq_zero_or_pos c.bufferSize with hn | hn
  · obtain ⟨impl, -, hi⟩ := initialize_unbuffered (State.start {} fun _ : ι => []) hn
    rw [hi] at hs₀
    cases hs₀
    simp [hn, State.start, SenderPc.running]
  · obtain ⟨impl, -, hi⟩ := initialize_buffered (State.start {} fun _ : ι => []) hn rfl
    rw [hi] at hs₀
    cases hs₀
    simp [hn, State.start, SenderPc.running]

/-! ## Sessions -/

variable [DecidableEq ι]

/-- The calls of `Initialize` so far, and where the program is after them and any steps. -/
inductive Session : List InitCall → Outcome ι → Prop
  | fresh (todo : ι → List Str) : Session [] (.running (State.start {} todo))
  | init {cs : List InitCall} {o : Outcome ι} (c : InitCall) : Session cs o →
      Session (cs ++ [c]) (o.initializeWriter c)
  | step {cs : List InitCall} {s s' : State ι} {l : Label ι} : Session cs (.running s) →
      Step s l s' → l.thread ≠ .destructor → Session cs (.running s')

theorem Unbuffered.step {s s' : State ι} {l : Label ι} (h : Unbuffered s) (hst : Step s l s')
    (hl : l.thread ≠ .destructor) : Unbuffered s' := by
  obtain ⟨hb, hn, hbuf, hw, ht, hs, hi⟩ := h
  have idle : ∀ (i : ι) (todo : List Str) (j : ι),
      (Function.update s.producers i ⟨todo, .idle⟩ j).pc = .idle := fun i todo =>
    CondVar.forall_update (P := fun _ (q : Producer) => q.pc = .idle) rfl fun j _ => hi j
  -- A producer that is not idle contradicts the invariant.
  have busy : ∀ {i : ι} {p : Producer}, s.producers i = p → p.pc ≠ .idle → False := by
    rintro i p rfl hp
    exact hp (hi i)
  cases hst with
  | uninitialized => exact ⟨hb, hn, hbuf, hw, ht, hs, idle _ _⟩
  | nonBufferedWrite => exact ⟨hb, hn, hbuf, hw, ht, hs, idle _ _⟩
  | bufferedWrite _ _ hw' => rw [hw] at hw'; cases hw'
  | producerLock hp | producerReady hp | producerNotReady hp | producerBlock hp | producerAbort hp
  | producerPass hp | producerAppend hp | readFull hp | readRoom hp | producerNotifySender hp
  | producerNotifyReceiver hp | producerSpurious hp => exact (busy hp nofun).elim
  | senderLeave hs' | senderEnter hs' | senderLock hs' | senderReady hs' | senderNotReady hs'
  | senderBlock hs' | senderReturn hs' | senderPass hs' | senderTake hs' | senderNotify hs'
  | senderSend hs' | senderSpurious hs' => exact absurd (hs.symm.trans hs') nofun
  | _ => exact absurd rfl hl

/-- Without a buffered call, the program runs on, and buffering was never enabled. -/
theorem Session.unbuffered {cs : List InitCall} {o : Outcome ι} (h : Session cs o)
    (hc : ∀ c ∈ cs, c.bufferSize = 0) : ∃ s, o = .running s ∧ Unbuffered s := by
  induction h with
  | fresh todo => exact ⟨_, rfl, rfl, rfl, rfl, rfl, rfl, rfl, fun _ => rfl⟩
  | @init cs o c _ ih =>
    obtain ⟨s, rfl, hu⟩ := ih fun c' hc' => hc c' (List.mem_append_left _ hc')
    obtain ⟨impl, -, hi⟩ := initialize_unbuffered s (hc c (by simp))
    exact ⟨_, hi, hu.bufferingEnabled, hu.bufferSize, hu.buffer, rfl, hu.sendingThread, hu.sender,
      hu.idle⟩
  | step _ hst hl ih =>
    obtain ⟨_, hs, hu⟩ := ih hc
    cases hs
    exact ⟨_, rfl, hu.step hst hl⟩

/-- One buffered call is for ever: `bufferingEnabled` and the sender thread are never reset. -/
theorem Session.sticky {cs : List InitCall} {o : Outcome ι} (h : Session cs o)
    (hc : ∃ c ∈ cs, 0 < c.bufferSize) : o = .terminated ∨
      ∃ s, o = .running s ∧ s.writer.bufferingEnabled = true ∧ s.writer.sendingThread = true := by
  induction h with
  | fresh todo => obtain ⟨c, hc, -⟩ := hc; cases hc
  | @init cs o c hses ih =>
    by_cases hearlier : ∃ c ∈ cs, 0 < c.bufferSize
    · rcases ih hearlier with rfl | ⟨s, rfl, hb, ht⟩
      · exact .inl rfl
      · rcases Nat.eq_zero_or_pos c.bufferSize with hn | hn
        · obtain ⟨impl, -, hi⟩ := initialize_unbuffered s hn
          exact .inr ⟨_, hi, hb, ht⟩
        · exact .inl (initialize_terminated s hn ht)
    · -- The call itself is the first buffered one.
      have hn : 0 < c.bufferSize := by
        obtain ⟨c', hc', hn⟩ := hc
        rcases List.mem_append.mp hc' with h | h
        · exact absurd ⟨c', h, hn⟩ hearlier
        · rw [List.mem_singleton.mp h] at hn; exact hn
      obtain ⟨s, rfl, hu⟩ := hses.unbuffered fun c' hc' => by
        by_contra hne
        exact hearlier ⟨c', hc', Nat.pos_of_ne_zero hne⟩
      obtain ⟨impl, -, hi⟩ := initialize_buffered s hn hu.sendingThread
      exact .inr ⟨_, hi, rfl, rfl⟩
  | step _ hst hl ih =>
    rcases ih hc with hs | ⟨_, hs, hb, ht⟩
    · cases hs
    · cases hs
      refine .inr ⟨_, rfl, ?_, ?_⟩
      · rw [hst.sameSetup.bufferingEnabled]; exact hb
      · rw [(hst.destructor_of_ne hl).2.2]; exact ht

/-- **When a call of `Initialize` does not depend on the history.** After any session, the next
call leaves the program running with the fields that it alone produces on a fresh singleton, if and
only if every call before it had buffer size 0; and then buffering is on exactly if its own size is
positive. -/
theorem initialize_asFresh_iff {cs : List InitCall} {o : Outcome ι} (h : Session cs o)
    (c : InitCall) :
    (AsFresh c (o.initializeWriter c) ↔ ∀ c' ∈ cs, c'.bufferSize = 0) ∧
      (AsFresh c (o.initializeWriter c) → ∃ s, o.initializeWriter c = .running s ∧
        (s.writer.bufferingEnabled = true ↔ 0 < c.bufferSize) ∧
        (s.writer.writeImpl = .bufferedWrite ↔ 0 < c.bufferSize) ∧
        (s.sender.running ↔ 0 < c.bufferSize) ∧ s.writer.buffer = []) := by
  refine ⟨⟨fun hf => ?_, fun hc => ?_⟩, AsFresh.law⟩
  · by_contra hne
    have hbuf : ∃ c' ∈ cs, 0 < c'.bufferSize := by
      obtain ⟨c', hc'⟩ := not_forall.mp hne
      obtain ⟨hm, hn⟩ := Classical.not_imp.mp hc'
      exact ⟨c', hm, Nat.pos_of_ne_zero hn⟩
    rcases h.sticky hbuf with rfl | ⟨s, rfl, hb, ht⟩
    · obtain ⟨s, s₀, hs, -⟩ := hf
      cases hs
    · exact not_asFresh hb ht c hf
  · obtain ⟨s, rfl, hu⟩ := h.unbuffered hc
    exact hu.asFresh c

theorem WriterType.memory_ne_other (v : Int) : WriterType.memory ≠ .other v := nofun

/-- `Initialize(WriterType::Memory, "", 0, bufferSize)`. -/
def InitCall.memory (bufferSize : Nat) : InitCall :=
  ⟨.memory, [], 0, bufferSize, WriterType.memory_ne_other⟩

/-- A call without buffering, a `Write`, then a call with buffering. -/
theorem initialize_asFresh_after_write : ∃ o : Outcome Unit,
    Session [.memory 0] o ∧ AsFresh (.memory 16) (o.initializeWriter (.memory 16)) := by
  have session : Session [.memory 0] _ := (Session.fresh fun _ : Unit => [str "x"]).init (.memory 0)
    |>.step (.nonBufferedWrite (i := ()) rfl nofun rfl) nofun
  exact ⟨_, session, (initialize_asFresh_iff session (.memory 16)).1.mpr (by decide)⟩

/-- A call depends on the history. After a buffered call, an unbuffered one leaves
`bufferingEnabled` set and the sender running, and a buffered one terminates the program. -/
theorem initialize_depends_on_history : ∃ o : Outcome Unit, Session [.memory 16] o ∧
    ¬ AsFresh (.memory 0) (o.initializeWriter (.memory 0)) ∧
    o.initializeWriter (.memory 16) = .terminated := by
  have session : Session [.memory 16] _ := (Session.fresh fun _ : Unit => []).init (.memory 16)
  exact ⟨_, session, not_asFresh rfl rfl _, rfl⟩

end Spectator
