import Spectator.Writer.Delivery

/-!
# The buffered mode refines the unbuffered mode

The unbuffered mode is the specification of `Write`: a message leaves the producer as one line, in
one step. The buffered mode, with its waits, its sender thread and its shutdown, accepts the lines
of some unbuffered run, in the same order.

* `Label.accepted`: the line that a step takes over from a producer, and from which one.
* `Refines`: each producer of the buffered mode is where its unbuffered counterpart is, except that
  a message that `shutdown` dropped is still to be written there (`Follows`).
* `step_refines`: an append is one unbuffered write, every other step is none.
* `buffered_refines_nonBuffered`, `accepted_in_program_order`: the results over whole runs.
-/

namespace Spectator

variable {ι : Type}

/-- The line that the step takes over from a producer, and which one. -/
def Label.accepted : Label ι → List (ι × Str)
  | .event (.producer i) (.append message) => [(i, Writer.nonBufferedText message)]
  | .event (.producer i) (.write text) => [(i, text)]
  | _ => []

/-- The lines taken over from the producers, in order. -/
def accepted (tr : List (Label ι)) : List (ι × Str) := tr.flatMap Label.accepted

/-- The lines taken over from producer `i`. -/
def acceptedBy [DecidableEq ι] (i : ι) (tr : List (Label ι)) : List Str :=
  (accepted tr).filterMap fun a => if a.1 = i then some a.2 else none

/-- The message of the call that a producer is in. -/
def WritePc.message : WritePc → List Str
  | .lock m | .eval m | .block m | .waiting m | .check m | .append m => [m]
  | _ => []

/-- The messages that a producer has still to hand over. -/
def Producer.ahead (p : Producer) : List Str := p.pc.message ++ p.todo

/-- Past the check of `shutdown`. -/
def WritePc.passed : WritePc → Bool
  | .append _ => true
  | _ => false

theorem accepted_append (tr tr' : List (Label ι)) :
    accepted (tr ++ tr') = accepted tr ++ accepted tr' :=
  List.flatMap_append

theorem accepted_snoc (tr : List (Label ι)) (l : Label ι) :
    accepted (tr ++ [l]) = accepted tr ++ l.accepted := by
  simp [accepted]

/-! ## The producers -/

/-- Producer `p` of the buffered mode against `q` of the unbuffered mode, with the flag `shutdown`
at `d`. -/
structure Follows (d : Bool) (p q : Producer) : Prop where
  idle : q.pc = .idle
  suffix : p.ahead <:+ q.todo
  all : d = false ∨ p.pc.passed = true → p.ahead = q.todo

namespace Follows

variable {d : Bool} {p p' q : Producer}

/-- The producer moves, and has the same messages ahead. -/
theorem move (h : Follows d p q) (ha : p'.ahead = p.ahead)
    (hp : p'.pc.passed = true → d = false) : Follows d p' q where
  idle := h.idle
  suffix := by rw [ha]; exact h.suffix
  all hd := by
    rw [ha]
    exact h.all (.inl (hd.elim id hp))

/-- The producer drops its message, because of `shutdown`. -/
theorem drop {m : Str} (h : Follows true p q) (ha : p.ahead = m :: p'.ahead)
    (hp : p'.pc.passed = false) : Follows true p' q where
  idle := h.idle
  suffix := (List.suffix_cons m _).trans (by rw [← ha]; exact h.suffix)
  all hd := by simp [hp] at hd

theorem shutdown (h : Follows d p q) : Follows true p q where
  idle := h.idle
  suffix := h.suffix
  all hd := h.all (.inr (by simpa using hd))

theorem wake (h : Follows d p q) (hw : p.wake = some p') : Follows d p' q := by
  obtain ⟨m, hm, rfl⟩ := Producer.wake_eq_some hw
  refine h.move ?_ nofun
  simp [Producer.ahead, WritePc.message, hm]

/-- At the append, the unbuffered producer is about to write the same message. -/
theorem eq_of_append {m : Str} {todo : List Str} (h : Follows d ⟨todo, .append m⟩ q) :
    q = ⟨m :: todo, .idle⟩ := by
  obtain ⟨todo', pc⟩ := q
  obtain rfl : pc = .idle := h.idle
  have ha : m :: todo = todo' := h.all (.inr rfl)
  rw [ha]

end Follows

/-! ## The simulation -/

/-- State `s` of the buffered mode against `t` of the unbuffered mode. -/
structure Refines (s t : State ι) : Prop where
  lock : LockInv s
  buffered : Buffered s.writer
  impl : t.writer.impl ≠ none
  writeImpl : t.writer.writeImpl = .nonBufferedWrite
  follows : ∀ i, Follows s.writer.shutdown (s.producers i) (t.producers i)

variable [DecidableEq ι] {s s' t : State ι} {l : Label ι}

/-- A step that is no append: the unbuffered mode does nothing. -/
theorem Step.follows (hst : Step s l s') (hb : Buffered s.writer)
    (hacc : l.accepted = []) {f : ι → Producer}
    (h : ∀ i, Follows s.writer.shutdown (s.producers i) (f i)) (i : ι) :
    Follows s'.writer.shutdown (s'.producers i) (f i) := by
  -- One producer moves.
  have move : ∀ {j : ι} {p q : Producer}, s.producers j = p → q.ahead = p.ahead →
      (q.pc.passed = true → s.writer.shutdown = false) →
      ∀ i, Follows s.writer.shutdown (Function.update s.producers j q i) (f i) := by
    intro j p q hj ha hp
    exact CondVar.forall_update (P := fun i q => Follows s.writer.shutdown q (f i))
      ((h j).move (by rw [hj, ha]) hp) fun i _ => h i
  have woken : ∀ (i : ι) (p q : Producer), Follows s.writer.shutdown p (f i) →
      p.wake = some q → Follows s.writer.shutdown q (f i) := fun _ _ _ hf hw => hf.wake hw
  cases hst with
  | uninitialized _ hi => exact absurd hi hb.impl
  | nonBufferedWrite _ _ hw => exact absurd hw hb.not_nonBuffered
  | producerAppend => cases hacc
  | bufferedWrite hj | producerLock hj | producerReady hj | producerNotReady hj | producerBlock hj
  | readFull hj | readRoom hj | producerNotifySender hj | producerSpurious hj =>
    refine move hj ?_ ?_ i
    · rfl
    · nofun
  | producerPass hj hd =>
    refine move hj ?_ ?_ i
    · rfl
    · exact fun _ => hd
  | @producerAbort j m todo hj hd =>
    refine CondVar.forall_update (P := fun i q => Follows s.writer.shutdown q (f i)) ?_
      (fun i _ => h i) i
    have hf := h j
    rw [hj, hd] at hf
    rw [hd]
    exact hf.drop (m := m) rfl rfl
  | producerNotifyReceiver hj hf =>
    refine hf.forall (move hj ?_ ?_) woken i
    · rfl
    · nofun
  | senderNotify _ hf => exact hf.forall h woken i
  | destructorNotifyReceiver =>
    exact CondVar.notifyAll_forall (P := fun i q => Follows s.writer.shutdown q (f i)) h woken i
  | destructorShutdown => exact (h i).shutdown
  | _ => exact h i

/-- An append is one unbuffered write, every other step is none. -/
theorem step_refines : Lts.Simulates Step Step Label.accepted Label.accepted
    (Refines (ι := ι)) := by
  intro s l s' t h hst
  have next : ∀ {t' : State ι}, t'.writer.impl ≠ none → t'.writer.writeImpl = .nonBufferedWrite →
      (∀ i, Follows s'.writer.shutdown (s'.producers i) (t'.producers i)) → Refines s' t' :=
    fun hi hw hf => ⟨hst.lockInv h.lock, h.buffered.same hst.sameSetup, hi, hw, hf⟩
  by_cases hacc : l.accepted = []
  · exact ⟨[], t, .nil, by simp [hacc], next h.impl h.writeImpl
      (hst.follows h.buffered hacc h.follows)⟩
  · cases hst with
    | nonBufferedWrite _ _ hw => exact absurd hw h.buffered.not_nonBuffered
    | @producerAppend i m todo hi =>
      have hf := h.follows i
      rw [hi] at hf
      have run := Lts.Run.nil.snoc
        (Step.nonBufferedWrite hf.eq_of_append h.impl h.writeImpl)
      refine ⟨_, _, run, rfl, next ?_ h.writeImpl fun j => ?_⟩
      · exact fun hn => h.impl ((SameSetup.tryToSend _ _).impl_eq_none.mp hn)
      · show Follows s.writer.shutdown (Function.update s.producers i ⟨todo, .readSize⟩ j)
          (Function.update t.producers i ⟨todo, .idle⟩ j)
        by_cases hj : j = i
        · subst hj
          rw [Function.update_self, Function.update_self]
          exact ⟨rfl, List.suffix_refl _, fun _ => rfl⟩
        · rw [Function.update_of_ne hj, Function.update_of_ne hj]
          exact h.follows j
    | _ => exact absurd rfl hacc

/-! ## The unbuffered mode -/

/-- A state of the unbuffered mode: there is no sender, and a call of `Write` is one step. -/
structure Plain (t : State ι) : Prop where
  impl : t.writer.impl ≠ none
  writeImpl : t.writer.writeImpl = .nonBufferedWrite
  sender : t.sender = .absent
  idle : ∀ i, (t.producers i).pc = .idle

omit [DecidableEq ι] in
theorem Plain.start {w : Writer} (hi : w.impl ≠ none) (hw : w.writeImpl = .nonBufferedWrite)
    (ht : w.sendingThread = false) (todo : ι → List Str) : Plain (State.start w todo) :=
  ⟨hi, hw, by simp [State.start, ht], fun _ => rfl⟩

/-- What a step of the unbuffered mode does: a producer writes its next message, or the
destructor moves. -/
theorem Step.plain_cases (hst : Step s l s') (h : Plain s) : s'.sender = .absent ∧
    ((l.accepted = [] ∧ l.written? = none ∧ s'.producers = s.producers) ∨
      ∃ i m todo, s.producers i = ⟨m :: todo, .idle⟩ ∧
        l = .event (.producer i) (.write (Writer.nonBufferedText m)) ∧
        s'.producers = Function.update s.producers i ⟨todo, .idle⟩) := by
  have busy : ∀ {i : ι} {p : Producer}, s.producers i = p → p.pc ≠ .idle → False := by
    intro i p hp hne
    exact hne (hp ▸ h.idle i)
  have sender : ∀ {pc : SenderPc}, s.sender = pc → pc ≠ .absent → False :=
    fun hs hne => hne (hs.symm.trans h.sender)
  cases hst with
  | uninitialized _ hi => exact absurd hi h.impl
  | bufferedWrite _ _ hw => exact absurd (hw.symm.trans h.writeImpl) nofun
  | @nonBufferedWrite i m todo hi => exact ⟨h.sender, .inr ⟨i, m, todo, hi, rfl, rfl⟩⟩
  | producerLock hi | producerReady hi | producerNotReady hi | producerBlock hi | producerAbort hi
  | producerPass hi | producerAppend hi | readFull hi | readRoom hi | producerNotifySender hi
  | producerNotifyReceiver hi | producerSpurious hi => exact (busy hi nofun).elim
  | senderLeave hs | senderEnter hs | senderLock hs | senderReady hs | senderNotReady hs
  | senderBlock hs | senderReturn hs | senderPass hs | senderTake hs | senderNotify hs
  | senderSend hs | senderSpurious hs => exact (sender hs nofun).elim
  | destructorNotifyReceiver =>
    refine ⟨h.sender, .inl ⟨rfl, rfl, funext fun i => ?_⟩⟩
    rcases CondVar.notifyAll_cases_at Producer.wake s.producers i with ⟨e, -⟩ | e
    · exact e
    · obtain ⟨m, hm, -⟩ := Producer.wake_eq_some e
      exact (busy rfl (by rw [hm]; nofun)).elim
  | destructorNotifySender =>
    refine ⟨?_, .inl ⟨rfl, rfl, rfl⟩⟩
    show s.sender.wake = .absent
    rw [h.sender]
    rfl
  | destructorShutdown | destructorUnbuffered | destructorJoin | destructorClose
  | destructorUninitialized => exact ⟨h.sender, .inl ⟨rfl, rfl, rfl⟩⟩

theorem Step.plain (hst : Step s l s') (h : Plain s) : Plain s' := by
  obtain ⟨hs, hcases⟩ := hst.plain_cases h
  have same := hst.sameSetup
  refine ⟨fun hn => h.impl (same.impl_eq_none.mp hn), same.writeImpl.trans h.writeImpl, hs, ?_⟩
  rcases hcases with ⟨-, -, hp⟩ | ⟨i, m, todo, -, -, hp⟩
  · rw [hp]
    exact h.idle
  · rw [hp]
    exact CondVar.forall_update (P := fun _ (q : Producer) => q.pc = .idle) rfl fun j _ => h.idle j

theorem acceptedBy_snoc (i : ι) (tr : List (Label ι)) (l : Label ι) :
    acceptedBy i (tr ++ [l]) =
      acceptedBy i tr ++ l.accepted.filterMap fun a => if a.1 = i then some a.2 else none := by
  rw [acceptedBy, accepted_snoc, List.filterMap_append]
  rfl

/-- What a run of the unbuffered mode has done: each line is one call of `m_impl->Write`, and every
producer has written its messages in their order. -/
structure Direct (todo : ι → List Str) (tr : List (Label ι)) (t : State ι) : Prop
    extends Plain t where
  written : written tr = (accepted tr).map Prod.snd
  order : ∀ i, acceptedBy i tr ++ (t.producers i).todo.map Writer.nonBufferedText =
    (todo i).map Writer.nonBufferedText

theorem Direct.step {todo : ι → List Str} {tr : List (Label ι)} (h : Direct todo tr s)
    (hst : Step s l s') : Direct todo (tr ++ [l]) s' := by
  refine { hst.plain h.toPlain with written := ?_, order := ?_ }
  all_goals obtain ⟨-, ⟨ha, hw, hp⟩ | ⟨i, m, rest, hi, rfl, hp⟩⟩ := hst.plain_cases h.toPlain
  · rw [written_snoc, accepted_snoc, hw, ha]
    simpa using h.written
  · rw [written_snoc, accepted_snoc, List.map_append, ← h.written]
    rfl
  · intro j
    rw [acceptedBy_snoc, ha, hp]
    simpa using h.order j
  · intro j
    rw [acceptedBy_snoc, hp, ← h.order j]
    by_cases hj : j = i
    · subst hj
      rw [Function.update_self, hi]
      simp [Label.accepted]
    · rw [Function.update_of_ne hj]
      simp [Label.accepted, Ne.symm hj]

theorem Direct.of_run {w : Writer} {todo : ι → List Str} {tr : List (Label ι)}
    (hi : w.impl ≠ none) (hw : w.writeImpl = .nonBufferedWrite) (ht : w.sendingThread = false)
    (h : Lts.Run Step (State.start w todo) tr s) : Direct todo tr s :=
  h.induct ⟨.start hi hw ht todo, rfl, fun _ => rfl⟩ fun _ _ _ _ h₁ hst => h₁.step hst

/-- What an unbuffered `Initialize` of a fresh singleton leaves, if it returns. -/
theorem Writer.eq_nonBuffered {f : Faults} {type : WriterType} {param : Str} {port : Int}
    {w : Writer} (hw : initializeWriter f type param port 0 {} = .returned w) :
    w.impl ≠ none ∧ w.writeImpl = .nonBufferedWrite ∧ w.sendingThread = false := by
  unfold initializeWriter at hw
  split at hw
  · cases hw
  · cases hw
    exact ⟨nofun, rfl, rfl⟩

/-! ## Whole runs -/

/-- In the buffered mode, the lines taken over are those of the completed appends. -/
theorem Step.accepted_eq (hst : Step s l s') (hb : Buffered s.writer) :
    l.accepted.map Prod.snd = l.appended?.toList.map Writer.nonBufferedText := by
  cases hst with
  | nonBufferedWrite _ _ hw => exact absurd hw hb.not_nonBuffered
  | _ => rfl

theorem accepted_eq_appended {w : Writer} (hw : Buffered w) {todo : ι → List Str}
    {tr : List (Label ι)} (h : Lts.Run Step (State.start w todo) tr s) :
    (accepted tr).map Prod.snd = (appended tr).map Writer.nonBufferedText := by
  have hi : Buffered s.writer ∧
      (accepted tr).map Prod.snd = (appended tr).map Writer.nonBufferedText := by
    refine h.induct (I := fun tr s => Buffered s.writer ∧
      (accepted tr).map Prod.snd = (appended tr).map Writer.nonBufferedText) ⟨hw, rfl⟩ ?_
    rintro tr s₁ l s₂ ⟨hb, ha⟩ hst
    refine ⟨hb.same hst.sameSetup, ?_⟩
    rw [accepted_snoc, appended_snoc, List.map_append, List.map_append, ha, hst.accepted_eq hb]
  exact hi.2

/-- The run of the unbuffered mode that takes over the same lines. -/
theorem exists_unbuffered_run {w w₀ : Writer} (hw : Buffered w) (hi : w₀.impl ≠ none)
    (hw₀ : w₀.writeImpl = .nonBufferedWrite) {todo : ι → List Str} {tr : List (Label ι)}
    (h : Lts.Run Step (State.start w todo) tr s) :
    ∃ tr₀ s₀, Lts.Run Step (State.start w₀ todo) tr₀ s₀ ∧ accepted tr₀ = accepted tr ∧
      Refines s s₀ :=
  step_refines.run h ⟨.start w todo, hw, hi, hw₀,
    fun _ => ⟨rfl, List.suffix_refl _, fun _ => rfl⟩⟩

/-- **The buffered mode refines the unbuffered mode.** Whatever the buffered mode has done, there
is a run of the unbuffered mode on the same messages that took over the same lines from the same
producers in the same order; and the batches sent, the batch in flight and the buffer are together
what that run handed to `m_impl->Write`. -/
theorem buffered_refines_nonBuffered {f f₀ : Writer.Faults} {type type₀ : WriterType}
    {param param₀ : Str} {port port₀ : Int} {n : Nat} {w w₀ : Writer}
    (hw : Writer.initializeWriter f type param port n {} = .returned w) (hn : 0 < n)
    (hw₀ : Writer.initializeWriter f₀ type₀ param₀ port₀ 0 {} = .returned w₀)
    {todo : ι → List Str} {tr : List (Label ι)}
    (h : Lts.Run Step (State.start w todo) tr s) :
    ∃ tr₀ s₀, Lts.Run Step (State.start w₀ todo) tr₀ s₀ ∧ accepted tr₀ = accepted tr ∧
      (written tr).flatten ++ s.sender.inFlight.flatten ++ s.writer.buffer =
        (written tr₀).flatten := by
  have hd := Delivery.of_initialize hw hn h
  obtain ⟨hi, hf, ht⟩ := Writer.eq_nonBuffered hw₀
  obtain ⟨impl, -, rfl⟩ := Writer.eq_buffered hw hn
  obtain ⟨tr₀, s₀, h₀, hacc, -⟩ := exists_unbuffered_run (.fresh impl hn) hi hf h
  refine ⟨tr₀, s₀, h₀, hacc, ?_⟩
  calc (written tr).flatten ++ s.sender.inFlight.flatten ++ s.writer.buffer
      = linesText (appended tr) := hd.conserved
    _ = ((accepted tr).map Prod.snd).flatten := by
      rw [accepted_eq_appended (.fresh impl hn) h]
      rfl
    _ = (written tr₀).flatten := by rw [← hacc, (Direct.of_run hi hf ht h₀).written]

/-- Two threads write one message each. -/
theorem buffered_refines_nonBuffered_two_threads : ∃ (tr : List (Label Bool)) (s : State Bool),
    accepted tr = [(true, str "a\n"), (false, str "b\n")] ∧
    ∃ tr₀ s₀, Lts.Run Step
        (State.start (.unbuffered (.memory [])) fun b => [str (bif b then "a" else "b")])
          tr₀ s₀ ∧
      accepted tr₀ = accepted tr ∧
      (written tr).flatten ++ s.sender.inFlight.flatten ++ s.writer.buffer =
        (written tr₀).flatten := by
  have start : Lts.Run Step (State.start (Writer.buffered (.memory []) 16)
    fun b : Bool => [str (bif b then "a" else "b")]) [] _ := .nil
  have run := run_append (run_append start (i := true) rfl nofun rfl rfl rfl rfl)
    (i := false) rfl nofun rfl rfl rfl rfl
  have hw := Writer.initializeWriter_memory (n := 16) (by decide)
  have hw₀ : Writer.initializeWriter {} .memory [] 0 0 {} =
    .returned (.unbuffered (.memory [])) := rfl
  exact ⟨_, _, rfl, buffered_refines_nonBuffered hw (by decide) hw₀ run⟩

/-- Each producer's lines are the first of its messages, and while `shutdown` is not set all that
are not ahead of it. -/
theorem Buffered.program_order {w : Writer} (hw : Buffered w) {todo : ι → List Str}
    {tr : List (Label ι)} (h : Lts.Run Step (State.start w todo) tr s) (i : ι) :
    acceptedBy i tr <+: (todo i).map Writer.nonBufferedText ∧
      (s.writer.shutdown = false →
        acceptedBy i tr ++ (s.producers i).ahead.map Writer.nonBufferedText =
          (todo i).map Writer.nonBufferedText) := by
  have hi : (Writer.unbuffered (.memory [])).impl ≠ none := Option.some_ne_none _
  obtain ⟨tr₀, s₀, h₀, hacc, href⟩ := exists_unbuffered_run hw hi rfl h
  have horder := (Direct.of_run hi rfl rfl h₀).order i
  have hby : acceptedBy i tr₀ = acceptedBy i tr := by rw [acceptedBy, hacc]; rfl
  rw [hby] at horder
  refine ⟨⟨_, horder⟩, fun hd => ?_⟩
  rw [(href.follows i).all (.inl hd)]
  exact horder

/-- **Program order.** Each producer's lines are taken over in the order of its calls, each once:
they are the first of its messages. While `shutdown` is not set, none is left out: what is not yet
taken over is still ahead of the producer. -/
theorem accepted_in_program_order {f : Writer.Faults} {type : WriterType} {param : Str}
    {port : Int} {n : Nat} {w : Writer}
    (hw : Writer.initializeWriter f type param port n {} = .returned w) (hn : 0 < n)
    {todo : ι → List Str} {tr : List (Label ι)}
    (h : Lts.Run Step (State.start w todo) tr s) (i : ι) :
    acceptedBy i tr <+: (todo i).map Writer.nonBufferedText ∧
      (s.writer.shutdown = false →
        acceptedBy i tr ++ (s.producers i).ahead.map Writer.nonBufferedText =
          (todo i).map Writer.nonBufferedText) := by
  obtain ⟨impl, -, rfl⟩ := Writer.eq_buffered hw hn
  exact Buffered.program_order (.fresh impl hn) h i

/-- A producer between its two messages. -/
theorem accepted_in_program_order_half : ∃ (tr : List (Label Unit)) (s : State Unit),
    acceptedBy () tr = [str "a\n"] ∧
    (acceptedBy () tr <+: [str "a", str "b"].map Writer.nonBufferedText ∧
      (s.writer.shutdown = false →
        acceptedBy () tr ++ (s.producers ()).ahead.map Writer.nonBufferedText =
          [str "a", str "b"].map Writer.nonBufferedText)) := by
  have start : Lts.Run Step (State.start (Writer.buffered (.memory []) 16)
    fun _ : Unit => [str "a", str "b"]) [] _ := .nil
  have run := run_append start (i := ()) rfl nofun rfl rfl rfl rfl
  have hw := Writer.initializeWriter_memory (n := 16) (by decide)
  exact ⟨_, _, rfl, accepted_in_program_order hw (by decide) run ()⟩

end Spectator
