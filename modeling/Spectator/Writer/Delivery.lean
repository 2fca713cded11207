import Spectator.Lib.Chunk
import Spectator.Writer.Frame
import Spectator.Writer.Lock

/-!
# Delivery

What the buffered mode hands to `m_impl->Write`. The lines are the completed appends in the order
of their critical sections (`appended`); the batches are the calls of `m_impl->Write` (`written`).
The policy that cuts the lines into batches is `Chunk.Greedy`: nothing in it knows of threads.

* `Effect`, `Step.effect`: a step is silent, appends a line to a buffer with room, moves a full
  buffer out, or sends the batch in flight.
* `Delivery`: the batches sent or in flight are the first chunks of the lines, and the buffer is
  what remains; `Delivery.step` and `Delivery.of_run`: in every state of every run.
* `buffered_delivery`: no line is lost, duplicated, reordered or torn, whatever the interleaving.
-/

namespace Spectator

/-- The size of the line of a message. -/
def lineSize (message : Str) : Nat := (Writer.nonBufferedText message).length

/-- What the unbuffered mode sends for the messages, one after the other. -/
def linesText (messages : List Str) : Str := messages.flatMap Writer.nonBufferedText

@[simp] theorem linesText_nil : linesText [] = [] := rfl

@[simp] theorem linesText_append (ms ms' : List Str) :
    linesText (ms ++ ms') = linesText ms ++ linesText ms' :=
  List.flatMap_append

theorem linesText_flatten (cs : List (List Str)) :
    linesText cs.flatten = (cs.map linesText).flatten := by
  induction cs with
  | nil => rfl
  | cons c cs ih => simp [ih]

theorem length_linesText (ms : List Str) :
    (linesText ms).length = Chunk.total lineSize ms := by
  induction ms with
  | nil => rfl
  | cons m ms ih =>
    rw [Chunk.total, ← ih, linesText, List.flatMap_cons, List.length_append]
    rfl

/-- An append to the buffer adds the line that the unbuffered mode would send. -/
theorem Writer.appendLine_eq (buffer message : Str) :
    appendLine buffer message = buffer ++ linesText [message] := by
  simp [appendLine, linesText, nonBufferedText]

variable {ι : Type}

/-- The message whose append completed in the step. -/
def Label.appended? : Label ι → Option Str
  | .event _ (.append message) => some message
  | _ => none

/-- The text that the step handed to `m_impl->Write`. -/
def Label.written? : Label ι → Option Str
  | .event _ (.write text) => some text
  | _ => none

/-- The messages whose append completed, in the order of their critical sections. -/
def appended (tr : List (Label ι)) : List Str := tr.filterMap Label.appended?

/-- The texts that were handed to `m_impl->Write`, in order. -/
def written (tr : List (Label ι)) : List Str := tr.filterMap Label.written?

theorem appended_snoc (tr : List (Label ι)) (l : Label ι) :
    appended (tr ++ [l]) = appended tr ++ l.appended?.toList := by
  cases h : l.appended? <;> simp [appended, h]

theorem written_snoc (tr : List (Label ι)) (l : Label ι) :
    written (tr ++ [l]) = written tr ++ l.written?.toList := by
  cases h : l.written? <;> simp [written, h]

/-! ## One step -/

/-- What a step does to the lines, the buffer and the batch in flight. -/
inductive Effect (s : State ι) (l : Label ι) (s' : State ι) : Prop
  | silent : l.appended? = none → l.written? = none → s'.writer.buffer = s.writer.buffer →
      s'.sender.inFlight = s.sender.inFlight → Effect s l s'
  | append {m : Str} : s.writer.buffer.length < s.writer.bufferSize → l.appended? = some m →
      l.written? = none → s'.writer.buffer = Writer.appendLine s.writer.buffer m →
      s'.sender.inFlight = s.sender.inFlight → Effect s l s'
  | take : s.writer.bufferSize ≤ s.writer.buffer.length → l.appended? = none →
      l.written? = none → s'.writer.buffer = [] → s.sender.inFlight = [] →
      s'.sender.inFlight = [s.writer.buffer] → Effect s l s'
  | send {batch : Str} : l.appended? = none → l.written? = some batch →
      s'.writer.buffer = s.writer.buffer → s.sender.inFlight = [batch] →
      s'.sender.inFlight = [] → Effect s l s'

variable {s s' : State ι} {l : Label ι}

/-- What a step of the buffered mode does. An append finds room and a take finds the buffer
full, because the mutex is held since the test. -/
theorem Step.effect [DecidableEq ι] (hst : Step s l s') (hl : LockInv s) (hb : Buffered s.writer) :
    Effect s l s' := by
  cases hst with
  | nonBufferedWrite _ _ hw => exact absurd hw hb.not_nonBuffered
  | @producerAppend i m todo hi =>
    have hg := hl.producerGuard i
    rw [hi] at hg
    exact .append hg rfl rfl rfl rfl
  | senderTake hs =>
    have hg := hl.senderGuard
    rw [hs] at hg
    exact .take hg rfl rfl rfl (by rw [hs]; rfl) rfl
  | senderSend hs => exact .send rfl rfl rfl (by rw [hs]; rfl) rfl
  | producerNotifySender | destructorNotifySender =>
    exact .silent rfl rfl rfl (SenderPc.inFlight_wake _)
  | senderLeave hs | senderEnter hs | senderLock hs | senderReady hs | senderNotReady hs
  | senderBlock hs | senderReturn hs | senderPass hs | senderNotify hs | senderSpurious hs =>
    exact .silent rfl rfl rfl (by rw [hs]; rfl)
  | _ => exact .silent rfl rfl rfl rfl

/-! ## A run -/

/-- Where the lines are after a run with the labels `tr` (module doc). -/
structure Delivery (n : Nat) (tr : List (Label ι)) (s : State ι) : Prop where
  lock : LockInv s
  buffered : Buffered s.writer
  size : s.writer.bufferSize = n
  chunks : ∃ chunks rest, Chunk.Greedy lineSize n (appended tr) chunks rest ∧
    written tr ++ s.sender.inFlight = chunks.map linesText ∧ s.writer.buffer = linesText rest ∧
    Chunk.total lineSize rest.dropLast < n

/-- Before the first step: nothing is appended, sent or in flight. -/
theorem Delivery.start {w : Writer} (hw : Buffered w) (hbuf : w.buffer = [])
    (todo : ι → List Str) : Delivery w.bufferSize [] (State.start w todo) := by
  refine ⟨.start w todo, hw, rfl, [], [], .done _, ?_, hbuf, hw.pos⟩
  show [] ++ (if w.sendingThread = true then SenderPc.loop else .absent).inFlight = []
  split <;> rfl

/-- The lines that are sent, in flight and in the buffer are the lines appended. -/
theorem Delivery.conserved {n : Nat} {tr : List (Label ι)} (h : Delivery n tr s) :
    (written tr).flatten ++ s.sender.inFlight.flatten ++ s.writer.buffer =
      linesText (appended tr) := by
  obtain ⟨chunks, rest, hg, hw, hbuf, -⟩ := h.chunks
  rw [← List.flatten_append, hw, hbuf, ← linesText_flatten, ← linesText_append, hg.flatten]

/-- What is sent is the text of the first lines: no batch tears a line. -/
theorem Delivery.sent_prefix {n : Nat} {tr : List (Label ι)} (h : Delivery n tr s) :
    ∃ k, (written tr).flatten = linesText ((appended tr).take k) := by
  obtain ⟨chunks, rest, hg, hw, -, -⟩ := h.chunks
  -- The batches sent are the chunks up to some index, the batch in flight is the rest of them.
  have hsent : written tr = (chunks.take (written tr).length).map linesText := by
    rw [List.map_take, ← hw, List.take_left]
  have hpre : (chunks.take (written tr).length).flatten <+: appended tr := by
    refine List.IsPrefix.trans ?_ ⟨rest, hg.flatten⟩
    exact ⟨(chunks.drop (written tr).length).flatten,
      by rw [← List.flatten_append, List.take_append_drop]⟩
  refine ⟨(chunks.take (written tr).length).flatten.length, ?_⟩
  rw [← List.prefix_iff_eq_take.mp hpre, linesText_flatten, ← hsent]

variable [DecidableEq ι]

/-- Every step keeps the lines in place. -/
theorem Delivery.step {n : Nat} {tr : List (Label ι)} (h : Delivery n tr s) (hst : Step s l s') :
    Delivery n (tr ++ [l]) s' := by
  obtain ⟨hl, hb, hn, chunks, rest, hg, hw, hbuf, hd⟩ := h
  have hsame := hst.sameSetup
  have hpos : 0 < n := by rw [← hn]; exact hb.pos
  refine ⟨hst.lockInv hl, hb.same hsame, hsame.bufferSize.trans hn, ?_⟩
  rw [appended_snoc, written_snoc]
  cases hst.effect hl hb with
  | silent ha hw' hbuf' hf =>
    rw [ha, hw', hbuf', hf]
    exact ⟨chunks, rest, by simpa using hg, by simpa using hw, hbuf, hd⟩
  | @append m hroom ha hw' hbuf' hf =>
    rw [ha, hw', hbuf', hf]
    refine ⟨chunks, rest ++ [m], hg.append [m], by simpa using hw, ?_, ?_⟩
    · rw [Writer.appendLine_eq, hbuf, linesText_append]
    · -- The lines before the new one did not fill the buffer.
      rw [List.dropLast_concat, ← length_linesText, ← hbuf, ← hn]
      exact hroom
  | take hfull ha hw' hbuf' hf hf' =>
    rw [ha, hw', hbuf', hf']
    have hreach : n ≤ Chunk.total lineSize rest := by
      rw [← length_linesText, ← hbuf, ← hn]
      exact hfull
    have hne : rest ≠ [] := by
      rintro rfl
      rw [Chunk.total_nil] at hreach
      omega
    have hshort := Chunk.IsShortest.of_dropLast (List.prefix_refl rest) hne hreach hd
    refine ⟨chunks ++ [rest], [], by simpa using hg.snoc hshort, ?_, rfl, by simpa using hpos⟩
    rw [hf, List.append_nil] at hw
    simp [hw, hbuf]
  | send ha hw' hbuf' hf hf' =>
    rw [ha, hw', hbuf', hf']
    rw [hf] at hw
    exact ⟨chunks, rest, by simpa using hg, by simpa using hw, hbuf, hd⟩

theorem Delivery.of_run {n : Nat} {tr : List (Label ι)} (h : Lts.Run Step s tr s')
    (h0 : Delivery n [] s) : Delivery n tr s' :=
  h.induct h0 fun _ _ _ _ h₁ hst => h₁.step hst

/-- The delivery invariant holds after every run from a buffered `Initialize`. -/
theorem Delivery.of_initialize {f : Writer.Faults} {type : WriterType} {param : Str} {port : Int}
    {n : Nat} {w : Writer} {todo : ι → List Str} {tr : List (Label ι)}
    (hw : Writer.initializeWriter f type param port n {} = .returned w) (hn : 0 < n)
    (h : Lts.Run Step (State.start w todo) tr s) : Delivery n tr s := by
  obtain ⟨impl, -, rfl⟩ := Writer.eq_buffered hw hn
  exact .of_run h (.start (.fresh impl hn) rfl todo)

/-- **Buffered delivery.** After one `Initialize` with a positive buffer size, in every state that
any number of producers, the sender and the destructor reach by any interleaving: the batches sent,
the batch in flight and the buffer are the lines of the completed appends in their order; the
batches are their greedy chunks; and what is sent is the unbuffered text of the first lines. -/
theorem buffered_delivery {f : Writer.Faults} {type : WriterType} {param : Str} {port : Int}
    {n : Nat} {w : Writer} (hw : Writer.initializeWriter f type param port n {} = .returned w)
    (hn : 0 < n) {todo : ι → List Str} {tr : List (Label ι)}
    (h : Lts.Run Step (State.start w todo) tr s) :
    (written tr).flatten ++ s.sender.inFlight.flatten ++ s.writer.buffer =
        linesText (appended tr) ∧
      (∃ chunks rest, Chunk.Greedy lineSize n (appended tr) chunks rest ∧
        written tr ++ s.sender.inFlight = chunks.map linesText ∧
        s.writer.buffer = linesText rest ∧
        ∀ c ∈ chunks, c ≠ [] ∧ n ≤ (linesText c).length ∧ (linesText c.dropLast).length < n) ∧
      ∃ k, (written tr).flatten = linesText ((appended tr).take k) := by
  have hd := Delivery.of_initialize hw hn h
  refine ⟨hd.conserved, ?_, hd.sent_prefix⟩
  obtain ⟨chunks, rest, hg, hsent, hbuf, -⟩ := hd.chunks
  refine ⟨chunks, rest, hg, hsent, hbuf, fun c hc => ?_⟩
  rw [length_linesText, length_linesText]
  exact hg.bounds hn c hc

/-- One producer, one line that fills the buffer: it is sent as one batch. -/
theorem buffered_delivery_one_line : ∃ (tr : List (Label Unit)) (s : State Unit),
    Lts.Run Step (State.start (Writer.buffered (.memory []) 2) fun _ => [str "ab"]) tr s ∧
    written tr = [str "ab\n"] ∧
    (written tr).flatten ++ s.sender.inFlight.flatten ++ s.writer.buffer =
      linesText (appended tr) := by
  have start : Lts.Run Step (State.start (Writer.buffered (.memory []) 2)
    fun _ : Unit => [str "ab"]) [] _ := .nil
  have run := run_append start (i := ()) rfl nofun rfl rfl rfl rfl
    |>.snoc (.senderEnter rfl rfl)
    |>.snoc (.senderLock rfl rfl)
    |>.snoc (.senderReady rfl rfl)
    |>.snoc (.senderPass rfl rfl)
    |>.snoc (.senderTake rfl)
    |>.snoc (.senderNotify rfl (.nobody fun _ => rfl))
    |>.snoc (.senderSend rfl)
  have hw := Writer.initializeWriter_memory (n := 2) (by decide)
  exact ⟨_, _, run, rfl, (buffered_delivery hw (by decide) run).1⟩

end Spectator
