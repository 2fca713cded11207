import Spectator.Lib.CondVar
import Spectator.Writer.Recovery
import Spectator.Writer.Writer

/-!
# Threads without a buffer

The concurrent model of the non-buffered mode: any number of threads call `Writer::Write`, which
hands each line to one `UDPWriter` or `UDSWriter` without a lock. The read of `m_socketEstablished`,
`CreateSocket`, each attempt to send and `Close` are atomic steps; all else is local to a thread.

* `NonBuffered.Step`: the steps. A label shows what a step asked of the system, and when a `Write`
  returns.
* `Network G`: a socket can always be opened, and a send completes exactly on an open socket and for
  a message of `G`.
* `Undisturbed G`: the condition that no thread closes the socket while another one is about to send
  a message of `G`. `write_not_lost`: then every message of `G` whose `Write` has returned was
  transmitted once. `write_lost`: without it, one failing message may cost another thread its own.
-/

namespace Spectator

namespace NonBuffered

/-- Where a thread is in `Write` of the socket writer. -/
inductive Pc where
  | idle
  /-- At the read of `m_socketEstablished`. -/
  | check (text : Str)
  | create (text : Str)
  /-- In the loop of `TryToSend`, before the attempt `i`. -/
  | attempt (text : Str) (i : Nat)
  | close (text : Str)
  /-- Before the return of `Write`. -/
  | done (text : Str)
  deriving DecidableEq

/-- A thread: the messages it has still to write, and where it is. -/
structure Thread where
  todo : List Str
  pc : Pc

/-- A state: the socket writer and the threads. -/
structure State (ι : Type) where
  writer : SocketWriter
  threads : ι → Thread

inductive Label (ι : Type) where
  | tau (i : ι)
  | create (i : ι) (os : CreateCalls)
  | attempt (i : ι) (text : Str) (result : SendResult)
  | close (i : ι) (os : CloseResult)
  /-- The `Write` of `text` by thread `i` returns. -/
  | returned (i : ι) (text : Str)

namespace Label

variable {ι : Type}

def thread : Label ι → ι
  | .tau i | .create i _ | .attempt i _ _ | .close i _ | .returned i _ => i

variable [DecidableEq ι]

/-- The text that thread `i` transmits completely in the step. -/
def transmitted? (i : ι) : Label ι → Option Str
  | .attempt j text result => if j = i ∧ result.complete text = true then some text else none
  | _ => none

/-- The text whose `Write` by thread `i` returns in the step. -/
def returned? (i : ι) : Label ι → Option Str
  | .returned j text => if j = i then some text else none
  | _ => none

end Label

variable {ι : Type} [DecidableEq ι]

namespace State

/-- The state with thread `i` at `t`. -/
def setThread (s : State ι) (i : ι) (t : Thread) : State ι :=
  { s with threads := Function.update s.threads i t }

/-- Each thread has its messages before it. -/
def start (w : SocketWriter) (todo : ι → List Str) : State ι where
  writer := w
  threads i := ⟨todo i, .idle⟩

end State

/-- The atomic steps of the threads. -/
inductive Step : State ι → Label ι → State ι → Prop
  -- `Writer::Write` and `NonBufferedWrite`, down to the call of `Write` of the socket writer.
  | call {s : State ι} {i : ι} {m : Str} {todo : List Str} :
      s.threads i = ⟨m :: todo, .idle⟩ →
      Step s (.tau i) (s.setThread i ⟨todo, .check (Writer.nonBufferedText m)⟩)
  | established {s : State ι} {i : ι} {text : Str} {todo : List Str} :
      s.threads i = ⟨todo, .check text⟩ → s.writer.socketEstablished = true →
      Step s (.tau i) (s.setThread i ⟨todo, .attempt text 0⟩)
  | notEstablished {s : State ι} {i : ι} {text : Str} {todo : List Str} :
      s.threads i = ⟨todo, .check text⟩ → s.writer.socketEstablished = false →
      Step s (.tau i) (s.setThread i ⟨todo, .create text⟩)
  | created {s : State ι} {i : ι} {text : Str} {todo : List Str} (os : CreateCalls) :
      s.threads i = ⟨todo, .create text⟩ → (s.writer.createSocket os).2 = .ok true →
      Step s (.create i os) { s.setThread i ⟨todo, .attempt text 0⟩ with
        writer := (s.writer.createSocket os).1 }
  | notCreated {s : State ι} {i : ι} {text : Str} {todo : List Str} (os : CreateCalls) :
      s.threads i = ⟨todo, .create text⟩ → (s.writer.createSocket os).2 = .ok false →
      Step s (.create i os) { s.setThread i ⟨todo, .done text⟩ with
        writer := (s.writer.createSocket os).1 }
  -- `TryToSend`: three attempts on the socket that `m_socket` points to at that moment.
  | sent {s : State ι} {i : ι} {text : Str} {todo : List Str} {k : Nat} (result : SendResult) :
      s.threads i = ⟨todo, .attempt text k⟩ → k < 3 → s.writer.socket ≠ none →
      result.complete text = true →
      Step s (.attempt i text result) (s.setThread i ⟨todo, .done text⟩)
  | notSent {s : State ι} {i : ι} {text : Str} {todo : List Str} {k : Nat} (result : SendResult) :
      s.threads i = ⟨todo, .attempt text k⟩ → k < 3 → s.writer.socket ≠ none →
      result.complete text = false → result ≠ .threw →
      Step s (.attempt i text result) (s.setThread i ⟨todo, .attempt text (k + 1)⟩)
  | threw {s : State ι} {i : ι} {text : Str} {todo : List Str} {k : Nat} :
      s.threads i = ⟨todo, .attempt text k⟩ → k < 3 → s.writer.socket ≠ none →
      Step s (.attempt i text .threw) (s.setThread i ⟨todo, .close text⟩)
  | giveUp {s : State ι} {i : ι} {text : Str} {todo : List Str} :
      s.threads i = ⟨todo, .attempt text 3⟩ →
      Step s (.tau i) (s.setThread i ⟨todo, .close text⟩)
  | close {s : State ι} {i : ι} {text : Str} {todo : List Str} (os : CloseResult) :
      s.threads i = ⟨todo, .close text⟩ →
      Step s (.close i os) { s.setThread i ⟨todo, .done text⟩ with writer := s.writer.close os }
  | done {s : State ι} {i : ι} {text : Str} {todo : List Str} :
      s.threads i = ⟨todo, .done text⟩ →
      Step s (.returned i text) (s.setThread i ⟨todo, .idle⟩)

/-- The texts that thread `i` transmitted completely, in order. -/
def transmitted (i : ι) (tr : List (Label ι)) : List Str := tr.filterMap (Label.transmitted? i)

/-- The texts whose `Write` by thread `i` has returned, in order. -/
def returned (i : ι) (tr : List (Label ι)) : List Str := tr.filterMap (Label.returned? i)

/-! ## What is assumed, and the condition -/

/-- A socket can always be opened, and a send completes exactly if the socket is open and the text
is in `G`. -/
def Network (G : Str → Bool) (s : State ι) : Label ι → Prop
  | .create _ os => os.openFails = false ∧ os.endpointThrows = false
  | .attempt _ text result =>
    result.complete text = true ↔ s.writer.socket = some ⟨true⟩ ∧ G text = true
  | _ => True

instance (G : Str → Bool) (s : State ι) : DecidablePred (Network G s)
  | .create _ os => inferInstanceAs (Decidable (os.openFails = false ∧ os.endpointThrows = false))
  | .attempt _ text result => inferInstanceAs
    (Decidable (result.complete text = true ↔ s.writer.socket = some ⟨true⟩ ∧ G text = true))
  | .tau _ | .close _ _ | .returned _ _ => inferInstanceAs (Decidable True)

/-- If the step is a `Close`, then no thread has found or created a socket for a message of `G` that
it has not yet sent. -/
def Undisturbed (G : Str → Bool) (s : State ι) : Label ι → Prop
  | .close _ _ => ∀ j text k, (s.threads j).pc = .attempt text k → G text = false
  | _ => True

theorem transmitted_snoc (i : ι) (tr : List (Label ι)) (l : Label ι) :
    transmitted i (tr ++ [l]) = transmitted i tr ++ (l.transmitted? i).toList := by
  cases h : l.transmitted? i <;> simp [transmitted, h]

theorem returned_snoc (i : ι) (tr : List (Label ι)) (l : Label ι) :
    returned i (tr ++ [l]) = returned i tr ++ (l.returned? i).toList := by
  cases h : l.returned? i <;> simp [returned, h]

/-- A label shows nothing of the other threads. -/
theorem Label.silent_of_ne {i : ι} {l : Label ι} (h : l.thread ≠ i) :
    l.transmitted? i = none ∧ l.returned? i = none := by
  cases l with
  | attempt j text result => exact ⟨if_neg fun hi => h hi.1, rfl⟩
  | returned j text => exact ⟨rfl, if_neg h⟩
  | _ => exact ⟨rfl, rfl⟩

/-! ## One thread -/

/-- A message of `G` that the thread has sent and whose `Write` has still to return. -/
def Thread.pending (G : Str → Bool) (t : Thread) : List Str :=
  match t.pc with
  | .done text => if G text then [text] else []
  | _ => []

/-- What holds of thread `i` after the labels `tr`, with the writer `w`. -/
structure ThreadOk (G : Str → Bool) (w : SocketWriter) (tr : List (Label ι)) (i : ι) (t : Thread) :
    Prop where
  /-- A message of `G` is sent at its first attempt, on an open socket. -/
  sending : ∀ text k, t.pc = .attempt text k → G text = true → k = 0 ∧ w.socket = some ⟨true⟩
  closing : ∀ text, t.pc = .close text → G text = false
  exact : (transmitted i tr).filter G = (returned i tr).filter G ++ t.pending G

variable {G : Str → Bool} {w w' : SocketWriter} {tr : List (Label ι)} {l : Label ι} {i : ι}
  {t t' : Thread}

/-- A step of another thread that leaves an open socket where a message of `G` is about to be
sent. -/
theorem ThreadOk.other (h : ThreadOk G w tr i t) (hl : l.thread ≠ i)
    (hw : ∀ text k, t.pc = .attempt text k → G text = true → w.socket = some ⟨true⟩ →
      w'.socket = some ⟨true⟩) : ThreadOk G w' (tr ++ [l]) i t := by
  obtain ⟨ht, hr⟩ := Label.silent_of_ne hl
  refine ⟨fun text k hpc hG => ?_, h.closing, ?_⟩
  · obtain ⟨hk, hs⟩ := h.sending text k hpc hG
    exact ⟨hk, hw text k hpc hG hs⟩
  · rw [transmitted_snoc, returned_snoc, ht, hr]
    simpa using h.exact

/-- A silent step of the thread itself, from and to places where nothing is pending. -/
theorem ThreadOk.move (h : ThreadOk G w tr i t) (hl : l.transmitted? i = none)
    (hl' : l.returned? i = none) (ht : t.pending G = []) (ht' : t'.pending G = [])
    (hs : ∀ text k, t'.pc = .attempt text k → G text = true → k = 0 ∧ w'.socket = some ⟨true⟩)
    (hc : ∀ text, t'.pc = .close text → G text = false) : ThreadOk G w' (tr ++ [l]) i t' := by
  refine ⟨hs, hc, ?_⟩
  have he := h.exact
  rw [ht, List.append_nil] at he
  rw [transmitted_snoc, returned_snoc, hl, hl', ht']
  simpa using he

/-! ## One step -/

/-- The writer is established for its peer, and every thread is as `ThreadOk` says. -/
structure Inv (peer : Peer) (G : Str → Bool) (tr : List (Label ι)) (s : State ι) : Prop where
  established : SocketWriter.Established peer s.writer
  threads : ∀ i, ThreadOk G s.writer tr i (s.threads i)

variable {peer : Peer} {s s' : State ι}

/-- Thread `i` moves to `t'`, and the writer to `w'`, in which an open socket stays open where a
message of `G` is about to be sent. -/
theorem Inv.moved (h : Inv peer G tr s) (hl : l.thread = i)
    (he : SocketWriter.Established peer w') (own : ThreadOk G w' (tr ++ [l]) i t')
    (hw : ∀ j text k, (s.threads j).pc = .attempt text k → G text = true →
      s.writer.socket = some ⟨true⟩ → w'.socket = some ⟨true⟩) :
    Inv peer G (tr ++ [l]) { s.setThread i t' with writer := w' } := by
  refine ⟨he, CondVar.forall_update own fun j hj => ?_⟩
  refine (h.threads j).other ?_ (hw j)
  rw [hl]
  exact hj.symm

/-- A silent step of thread `i` that leaves the writer as it is, from and to places where nothing is
pending. -/
theorem Inv.silent (h : Inv peer G tr s) (hl : l.thread = i) (hq : l.transmitted? i = none)
    (hq' : l.returned? i = none) (hi : s.threads i = t) (ht : t.pending G = [])
    (ht' : t'.pending G = [])
    (hs : ∀ text k, t'.pc = .attempt text k → G text = true →
      k = 0 ∧ s.writer.socket = some ⟨true⟩)
    (hc : ∀ text, t'.pc = .close text → G text = false) :
    Inv peer G (tr ++ [l]) (s.setThread i t') := by
  have own := h.threads i
  rw [hi] at own
  exact h.moved hl h.established (own.move hq hq' ht ht' hs hc) fun _ _ _ _ _ hopen => hopen

/-- Every message that fails on an open socket is outside `G`. -/
theorem Inv.not_mem_of_incomplete {todo : List Str} {text : Str} {k : Nat} {result : SendResult}
    (h : Inv peer G tr s) (hi : s.threads i = ⟨todo, .attempt text k⟩)
    (hn : result.complete text = true ↔ s.writer.socket = some ⟨true⟩ ∧ G text = true)
    (hr : result.complete text = false) : G text = false := by
  cases hG : G text with
  | false => rfl
  | true =>
    obtain ⟨-, hs⟩ := (h.threads i).sending text k (by rw [hi]) hG
    rw [hn.mpr ⟨hs, hG⟩] at hr
    cases hr

/-- Every step keeps the invariant, if it is not a `Close` under a message of `G`. -/
theorem Inv.step (h : Inv peer G tr s) (hst : Step s l s') (hn : Network G s l)
    (hu : Undisturbed G s l) : Inv peer G (tr ++ [l]) s' := by
  cases hst with
  | call hi => exact h.silent rfl rfl rfl hi rfl rfl nofun nofun
  | established hi hf =>
    refine h.silent rfl rfl rfl hi rfl rfl (fun text' k hpc hG => ?_) nofun
    cases hpc
    exact ⟨rfl, (h.established.ready hf).1⟩
  | notEstablished hi hf => exact h.silent rfl rfl rfl hi rfl rfl nofun nofun
  | @created i text todo os hi hret =>
    have hopen : (s.writer.createSocket os).1.socket = some ⟨true⟩ := by
      rcases s.writer.createSocket_cases os with ⟨-, -, hc⟩ | ⟨-, hc, -⟩
      · rw [hc]
      · rw [hc] at hret; cases hret
    refine h.moved rfl (.createSocket h.established.forPeer os)
      ((h.threads i).move rfl rfl ?_ rfl ?_ nofun) fun _ _ _ _ _ _ => hopen
    · rw [hi]; rfl
    · intro text' k hpc hG
      cases hpc
      exact ⟨rfl, hopen⟩
  | notCreated os hi hret =>
    -- The network lets every socket be opened.
    rw [SocketWriter.createSocket_ok_iff.mpr hn] at hret
    cases hret
  | @sent i text todo k result hi hk hne hr =>
    have hG : G text = true := (hn.mp hr).2
    have he := (h.threads i).exact
    rw [hi] at he
    refine h.moved rfl h.established ⟨nofun, nofun, ?_⟩ fun _ _ _ _ _ hopen => hopen
    rw [transmitted_snoc, returned_snoc, List.filter_append, he]
    simp [Label.transmitted?, Label.returned?, Thread.pending, hr, hG]
  | @notSent i text todo k result hi hk hne hr hth =>
    have hG := h.not_mem_of_incomplete hi hn hr
    have hq : Label.transmitted? i (.attempt i text result) = none := by
      simp [Label.transmitted?, hr]
    refine h.silent rfl hq rfl hi rfl rfl (fun text' k' hpc hG' => ?_) nofun
    cases hpc
    rw [hG] at hG'
    cases hG'
  | @threw i text todo k hi hk hne =>
    have hG := h.not_mem_of_incomplete hi hn rfl
    have hq : Label.transmitted? i (.attempt i text .threw) = none := if_neg fun hc => nomatch hc.2
    refine h.silent rfl hq rfl hi rfl rfl nofun fun text' hpc => ?_
    cases hpc
    exact hG
  | @giveUp i text todo hi =>
    -- A message of `G` is sent at its first attempt.
    have hG : G text = false := by
      cases hG : G text with
      | false => rfl
      | true =>
        obtain ⟨h3, -⟩ := (h.threads i).sending text 3 (by rw [hi]) hG
        cases h3
    refine h.silent rfl rfl rfl hi rfl rfl nofun fun text' hpc => ?_
    cases hpc
    exact hG
  | @close i text todo os hi =>
    have hG := (h.threads i).closing text (by rw [hi])
    refine h.moved rfl (h.established.close os) ((h.threads i).move rfl rfl ?_ ?_ nofun nofun) ?_
    · rw [hi]; rfl
    · simp [Thread.pending, hG]
    · intro j text' k hpc hG'
      rw [hu j text' k hpc] at hG'
      cases hG'
  | @done i text todo hi =>
    have he := (h.threads i).exact
    rw [hi] at he
    refine h.moved rfl h.established ⟨nofun, nofun, ?_⟩ fun _ _ _ _ _ hopen => hopen
    rw [transmitted_snoc, returned_snoc, List.filter_append]
    cases hG : G text <;>
      simpa [Label.transmitted?, Label.returned?, Thread.pending, hG] using he

/-! ## A run -/

/-- **No message is lost, if nobody closes the socket under it.** Any number of threads write any
messages on one socket writer, and sockets and sends behave as `Network G` says. In every run in
which no thread runs `Close` while another one has found or created a socket for a message of `G`
that it has not yet sent, each thread has transmitted each of its messages of `G` whose `Write` has
returned exactly once, in order, and besides at most the one whose `Write` is about to return. -/
theorem write_not_lost {peer : Peer} {w : SocketWriter} (hc : SocketWriter.Constructed peer w)
    (G : Str → Bool) {todo : ι → List Str} {tr : List (Label ι)} {s : State ι}
    (h : Lts.Run (Lts.restrict Step fun s l => Network G s l ∧ Undisturbed G s l)
      (State.start w todo) tr s) (i : ι) :
    (transmitted i tr).filter G = (returned i tr).filter G ++ (s.threads i).pending G := by
  have start : Inv peer G [] (State.start w todo) :=
    ⟨hc.established, fun _ => ⟨nofun, nofun, rfl⟩⟩
  have hinv := h.induct (I := fun tr s => Inv peer G tr s) start
    fun _ _ _ _ hi ⟨hst, hn, hu⟩ => hi.step hst hn hu
  exact (hinv.threads i).exact

/-- The good messages of the two runs: the line `g`. -/
def good (text : Str) : Bool := text == str "g\n"

/-- A message fails, and the socket is closed; then another thread opens a new one and sends. -/
theorem write_not_lost_reopened : ∃ (tr : List (Label Bool)) (s : State Bool),
    Lts.Run (Lts.restrict Step fun s l => Network good s l ∧ Undisturbed good s l)
      (State.start (UDPWriter.new (str "127.0.0.1") 1234 {}) fun i =>
        if i then [str "g"] else [str "b"]) tr s ∧
    returned false tr = [str "b\n"] ∧ returned true tr = [str "g\n"] ∧
    (transmitted true tr).filter good = [str "g\n"] := by
  have start : Lts.Run (Lts.restrict Step fun s l => Network good s l ∧ Undisturbed good s l)
    (State.start (UDPWriter.new (str "127.0.0.1") 1234 {}) fun i : Bool =>
      if i then [str "g"] else [str "b"]) [] _ := .nil
  have run := start
    |>.snoc ⟨.call (i := false) rfl, trivial, trivial⟩
    |>.snoc ⟨.established (i := false) rfl rfl, trivial, trivial⟩
    |>.snoc ⟨.threw (i := false) rfl (by decide) nofun, by decide, trivial⟩
    |>.snoc ⟨.close (i := false) .closed rfl, trivial, fun j text k h => by
      cases j <;> cases h⟩
    |>.snoc ⟨.done (i := false) rfl, trivial, trivial⟩
    |>.snoc ⟨.call (i := true) rfl, trivial, trivial⟩
    |>.snoc ⟨.notEstablished (i := true) rfl rfl, trivial, trivial⟩
    |>.snoc ⟨.created (i := true) {} rfl rfl, ⟨rfl, rfl⟩, trivial⟩
    |>.snoc ⟨.sent (i := true) (.returned false 2) rfl (by decide) nofun rfl, by decide, trivial⟩
    |>.snoc ⟨.done (i := true) rfl, trivial, trivial⟩
  have h := write_not_lost (.udp _ _ _) good run true
  exact ⟨_, _, run, rfl, rfl, h⟩

/-- One failing message may cost another thread its message. The socket is closed between the
check of the flag by the other thread and its three attempts. -/
theorem write_lost : ∃ (tr : List (Label Bool)) (s : State Bool),
    Lts.Run (Lts.restrict Step (Network good))
      (State.start (UDPWriter.new (str "127.0.0.1") 1234 {}) fun i =>
        if i then [str "g"] else [str "b"]) tr s ∧
    good (str "g\n") = true ∧ returned true tr = [str "g\n"] ∧ transmitted true tr = [] := by
  have start : Lts.Run (Lts.restrict Step (Network good))
    (State.start (UDPWriter.new (str "127.0.0.1") 1234 {}) fun i : Bool =>
      if i then [str "g"] else [str "b"]) [] _ := .nil
  have run := start
    |>.snoc ⟨.call (i := false) rfl, trivial⟩
    |>.snoc ⟨.established (i := false) rfl rfl, trivial⟩
    |>.snoc ⟨.notSent (i := false) (.returned true 0) rfl (by decide) nofun rfl nofun, by decide⟩
    |>.snoc ⟨.notSent (i := false) (.returned true 0) rfl (by decide) nofun rfl nofun, by decide⟩
    |>.snoc ⟨.notSent (i := false) (.returned true 0) rfl (by decide) nofun rfl nofun, by decide⟩
    |>.snoc ⟨.giveUp (i := false) rfl, trivial⟩
    |>.snoc ⟨.call (i := true) rfl, trivial⟩
    |>.snoc ⟨.established (i := true) rfl rfl, trivial⟩
    |>.snoc ⟨.close (i := false) .closed rfl, trivial⟩
    |>.snoc ⟨.notSent (i := true) (.returned true 0) rfl (by decide) nofun rfl nofun, by decide⟩
    |>.snoc ⟨.notSent (i := true) (.returned true 0) rfl (by decide) nofun rfl nofun, by decide⟩
    |>.snoc ⟨.notSent (i := true) (.returned true 0) rfl (by decide) nofun rfl nofun, by decide⟩
    |>.snoc ⟨.giveUp (i := true) rfl, trivial⟩
    |>.snoc ⟨.close (i := true) .closed rfl, trivial⟩
    |>.snoc ⟨.done (i := true) rfl, trivial⟩
  exact ⟨_, _, run, by decide, rfl, rfl⟩

end NonBuffered

end Spectator
