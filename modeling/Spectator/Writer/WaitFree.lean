import Spectator.Lib.Lts
import Spectator.Writer.NonBuffered

/-!
# Writes without a buffer, whatever the system answers

The threads of the non-buffered mode without any assumption on the network: a socket may not open, a
send may fail, and `Close` may come at any moment.

* `Thread.potential`: the steps of its own that a thread has still to take. `write_wait_free`: no
  thread waits for another one, and `m_socket` is never null where it is dereferenced.
* `Ordered`: how far a thread is. `write_program_order`: each call sends its line at most once.
* `Turn`: a call in one step, as the socket writer has it. `turns_refine`: turns are runs.
-/

namespace Spectator

theorem SocketWriter.close_socket_ne_none {s : SocketWriter} (h : s.socket ≠ none)
    (os : CloseResult) : (s.close os).socket ≠ none := by
  rw [close_eq]
  simpa using h

theorem SocketWriter.createSocket_socket_ne_none (s : SocketWriter) (os : CreateCalls) :
    (s.createSocket os).1.socket ≠ none := by
  unfold createSocket createSocketBody
  cases os.openFails <;> cases os.endpointThrows <;> simp

namespace NonBuffered

/-- What the system answers, if it is asked. -/
structure Answer where
  create : CreateCalls
  send : SendResult
  close : CloseResult

/-- If the step asks the system, then it gets this answer. -/
def Label.Answered {ι : Type} (a : Answer) : Label ι → Prop
  | .create _ os => os = a.create
  | .attempt _ _ result => result = a.send
  | .close _ os => os = a.close
  | _ => True

/-- What a thread has still to do for its current message. -/
def Pc.potential : Pc → Nat
  | .idle => 0
  | .done _ => 1
  | .close _ => 2
  | .attempt _ k => 6 - k
  | .create _ => 7
  | .check _ => 8

def Thread.potential (t : Thread) : Nat := 9 * t.todo.length + t.pc.potential

variable {ι : Type} [DecidableEq ι] {s s' : State ι} {l : Label ι} {i : ι} {tr : List (Label ι)}

/-- The steps of thread `i`. -/
def ownSteps (i : ι) (tr : List (Label ι)) : Nat := tr.countP fun l => l.thread = i

theorem ownSteps_eq_sum (i : ι) (tr : List (Label ι)) :
    ownSteps i tr = (tr.map fun l => if l.thread = i then 1 else 0).sum := by
  induction tr with
  | nil => rfl
  | cons l tr ih =>
    rw [ownSteps, List.countP_cons, List.map_cons, List.sum_cons, ← ih, Nat.add_comm, ownSteps]
    simp

/-- A step changes its own thread only. -/
theorem Step.frame (hst : Step s l s') (hi : l.thread ≠ i) : s'.threads i = s.threads i := by
  cases hst <;> exact Function.update_of_ne (Ne.symm hi) _ _

/-- Every step of a thread brings it nearer to its end. -/
theorem Step.own (hst : Step s l s') :
    1 + (s'.threads l.thread).potential ≤ (s.threads l.thread).potential := by
  have move : ∀ {j : ι} {t t' : Thread}, s.threads j = t → 1 + t'.potential ≤ t.potential →
      1 + (Function.update s.threads j t' j).potential ≤ (s.threads j).potential := by
    intro j t t' hj hle
    rw [Function.update_self, hj]
    exact hle
  cases hst with
  | call hi | established hi | notEstablished hi | created _ hi | notCreated _ hi | sent _ hi
  | notSent _ hi | threw hi | giveUp hi | close _ hi | done hi =>
    refine move hi ?_
    simp only [Thread.potential, Pc.potential, List.length_cons]
    omega

/-- Wherever a thread is, the socket can be used. -/
structure Usable (s : State ι) : Prop where
  socket : s.writer.socket ≠ none
  attempts : ∀ i text k, (s.threads i).pc = .attempt text k → k ≤ 3

theorem Step.usable (hst : Step s l s') (h : Usable s) : Usable s' := by
  have move : ∀ {j : ι} {t : Thread}, (∀ text k, t.pc = .attempt text k → k ≤ 3) →
      ∀ i text k, (Function.update s.threads j t i).pc = .attempt text k → k ≤ 3 := by
    intro j t ht i
    exact CondVar.forall_update
      (P := fun _ (t : Thread) => ∀ text k, t.pc = .attempt text k → k ≤ 3)
      ht (fun i _ => h.attempts i) i
  cases hst with
  | call | notEstablished | sent | threw | giveUp | done => exact ⟨h.socket, move nofun⟩
  | established =>
    refine ⟨h.socket, move fun text k hpc => ?_⟩
    cases hpc
    exact Nat.zero_le 3
  | created os =>
    refine ⟨s.writer.createSocket_socket_ne_none os, move fun text k hpc => ?_⟩
    cases hpc
    exact Nat.zero_le 3
  | notCreated os => exact ⟨s.writer.createSocket_socket_ne_none os, move nofun⟩
  | notSent _ _ hk =>
    refine ⟨h.socket, move fun text k hpc => ?_⟩
    cases hpc
    exact hk
  | close os => exact ⟨SocketWriter.close_socket_ne_none h.socket os, move nofun⟩

/-- A thread that has not finished can take a step, whatever the system answers. -/
theorem Usable.exists_step (h : Usable s) (hi : s.threads i ≠ ⟨[], .idle⟩) (a : Answer) :
    ∃ l s', l.thread = i ∧ l.Answered a ∧ Step s l s' := by
  rcases ht : s.threads i with ⟨todo, pc⟩
  cases pc with
  | idle =>
    cases todo with
    | nil => exact absurd ht hi
    | cons m todo => exact ⟨.tau i, _, rfl, trivial, .call ht⟩
  | check text =>
    cases hf : s.writer.socketEstablished with
    | true => exact ⟨.tau i, _, rfl, trivial, .established ht hf⟩
    | false => exact ⟨.tau i, _, rfl, trivial, .notEstablished ht hf⟩
  | create text =>
    rcases s.writer.createSocket_cases a.create with ⟨-, -, hc⟩ | ⟨-, hc, -⟩
    · exact ⟨.create i a.create, _, rfl, rfl, .created a.create ht (by rw [hc])⟩
    · exact ⟨.create i a.create, _, rfl, rfl, .notCreated a.create ht hc⟩
  | attempt text k =>
    have hk := h.attempts i text k (by rw [ht])
    rcases Nat.lt_or_eq_of_le hk with hk | rfl
    · cases hc : a.send.complete text with
      | true => exact ⟨.attempt i text a.send, _, rfl, rfl, .sent a.send ht hk h.socket hc⟩
      | false =>
        by_cases hthrew : a.send = .threw
        · exact ⟨.attempt i text .threw, _, rfl, hthrew.symm, .threw ht hk h.socket⟩
        · exact ⟨.attempt i text a.send, _, rfl, rfl, .notSent a.send ht hk h.socket hc hthrew⟩
    · exact ⟨.tau i, _, rfl, trivial, .giveUp ht⟩
  | close text => exact ⟨.close i a.close, _, rfl, rfl, .close a.close ht⟩
  | done text => exact ⟨.returned i text, _, rfl, trivial, .done ht⟩

/-- **No thread waits.** On a socket writer that any number of threads share without a lock, a
thread takes at most nine steps of its own for each of its messages, whatever the others do and the
system answers; and until it has written its last message, its next step is there in every state and
for every answer. So `m_socket` is never null where it is dereferenced, and no `Write` depends on
the progress of another one. -/
theorem write_wait_free {peer : Peer} {w : SocketWriter} (hc : SocketWriter.Constructed peer w)
    {todo : ι → List Str} (h : Lts.Run Step (State.start w todo) tr s) (i : ι) :
    ownSteps i tr ≤ 9 * (todo i).length ∧
      (s.threads i = ⟨[], .idle⟩ ∨
        ∀ a : Answer, ∃ l s', l.thread = i ∧ l.Answered a ∧ Step s l s') := by
  constructor
  · have hcost : (tr.map fun l => if l.thread = i then 1 else 0).sum + (s.threads i).potential ≤
        ((State.start w todo).threads i).potential := by
      refine h.cost_add_le (I := fun _ => True) (μ := fun s => (s.threads i).potential) trivial
        (fun _ _ _ _ _ => trivial) fun s₁ l s₂ _ hst => ?_
      by_cases hl : l.thread = i
      · subst hl
        rw [if_pos rfl]
        exact hst.own
      · rw [if_neg hl, hst.frame hl, Nat.zero_add]
    rw [ownSteps_eq_sum]
    simp only [State.start, Thread.potential, Pc.potential] at hcost
    omega
  · have hsocket : w.socket ≠ none := by
      cases hc with
      | udp | uds => exact SocketWriter.createSocket_socket_ne_none _ _
    have husable : Usable s :=
      h.invariant (I := Usable) ⟨hsocket, nofun⟩ fun _ _ _ hu hst => hst.usable hu
    by_cases hi : s.threads i = ⟨[], .idle⟩
    · exact .inl hi
    · exact .inr fun a => husable.exists_step hi a

/-- The socket is closed under a thread that has still to send. -/
theorem write_wait_free_closed : ∃ (tr : List (Label Bool)) (s : State Bool),
    s.writer.socket = some ⟨false⟩ ∧ (s.threads true).pc = .attempt (str "g\n") 0 ∧
    (ownSteps true tr ≤ 9 * [str "g"].length ∧
      (s.threads true = ⟨[], .idle⟩ ∨
        ∀ a : Answer, ∃ l s', l.thread = true ∧ l.Answered a ∧ Step s l s')) := by
  have start : Lts.Run Step (State.start (UDPWriter.new (str "127.0.0.1") 1234 {})
    fun i : Bool => if i then [str "g"] else [str "b"]) [] _ := .nil
  have run := start
    |>.snoc (.call (i := false) rfl)
    |>.snoc (.established (i := false) rfl rfl)
    |>.snoc (.call (i := true) rfl)
    |>.snoc (.established (i := true) rfl rfl)
    |>.snoc (.threw (i := false) rfl (by decide) nofun)
    |>.snoc (.close (i := false) .closed rfl)
  exact ⟨_, _, rfl, rfl, write_wait_free (.udp _ _ _) run true⟩

/-! ## Program order -/

/-- The text that the thread is about to write. -/
def Thread.current (t : Thread) : List Str :=
  match t.pc with
  | .idle => []
  | .check text | .create text | .attempt text _ | .close text | .done text => [text]

/-- The text that the thread may have sent, before its `Write` returns. -/
def Thread.sent (t : Thread) : List Str :=
  match t.pc with
  | .done text => [text]
  | _ => []

/-- How far the thread is with its messages `todo`. -/
structure Ordered (todo : List Str) (tr : List (Label ι)) (i : ι) (t : Thread) : Prop where
  order : returned i tr ++ t.current ++ t.todo.map Writer.nonBufferedText =
    todo.map Writer.nonBufferedText
  once : (transmitted i tr).Sublist (returned i tr ++ t.sent)

variable {todo : List Str} {t t' : Thread}

/-- A step that shows nothing of the thread. -/
theorem Ordered.silent (h : Ordered todo tr i t) (ht : l.transmitted? i = none)
    (hr : l.returned? i = none) (hc : t'.current ++ t'.todo.map Writer.nonBufferedText =
      t.current ++ t.todo.map Writer.nonBufferedText) (hs : t.sent.Sublist t'.sent) :
    Ordered todo (tr ++ [l]) i t' := by
  have et : transmitted i (tr ++ [l]) = transmitted i tr := by rw [transmitted_snoc, ht]; simp
  have er : returned i (tr ++ [l]) = returned i tr := by rw [returned_snoc, hr]; simp
  refine ⟨?_, ?_⟩
  · rw [er, List.append_assoc, hc, ← List.append_assoc]
    exact h.order
  · rw [et, er]
    exact h.once.trans (hs.append_left _)

/-- The step of the thread itself. -/
theorem Step.ordered_own (hst : Step s l s') (hl : l.thread = i)
    (h : Ordered todo tr i (s.threads i)) : Ordered todo (tr ++ [l]) i (s'.threads i) := by
  have move : ∀ {t t' : Thread}, s.threads i = t →
      (Ordered todo tr i t → Ordered todo (tr ++ [l]) i t') →
      Ordered todo (tr ++ [l]) i (Function.update s.threads i t' i) := by
    intro t t' hi next
    rw [hi] at h
    rw [Function.update_self]
    exact next h
  cases hst with
  | @call j _ _ hi =>
    obtain rfl : j = i := hl
    exact move hi fun ho => ho.silent rfl rfl rfl .slnil
  | @established j _ _ hi | @notEstablished j _ _ hi | @created j _ _ _ hi | @notCreated j _ _ _ hi
  | @giveUp j _ _ hi | @close j _ _ _ hi =>
    obtain rfl : j = i := hl
    exact move hi fun ho => ho.silent rfl rfl rfl (List.nil_sublist _)
  | @notSent j text _ _ result hi _ _ hr =>
    obtain rfl : j = i := hl
    have hq : Label.transmitted? j (.attempt j text result) = none := by
      simp [Label.transmitted?, hr]
    exact move hi fun ho => ho.silent hq rfl rfl (List.nil_sublist _)
  | @threw j text _ _ hi =>
    obtain rfl : j = i := hl
    have hq : Label.transmitted? j (.attempt j text .threw) = none := by
      simp [Label.transmitted?, SendResult.complete]
    exact move hi fun ho => ho.silent hq rfl rfl (List.nil_sublist _)
  | @sent j text rest _ result hi _ _ hr =>
    obtain rfl : j = i := hl
    have hq : Label.transmitted? j (.attempt j text result) = some text := if_pos ⟨rfl, hr⟩
    refine move hi fun ho => ?_
    have horder : returned j tr ++ [text] ++ rest.map Writer.nonBufferedText =
        todo.map Writer.nonBufferedText := ho.order
    have honce : (transmitted j tr).Sublist (returned j tr ++ []) := ho.once
    rw [List.append_nil] at honce
    have er : returned j (tr ++ [.attempt j text result]) = returned j tr := by
      rw [returned_snoc]
      exact List.append_nil _
    refine ⟨?_, ?_⟩
    · rw [er]
      exact horder
    · rw [transmitted_snoc, hq, er]
      exact honce.append_right [text]
  | @done j text rest hi =>
    obtain rfl : j = i := hl
    have hq : Label.returned? j (.returned j text) = some text := if_pos rfl
    refine move hi fun ho => ?_
    have horder : returned j tr ++ [text] ++ rest.map Writer.nonBufferedText =
        todo.map Writer.nonBufferedText := ho.order
    have honce : (transmitted j tr).Sublist (returned j tr ++ [text]) := ho.once
    have et : transmitted j (tr ++ [.returned j text]) = transmitted j tr := by
      rw [transmitted_snoc]
      exact List.append_nil _
    have er : returned j (tr ++ [.returned j text]) = returned j tr ++ [text] := by
      rw [returned_snoc, hq]
      rfl
    refine ⟨?_, ?_⟩
    · rw [er, ← horder]
      exact congrArg (· ++ _) (List.append_nil _)
    · rw [et, er]
      exact honce.trans (List.sublist_append_left _ _)

theorem Step.ordered (hst : Step s l s') (h : Ordered todo tr i (s.threads i)) :
    Ordered todo (tr ++ [l]) i (s'.threads i) := by
  by_cases hi : l.thread = i
  · exact hst.ordered_own hi h
  · obtain ⟨ht, hr⟩ := Label.silent_of_ne hi
    rw [hst.frame hi]
    exact h.silent ht hr rfl (List.Sublist.refl _)

theorem Ordered.of_run {w : SocketWriter} {todo : ι → List Str}
    (h : Lts.Run Step (State.start w todo) tr s) (i : ι) : Ordered (todo i) tr i (s.threads i) :=
  h.induct (I := fun tr s => Ordered (todo i) tr i (s.threads i))
    ⟨rfl, List.nil_sublist _⟩ fun _ _ _ _ ho hst => hst.ordered ho

theorem Thread.sent_sublist (t : Thread) : t.sent.Sublist t.current := by
  obtain ⟨todo, pc⟩ := t
  cases pc with
  | done text => exact .refl _
  | _ => exact List.nil_sublist _

/-- The datagrams of a thread are some of its lines, in their order. -/
theorem Ordered.transmitted_sublist (h : Ordered todo tr i t) :
    (transmitted i tr).Sublist (todo.map Writer.nonBufferedText) := by
  rw [← h.order]
  exact h.once.trans ((t.sent_sublist.append_left _).trans (List.sublist_append_left _ _))

/-- **Program order.** Whatever the threads and the system do, the calls of a thread return in the
order of its messages, none left out; and the datagrams that the thread has sent are whole lines of
these calls, at most one for each call and in their order. -/
theorem write_program_order {w : SocketWriter} {todo : ι → List Str}
    (h : Lts.Run Step (State.start w todo) tr s) (i : ι) :
    returned i tr ++ (s.threads i).current ++ (s.threads i).todo.map Writer.nonBufferedText =
        (todo i).map Writer.nonBufferedText ∧
      (transmitted i tr).Sublist (returned i tr ++ (s.threads i).sent) := by
  have hi := Ordered.of_run h i
  exact ⟨hi.order, hi.once⟩

/-- A message is lost, and the next one of the same thread is sent. -/
theorem write_program_order_lost : ∃ (tr : List (Label Unit)) (s : State Unit),
    returned () tr = [str "a\n"] ∧ transmitted () tr = [str "b\n"] ∧
    (returned () tr ++ (s.threads ()).current ++ (s.threads ()).todo.map Writer.nonBufferedText =
        [str "a", str "b"].map Writer.nonBufferedText ∧
      (transmitted () tr).Sublist (returned () tr ++ (s.threads ()).sent)) := by
  have start : Lts.Run Step (State.start (UDPWriter.new (str "127.0.0.1") 1234 {})
    fun _ : Unit => [str "a", str "b"]) [] _ := .nil
  have run := start
    |>.snoc (.call (i := ()) rfl)
    |>.snoc (.established (i := ()) rfl rfl)
    |>.snoc (.threw (i := ()) rfl (by decide) nofun)
    |>.snoc (.close (i := ()) .closed rfl)
    |>.snoc (.done (i := ()) rfl)
    |>.snoc (.call (i := ()) rfl)
    |>.snoc (.notEstablished (i := ()) rfl rfl)
    |>.snoc (.created (i := ()) {} rfl rfl)
    |>.snoc (.sent (i := ()) (.returned false 2) rfl (by decide) nofun rfl)
  exact ⟨_, _, rfl, rfl, write_program_order run ()⟩

/-! ## A call in one step -/

/-- The attempt that the step makes. -/
def Label.asked : Label ι → List (ι × Str × SendResult)
  | .attempt i text result => [(i, text, result)]
  | _ => []

/-- The attempts of a call by thread `i`. -/
def attemptsOf (i : ι) (attempts : List Attempt) : List (ι × Str × SendResult) :=
  attempts.map fun a => (i, a.message, a.result)

/-- A thread calls `Write` and is not interrupted: the socket writer as a whole moves as its `write`
says. The label is what the call asked. -/
inductive Turn : State ι → List (ι × Str × SendResult) → State ι → Prop
  | write {s : State ι} {i : ι} {m : Str} {todo : List Str} (os : WriteCalls) :
      s.threads i = ⟨m :: todo, .idle⟩ →
      Turn s (attemptsOf i (s.writer.write (Writer.nonBufferedText m) os).attempts)
        { s.setThread i ⟨todo, .idle⟩ with
          writer := (s.writer.write (Writer.nonBufferedText m) os).state }

/-- The state with thread `i` at `t` and the writer `w`. -/
def State.put (s : State ι) (i : ι) (t : Thread) (w : SocketWriter) : State ι :=
  { s.setThread i t with writer := w }

theorem State.put_setThread (s : State ι) (i : ι) (t t' : Thread) (w w' : SocketWriter) :
    { (s.put i t w).setThread i t' with writer := w' } = s.put i t' w' := by
  simp [State.put, State.setThread]

theorem State.put_threads (s : State ι) (i : ι) (t : Thread) (w : SocketWriter) :
    (s.put i t w).threads i = t :=
  Function.update_self ..

section Turn

variable {w : SocketWriter} {rest : List Str} {text : Str}

/-- A step of thread `i`, with the others as in `s`. -/
theorem State.put_step {t' : Thread} {w' : SocketWriter} {tr : List (Label ι)} {s₀ : State ι}
    (h : Lts.Run Step s₀ tr (s.put i t w))
    (hst : Step (s.put i t w) l { (s.put i t w).setThread i t' with writer := w' }) :
    Lts.Run Step s₀ (tr ++ [l]) (s.put i t' w') := by
  rw [State.put_setThread] at hst
  exact h.snoc hst

/-- The loop of `TryToSend`: the attempts one by one. -/
theorem run_sendLoop {socket : Socket} (hs : w.socket = some socket) (send : Nat → SendResult)
    (n k : Nat) (hk : k + n = 3) :
    ∃ tr, Lts.Run Step (s.put i ⟨rest, .attempt text k⟩ w) tr (s.put i
        ⟨rest, if (w.sendLoop send text k n).2 = .ok true then .done text else .close text⟩ w) ∧
      tr.flatMap Label.asked = attemptsOf i (w.sendLoop send text k n).1 := by
  have hne : w.socket ≠ none := by rw [hs]; exact Option.some_ne_none _
  induction n generalizing k with
  | zero =>
    obtain rfl : k = 3 := hk
    exact ⟨_, State.put_step .nil (.giveUp (State.put_threads ..)), rfl⟩
  | succ n ih =>
    have hlt : k < 3 := by omega
    rw [SocketWriter.sendLoop, hs]
    dsimp only
    cases hr : send k with
    | threw => exact ⟨_, State.put_step .nil (.threw (State.put_threads ..) hlt hne), rfl⟩
    | returned ec sent =>
      cases hc : ec || decide (sent < text.length) with
      | true =>
        have hincomplete : (SendResult.returned ec sent).complete text = false := by
          rw [SendResult.complete, hc]; rfl
        have hth : SendResult.returned ec sent ≠ .threw := by
          simp only [ne_eq, reduceCtorEq, not_false_eq_true]
        obtain ⟨tr, hrun, hasked⟩ := ih (k + 1) (by omega)
        have first : Lts.Run Step (s.put i ⟨rest, .attempt text k⟩ w)
            ([] ++ [.attempt i text (.returned ec sent)])
            (s.put i ⟨rest, .attempt text (k + 1)⟩ w) :=
          State.put_step .nil
            (.notSent (.returned ec sent) (State.put_threads ..) hlt hne hincomplete hth)
        simp only [hc, if_true]
        refine ⟨_, first.append hrun, ?_⟩
        rw [List.flatMap_append, hasked]
        rfl
      | false =>
        have hcomplete : (SendResult.returned ec sent).complete text = true := by
          rw [SendResult.complete, hc]; rfl
        simp only [hc, Bool.false_eq_true, if_false, if_true]
        exact ⟨_, State.put_step .nil
          (.sent (.returned ec sent) (State.put_threads ..) hlt hne hcomplete), rfl⟩

/-- `TryToSend`, and `Close` if it fails. -/
theorem run_sendOrClose {socket : Socket} (hs : w.socket = some socket) (os : WriteCalls) :
    ∃ tr, Lts.Run Step (s.put i ⟨rest, .attempt text 0⟩ w) tr
        (s.put i ⟨rest, .done text⟩ (w.sendOrClose text os).state) ∧
      tr.flatMap Label.asked = attemptsOf i (w.sendOrClose text os).attempts := by
  obtain ⟨tr, hrun, hasked⟩ : ∃ tr, _ ∧ _ := run_sendLoop (s := s) (i := i) hs os.send 3 0 rfl
  have hfault := (SocketWriter.sendLoop_spec hs os.send text 0 3).fault
  unfold SocketWriter.sendOrClose SocketWriter.tryToSend
  rcases hout : w.sendLoop os.send text 0 3 with ⟨attempts, result⟩
  rw [hout] at hrun hasked hfault
  have closed (hr : result ≠ .ok true) : ∃ tr, Lts.Run Step (s.put i ⟨rest, .attempt text 0⟩ w) tr
      (s.put i ⟨rest, .done text⟩ (w.close os.close)) ∧
        tr.flatMap Label.asked = attemptsOf i attempts := by
    rw [if_neg hr] at hrun
    refine ⟨_, State.put_step hrun (.close os.close (State.put_threads ..)), ?_⟩
    rw [List.flatMap_append, hasked]
    exact List.append_nil _
  cases result with
  | ok sent =>
    cases sent with
    | true => exact ⟨tr, hrun, hasked⟩
    | false => exact closed nofun
  | error e =>
    cases e with
    | systemError => exact closed nofun
    | nullDereference => exact absurd rfl hfault

/-- The return of `Write`. -/
theorem run_return {tr : List (Label ι)} {s₀ : State ι} {asked : List (ι × Str × SendResult)}
    (h : Lts.Run Step s₀ tr (s.put i ⟨rest, .done text⟩ w)) (ha : tr.flatMap Label.asked = asked) :
    ∃ tr, Lts.Run Step s₀ tr (s.put i ⟨rest, .idle⟩ w) ∧ tr.flatMap Label.asked = asked := by
  refine ⟨_, State.put_step h (.done (State.put_threads ..)), ?_⟩
  rw [List.flatMap_append, ha]
  exact List.append_nil _

/-- A turn is a run of the steps of its thread. -/
theorem Turn.exists_run {peer : Peer} {asked : List (ι × Str × SendResult)}
    (ht : Turn s asked s') (he : SocketWriter.Established peer s.writer) :
    ∃ tr, Lts.Run Step s tr s' ∧ tr.flatMap Label.asked = asked := by
  cases ht with
  | @write i m rest os hi =>
    have call : Lts.Run Step s [.tau i]
        (s.put i ⟨rest, .check (Writer.nonBufferedText m)⟩ s.writer) := Lts.Run.nil.snoc (.call hi)
    cases hf : s.writer.socketEstablished with
    | true =>
      have first := State.put_step call (.established (State.put_threads ..) hf)
      obtain ⟨tr, hrun, hasked⟩ : ∃ tr, _ ∧ _ :=
        run_sendOrClose (s := s) (i := i) (he.ready hf).1 os
      have hw : s.writer.write (Writer.nonBufferedText m) os =
          s.writer.sendOrClose (Writer.nonBufferedText m) os := if_pos hf
      rw [hw]
      exact run_return (first.append hrun) (by rw [List.flatMap_append, hasked]; rfl)
    | false =>
      have first := State.put_step call (.notEstablished (State.put_threads ..) hf)
      have hne : ¬ s.writer.socketEstablished = true := by rw [hf]; exact Bool.false_ne_true
      rw [SocketWriter.write, if_neg hne]
      rcases s.writer.createSocket_cases os.create with ⟨-, -, hc⟩ | ⟨-, hc, -, -⟩
      · have next := State.put_step first
          (.created os.create (State.put_threads ..) (congrArg Prod.snd hc))
        have hs : (s.writer.createSocket os.create).1.socket = some ⟨true⟩ := by rw [hc]
        obtain ⟨tr, hrun, hasked⟩ : ∃ tr, _ ∧ _ := run_sendOrClose (s := s) (i := i) hs os
        rw [show s.writer.createSocket os.create =
          ((s.writer.createSocket os.create).1, .ok true) from Prod.ext rfl (by rw [hc])]
        exact run_return (next.append hrun) (by rw [List.flatMap_append, hasked]; rfl)
      · have next := State.put_step first (.notCreated os.create (State.put_threads ..) hc)
        rw [show s.writer.createSocket os.create =
          ((s.writer.createSocket os.create).1, .ok false) from Prod.ext rfl hc]
        exact run_return next rfl

/-- A turn keeps the socket writer established. -/
theorem Turn.established {peer : Peer} {asked : List (ι × Str × SendResult)}
    (ht : Turn s asked s') (he : SocketWriter.Established peer s.writer) :
    SocketWriter.Established peer s'.writer := by
  cases ht with
  | @write _ m _ os => exact (he.write (Writer.nonBufferedText m) os).established

end Turn

/-- **Threads that take turns** do what the socket writer does when it is called by one thread, each
call as a whole: every run of turns is a run of the atomic steps, with the same attempts in the same
order, and it ends in the same state. -/
theorem turns_refine {peer : Peer} {w : SocketWriter} (hc : SocketWriter.Constructed peer w)
    {todo : ι → List Str} {turns : List (List (ι × Str × SendResult))}
    (h : Lts.Run Turn (State.start w todo) turns s) :
    ∃ tr, Lts.Run Step (State.start w todo) tr s ∧ tr.flatMap Label.asked = turns.flatten := by
  have sim : Lts.Simulates Turn Step id Label.asked
      fun (s t : State ι) => s = t ∧ SocketWriter.Established peer s.writer := by
    rintro s asked s' t ⟨rfl, he⟩ ht
    obtain ⟨tr, hrun, hasked⟩ := ht.exists_run he
    exact ⟨tr, s', hrun, hasked, rfl, ht.established he⟩
  obtain ⟨tr, s', hrun, hasked, rfl, -⟩ := sim.run h ⟨rfl, hc.established⟩
  exact ⟨tr, hrun, hasked.trans List.flatMap_id⟩

/-- The first turn fails and closes the socket, the second one opens a new one and sends. -/
theorem turns_refine_reopened : ∃ (tr : List (Label Bool)) (s : State Bool),
    Lts.Run Step (State.start (UDPWriter.new (str "127.0.0.1") 1234 {}) fun i : Bool =>
      if i then [str "g"] else [str "b"]) tr s ∧
    tr.flatMap Label.asked =
      [(false, str "b\n", .threw), (true, str "g\n", .returned false 2)] := by
  have start : Lts.Run Turn (State.start (UDPWriter.new (str "127.0.0.1") 1234 {}) fun i : Bool =>
    if i then [str "g"] else [str "b"]) [] _ := .nil
  have run := start
    |>.snoc (.write (i := false) { send := fun _ => .threw } rfl)
    |>.snoc (.write (i := true) { send := fun _ => .returned false 2 } rfl)
  obtain ⟨tr, hrun, hasked⟩ := turns_refine (.udp _ _ _) run
  exact ⟨tr, _, hrun, hasked.trans rfl⟩

end NonBuffered

end Spectator
