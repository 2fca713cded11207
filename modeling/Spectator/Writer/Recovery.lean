import Spectator.Writer.Socket

/-!
# A socket writer over any history of failures

What one method does, and from it what holds after any sequence of calls, whatever the system calls
return.

* `Established`: the flag implies an open socket and the configured endpoint. Every method keeps it.
* `createSocket_cases`: the two ways in which `CreateSocket` ends. `sendLoop_spec`: the attempts.
* `socket_used_open`: a socket is only used when it exists and is open.
* `socket_write_recovers`: `Write` after any history.
-/

namespace Spectator

namespace SocketWriter

/-- The writer is for `peer`, and if its flag is set, then it has an open socket and the endpoint of
`peer`. -/
structure Established (peer : Peer) (s : SocketWriter) : Prop where
  forPeer : s.peer = peer
  ready : s.socketEstablished = true →
    s.socket = some ⟨true⟩ ∧ s.endpoint = some peer.endpoint

variable {s s' s₀ : SocketWriter} {peer : Peer} {send : Nat → SendResult} {message : Str}

/-! ## The methods -/

theorem close_eq (s : SocketWriter) (os : CloseResult) : s.close os = { s with
    socketEstablished := false
    socket := s.socket.map fun socket => if socket.isOpen then ⟨os.isOpen⟩ else socket } := by
  obtain ⟨peer, socket, endpoint, flag⟩ := s
  cases socket with
  | none => rfl
  | some socket => cases h : socket.isOpen <;> simp [close, h]

/-- `CreateSocket` opens a socket and sets the endpoint and the flag, or it returns `false` and
leaves the flag cleared. No exception leaves it. -/
theorem createSocket_cases (s : SocketWriter) (os : CreateCalls) :
    (os.openFails = false ∧ os.endpointThrows = false ∧ s.createSocket os =
      ({ s with
        socket := some ⟨true⟩, endpoint := some s.peer.endpoint, socketEstablished := true },
        .ok true)) ∨
    ((os.openFails = true ∨ os.endpointThrows = true) ∧ (s.createSocket os).2 = .ok false ∧
      (s.createSocket os).1.peer = s.peer ∧ (s.createSocket os).1.socketEstablished = false) := by
  unfold createSocket createSocketBody
  cases ho : os.openFails with
  | true =>
    refine .inr ⟨.inl rfl, rfl, ?_⟩
    cases hs : s.socketEstablished <;> simp [close_eq, hs]
  | false =>
    cases he : os.endpointThrows with
    | true =>
      refine .inr ⟨.inr rfl, rfl, ?_⟩
      cases hs : s.socketEstablished <;> simp [close_eq, hs]
    | false =>
      refine .inl ⟨rfl, rfl, ?_⟩
      cases s.socketEstablished <;> simp [close_eq, catchSystemError]

theorem createSocket_ok_iff {os : CreateCalls} : (s.createSocket os).2 = .ok true ↔
    os.openFails = false ∧ os.endpointThrows = false := by
  rcases s.createSocket_cases os with ⟨ho, he, h⟩ | ⟨hf, h, -⟩
  · rw [h]
    exact ⟨fun _ => ⟨ho, he⟩, fun _ => rfl⟩
  · rw [h]
    constructor
    · intro hne
      cases hne
    · rintro ⟨ho, he⟩
      rw [ho, he] at hf
      rcases hf with hf | hf <;> cases hf

/-! ## The attempts -/

/-- What the attempts of the loop are, on the socket `socket`, with `n` of them left from the
attempt `i` on. -/
structure SendLoopSpec (s : SocketWriter) (socket : Socket) (send : Nat → SendResult)
    (message : Str) (i n : Nat) (out : List Attempt × Except Fault Bool) : Prop where
  length : out.1.length ≤ n
  uses : ∀ a ∈ out.1, a.socket = socket ∧ a.endpoint = s.endpoint ∧ a.message = message
  /-- At most one attempt is complete, and then it is the result. -/
  count : out.1.countP Attempt.complete = if out.2 = .ok true then 1 else 0
  ok_iff : out.2 = .ok true ↔
    ∃ k < n, (send (i + k)).complete message = true ∧ ∀ j < k, send (i + j) ≠ .threw
  fault : out.2 ≠ .error .nullDereference

/-- The attempt `i` ends the loop, or it fails and the loop goes on. -/
theorem exists_lt_succ_iff {i n : Nat} : (∃ k < n + 1, (send (i + k)).complete message = true ∧
      ∀ j < k, send (i + j) ≠ .threw) ↔
    (send i).complete message = true ∨ send i ≠ .threw ∧
      ∃ k < n, (send (i + 1 + k)).complete message = true ∧
        ∀ j < k, send (i + 1 + j) ≠ .threw := by
  constructor
  · rintro ⟨k, hk, hc, hj⟩
    cases k with
    | zero => exact .inl hc
    | succ k =>
      refine .inr ⟨hj 0 (Nat.succ_pos k), k, Nat.lt_of_succ_lt_succ hk, ?_, fun j hjk => ?_⟩
      · rw [Nat.add_right_comm]; exact hc
      · rw [Nat.add_right_comm]; exact hj (j + 1) (Nat.succ_lt_succ hjk)
  · rintro (hc | ⟨h0, k, hk, hc, hj⟩)
    · exact ⟨0, Nat.succ_pos n, hc, nofun⟩
    · refine ⟨k + 1, Nat.succ_lt_succ hk, ?_, fun j hjk => ?_⟩
      · rw [← Nat.add_assoc, Nat.add_right_comm]; exact hc
      · cases j with
        | zero => exact h0
        | succ j =>
          rw [← Nat.add_assoc, Nat.add_right_comm]
          exact hj j (Nat.lt_of_succ_lt_succ hjk)

/-- The loop of `TryToSend`, by induction on the attempts that are left. -/
theorem sendLoop_spec {socket : Socket} (hs : s.socket = some socket) (send : Nat → SendResult)
    (message : Str) (i n : Nat) :
    SendLoopSpec s socket send message i n (s.sendLoop send message i n) := by
  induction n generalizing i with
  | zero =>
    refine ⟨Nat.le_refl _, nofun, rfl, ?_, nofun⟩
    constructor
    · intro h; cases h
    · rintro ⟨k, hk, -⟩; cases hk
  | succ n ih =>
    obtain ⟨hlen, huses, hcount, hok, hfault⟩ := ih (i + 1)
    have hone : ∀ a ∈ [(⟨socket, s.endpoint, message, send i⟩ : Attempt)],
        a.socket = socket ∧ a.endpoint = s.endpoint ∧ a.message = message := by
      intro a ha
      rw [List.mem_singleton.mp ha]
      exact ⟨rfl, rfl, rfl⟩
    rw [sendLoop, hs]
    dsimp only
    cases hr : send i with
    | threw =>
      rw [hr] at hone
      dsimp only
      refine ⟨Nat.succ_le_succ (Nat.zero_le n), hone, rfl, ?_, nofun⟩
      · rw [exists_lt_succ_iff, hr]
        constructor
        · intro h; cases h
        · rintro (h | ⟨h, -⟩)
          · cases h
          · exact absurd rfl h
    | returned ec sent =>
      rw [hr] at hone
      dsimp only
      cases hc : ec || decide (sent < message.length) with
      | true =>
        -- An incomplete attempt: the attempts are this one and those of the rest of the loop.
        have hincomplete : (SendResult.returned ec sent).complete message = false := by
          rw [SendResult.complete, hc]; rfl
        simp only [if_true]
        refine ⟨Nat.succ_le_succ hlen, ?_, ?_, ?_, hfault⟩
        · rw [List.forall_mem_cons]
          exact ⟨hone _ List.mem_cons_self, huses⟩
        · rw [List.countP_cons_of_neg (by simp [Attempt.complete, hincomplete])]
          exact hcount
        · rw [exists_lt_succ_iff, hr, hincomplete, ← hok]
          simp
      | false =>
        have hcomplete : (SendResult.returned ec sent).complete message = true := by
          rw [SendResult.complete, hc]; rfl
        simp only [Bool.false_eq_true, if_false]
        refine ⟨Nat.succ_le_succ (Nat.zero_le n), hone, ?_, ?_, nofun⟩
        · simp [Attempt.complete, hcomplete]
        · rw [exists_lt_succ_iff, hr]
          simp [hcomplete]

/-! ## What every method keeps -/

theorem Established.close (hi : Established peer s) (os : CloseResult) :
    Established peer (s.close os) := by
  rw [close_eq]
  exact ⟨hi.forPeer, nofun⟩

theorem Established.createSocket (hp : s.peer = peer) (os : CreateCalls) :
    Established peer (s.createSocket os).1 := by
  rcases s.createSocket_cases os with ⟨-, -, h⟩ | ⟨-, -, hpeer, hflag⟩
  · rw [h]
    exact ⟨hp, fun _ => ⟨rfl, by rw [hp]⟩⟩
  · refine ⟨hpeer.trans hp, fun h => ?_⟩
    rw [hflag] at h
    cases h

/-- What a call of `Write` does, where `ready` says that there is a socket to send on. -/
structure WriteSpec (peer : Peer) (ready : Prop) (send : Nat → SendResult) (message : Str)
    (w : Written) : Prop where
  result : w.result = .ok ()
  established : Established peer w.state
  length : w.attempts.length ≤ 3
  uses : ∀ a ∈ w.attempts,
    a.socket = ⟨true⟩ ∧ a.endpoint = some peer.endpoint ∧ a.message = message
  count : w.attempts.countP Attempt.complete = if w.state.socketEstablished = true then 1 else 0
  flag_iff : w.state.socketEstablished = true ↔
    ready ∧ ∃ k < 3, (send k).complete message = true ∧ ∀ j < k, send j ≠ .threw

theorem Established.sendOrClose (hi : Established peer s) (hf : s.socketEstablished = true)
    (message : Str) (os : WriteCalls) {ready : Prop} (hr : ready) :
    WriteSpec peer ready os.send message (s.sendOrClose message os) := by
  obtain ⟨hsocket, hendpoint⟩ := hi.ready hf
  have hspec := sendLoop_spec hsocket os.send message 0 3
  have hclosed : (s.close os.close).socketEstablished = false := by rw [close_eq]
  unfold SocketWriter.sendOrClose tryToSend
  generalize s.sendLoop os.send message 0 3 = out at hspec
  obtain ⟨attempts, result⟩ := out
  obtain ⟨hlen, huses, hcount, hok, hfault⟩ := hspec
  simp only [Nat.zero_add] at hok
  dsimp only at hlen huses hcount hok hfault ⊢
  rw [hendpoint] at huses
  -- The loop returns `true`, or it returns `false` or throws, and then `Close` runs.
  have hfails : result ≠ .ok true → WriteSpec peer ready os.send message
      ⟨s.close os.close, attempts, .ok ()⟩ := by
    intro hne
    refine ⟨rfl, hi.close _, hlen, huses, ?_, ?_⟩
    · rw [hcount, if_neg hne, hclosed]; rfl
    · rw [hclosed]
      exact ⟨nofun, fun h => absurd (hok.mpr h.2) hne⟩
  cases result with
  | ok sent =>
    cases sent with
    | true =>
      have hsent : WriteSpec peer ready os.send message ⟨s, attempts, .ok ()⟩ := by
        refine ⟨rfl, hi, hlen, huses, ?_, ?_⟩
        · rw [hcount, if_pos rfl, if_pos hf]
        · exact ⟨fun _ => ⟨hr, hok.mp rfl⟩, fun _ => hf⟩
      exact hsent
    | false => exact hfails nofun
  | error e =>
    cases e with
    | systemError => exact hfails nofun
    | nullDereference => exact absurd rfl hfault

/-- `Write`, from any state that the methods leave. -/
theorem Established.write (hi : Established peer s) (message : Str) (os : WriteCalls) :
    WriteSpec peer (s.socketEstablished = true ∨ (s.createSocket os.create).2 = .ok true) os.send
      message (s.write message os) := by
  have hcreated := Established.createSocket hi.forPeer os.create
  unfold SocketWriter.write
  cases hf : s.socketEstablished with
  | true => exact hi.sendOrClose hf message os (.inl rfl)
  | false =>
    simp only [Bool.false_eq_true, if_false]
    rcases s.createSocket_cases os.create with ⟨-, -, h⟩ | ⟨-, hret, -, hflag⟩
    · rw [h] at hcreated ⊢
      exact hcreated.sendOrClose rfl message os (.inr rfl)
    · generalize s.createSocket os.create = out at hcreated hret hflag
      obtain ⟨s', result⟩ := out
      dsimp only at hcreated hret hflag ⊢
      subst hret
      refine ⟨rfl, hcreated, Nat.zero_le _, nofun, ?_, ?_⟩
      · rw [hflag]; rfl
      · rw [hflag]
        constructor
        · nofun
        · rintro ⟨h | h, -⟩ <;> cases h

/-! ## Runs -/

theorem Constructed.established (hc : Constructed peer s₀) : Established peer s₀ := by
  cases hc with
  | udp host port os =>
    exact Established.createSocket (s := { peer := .udp host port }) rfl os
  | uds socketPath os =>
    exact Established.createSocket (s := { peer := .unix socketPath }) rfl os

theorem Established.step {c : SocketCall} (hi : Established peer s) (hst : Step s c s') :
    Established peer s' := by
  cases hst with
  | write message os => exact (hi.write message os).established
  | close os => exact hi.close os

theorem Established.of_run {tr : List SocketCall} (hc : Constructed peer s₀)
    (h : Lts.Run Step s₀ tr s) : Established peer s :=
  h.invariant hc.established fun _ _ _ hi hst => hi.step hst

end SocketWriter

open SocketWriter

/-- **A socket is only used when it exists and is open.** After any sequence of calls, whatever the
system calls returned, the flag implies an open socket and the configured endpoint; and each
`send_to` of a next `Write` is made on an open socket, to the configured endpoint, so that no null
pointer is dereferenced. -/
theorem socket_used_open {peer : Peer} {s₀ s : SocketWriter} {tr : List SocketCall}
    (hc : Constructed peer s₀) (h : Lts.Run SocketWriter.Step s₀ tr s) :
    (s.socketEstablished = true → ∃ socket, s.socket = some socket ∧ socket.isOpen = true ∧
      s.endpoint = some peer.endpoint) ∧
    ∀ message os, (s.write message os).result ≠ .error .nullDereference ∧
      ∀ a ∈ (s.write message os).attempts,
        a.socket.isOpen = true ∧ a.endpoint = some peer.endpoint := by
  have hi := Established.of_run hc h
  refine ⟨fun hf => ?_, fun message os => ?_⟩
  · obtain ⟨hsocket, hendpoint⟩ := hi.ready hf
    exact ⟨⟨true⟩, hsocket, rfl, hendpoint⟩
  · have hw := hi.write message os
    refine ⟨?_, fun a ha => ?_⟩
    · rw [hw.result]; nofun
    · obtain ⟨hsocket, hendpoint, -⟩ := hw.uses a ha
      rw [hsocket]
      exact ⟨rfl, hendpoint⟩

/-- The construction opens a socket and then fails; a `Write` recovers; then `Close`. -/
theorem socket_used_open_history : ∃ (s₀ s : SocketWriter) (tr : List SocketCall),
    Lts.Run SocketWriter.Step s₀ tr s ∧ s₀.socketEstablished = false ∧ s₀.socket = some ⟨true⟩ ∧
    ∀ message os, ∀ a ∈ (s.write message os).attempts, a.socket.isOpen = true ∧
      a.endpoint = some (.udp (str "127.0.0.1") 1234) := by
  have start : Lts.Run SocketWriter.Step
    (UDPWriter.new (str "127.0.0.1") 1234 { endpointThrows := true }) [] _ := .nil
  have run := start
    |>.snoc (.write _ (str "x\n") { send := fun _ => .returned false 2 })
    |>.snoc (.close _ .closed)
  exact ⟨_, _, _, run, rfl, rfl, fun message os =>
    ((socket_used_open (.udp _ _ _) run).2 message os).2⟩

/-- **A writer recovers from every history of failures, and delivers at most once.** After any
sequence of calls, whatever the system calls returned, `Write(m)` lets no exception escape, makes at
most three attempts, each of the whole `m`, of which at most one is complete; one is complete
exactly if the socket was established or is created now, and an attempt among the three is complete
before any throws; and the flag on return says whether one was. -/
theorem socket_write_recovers {peer : Peer} {s₀ s : SocketWriter} {tr : List SocketCall}
    (hc : Constructed peer s₀) (h : Lts.Run SocketWriter.Step s₀ tr s) (message : Str)
    (os : WriteCalls) :
    let w := s.write message os
    let transmissions := w.attempts.countP Attempt.complete
    w.result = .ok () ∧ w.attempts.length ≤ 3 ∧ (∀ a ∈ w.attempts, a.message = message) ∧
      transmissions ≤ 1 ∧
      (transmissions = 1 ↔
        (s.socketEstablished = true ∨ (s.createSocket os.create).2 = .ok true) ∧
          ∃ k < 3, (os.send k).complete message = true ∧ ∀ j < k, os.send j ≠ .threw) ∧
      (w.state.socketEstablished = true ↔ transmissions = 1) := by
  intro w transmissions
  have hw := (Established.of_run hc h).write message os
  have hcount : transmissions = if w.state.socketEstablished = true then 1 else 0 := hw.count
  have hflag : w.state.socketEstablished = true ↔ transmissions = 1 := by
    rw [hcount]
    split <;> simp_all
  refine ⟨hw.result, hw.length, fun a ha => (hw.uses a ha).2.2, ?_, ?_, hflag⟩
  · rw [hcount]
    split <;> omega
  · rw [← hflag]
    exact hw.flag_iff

/-- Three ways to fail, and then the socket is created again and the third attempt is complete. -/
theorem socket_write_recovers_third_attempt : ∃ (s₀ s : SocketWriter) (tr : List SocketCall)
    (os : WriteCalls), Lts.Run SocketWriter.Step s₀ tr s ∧ s.socketEstablished = false ∧
    (s.write (str "x\n") os).attempts.countP Attempt.complete = 1 := by
  have start : Lts.Run SocketWriter.Step
    (UDSWriter.new (str "/run/x") { openFails := true }) [] _ := .nil
  have run := start
    |>.snoc (.write _ (str "a\n") { send := fun _ => .threw })
    |>.snoc (.write _ (str "b\n") { send := fun _ => .returned true 0 })
    |>.snoc (.write _ (str "c\n") {
      create := { openFails := true }, send := fun _ => .returned false 2 })
  let os : WriteCalls := { send := fun i => .returned (i != 2) 2 }
  have h := socket_write_recovers (.uds _ _) run (str "x\n") os
  refine ⟨_, _, _, os, run, rfl, h.2.2.2.2.1.mpr ⟨.inr rfl, 2, by decide, by decide, nofun⟩⟩

end Spectator
