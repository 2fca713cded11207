import Mathlib.Data.List.Flatten
import Spectator.Writer.Calls
import Spectator.Writer.Recovery

/-!
# From lines to datagrams

The threads and the socket together: the calls that a buffered run makes of `m_impl`, answered by a
socket writer whose system calls return anything.

* `datagrams`: the messages that left the socket whole, over a sequence of calls.
* `WriteSpec.sent`: what one `Write` sends; `datagrams_sublist`, `datagrams_eq_filter`: what a
  sequence of calls sends.
* `buffered_datagrams`: each datagram is a run of whole accepted lines; no line is in two of them,
  and they keep the order of the lines.
-/

namespace Spectator

/-- An attempt among the three is complete, and none before it throws. -/
def WriteCalls.Delivers (os : WriteCalls) (message : Str) : Prop :=
  ∃ k < 3, (os.send k).complete message = true ∧ ∀ j < k, os.send j ≠ .threw

instance (os : WriteCalls) (message : Str) : Decidable (os.Delivers message) :=
  inferInstanceAs (Decidable (∃ k < 3, _ ∧ _))

/-- The socket and the endpoint can be set up. -/
def CreateCalls.works (os : CreateCalls) : Bool := !os.openFails && !os.endpointThrows

/-- The object that is called, without the answers of the system. -/
def SocketCall.event : SocketCall → Event
  | .write message _ => .write message
  | .close _ => .close

/-- The socket writer that `Initialize` has constructed behind `m_impl`. -/
inductive Impl.Behind : Impl → SocketWriter → Prop
  | udp (host : Str) (port : Int) (os : CreateCalls) :
      Behind (.udp host port) (UDPWriter.new host port os)
  | unix (socketPath : Str) (os : CreateCalls) :
      Behind (.unix socketPath) (UDSWriter.new socketPath os)

/-- The text of a call of `Write`. -/
def Event.text? : Event → Option Str
  | .write text => some text
  | _ => none

namespace SocketWriter

/-- The messages of the complete attempts. -/
def Written.sent (w : Written) : List Str :=
  (w.attempts.filter Attempt.complete).map Attempt.message

/-- The datagrams that a sequence of calls sends. -/
def datagrams (s : SocketWriter) : List SocketCall → List Str
  | [] => []
  | .write message os :: cs =>
    (s.write message os).sent ++ datagrams (s.write message os).state cs
  | .close os :: cs => datagrams (s.close os) cs

variable {peer : Peer} {s : SocketWriter}

/-- One `Write` sends its message once, or not at all. -/
theorem WriteSpec.sent {ready : Prop} {send : Nat → SendResult} {message : Str} {w : Written}
    (h : WriteSpec peer ready send message w) :
    w.sent = if w.state.socketEstablished = true then [message] else [] := by
  have hrep : w.sent = List.replicate (w.attempts.countP Attempt.complete) message := by
    rw [List.countP_eq_length_filter, ← List.length_map (f := Attempt.message)]
    refine List.eq_replicate_of_mem fun text ht => ?_
    obtain ⟨a, ha, rfl⟩ := List.mem_map.mp ht
    exact (h.uses a (List.mem_filter.mp ha).1).2.2
  rw [hrep, h.count]
  split <;> rfl

/-- A sequence of calls sends some of its messages, each at most once and in their order. -/
theorem datagrams_sublist (hi : Established peer s) (cs : List SocketCall) :
    (s.datagrams cs).Sublist ((cs.map SocketCall.event).filterMap Event.text?) := by
  induction cs generalizing s with
  | nil => exact .slnil
  | cons c cs ih =>
    cases c with
    | close os => exact ih (hi.close os)
    | write message os =>
      have hw := hi.write message os
      have htail := ih hw.established
      rw [datagrams, hw.sent]
      split
      · exact htail.cons_cons message
      · exact htail.cons message

/-- The message of a call that is answered by a whole datagram. -/
def delivered? : SocketCall → Option Str
  | .write message os => if os.Delivers message then some message else none
  | .close _ => none

/-- A message is lost by its own `Write` alone. Where a socket can be created, the datagrams
are the messages with a complete attempt, whatever failed before them. -/
theorem datagrams_eq_filter (hi : Established peer s) {cs : List SocketCall}
    (hcreate : ∀ message os, .write message os ∈ cs → os.create.works = true) :
    s.datagrams cs = cs.filterMap delivered? := by
  induction cs generalizing s with
  | nil => rfl
  | cons c cs ih =>
    have hrest : ∀ message os, SocketCall.write message os ∈ cs → os.create.works = true :=
      fun message os hm => hcreate message os (List.mem_cons_of_mem _ hm)
    cases c with
    | close os => exact ih (hi.close os) hrest
    | write message os =>
      have hw := hi.write message os
      have hworks := hcreate message os List.mem_cons_self
      have hok : (s.createSocket os.create).2 = .ok true := by
        rw [createSocket_ok_iff]
        simpa [CreateCalls.works] using hworks
      have hflag : (s.write message os).state.socketEstablished = true ↔ os.Delivers message :=
        hw.flag_iff.trans ⟨fun h => h.2, fun h => ⟨.inr hok, h⟩⟩
      rw [datagrams, hw.sent, ih hw.established hrest]
      by_cases hd : os.Delivers message
      · rw [if_pos (hflag.mpr hd), List.filterMap_cons_some (b := message)]
        · rfl
        · simp [delivered?, hd]
      · rw [if_neg fun h => hd (hflag.mp h), List.filterMap_cons_none]
        · rfl
        · simp [delivered?, hd]

end SocketWriter

open SocketWriter

/-- The texts among the calls of `m_impl` are the batches. -/
theorem text_calls {ι : Type} (tr : List (Label ι)) :
    (calls tr).filterMap Event.text? = written tr := by
  rw [calls, written, List.filterMap_filterMap]
  congr 1
  funext l
  cases l with
  | event _ e => cases e <;> rfl
  | _ => rfl

theorem Impl.Behind.established {impl : Impl} {s : SocketWriter} (h : impl.Behind s) :
    ∃ peer, Established peer s := by
  cases h with
  | udp host port os => exact ⟨_, (Constructed.udp host port os).established⟩
  | unix socketPath os => exact ⟨_, (Constructed.uds socketPath os).established⟩

/-- Where every call is answered by a whole datagram, every message is one. -/
theorem filterMap_delivered {cs : List SocketCall}
    (h : ∀ message os, .write message os ∈ cs → os.Delivers message) :
    cs.filterMap delivered? = (cs.map SocketCall.event).filterMap Event.text? := by
  rw [List.filterMap_map]
  refine List.filterMap_congr fun c hc => ?_
  cases c with
  | close => rfl
  | write message os => simp [delivered?, h message os hc, SocketCall.event, Event.text?]

section Threads

variable {ι : Type} [DecidableEq ι] {f : Writer.Faults} {type : WriterType} {param : Str}
  {port : Int} {n : Nat} {w : Writer} {todo : ι → List Str} {tr : List (Label ι)} {s : State ι}

/-- The datagrams are some of the chunks, in their order. -/
theorem exists_sent (hw : Writer.initializeWriter f type param port n {} = .returned w)
    (hn : 0 < n) (h : Lts.Run Step (State.start w todo) tr s) {peer : Peer} {s₀ : SocketWriter}
    (he : Established peer s₀) {cs : List SocketCall} (hcs : cs.map SocketCall.event = calls tr) :
    ∃ sent : List (List Str), s₀.datagrams cs = sent.map linesText ∧
      sent.flatten.Sublist (appended tr) ∧
      ∀ c ∈ sent, c <:+: appended tr ∧ n ≤ (linesText c).length ∧
        (linesText c.dropLast).length < n := by
  obtain ⟨chunks, rest, hg, hsent, -, -⟩ := (Delivery.of_initialize hw hn h).chunks
  -- The datagrams are some of the batches, and the batches are the first chunks.
  have hsub : (s₀.datagrams cs).Sublist (chunks.map linesText) := by
    have hd := datagrams_sublist he cs
    rw [hcs, text_calls] at hd
    exact hd.trans (hsent ▸ List.sublist_append_left _ _)
  obtain ⟨sent, hss, heq⟩ := List.sublist_map_iff.mp hsub
  have hpre : chunks.flatten <+: appended tr := ⟨rest, hg.flatten⟩
  refine ⟨sent, heq, hss.flatten.trans hpre.sublist, fun c hc => ?_⟩
  obtain ⟨-, hfull, hlast⟩ := hg.bounds hn c (hss.subset hc)
  rw [length_linesText, length_linesText]
  exact ⟨(List.infix_of_mem_flatten (hss.subset hc)).trans hpre.isInfix, hfull, hlast⟩

/-- **What arrives is made of whole lines.** A buffered run on a socket writer, whatever the
interleaving and whatever the system calls return: each datagram that leaves the socket is the text
of a run of accepted messages that just fills the buffer; no accepted line is in two datagrams, and
the datagrams keep the order of the lines. Where the system lets a socket be created, a batch is
lost by its own three attempts alone, and with a complete attempt for each, none is. -/
theorem buffered_datagrams (hw : Writer.initializeWriter f type param port n {} = .returned w)
    (hn : 0 < n) (h : Lts.Run Step (State.start w todo) tr s) {s₀ : SocketWriter}
    (hs : ∃ impl, w.impl = some impl ∧ impl.Behind s₀) {cs : List SocketCall}
    (hcs : cs.map SocketCall.event = calls tr) :
    (∃ sent : List (List Str), s₀.datagrams cs = sent.map linesText ∧
      sent.flatten.Sublist (appended tr) ∧
      ∀ c ∈ sent, c <:+: appended tr ∧ n ≤ (linesText c).length ∧
        (linesText c.dropLast).length < n) ∧
    ((∀ message os, .write message os ∈ cs → os.create.works = true) →
      s₀.datagrams cs = cs.filterMap delivered? ∧
      ((∀ message os, .write message os ∈ cs → os.Delivers message) →
        s₀.datagrams cs = written tr)) := by
  obtain ⟨impl, -, hb⟩ := hs
  obtain ⟨peer, he⟩ := hb.established
  refine ⟨exists_sent hw hn h he hcs, fun hcreate => ?_⟩
  have hfilter := datagrams_eq_filter he hcreate
  refine ⟨hfilter, fun hok => ?_⟩
  rw [hfilter, filterMap_delivered hok, hcs, text_calls]

/-- One batch, sent with the second attempt. -/
theorem buffered_datagrams_second_attempt : ∃ (tr : List (Label Unit)) (s₀ : SocketWriter)
    (cs : List SocketCall), cs.map SocketCall.event = calls tr ∧
    s₀.datagrams cs = [str "ab\n"] ∧
    (∃ sent : List (List Str), s₀.datagrams cs = sent.map linesText ∧
      sent.flatten.Sublist (appended tr) ∧
      ∀ c ∈ sent, c <:+: appended tr ∧ 2 ≤ (linesText c).length ∧
        (linesText c.dropLast).length < 2) := by
  have start : Lts.Run Step (State.start (Writer.buffered (.udp (str "127.0.0.1") 1234) 2)
    fun _ : Unit => [str "ab"]) [] _ := .nil
  have full := run_append start (i := ()) rfl nofun rfl rfl rfl rfl
    |>.snoc (.senderEnter rfl rfl)
  have run := run_send full rfl rfl rfl rfl fun _ => rfl
  have hw : Writer.initializeWriter {} .udp (str "127.0.0.1") 1234 2 {} =
    .returned (Writer.buffered (.udp (str "127.0.0.1") 1234) 2) := rfl
  exact ⟨_, UDPWriter.new (str "127.0.0.1") 1234 {},
    [.write (str "ab\n") { send := fun i => .returned (i == 0) 3 }], rfl, rfl,
    (buffered_datagrams hw (by decide) run ⟨_, rfl, .udp _ _ _⟩ rfl).1⟩

end Threads

end Spectator
