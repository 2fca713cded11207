import Spectator.Utils.Text

/-!
# The writer

The model of the data of `writer_wrapper/writer.h` and of the parts of `writer.cpp` that one thread
runs on its own: the fields of the singleton `Writer`, `Initialize`, and what `Write`,
`BufferedWrite`, `NonBufferedWrite`, `TryToSend` and `Close` compute. How the threads interleave is
in `Spectator/Writer/Threads.lean`.

* `Impl`: the object behind `m_impl`, with what its constructor was given; `MemoryWriter` keeps
  the messages. Which object it is stands beside it, in the field `implObject` of `Writer`.
* `Writer.initializeWriter`: `Initialize`, statement by statement. A `Faults` says which of the
  steps that may throw do throw; the move assignment onto a joinable `std::thread` terminates the
  program.
* `Writer.receiverReady`, `Writer.senderReady`: the predicates of the two waits.
-/

namespace Spectator

/-- `WriterType`; `other` is a value outside the enumerators (the `default` of the `switch`). -/
inductive WriterType where
  | memory
  | udp
  | unix
  | other (value : Int)
  deriving DecidableEq

/-- The object behind `m_impl`. -/
inductive Impl where
  | memory (messages : List Str)
  | udp (host : Str) (port : Int)
  | unix (socketPath : Str)
  deriving DecidableEq

/-- The class of the object behind `m_impl`. -/
def Impl.kind : Impl → WriterType
  | .memory _ => .memory
  | .udp _ _ => .udp
  | .unix _ => .unix

/-- `BaseWriter::Write`, as far as the object itself changes. -/
def Impl.write : Impl → Str → Impl
  | .memory messages, message => .memory (messages ++ [message])
  | impl, _ => impl

/-- `BaseWriter::Close`, as far as the object itself changes. -/
def Impl.close : Impl → Impl
  | .memory _ => .memory []
  | impl => impl

@[simp] theorem Impl.kind_write (impl : Impl) (message : Str) :
    (impl.write message).kind = impl.kind := by
  cases impl <;> rfl

@[simp] theorem Impl.kind_close (impl : Impl) : impl.close.kind = impl.kind := by
  cases impl <;> rfl

/-- `WriteFunction`: what `writeImpl` may point to. -/
inductive WriteFunction where
  | bufferedWrite
  | nonBufferedWrite
  deriving DecidableEq

/-- The fields of the singleton; `sendingThread` is `sendingThread.joinable()`. The pointer `m_impl`
is modelled by what it points to, `impl`, and by the identity of that object, `implObject`: the
objects are numbered as `Initialize` puts them there. A new one is made while the old one is still
alive, so that the two are never the same object. -/
structure Writer where
  impl : Option Impl := none
  implObject : Nat := 0
  currentType : WriterType := .memory
  bufferingEnabled : Bool := false
  bufferSize : Nat := 0
  buffer : Str := []
  writeImpl : WriteFunction := .nonBufferedWrite
  sendingThread : Bool := false
  shutdown : Bool := false
  deriving DecidableEq

/-- `NEW_LINE`. -/
def newLine : UInt8 := ch '\n'

namespace Writer

/-! ## `Write` -/

/-- The text that `NonBufferedWrite` sends. -/
def nonBufferedText (message : Str) : Str := message ++ [newLine]

/-- The update of `buffer` in `BufferedWrite`: `append`, then `push_back`. -/
def appendLine (buffer message : Str) : Str := (buffer ++ message) ++ [newLine]

/-- The predicate of the wait on `cv_receiver`. -/
def receiverReady (w : Writer) : Bool := decide (w.buffer.length < w.bufferSize) || w.shutdown

/-- The predicate of the wait on `cv_sender`. -/
def senderReady (w : Writer) : Bool := decide (w.buffer.length ≥ w.bufferSize) || w.shutdown

/-- `TryToSend`. -/
def tryToSend (w : Writer) (message : Str) : Writer :=
  { w with impl := w.impl.map fun impl => impl.write message }

/-- `Close`. -/
def close (w : Writer) : Writer := { w with impl := w.impl.map Impl.close }

/-! ## `Initialize` -/

/-- Which of the steps of `Initialize` throw. -/
structure Faults where
  construct : Bool := false
  reserve : Bool := false
  startThread : Bool := false

/-- How a call of `Initialize` ends. -/
inductive InitResult where
  | returned (w : Writer)
  | threw (w : Writer)
  | terminated
  deriving DecidableEq

/-- `std::make_unique` in the `switch`. -/
def makeImpl (f : Faults) (type : WriterType) (param : Str) (port : Int) : Option Impl :=
  if f.construct then none
  else match type with
    | .memory => some (.memory [])
    | .udp => some (.udp param port)
    | .unix => some (.unix param)
    | .other _ => none

/-- `Initialize`. -/
def initializeWriter (f : Faults) (type : WriterType) (param : Str) (port : Int) (bufferSize : Nat)
    (w : Writer) : InitResult :=
  match makeImpl f type param port with
  | none => .threw w
  | some impl =>
    -- The assignment destroys the old object, if there is one; a socket writer closes itself then.
    let w := { w with impl := some impl, implObject := w.implObject + 1 }
    let w := { w with currentType := type }
    if bufferSize > 0 then
      let w := { w with bufferingEnabled := true }
      let w := { w with bufferSize := bufferSize }
      if f.reserve then .threw w
      else
        let w := { w with writeImpl := .bufferedWrite }
        if f.startThread then .threw w
        -- The new thread runs; the move assignment needs the old one not to be joinable.
        else if w.sendingThread then .terminated
        else .returned { w with sendingThread := true }
    else .returned { w with writeImpl := .nonBufferedWrite }

theorem makeImpl_kind {f : Faults} {type : WriterType} {param : Str} {port : Int} {impl : Impl}
    (h : makeImpl f type param port = some impl) : impl.kind = type := by
  unfold makeImpl at h
  split at h
  · cases h
  · split at h <;> cases h <;> rfl

/-- A fresh singleton after a buffered `Initialize`. -/
def buffered (impl : Impl) (bufferSize : Nat) : Writer where
  impl := some impl
  implObject := 1
  currentType := impl.kind
  bufferingEnabled := true
  bufferSize := bufferSize
  writeImpl := .bufferedWrite
  sendingThread := true

/-- A fresh singleton after an `Initialize` without buffering. -/
def unbuffered (impl : Impl) : Writer where
  impl := some impl
  implObject := 1
  currentType := impl.kind

/-- `Initialize(WriterType::Memory, "", 0, n)` on a fresh singleton. -/
theorem initializeWriter_memory {n : Nat} (hn : 0 < n) :
    initializeWriter {} .memory [] 0 n {} = .returned (buffered (.memory []) n) := by
  simp [initializeWriter, makeImpl, hn, buffered, Impl.kind]

/-- What a buffered `Initialize` of a fresh singleton leaves, if it returns. -/
theorem eq_buffered {f : Faults} {type : WriterType} {param : Str} {port : Int} {n : Nat}
    {w : Writer} (hw : initializeWriter f type param port n {} = .returned w) (hn : 0 < n) :
    ∃ impl, impl.kind = type ∧ w = buffered impl n := by
  unfold initializeWriter at hw
  cases hi : makeImpl f type param port with
  | none => rw [hi] at hw; cases hw
  | some impl =>
    have hk := makeImpl_kind hi
    rw [hi] at hw
    simp only [gt_iff_lt, hn, if_true] at hw
    cases hr : f.reserve with
    | true => rw [hr] at hw; cases hw
    | false =>
      cases ht : f.startThread with
      | true => rw [hr, ht] at hw; cases hw
      | false =>
        rw [hr, ht] at hw
        cases hw
        exact ⟨impl, hk, by rw [← hk]; rfl⟩

end Writer

end Spectator
