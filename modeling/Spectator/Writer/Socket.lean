import Mathlib.Algebra.Group.Int.Defs
import Spectator.Lib.Lts
import Spectator.Utils.Text

/-!
# Socket writers

The model of `udp_writer.cpp` and `uds_writer.cpp`. The two classes run the same code on different
sockets, so there is one `SocketWriter`, with what it was constructed for (`Peer`); `UDPWriter.new`
and `UDSWriter.new` are the two constructors.

The results of the system calls are arguments: `CreateCalls`, `WriteCalls`, `CloseResult`. An
exception (`Fault`) leaves the state as it is at that point; a function-level `catch` turns a
`system_error` into a result and lets a null dereference pass, which is no exception but undefined
behaviour.

* `close`, `createSocket`, `tryToSend`, `write`: the methods.
* `Attempt`: a call of `send_to`, with the socket and the endpoint that it uses.
* `SocketWriter.Step`: a call of `Write` or `Close`, for runs.
-/

namespace Spectator

/-! ## The data -/

/-- An address of `boost::asio`, as the constructor of the endpoint gets it. -/
inductive Endpoint where
  | udp (address : Str) (port : Int)
  | unix (path : Str)
  deriving DecidableEq

/-- What a writer was constructed for: `m_host` and `m_port`, or `m_socketPath`. -/
inductive Peer where
  | udp (host : Str) (port : Int)
  | unix (socketPath : Str)
  deriving DecidableEq

/-- The endpoint of a peer; the port is converted to 16 bits. -/
def Peer.endpoint : Peer → Endpoint
  | .udp host port => .udp host (port % 2 ^ 16)
  | .unix socketPath => .unix socketPath

/-- A socket object. -/
structure Socket where
  isOpen : Bool
  deriving DecidableEq

/-- The fields of `UDPWriter` and `UDSWriter`. `m_endpoint` is `none` before its first
assignment. -/
structure SocketWriter where
  peer : Peer
  socket : Option Socket := none
  endpoint : Option Endpoint := none
  socketEstablished : Bool := false
  deriving DecidableEq

/-- What ends a function early. -/
inductive Fault where
  | systemError
  /-- `m_socket` is null and dereferenced. -/
  | nullDereference
  deriving DecidableEq

/-! ## The system calls -/

/-- `close(ec)`: closed, or failed, with the socket open or not after it. -/
inductive CloseResult where
  | closed
  | failed (isOpen : Bool)

def CloseResult.isOpen : CloseResult → Bool
  | .closed => false
  | .failed isOpen => isOpen

/-- The calls that `CreateSocket` makes. -/
structure CreateCalls where
  /-- The `close` of the socket in use, if there is one. -/
  close : CloseResult := .closed
  openFails : Bool := false
  /-- The conversion of the host or the path throws. -/
  endpointThrows : Bool := false

/-- `send_to`: the error code and the number of bytes, or a `system_error`. -/
inductive SendResult where
  | returned (ec : Bool) (sent : Nat)
  | threw
  deriving DecidableEq

/-- The whole message was sent. -/
def SendResult.complete (message : Str) : SendResult → Bool
  | .returned ec sent => !(ec || decide (sent < message.length))
  | .threw => false

/-- The calls that `Write` makes; `send i` is the attempt `i`. -/
structure WriteCalls where
  create : CreateCalls := {}
  send : Nat → SendResult
  close : CloseResult := .closed

/-- A call of `send_to`. -/
structure Attempt where
  socket : Socket
  endpoint : Option Endpoint
  message : Str
  result : SendResult
  deriving DecidableEq

def Attempt.complete (a : Attempt) : Bool := a.result.complete a.message

/-! ## The methods -/

/-- A function-level `catch (const boost::system::system_error&)` that returns `value`. -/
def catchSystemError {α : Type} (value : α) : Except Fault α → Except Fault α
  | .error .systemError => .ok value
  | result => result

namespace SocketWriter

/-- `Close`. Neither `is_open()` nor `close(ec)` throws, so its handler has nothing to catch. -/
def close (s : SocketWriter) (os : CloseResult) : SocketWriter :=
  let s := { s with socketEstablished := false }
  match s.socket with
  | none => s
  | some socket => if socket.isOpen then { s with socket := some ⟨os.isOpen⟩ } else s

/-- The body of `CreateSocket`. -/
def createSocketBody (s : SocketWriter) (os : CreateCalls) : SocketWriter × Except Fault Bool :=
  let s := if s.socketEstablished then s.close os.close else s
  let s := { s with socket := some ⟨false⟩ }
  if os.openFails then (s, .ok false)
  else
    let s := { s with socket := some ⟨true⟩ }
    if os.endpointThrows then (s, .error .systemError)
    else
      let s := { s with endpoint := some s.peer.endpoint }
      let s := { s with socketEstablished := true }
      (s, .ok true)

/-- `CreateSocket`. -/
def createSocket (s : SocketWriter) (os : CreateCalls) : SocketWriter × Except Fault Bool :=
  let (s, result) := s.createSocketBody os
  (s, catchSystemError false result)

/-- The loop of `TryToSend`, with `n` attempts left from the attempt `i` on. -/
def sendLoop (s : SocketWriter) (send : Nat → SendResult) (message : Str) :
    Nat → Nat → List Attempt × Except Fault Bool
  | _, 0 => ([], .ok false)
  | i, n + 1 =>
    match s.socket with
    | none => ([], .error .nullDereference)
    | some socket =>
      let attempt : Attempt := ⟨socket, s.endpoint, message, send i⟩
      match send i with
      | .threw => ([attempt], .error .systemError)
      | .returned ec sent =>
        if ec || decide (sent < message.length) then
          let (attempts, result) := s.sendLoop send message (i + 1) n
          (attempt :: attempts, result)
        else ([attempt], .ok true)

/-- `TryToSend`; it changes no field. -/
def tryToSend (s : SocketWriter) (send : Nat → SendResult) (message : Str) :
    List Attempt × Except Fault Bool :=
  let (attempts, result) := s.sendLoop send message 0 3
  (attempts, catchSystemError false result)

/-- What a call of `Write` leaves: the fields, its attempts, and whether an exception escaped. -/
structure Written where
  state : SocketWriter
  attempts : List Attempt
  result : Except Fault Unit

/-- `Write` from the call of `TryToSend` on. -/
def sendOrClose (s : SocketWriter) (message : Str) (os : WriteCalls) : Written :=
  match s.tryToSend os.send message with
  | (attempts, .error e) => ⟨s, attempts, .error e⟩
  | (attempts, .ok false) => ⟨s.close os.close, attempts, .ok ()⟩
  | (attempts, .ok true) => ⟨s, attempts, .ok ()⟩

/-- `Write`. -/
def write (s : SocketWriter) (message : Str) (os : WriteCalls) : Written :=
  if s.socketEstablished then s.sendOrClose message os
  else match s.createSocket os.create with
    | (s, .error e) => ⟨s, [], .error e⟩
    | (s, .ok false) => ⟨s, [], .ok ()⟩
    | (s, .ok true) => s.sendOrClose message os

/-- The constructor, with the calls that its `CreateSocket` makes. -/
def new (peer : Peer) (os : CreateCalls) : SocketWriter :=
  (createSocket { peer := peer } os).1

end SocketWriter

/-- `UDPWriter(host, port)`. -/
def UDPWriter.new (host : Str) (port : Int) (os : CreateCalls) : SocketWriter :=
  .new (.udp host port) os

/-- `UDSWriter(socketPath)`. -/
def UDSWriter.new (socketPath : Str) (os : CreateCalls) : SocketWriter :=
  .new (.unix socketPath) os

/-! ## Runs -/

/-- A writer right after its construction. -/
inductive SocketWriter.Constructed : Peer → SocketWriter → Prop
  | udp (host : Str) (port : Int) (os : CreateCalls) :
      Constructed (.udp host port) (UDPWriter.new host port os)
  | uds (socketPath : Str) (os : CreateCalls) :
      Constructed (.unix socketPath) (UDSWriter.new socketPath os)

/-- A call of a public method. -/
inductive SocketCall where
  | write (message : Str) (os : WriteCalls)
  | close (os : CloseResult)

/-- A call and the state that it leaves. -/
inductive SocketWriter.Step : SocketWriter → SocketCall → SocketWriter → Prop
  | write (s : SocketWriter) (message : Str) (os : WriteCalls) :
      Step s (.write message os) (s.write message os).state
  | close (s : SocketWriter) (os : CloseResult) : Step s (.close os) (s.close os)

end Spectator
