import Qwin.Limiter.Handler

/-!
`UdpProxy` of src/udp_proxy.cpp with the asio operations it starts. The members
`buffer` and `clientEndpoint` are single objects that every receive is given and
every send reads from. `origin` in a send is ghost state: no code reads it.
-/

set_option autoImplicit false

namespace Qwin
open Runs

abbrev Bytes := List UInt8

structure Datagram where
  sender : Endpoint
  payload : Bytes
  deriving DecidableEq, Repr

/-- A receive copies what fits into the buffer and reports that number. -/
def Datagram.kept (d : Datagram) : Bytes := d.payload.take bufferSize

inductive Completion where
  | received (d : Datagram)
  | failed (operationAborted : Bool)
  deriving DecidableEq, Repr

/-- The endpoint's port type has 16 bits. -/
def portType (port : Int) : Nat := (port % 65536).toNat

/-- `boundTo` is the port it has, also where the endpoint named port 0. -/
structure Socket where
  boundTo : Nat
  deriving DecidableEq, Repr

inductive Handler where
  | outer | inner
  deriving DecidableEq, Repr

/-- One `async_receive_from` whose handler has not run; `port` is what the
handler captured, `result` is there once the operation has written its data. -/
structure Receive where
  socket : Socket
  port : Int
  handler : Handler
  result : Option Completion
  deriving DecidableEq, Repr

/-- One `async_send_to` in flight; `wire` is there once it has read its bytes. -/
structure Send where
  socket : Socket
  remoteEndpoint : Endpoint
  size : Nat
  origin : Datagram
  wire : Option Bytes
  deriving DecidableEq, Repr

structure UdpProxy where
  startPort : Int
  endPort : Int
  limits : Limits
  sockets : List Socket
  limiter : LimiterState
  clientEndpoint : Endpoint
  buffer : Bytes
  receives : List Receive
  sends : List Send

/-- The constructor: `clientEndpoint()` and `buffer()` are value-initialised. -/
def UdpProxy.new (startPortNum endPortNum : Int) (lim : Limits) (clock : Int) : UdpProxy where
  startPort := startPortNum
  endPort := endPortNum
  limits := lim
  sockets := []
  limiter := .start clock
  clientEndpoint := ⟨"0.0.0.0", 0⟩
  buffer := List.replicate bufferSize 0
  receives := []
  sends := []

def portRange (startPort endPort : Int) : List Int :=
  (List.range (endPort - startPort + 1).toNat).map fun i : Nat => startPort + i

/-- The port that the machine gives to a socket bound to port 0 while these ports
are held: a free one, or none if there is none left. -/
structure Ephemeral where
  choose : List Nat → Option Nat
  free : ∀ held port, choose held = some port → port ≠ 0 ∧ port ∉ held

/-- The port that a new socket is bound to. The list holds the ports that open
sockets of the machine are bound to; binding one of them throws. -/
def bindPort (ephemeral : Ephemeral) (held : List Nat) (port : Nat) : Option Nat :=
  if port = 0 then ephemeral.choose held
  else if port ∈ held then none else some port

/-- Open a socket on a port and arm it. -/
def UdpProxy.openPort (ephemeral : Ephemeral) (held : List Nat) (s : UdpProxy) (port : Int) :
    Option (List Nat × UdpProxy) :=
  (bindPort ephemeral held (portType port)).map fun boundTo =>
    let sock : Socket := ⟨boundTo⟩
    (boundTo :: held,
      { s with
        sockets := s.sockets ++ [sock]
        receives := s.receives ++ [⟨sock, port, .outer, none⟩] })

def UdpProxy.startLoop (ephemeral : Ephemeral) :
    List Int → List Nat → UdpProxy → Bool × List Nat × UdpProxy
  | [], held, s => (true, held, s)
  | port :: ports, held, s =>
    match s.openPort ephemeral held port with
    | none => (false, held, s)
    | some (held, s) => startLoop ephemeral ports held s

/-- `startProxy` up to `ioContext.run()`. The flag says whether that call is
reached; otherwise the catch block was entered and all that was done stays. -/
def UdpProxy.startProxy (ephemeral : Ephemeral) (held : List Nat) (s : UdpProxy) :
    Bool × List Nat × UdpProxy :=
  UdpProxy.startLoop ephemeral (portRange s.startPort s.endPort) held s

/-- `handleIncomingPacket(sockets[port - startPort], bytesReceived)`. It looks at
the shared members only; the datagram `d` is kept to label the send it starts. -/
def UdpProxy.handleAt (s : UdpProxy) (socket : Socket) (d : Datagram) (env : Surroundings) :
    Option (Outcome × UdpProxy) :=
  match step s.limits s.limiter ⟨s.clientEndpoint, d.kept.length, env⟩ with
  | none => none
  | some (.forwarded remoteEndpoint size, l) =>
    some (.forwarded remoteEndpoint size,
      { s with
        limiter := l
        sends := s.sends ++ [⟨socket, remoteEndpoint, size, d, none⟩] })
  | some (out, l) => some (out, { s with limiter := l })

/-- The completion handlers. Only the outer one looks at the size, and only the
outer one starts another receive, on `sockets[port - startPort]`. -/
def UdpProxy.complete (s : UdpProxy) (r : Receive) (c : Completion) (env : Surroundings) :
    Option (Option Outcome × UdpProxy) :=
  match r.handler, c, s.sockets[(r.port - s.startPort).toNat]? with
  | _, .failed _, _ => some (none, s)
  | _, .received _, none => none
  | .outer, .received d, some socket =>
    let rearm (s : UdpProxy) : UdpProxy :=
      { s with receives := s.receives ++ [⟨socket, r.port, .inner, none⟩] }
    if 0 < d.kept.length then
      (s.handleAt socket d env).map fun (out, s) => (some out, rearm s)
    else some (none, rearm s)
  | .inner, .received d, some socket =>
    (s.handleAt socket d env).map fun (out, s) => (some out, s)

inductive Action where
  /-- Receive `i` writes a datagram and its sender into the shared objects. -/
  | deliver (i : Nat) (d : Datagram)
  | fail (i : Nat) (operationAborted : Bool)
  | handle (i : Nat) (env : Surroundings)
  | transmit (j : Nat)
  /-- The completion handler of send `j` runs; it only writes a log line. -/
  | sent (j : Nat)
  deriving DecidableEq, Repr

inductive Event where
  | silent
  /-- A completion handler ran and found this endpoint and these bytes. -/
  | handled (port : Int) (c : Completion) (seen : Endpoint) (bytes : Bytes) (out : Option Outcome)
  | transmitted (send : Send) (bytes : Bytes)
  deriving DecidableEq, Repr

def Completion.size : Completion → Nat
  | .received d => d.kept.length
  | .failed _ => 0

def UdpProxy.finish (s : UdpProxy) (i : Nat) (c : Completion) : Option UdpProxy :=
  match s.receives[i]? with
  | some ⟨socket, port, handler, none⟩ =>
    some { s with receives := s.receives.set i ⟨socket, port, handler, some c⟩ }
  | _ => none

/-- `recvfrom` overwrites the front of the buffer and the endpoint. -/
def UdpProxy.write (s : UdpProxy) (d : Datagram) : UdpProxy :=
  { s with
    clientEndpoint := d.sender
    buffer := d.kept ++ s.buffer.drop d.kept.length }

def UdpProxy.step (s : UdpProxy) : Action → Option (Event × UdpProxy)
  | .deliver i d => ((s.write d).finish i (.received d)).map (.silent, ·)
  | .fail i aborted => (s.finish i (.failed aborted)).map (.silent, ·)
  | .handle i env =>
    match s.receives[i]? with
    | some ⟨socket, port, handler, some c⟩ =>
      let s := { s with receives := s.receives.eraseIdx i }
      (s.complete ⟨socket, port, handler, some c⟩ c env).map fun (out, s') =>
        (.handled port c s.clientEndpoint (s.buffer.take c.size) out, s')
    | _ => none
  | .transmit j =>
    match s.sends[j]? with
    | some ⟨socket, remote, size, origin, none⟩ =>
      let bytes := s.buffer.take size
      let send : Send := ⟨socket, remote, size, origin, some bytes⟩
      some (.transmitted send bytes, { s with sends := s.sends.set j send })
    | _ => none
  | .sent j =>
    match s.sends[j]? with
    | some _ => some (.silent, { s with sends := s.sends.eraseIdx j })
    | none => none

abbrev ProxyStep := Transition UdpProxy Action Event

end Qwin
