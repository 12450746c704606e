import Qwin.Library.Run
import Qwin.Limiter.Model

/-!
`UdpProxy::handleIncomingPacket` of src/udp_proxy.cpp as one step of a system
that owns the limiter and the steady clock. A packet carries what its handler
meets: the sender, the reported size, the clock readings and how the resolver
and the start of the send turn out.
-/

set_option autoImplicit false

namespace Qwin
open Runs

structure Endpoint where
  address : Ip
  port : UInt16
  deriving DecidableEq, Repr

structure Surroundings where
  checkTime : Int
  addTime : Int
  /-- `none` where `resolver.resolve` throws. -/
  resolved : Option Endpoint
  /-- `false` where `async_send_to` throws. -/
  sendStarts : Bool
  deriving DecidableEq, Repr

inductive Outcome where
  | refused
  | failed
  | forwarded (remoteEndpoint : Endpoint) (size : Nat)
  deriving DecidableEq, Repr

def bufferSize : Nat := 1024

/-- The `try` block: resolve the remote server and start one send.
`asio::buffer(buffer, bytesReceived)` never reaches beyond the array. -/
def forward (bytesReceived : Nat) (env : Surroundings) : Outcome :=
  match env.resolved with
  | none => .failed
  | some remoteEndpoint =>
    if env.sendStarts then .forwarded remoteEndpoint (min bytesReceived bufferSize)
    else .failed

def handleIncomingPacket (lim : Limits) (clientEndpoint : Endpoint) (bytesReceived : Nat)
    (env : Surroundings) (l : Limiter) : Outcome × Limiter :=
  let clientIp := clientEndpoint.address
  let (ipMap, blocked) := isIpBlocked clientIp l.ipMap lim.excludedIps lim.maxConnections
    lim.blockDurationSeconds env.checkTime
  let l := { l with ipMap := ipMap }
  if blocked then (.refused, l)
  else
    let l := addIpConnection clientIp l lim.excludedIps lim.maxConnections env.addTime
    (forward bytesReceived env, l)

structure Packet where
  client : Endpoint
  bytesReceived : Nat
  env : Surroundings
  deriving DecidableEq, Repr

def Packet.ip (p : Packet) : Ip := p.client.address
def Packet.checkTime (p : Packet) : Int := p.env.checkTime
def Packet.addTime (p : Packet) : Int := p.env.addTime

def Packet.probe (ip : Ip) (c a : Int) : Packet :=
  ⟨⟨ip, 27005⟩, 1, ⟨c, a, some ⟨"89.223.121.95", 27015⟩, true⟩⟩

def Packet.handle (lim : Limits) (p : Packet) (l : Limiter) : Outcome × Limiter :=
  handleIncomingPacket lim p.client p.bytesReceived p.env l

/-- The limiter and the latest reading of the steady clock. -/
structure LimiterState where
  limiter : Limiter
  clock : Int

def LimiterState.start (clock : Int) : LimiterState := ⟨⟨∅, 0, 0⟩, clock⟩

def LimiterState.entry (s : LimiterState) (ip : Ip) : Option Entry := s.limiter.ipMap.lookup ip

theorem LimiterState.entry_of_empty {s : LimiterState} (hempty : s.limiter.ipMap = ∅) (ip : Ip) :
    s.entry ip = none := by
  simp [entry, hempty]

/-- `addIpConnection` reads the clock only past its check of the excluded list,
and a refused packet never gets there. -/
def lastReading (lim : Limits) (p : Packet) (out : Outcome) : Int :=
  if out = .refused ∨ p.ip ∈ lim.excludedIps then p.checkTime else p.addTime

/-- One handler run. The readings it takes never go back. -/
def step (lim : Limits) (s : LimiterState) (p : Packet) : Option (Outcome × LimiterState) :=
  let (out, l) := p.handle lim s.limiter
  let last := lastReading lim p out
  if s.clock ≤ p.checkTime ∧ p.checkTime ≤ last then some (out, ⟨l, last⟩) else none

abbrev Handling := Transition LimiterState Packet Outcome

def own (ip : Ip) (t : Handling) : Bool := t.input.ip = ip

def admits (ip : Ip) (t : Handling) : Bool := t.input.ip = ip ∧ t.output ≠ .refused

/-- What `isIpBlocked` left of the map when this packet was checked. -/
def checkedMap (lim : Limits) (t : Handling) : IpMap :=
  (isIpBlocked t.input.ip t.pre.limiter.ipMap lim.excludedIps lim.maxConnections
    lim.blockDurationSeconds t.input.checkTime).1

end Qwin
