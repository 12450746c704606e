import Mathlib.Data.List.AList

/-!
The per-IP limiter of src/utils.cpp: the check `isIpBlocked` and the update
`addIpConnection`, on a shared map from addresses to a count and a time stamp.
The lines that they log come in with the journal; nothing in the code reads them back.
-/

set_option autoImplicit false

namespace Qwin

/-- `address().to_string()` of an endpoint, the key of `ipMap`. -/
abbrev Ip := String

/-- Readings of `steady_clock` are whole nanoseconds. -/
def nanosPerSecond : Int := 1000000000

/-- `duration_cast<seconds>(now - t).count()`, which truncates toward zero. -/
def ageSeconds (now t : Int) : Int := (now - t).tdiv nanosPerSecond

structure Config where
  serverIp : String
  serverPortStart : Int32
  serverPortEnd : Int32
  remoteServerIp : String
  remoteServerPort : Int32
  logDirectory : String
  maxConnectionsPerIp : Int32
  blockDurationMinutes : Int32
  excludedIps : List Ip
  deriving DecidableEq, Repr

structure Limits where
  excludedIps : List Ip
  maxConnections : Int
  blockDurationSeconds : Int
  deriving DecidableEq, Repr

/-- The product `blockDurationMinutes * 60` is taken in `int`. -/
def Config.limits (config : Config) : Limits :=
  ⟨config.excludedIps, config.maxConnectionsPerIp.toInt, (config.blockDurationMinutes * 60).toInt⟩

/-- The `pair<int, time_point>` stored under an address. The count is only
raised while it is below an `int`, so it needs no wrap. -/
structure Entry where
  count : Int
  timestamp : Int
  deriving DecidableEq, Repr

abbrev IpMap := AList (fun _ : Ip => Entry)

def stale (blockDurationSeconds : Int) (now : Int) (e : Entry) : Bool :=
  decide (ageSeconds now e.timestamp > blockDurationSeconds)

/-- The erase-while-iterating loop. The list holds what the iterator has still
to visit; `erase(it)` and `++it` both go on to its tail. -/
def pruneLoop (blockDurationSeconds : Int) (now : Int) :
    List (Sigma fun _ : Ip => Entry) → IpMap → IpMap
  | [], ipMap => ipMap
  | it :: rest, ipMap =>
    if stale blockDurationSeconds now it.2 then
      pruneLoop blockDurationSeconds now rest (ipMap.erase it.1)
    else
      pruneLoop blockDurationSeconds now rest ipMap

def prune (blockDurationSeconds now : Int) (ipMap : IpMap) : IpMap :=
  pruneLoop blockDurationSeconds now ipMap.entries ipMap

/-- `ipMap[ip]`, which inserts a value-initialised entry for an absent key. -/
def subscript (ipMap : IpMap) (ip : Ip) : IpMap × Entry :=
  match ipMap.lookup ip with
  | some e => (ipMap, e)
  | none => (ipMap.insert ip ⟨0, 0⟩, ⟨0, 0⟩)

def isIpBlocked (ip : Ip) (ipMap : IpMap) (excludedIps : List Ip)
    (maxConnections blockDurationSeconds : Int) (now : Int) : IpMap × Bool :=
  if ip ∈ excludedIps then (ipMap, false)
  else
    let ipMap := prune blockDurationSeconds now ipMap
    if ip ∉ ipMap then (ipMap, false)
    else
      let (ipMap, e) := subscript ipMap ip
      if e.count ≥ maxConnections then (ipMap, true) else (ipMap, false)

/-- The map together with the two global counters of src/utils.cpp. -/
structure Limiter where
  ipMap : IpMap
  totalConnections : Int32
  blockedConnections : Int32

def addIpConnection (ip : Ip) (l : Limiter) (excludedIps : List Ip) (maxConnections : Int)
    (now : Int) : Limiter :=
  if ip ∈ excludedIps then l
  else if ip ∉ l.ipMap then
    { l with
      ipMap := l.ipMap.insert ip ⟨1, now⟩
      totalConnections := l.totalConnections + 1 }
  else
    let (ipMap, e) := subscript l.ipMap ip
    if e.count < maxConnections then
      { l with
        ipMap := ipMap.insert ip ⟨e.count + 1, now⟩
        totalConnections := l.totalConnections + 1 }
    else { l with ipMap := ipMap }

end Qwin
