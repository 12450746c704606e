import Qwin.Emulator.PlayerReply
import Qwin.Limiter.Handler

/-!
`ServerEmulator` of modules_1: the two answers and the report to the master
server. Each encodes a packet into a local array and starts one send of it.
-/

set_option autoImplicit false

namespace Qwin.Modules1
open Decimals Memory

structure Config where
  masterServerIp : List UInt8
  masterServerPort : Int32
  serverName : List UInt8
  mapName : List UInt8
  players : Int32
  maxPlayers : Int32
  protocolVersion : Int32
  playersList : List (List UInt8)
  deriving DecidableEq, Repr

def Config.info (config : Config) : A2SInfo :=
  ⟨config.serverName, config.mapName, config.players, config.maxPlayers, config.protocolVersion⟩

structure ServerEmulator where
  config : Config
  ip : List UInt8
  port : Int32
  bound : Bool
  deriving DecidableEq, Repr

/-- The constructor. `socketOpens` is false where the address is malformed or the
port cannot be bound: the constructor of the socket then throws. -/
def ServerEmulator.new (socketOpens : Bool) (ipAddrParam : List UInt8) (portNumParam : Int32)
    (configParam : Config) : Option ServerEmulator :=
  if socketOpens then some ⟨configParam, ipAddrParam, portNumParam, false⟩ else none

/-- `uint8_t buffer[1400]`, never initialised. -/
abbrev Buffer := { bytes : List UInt8 // bytes.length = 1400 }

structure Outgoing where
  receiver : Endpoint
  payload : List UInt8
  deriving DecidableEq, Repr

/-- What a handler meets. The array is gone when the handler has returned, and a
send that could not take its bytes at once takes what lies in its place then. -/
structure Surroundings where
  buffer : Buffer
  later : Option Buffer
  /-- The answer of `async_resolve`: also `none` where the resolver, a local
  variable, is destroyed first and so cancels it. -/
  resolve : List UInt8 → List UInt8 → Option Endpoint

/-- `socket.async_send_to(asio::buffer(buffer, packetSize), receiver, ...)`. -/
def asyncSendTo (env : Surroundings) (written : Nat × List UInt8) (receiver : Endpoint) :
    Outgoing :=
  match env.later with
  | none => ⟨receiver, written.2.take written.1⟩
  | some memory => ⟨receiver, memory.val.take written.1⟩

section Encoders
variable (s : ServerEmulator) (buffer : Buffer)

def ServerEmulator.infoPacket : Nat × List UInt8 :=
  createA2SInfoPacket buffer.val buffer.val.length s.config.serverName s.config.mapName
    s.config.players s.config.maxPlayers s.config.protocolVersion

def ServerEmulator.playerPacket : Nat × List UInt8 :=
  createA2SPlayerPacket buffer.val buffer.val.length s.config.playersList

def ServerEmulator.masterPacket : Nat × List UInt8 :=
  createMasterServerPacket buffer.val buffer.val.length s.ip s.port

end Encoders

def ServerEmulator.handleA2SInfoRequest (s : ServerEmulator) (env : Surroundings)
    (senderEndpoint : Endpoint) : Option Outgoing :=
  some (asyncSendTo env (s.infoPacket env.buffer) senderEndpoint)

def ServerEmulator.handleA2SPlayerRequest (s : ServerEmulator) (env : Surroundings)
    (senderEndpoint : Endpoint) : Option Outgoing :=
  some (asyncSendTo env (s.playerPacket env.buffer) senderEndpoint)

def ServerEmulator.masterEndpoint (s : ServerEmulator) (env : Surroundings) : Option Endpoint :=
  env.resolve s.config.masterServerIp (stdToString s.config.masterServerPort)

def ServerEmulator.sendMasterServerInfo (s : ServerEmulator) (env : Surroundings) :
    Option Outgoing :=
  match s.masterEndpoint env with
  | none => none
  | some masterEndpoint => some (asyncSendTo env (s.masterPacket env.buffer) masterEndpoint)

inductive Occasion where
  | infoRequest (senderEndpoint : Endpoint)
  | playerRequest (senderEndpoint : Endpoint)
  | heartbeat
  deriving DecidableEq, Repr

def ServerEmulator.send (s : ServerEmulator) (env : Surroundings) : Occasion → Option Outgoing
  | .infoRequest senderEndpoint => s.handleA2SInfoRequest env senderEndpoint
  | .playerRequest senderEndpoint => s.handleA2SPlayerRequest env senderEndpoint
  | .heartbeat => s.sendMasterServerInfo env

/-- What the encoder returns and leaves in the array, if it is called at all. -/
def ServerEmulator.encode (s : ServerEmulator) (env : Surroundings) :
    Occasion → Option (Nat × List UInt8)
  | .infoRequest _ => some (s.infoPacket env.buffer)
  | .playerRequest _ => some (s.playerPacket env.buffer)
  | .heartbeat => (s.masterEndpoint env).map fun _ => s.masterPacket env.buffer

/-- A send is started for a packet that was made, of its bytes, and for no other. -/
structure SendsOnlyComplete (s : ServerEmulator) (env : Surroundings) (occasion : Occasion) :
    Prop where
  starts : (s.send env occasion).isSome ↔ ∃ written, s.encode env occasion = some written ∧
    0 < written.1
  complete : ∀ d, s.send env occasion = some d → ∃ written, s.encode env occasion = some written ∧
    d.payload = written.2.take written.1

/-- The packet in full, whatever its length. -/
def ServerEmulator.packet (s : ServerEmulator) : Occasion → List UInt8
  | .infoRequest _ => [0xFF, 0xFF, 0xFF, 0xFF] ++ s.config.info.text
  | .playerRequest _ => [0xFF, 0xFF, 0xFF, 0xFF] ++ s.config.playersList.flatten
  | .heartbeat => s.ip ++ [58] ++ decimal s.port.toInt

/-- Only a heartbeat whose master server is not found encodes nothing. -/
def ServerEmulator.Encodes (s : ServerEmulator) (env : Surroundings) (occasion : Occasion) : Prop :=
  occasion = .heartbeat → s.masterEndpoint env ≠ none

/-- The send takes its bytes at once, or finds the packet where the array was. -/
def Surroundings.Keeps (env : Surroundings) (packet : List UInt8) : Prop :=
  ∀ memory, env.later = some memory → memory.val.take packet.length = packet

theorem packet_ne_nil (s : ServerEmulator) (occasion : Occasion) : s.packet occasion ≠ [] := by
  cases occasion <;> simp [ServerEmulator.packet]

section Encoding
variable {s : ServerEmulator} {env : Surroundings} {occasion : Occasion}

theorem encode_eq (hcalled : s.Encodes env occasion) :
    ∃ header payload, header ++ payload = s.packet occasion ∧ s.encode env occasion =
      some (writePacket env.buffer.val env.buffer.val.length header payload) := by
  cases occasion with
  | infoRequest senderEndpoint =>
    refine ⟨[0xFF, 0xFF, 0xFF, 0xFF], s.config.info.text, rfl, ?_⟩
    have hreply : s.infoPacket env.buffer = s.config.info.reply env.buffer.val := rfl
    rw [ServerEmulator.encode, hreply, reply_eq_writePacket]
  | playerRequest senderEndpoint =>
    refine ⟨[0xFF, 0xFF, 0xFF, 0xFF], s.config.playersList.flatten, rfl, ?_⟩
    have hreply : s.playerPacket env.buffer = playerReply s.config.playersList env.buffer.val := rfl
    rw [ServerEmulator.encode, hreply, playerReply_eq_writePacket]
  | heartbeat =>
    refine ⟨[], s.packet .heartbeat, rfl, ?_⟩
    obtain ⟨masterEndpoint, hmaster⟩ := Option.ne_none_iff_exists'.mp (hcalled rfl)
    rw [ServerEmulator.encode, hmaster, Option.map_some, ServerEmulator.masterPacket,
      createMasterServerPacket_eq]
    rfl

theorem encode_of_fits (hcalled : s.Encodes env occasion)
    (hfits : (s.packet occasion).length ≤ 1400) :
    ∃ written, s.encode env occasion = some written ∧ written.1 = (s.packet occasion).length ∧
      written.2.take written.1 = s.packet occasion := by
  have hsize : env.buffer.val.length = 1400 := env.buffer.property
  obtain ⟨header, payload, hpacket, hencode⟩ := encode_eq hcalled
  have hlen : header.length + payload.length ≤ env.buffer.val.length := by
    rw [← List.length_append, hpacket, hsize]
    exact hfits
  refine ⟨_, hencode, ?_, ?_⟩
  · rw [writePacket_of_fits (Nat.le_of_eq hsize.symm) hlen, ← hpacket, List.length_append]
  · rw [take_writePacket (Nat.le_of_eq hsize.symm) hlen, hpacket]

theorem encode_of_long (hcalled : s.Encodes env occasion)
    (hlong : 1400 < (s.packet occasion).length) :
    s.encode env occasion = some (0, env.buffer.val) := by
  obtain ⟨header, payload, hpacket, hencode⟩ := encode_eq hcalled
  rw [hencode, writePacket_of_long]
  rw [← List.length_append, hpacket, env.buffer.property]
  exact hlong

/-- Whatever the encoder returns, one send of that many bytes is started. -/
theorem send_eq {written : Nat × List UInt8} (h : s.encode env occasion = some written) :
    ∃ receiver, s.send env occasion = some (asyncSendTo env written receiver) := by
  cases occasion with
  | infoRequest senderEndpoint =>
    obtain rfl := Option.some.inj h
    exact ⟨senderEndpoint, rfl⟩
  | playerRequest senderEndpoint =>
    obtain rfl := Option.some.inj h
    exact ⟨senderEndpoint, rfl⟩
  | heartbeat =>
    obtain ⟨masterEndpoint, hmaster, rfl⟩ := Option.map_eq_some_iff.mp h
    refine ⟨masterEndpoint, ?_⟩
    simp [ServerEmulator.send, ServerEmulator.sendMasterServerInfo, hmaster]

theorem nothing_of_not_encodes (hnot : ¬ s.Encodes env occasion) :
    s.encode env occasion = none ∧ s.send env occasion = none := by
  obtain ⟨rfl, hmaster⟩ := Classical.not_imp.mp hnot
  rw [not_not] at hmaster
  simp [ServerEmulator.encode, ServerEmulator.send, ServerEmulator.sendMasterServerInfo, hmaster]

theorem payload_asyncSendTo {written : Nat × List UInt8} (receiver : Endpoint)
    {packet : List UInt8} (hsize : written.1 = packet.length)
    (htake : written.2.take written.1 = packet) :
    (asyncSendTo env written receiver).payload = packet ↔ env.Keeps packet := by
  unfold asyncSendTo Surroundings.Keeps
  cases env.later with
  | none => simpa using htake
  | some memory => simp [hsize]

theorem sendsOnlyComplete_of_fits (hcalled : s.Encodes env occasion)
    (hfits : (s.packet occasion).length ≤ 1400) :
    SendsOnlyComplete s env occasion ↔ env.Keeps (s.packet occasion) := by
  obtain ⟨written, hencode, hsize, htake⟩ := encode_of_fits hcalled hfits
  obtain ⟨receiver, hsend⟩ := send_eq hencode
  have hpos := List.length_pos_iff.mpr (packet_ne_nil s occasion)
  rw [← payload_asyncSendTo receiver hsize htake]
  constructor
  · intro h
    obtain ⟨written', hencode', hexact⟩ := h.complete _ hsend
    obtain rfl := Option.some.inj (hencode.symm.trans hencode')
    exact hexact.trans htake
  · intro hpayload
    refine ⟨?_, ?_⟩
    · simp only [hsend, Option.isSome_some, true_iff]
      exact ⟨written, hencode, by omega⟩
    · rintro d hd
      obtain rfl := Option.some.inj (hsend.symm.trans hd)
      exact ⟨written, hencode, hpayload.trans htake.symm⟩

theorem not_sendsOnlyComplete_of_long (hcalled : s.Encodes env occasion)
    (hlong : 1400 < (s.packet occasion).length) : ¬ SendsOnlyComplete s env occasion := by
  intro h
  have hencode := encode_of_long hcalled hlong
  obtain ⟨receiver, hsend⟩ := send_eq hencode
  obtain ⟨written, hencode', hpos⟩ := h.starts.mp (by rw [hsend]; rfl)
  obtain rfl := Option.some.inj (hencode.symm.trans hencode')
  cases hpos

theorem sendsOnlyComplete_of_not_encodes (hnot : ¬ s.Encodes env occasion) :
    SendsOnlyComplete s env occasion := by
  obtain ⟨hencode, hsend⟩ := nothing_of_not_encodes hnot
  exact ⟨by simp [hencode, hsend], by simp [hsend]⟩

end Encoding

/-- Only complete packets are sent exactly when the packet fits the array and is
read before the array is gone; nobody looks whether the encoder returned zero. -/
theorem sendsOnlyComplete_iff (s : ServerEmulator) (env : Surroundings) (occasion : Occasion) :
    SendsOnlyComplete s env occasion ↔
      (s.Encodes env occasion →
        (s.packet occasion).length ≤ 1400 ∧ env.Keeps (s.packet occasion)) := by
  by_cases hcalled : s.Encodes env occasion
  · by_cases hfits : (s.packet occasion).length ≤ 1400
    · rw [sendsOnlyComplete_of_fits hcalled hfits]
      exact ⟨fun hkeeps _ => ⟨hfits, hkeeps⟩, fun h => (h hcalled).2⟩
    · have hnot := not_sendsOnlyComplete_of_long hcalled (Nat.lt_of_not_le hfits)
      exact ⟨fun h => absurd h hnot, fun h => absurd (h hcalled).1 hfits⟩
  · exact ⟨fun _ hcalled' => absurd hcalled' hcalled,
      fun _ => sendsOnlyComplete_of_not_encodes hcalled⟩

/-- A name that leaves no room in the array. -/
def longNamed : ServerEmulator where
  config := ⟨[], 27011, List.replicate 1400 97, [], 0, 32, 48, []⟩
  ip := [49, 50, 55, 46, 48, 46, 48, 46, 49]
  port := 27015
  bound := false

def clearedBuffer : Buffer := ⟨requestBuffer, length_requestBuffer⟩

def quietSurroundings : Surroundings := ⟨clearedBuffer, none, fun _ _ => none⟩

theorem empty_datagram_is_sent :
    longNamed.encode quietSurroundings (.infoRequest ⟨"10.0.0.1", 27005⟩) =
      some (0, requestBuffer) ∧
    longNamed.send quietSurroundings (.infoRequest ⟨"10.0.0.1", 27005⟩) =
      some ⟨⟨"10.0.0.1", 27005⟩, []⟩ ∧
    ¬ SendsOnlyComplete longNamed quietSurroundings (.infoRequest ⟨"10.0.0.1", 27005⟩) := by
  have hlong : 1400 < (longNamed.packet (.infoRequest ⟨"10.0.0.1", 27005⟩)).length := by
    simp only [ServerEmulator.packet, Config.info, longNamed, A2SInfo.text, List.length_append,
      List.length_replicate, List.length_cons, List.length_nil]
    omega
  have hcalled : longNamed.Encodes quietSurroundings (.infoRequest ⟨"10.0.0.1", 27005⟩) := by
    intro h
    cases h
  have hencode := encode_of_long hcalled hlong
  have hsend : longNamed.send quietSurroundings (.infoRequest ⟨"10.0.0.1", 27005⟩) =
      some ⟨⟨"10.0.0.1", 27005⟩, []⟩ := by
    have hwritten : longNamed.infoPacket quietSurroundings.buffer = (0, requestBuffer) :=
      Option.some.inj hencode
    simp only [ServerEmulator.send, ServerEmulator.handleA2SInfoRequest, hwritten]
    rfl
  exact ⟨hencode, hsend, not_sendsOnlyComplete_of_long hcalled hlong⟩

end Qwin.Modules1
