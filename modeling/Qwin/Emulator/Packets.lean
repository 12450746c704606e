import Qwin.Library.Decimal
import Qwin.Library.Memory

/-!
The packet encoders of modules_1/src/utils.cpp. A `std::string` is the list of
its bytes; an encoder returns its result and the buffer it leaves.
-/

set_option autoImplicit false

namespace Qwin
open Decimals Memory

/-- What `operator+` appends of a character array: everything before its first NUL. -/
def cString (chars : List UInt8) : List UInt8 := chars.takeWhile (· ≠ 0)

/-- The literal `"\0"`, an array of that character and its terminator. -/
def nulLiteral : List UInt8 := [0, 0]

def colonLiteral : List UInt8 := [58, 0]

/-- `std::to_string(int)`. -/
def stdToString (value : Int32) : List UInt8 := decimal value.toInt

/-- What the encoders do with the header bytes and the payload they made. -/
def writePacket (buffer : List UInt8) (bufferSize : Nat) (header payload : List UInt8) :
    Nat × List UInt8 :=
  if bufferSize < 1400 then (0, buffer)
  else
    let totalSize := header.length + payload.length
    if totalSize > bufferSize then (0, buffer)
    else
      let buffer := memcpy buffer 0 header header.length
      (totalSize, memcpy buffer header.length payload payload.length)

def createMasterServerPacket (buffer : List UInt8) (bufferSize : Nat) (serverIp : List UInt8)
    (serverPort : Int32) : Nat × List UInt8 :=
  let payload := serverIp ++ cString colonLiteral ++ stdToString serverPort
  writePacket buffer bufferSize [] payload

/-- The header ends in `'I'`. `sizeof(header) - 1` of its bytes are counted and copied. -/
def createA2SInfoPacket (buffer : List UInt8) (bufferSize : Nat)
    (serverName mapName : List UInt8) (players maxPlayers protocolVersion : Int32) :
    Nat × List UInt8 :=
  let header : List UInt8 := [0xFF, 0xFF, 0xFF, 0xFF, 0x49]
  let payload := serverName ++ cString nulLiteral ++ mapName ++ cString nulLiteral ++
    stdToString players ++ cString nulLiteral ++ stdToString maxPlayers ++ cString nulLiteral ++
    stdToString protocolVersion
  writePacket buffer bufferSize (header.take (header.length - 1)) payload

/-- The header ends in `'P'`. -/
def createA2SPlayerPacket (buffer : List UInt8) (bufferSize : Nat)
    (playersList : List (List UInt8)) : Nat × List UInt8 :=
  let header : List UInt8 := [0xFF, 0xFF, 0xFF, 0xFF, 0x50]
  let payload := playersList.foldl (fun payload player => payload ++ (player ++ cString nulLiteral))
    []
  writePacket buffer bufferSize (header.take (header.length - 1)) payload

/-- The packet for the master server is its payload: it has no header. -/
def masterText (serverIp : List UInt8) (serverPort : Int32) : List UInt8 :=
  serverIp ++ [58] ++ decimal serverPort.toInt

theorem createMasterServerPacket_eq (buffer : List UInt8) (bufferSize : Nat)
    (serverIp : List UInt8) (serverPort : Int32) :
    createMasterServerPacket buffer bufferSize serverIp serverPort =
      writePacket buffer bufferSize [] (masterText serverIp serverPort) := by
  simp [createMasterServerPacket, masterText, stdToString, cString, colonLiteral]

theorem writePacket_of_fits {buffer header payload : List UInt8} {bufferSize : Nat}
    (hsize : 1400 ≤ bufferSize) (hfits : header.length + payload.length ≤ bufferSize) :
    writePacket buffer bufferSize header payload =
      (header.length + payload.length,
        header ++ payload ++ buffer.drop (header.length + payload.length)) := by
  unfold writePacket
  rw [if_neg (by omega)]
  dsimp only
  rw [if_neg (by omega), memcpy_adjacent]

theorem writePacket_of_small {buffer header payload : List UInt8} {bufferSize : Nat}
    (hsmall : bufferSize < 1400) : writePacket buffer bufferSize header payload = (0, buffer) :=
  if_pos hsmall

theorem writePacket_of_long {buffer header payload : List UInt8} {bufferSize : Nat}
    (hlong : bufferSize < header.length + payload.length) :
    writePacket buffer bufferSize header payload = (0, buffer) := by
  unfold writePacket
  split
  · rfl
  · dsimp only
    rw [if_pos hlong]

/-- What a call of an encoder wrote is the header bytes and the payload. -/
theorem take_writePacket {buffer header payload : List UInt8} {bufferSize : Nat}
    (hsize : 1400 ≤ bufferSize) (hfits : header.length + payload.length ≤ bufferSize) :
    (writePacket buffer bufferSize header payload).2.take
      (writePacket buffer bufferSize header payload).1 = header ++ payload := by
  rw [writePacket_of_fits hsize hfits, ← List.length_append, List.take_left]

theorem writePacket_pos_iff {buffer header payload : List UInt8} {bufferSize : Nat}
    (hsize : 1400 ≤ bufferSize) (hheader : header ≠ []) :
    0 < (writePacket buffer bufferSize header payload).1 ↔
      header.length + payload.length ≤ bufferSize := by
  have hpos := List.length_pos_iff.mpr hheader
  by_cases hfits : header.length + payload.length ≤ bufferSize
  · rw [writePacket_of_fits hsize hfits]
    simp only [hfits, iff_true]
    omega
  · rw [writePacket_of_long (Nat.lt_of_not_le hfits)]
    simp [hfits]

/-- Under one header, what was written tells the payload and nothing else. -/
theorem same_written_iff {buffer buffer' header payload payload' : List UInt8}
    (hsize : 1400 ≤ buffer.length) (hsize' : 1400 ≤ buffer'.length) (hheader : header ≠ []) :
    (0 < (writePacket buffer buffer.length header payload).1 ∧
      0 < (writePacket buffer' buffer'.length header payload').1 ∧
      (writePacket buffer buffer.length header payload).2.take
          (writePacket buffer buffer.length header payload).1 =
        (writePacket buffer' buffer'.length header payload').2.take
          (writePacket buffer' buffer'.length header payload').1) ↔
      header.length + payload.length ≤ buffer.length ∧
        header.length + payload'.length ≤ buffer'.length ∧ payload = payload' := by
  rw [writePacket_pos_iff hsize hheader, writePacket_pos_iff hsize' hheader]
  constructor
  · rintro ⟨hfits, hfits', hsame⟩
    rw [take_writePacket hsize hfits, take_writePacket hsize' hfits'] at hsame
    exact ⟨hfits, hfits', List.append_cancel_left hsame⟩
  · rintro ⟨hfits, hfits', rfl⟩
    exact ⟨hfits, hfits', by rw [take_writePacket hsize hfits, take_writePacket hsize' hfits']⟩

end Qwin
