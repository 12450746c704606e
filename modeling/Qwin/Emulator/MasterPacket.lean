import Qwin.Emulator.InfoReply

/-!
Reading the packet for the master server back. A decimal has no colon, so the
last colon of the packet is the one that was put between address and port.
-/

set_option autoImplicit false

namespace Qwin
open Decimals

/-- The address before the last colon, and the decimal after it. -/
def readMasterPacket (packet : List UInt8) : Option (List UInt8 × Int) :=
  match splitLast 58 packet with
  | none => none
  | some (serverIp, port) => (readDecimal port).map fun serverPort => (serverIp, serverPort)

/-- The bytes a call of the encoder left, as many as it says. -/
def masterPacket (buffer : List UInt8) (bufferSize : Nat) (serverIp : List UInt8)
    (serverPort : Int32) : List UInt8 :=
  (createMasterServerPacket buffer bufferSize serverIp serverPort).2.take
    (createMasterServerPacket buffer bufferSize serverIp serverPort).1

section Calls
variable {buffer : List UInt8} {bufferSize : Nat} {serverIp : List UInt8} {serverPort : Int32}

theorem masterPacket_eq
    (hmade : 0 < (createMasterServerPacket buffer bufferSize serverIp serverPort).1) :
    masterPacket buffer bufferSize serverIp serverPort = masterText serverIp serverPort := by
  unfold masterPacket
  rw [createMasterServerPacket_eq] at hmade ⊢
  by_cases hsize : bufferSize < 1400
  · rw [writePacket_of_small hsize] at hmade
    cases hmade
  by_cases hlong : bufferSize < (masterText serverIp serverPort).length
  · rw [writePacket_of_long (by simpa using hlong)] at hmade
    cases hmade
  rw [take_writePacket (by omega) (by simpa using hlong), List.nil_append]

theorem readMasterPacket_masterText (serverIp : List UInt8) (serverPort : Int32) :
    readMasterPacket (masterText serverIp serverPort) = some (serverIp, serverPort.toInt) := by
  have hcolon : (58 : UInt8) ∉ decimal serverPort.toInt :=
    notMem_decimal (by decide) (by decide) _
  unfold readMasterPacket masterText
  rw [List.append_assoc, List.singleton_append, splitLast_append serverIp hcolon]
  dsimp only
  rw [readDecimal_decimal, Option.map_some]

end Calls

/-- A packet that was made reads back as what it was made of, whatever bytes and
colons the address has, so no other address and port make the same packet. -/
theorem masterPacket_decodes {buffer : List UInt8} {bufferSize : Nat} {serverIp : List UInt8}
    {serverPort : Int32}
    (hmade : 0 < (createMasterServerPacket buffer bufferSize serverIp serverPort).1) :
    readMasterPacket (masterPacket buffer bufferSize serverIp serverPort) =
        some (serverIp, serverPort.toInt) ∧
      ∀ buffer' bufferSize' serverIp' serverPort',
        0 < (createMasterServerPacket buffer' bufferSize' serverIp' serverPort').1 →
        masterPacket buffer' bufferSize' serverIp' serverPort' =
          masterPacket buffer bufferSize serverIp serverPort →
        serverIp' = serverIp ∧ serverPort' = serverPort := by
  rw [masterPacket_eq hmade]
  refine ⟨readMasterPacket_masterText serverIp serverPort, ?_⟩
  intro buffer' bufferSize' serverIp' serverPort' hmade' hsame
  rw [masterPacket_eq hmade'] at hsame
  have hread := congrArg readMasterPacket hsame
  rw [readMasterPacket_masterText, readMasterPacket_masterText] at hread
  obtain ⟨hip, hport⟩ := Prod.mk.inj (Option.some.inj hread)
  exact ⟨hip, Int32.toInt_inj.mp hport⟩

/-- The address is `::1`. -/
theorem masterPacket_decodes_loopback :
    readMasterPacket (masterPacket requestBuffer 1400 [58, 58, 49] (-5)) =
        some ([58, 58, 49], (-5 : Int32).toInt) ∧
      ∀ buffer' bufferSize' serverIp' serverPort',
        0 < (createMasterServerPacket buffer' bufferSize' serverIp' serverPort').1 →
        masterPacket buffer' bufferSize' serverIp' serverPort' =
          masterPacket requestBuffer 1400 [58, 58, 49] (-5) →
        serverIp' = [58, 58, 49] ∧ serverPort' = -5 := by
  refine masterPacket_decodes ?_
  rw [createMasterServerPacket_eq, writePacket_of_fits (by decide) (by decide)]
  decide

end Qwin
