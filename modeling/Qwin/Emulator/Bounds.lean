import Qwin.Emulator.PlayerReply

/-!
How far the three encoders write: the whole packet at the front of the buffer, or
nothing at all. The packet of the master server has no header bytes.
-/

set_option autoImplicit false

namespace Qwin

/-- `written` is what an encoder returned and left, given a packet of these header
bytes and this payload. -/
structure AllOrNothing (buffer : List UInt8) (bufferSize : Nat) (header payload : List UInt8)
    (written : Nat × List UInt8) : Prop where
  zero_iff : written.1 = 0 ↔ bufferSize < 1400 ∨ bufferSize < header.length + payload.length
  unchanged : written.1 = 0 → written.2 = buffer
  inside : written.1 ≤ bufferSize
  packet : written.1 ≠ 0 →
    written.1 = header.length + payload.length ∧ written.2.take written.1 = header ++ payload
  beyond : ∀ i, written.1 ≤ i → written.2[i]? = buffer[i]?
  length : bufferSize ≤ buffer.length → written.2.length = buffer.length

theorem writePacket_allOrNothing (buffer : List UInt8) (bufferSize : Nat)
    {header payload : List UInt8} (hsome : 0 < header.length + payload.length) :
    AllOrNothing buffer bufferSize header payload
      (writePacket buffer bufferSize header payload) := by
  by_cases hmade : 1400 ≤ bufferSize ∧ header.length + payload.length ≤ bufferSize
  · obtain ⟨hsize, hfits⟩ := hmade
    have htake := @take_writePacket buffer _ _ _ hsize hfits
    rw [writePacket_of_fits hsize hfits] at htake ⊢
    constructor
    · dsimp only
      omega
    · dsimp only
      omega
    · exact hfits
    · exact fun _ => ⟨rfl, htake⟩
    · intro i hi
      dsimp only at hi ⊢
      rw [← List.length_append] at hi ⊢
      rw [List.getElem?_append_right hi, List.getElem?_drop, Nat.add_sub_cancel' hi]
    · intro hlen
      simp only [List.length_append, List.length_drop]
      omega
  · have hnothing : writePacket buffer bufferSize header payload = (0, buffer) := by
      by_cases hsize : bufferSize < 1400
      · exact writePacket_of_small hsize
      · exact writePacket_of_long (by omega)
    rw [hnothing]
    constructor
    · simp only [true_iff]
      omega
    · exact fun _ => rfl
    · exact Nat.zero_le _
    · exact fun h => absurd rfl h
    · exact fun _ _ => rfl
    · exact fun _ => rfl

/-- For every buffer, every size passed for it and every input. -/
theorem encoders_all_or_nothing (buffer : List UInt8) (bufferSize : Nat) :
    (∀ serverIp serverPort, AllOrNothing buffer bufferSize [] (masterText serverIp serverPort)
      (createMasterServerPacket buffer bufferSize serverIp serverPort)) ∧
    (∀ x : A2SInfo, AllOrNothing buffer bufferSize [0xFF, 0xFF, 0xFF, 0xFF] x.text
      (createA2SInfoPacket buffer bufferSize x.serverName x.mapName x.players x.maxPlayers
        x.protocolVersion)) ∧
    ∀ playersList, AllOrNothing buffer bufferSize [0xFF, 0xFF, 0xFF, 0xFF] playersList.flatten
      (createA2SPlayerPacket buffer bufferSize playersList) := by
  refine ⟨fun serverIp serverPort => ?_, fun x => ?_, fun playersList => ?_⟩
  · rw [createMasterServerPacket_eq]
    refine writePacket_allOrNothing buffer bufferSize ?_
    simp only [masterText, List.length_append, List.length_cons, List.length_nil]
    omega
  · rw [createA2SInfoPacket_eq]
    exact writePacket_allOrNothing buffer bufferSize (Nat.add_pos_left (by decide) _)
  · rw [createA2SPlayerPacket_eq]
    exact writePacket_allOrNothing buffer bufferSize (Nat.add_pos_left (by decide) _)

end Qwin
