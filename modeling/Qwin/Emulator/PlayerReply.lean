import Qwin.Emulator.InfoReply

/-!
What can be read back from an A2S_PLAYER reply, and whether a reply tells its
kind. No byte ends a name, and the fifth header byte is left out of both packets.
-/

set_option autoImplicit false

namespace Qwin

def playerReply (playersList : List (List UInt8)) (buffer : List UInt8) : Nat × List UInt8 :=
  createA2SPlayerPacket buffer buffer.length playersList

def NamesNulFree (playersList : List (List UInt8)) : Prop := ∀ player ∈ playersList, 0 ∉ player

def PlayersFit (playersList : List (List UInt8)) (buffer : List UInt8) : Prop :=
  4 + playersList.flatten.length ≤ buffer.length

def SamePlayerReply (xs : List (List UInt8)) (buffer : List UInt8) (ys : List (List UInt8))
    (buffer' : List UInt8) : Prop :=
  0 < (playerReply xs buffer).1 ∧ 0 < (playerReply ys buffer').1 ∧
    (playerReply xs buffer).2.take (playerReply xs buffer).1 =
      (playerReply ys buffer').2.take (playerReply ys buffer').1

/-- No other list of names can have left this reply. -/
def PlayersDecodable (xs : List (List UInt8)) (buffer : List UInt8) : Prop :=
  ∀ ys buffer', NamesNulFree ys → 1400 ≤ buffer'.length → SamePlayerReply xs buffer ys buffer' →
    ys = xs

theorem foldl_players (playersList : List (List UInt8)) (payload : List UInt8) :
    playersList.foldl (fun payload player => payload ++ (player ++ cString nulLiteral)) payload =
      payload ++ playersList.flatten := by
  induction playersList generalizing payload with
  | nil => simp
  | cons player rest ih =>
    rw [List.foldl_cons, ih]
    simp [cString, nulLiteral]

theorem createA2SPlayerPacket_eq (buffer : List UInt8) (bufferSize : Nat)
    (playersList : List (List UInt8)) :
    createA2SPlayerPacket buffer bufferSize playersList =
      writePacket buffer bufferSize [0xFF, 0xFF, 0xFF, 0xFF] playersList.flatten := by
  unfold createA2SPlayerPacket
  dsimp only
  rw [foldl_players]
  rfl

theorem playerReply_eq_writePacket (playersList : List (List UInt8)) (buffer : List UInt8) :
    playerReply playersList buffer =
      writePacket buffer buffer.length [0xFF, 0xFF, 0xFF, 0xFF] playersList.flatten :=
  createA2SPlayerPacket_eq buffer buffer.length playersList

theorem samePlayerReply_iff {xs ys : List (List UInt8)} {buffer buffer' : List UInt8}
    (hx : 1400 ≤ buffer.length) (hy : 1400 ≤ buffer'.length) :
    SamePlayerReply xs buffer ys buffer' ↔
      PlayersFit xs buffer ∧ PlayersFit ys buffer' ∧ xs.flatten = ys.flatten := by
  unfold SamePlayerReply
  rw [playerReply_eq_writePacket, playerReply_eq_writePacket]
  exact same_written_iff hx hy (by decide)

/-- A list is never told from the one with a nameless player more, so only a
reply that is not sent at all says nothing wrong. -/
theorem playersDecodable_iff {xs : List (List UInt8)} (hxs : NamesNulFree xs)
    {buffer : List UInt8} (hsize : 1400 ≤ buffer.length) :
    PlayersDecodable xs buffer ↔ ¬ PlayersFit xs buffer := by
  constructor
  · intro hunique hfits
    have hflatten : (xs ++ [[]]).flatten = xs.flatten := by simp
    have hfits' : PlayersFit (xs ++ [[]]) buffer := by rwa [PlayersFit, hflatten]
    have hnul : NamesNulFree (xs ++ [[]]) := by
      intro player hplayer
      rcases List.mem_append.mp hplayer with hold | hnew
      · exact hxs player hold
      · rw [List.mem_singleton.mp hnew]
        exact List.not_mem_nil
    have heq := hunique (xs ++ [[]]) buffer hnul hsize
      ((samePlayerReply_iff hsize hsize).mpr ⟨hfits, hfits', hflatten.symm⟩)
    have hlen := congrArg List.length heq
    simp at hlen
  · intro hlong ys buffer' _ hsize' hsame
    exact absurd ((samePlayerReply_iff hsize hsize').mp hsame).1 hlong

theorem playersDecodable_iff_two :
    PlayersDecodable [[97, 98], [99]] requestBuffer ↔
      ¬ PlayersFit [[97, 98], [99]] requestBuffer :=
  playersDecodable_iff (by unfold NamesNulFree; decide) (Nat.le_of_eq length_requestBuffer.symm)

/-- Players `ab` and `c`, and players `a` and `bc`; and nobody beside a player without name. -/
theorem player_names_merge :
    NamesNulFree [[97, 98], [99]] ∧ NamesNulFree [[97], [98, 99]] ∧
    SamePlayerReply [[97, 98], [99]] requestBuffer [[97], [98, 99]] requestBuffer ∧
    SamePlayerReply [] requestBuffer [[]] requestBuffer := by
  have hsize : 1400 ≤ requestBuffer.length := Nat.le_of_eq length_requestBuffer.symm
  rw [samePlayerReply_iff hsize hsize, samePlayerReply_iff hsize hsize]
  unfold NamesNulFree PlayersFit
  rw [length_requestBuffer]
  decide

/-- The packet is the four bytes, the letter of its kind and the payload. -/
def Tagged (kind : UInt8) (payload : List UInt8) (written : Nat × List UInt8) : Prop :=
  5 ≤ written.1 ∧ written.2.take written.1 = [0xFF, 0xFF, 0xFF, 0xFF, kind] ++ payload

/-- Replies that are made carry the letter of their kind, and differ. -/
structure KindReadable (x : A2SInfo) (buffer : List UInt8) (players : List (List UInt8))
    (buffer' : List UInt8) : Prop where
  info : (x.reply buffer).1 ≠ 0 → Tagged 0x49 x.text (x.reply buffer)
  player : (playerReply players buffer').1 ≠ 0 →
    Tagged 0x50 players.flatten (playerReply players buffer')
  differ : (x.reply buffer).1 ≠ 0 → (playerReply players buffer').1 ≠ 0 →
    (x.reply buffer).2.take (x.reply buffer).1 ≠
      (playerReply players buffer').2.take (playerReply players buffer').1

/-- The letter of the kind takes a byte that no packet has. -/
theorem not_tagged {buffer payload : List UInt8} {kind : UInt8} (hsize : 1400 ≤ buffer.length)
    (hfits : 4 + payload.length ≤ buffer.length) :
    ¬ Tagged kind payload (writePacket buffer buffer.length [0xFF, 0xFF, 0xFF, 0xFF] payload) := by
  rintro ⟨-, htake⟩
  rw [take_writePacket hsize (by simpa using hfits)] at htake
  have hlen := congrArg List.length htake
  simp at hlen

theorem made_iff {buffer payload : List UInt8} (hsize : 1400 ≤ buffer.length) :
    (writePacket buffer buffer.length [0xFF, 0xFF, 0xFF, 0xFF] payload).1 ≠ 0 ↔
      4 + payload.length ≤ buffer.length := by
  rw [← Nat.pos_iff_ne_zero, writePacket_pos_iff hsize (by simp)]
  simp

theorem kindReadable_iff (x : A2SInfo) {buffer : List UInt8} (hsize : 1400 ≤ buffer.length)
    (players : List (List UInt8)) {buffer' : List UInt8} (hsize' : 1400 ≤ buffer'.length) :
    KindReadable x buffer players buffer' ↔ ¬ x.Fits buffer ∧ ¬ PlayersFit players buffer' := by
  constructor
  · intro h
    constructor
    · intro hfits
      have htagged := h.info
      rw [reply_eq_writePacket, made_iff hsize] at htagged
      exact not_tagged hsize hfits (htagged hfits)
    · intro hfits
      have htagged := h.player
      rw [playerReply_eq_writePacket, made_iff hsize'] at htagged
      exact not_tagged hsize' hfits (htagged hfits)
  · rintro ⟨hlong, hlong'⟩
    have hinfo : ¬ (x.reply buffer).1 ≠ 0 := by
      rwa [reply_eq_writePacket, made_iff hsize]
    have hplayer : ¬ (playerReply players buffer').1 ≠ 0 := by
      rwa [playerReply_eq_writePacket, made_iff hsize']
    exact ⟨fun h => absurd h hinfo, fun h => absurd h hplayer, fun h => absurd h hinfo⟩

/-- Every A2S_INFO reply is the reply about one player whose name is its text. -/
theorem info_reply_as_player_reply (x : A2SInfo) (buffer : List UInt8) :
    x.reply buffer = playerReply [x.text] buffer := by
  rw [reply_eq_writePacket, playerReply_eq_writePacket, List.flatten_singleton]

theorem kindReadable_iff_ab :
    KindReadable serverAb requestBuffer [[97, 98]] requestBuffer ↔
      ¬ serverAb.Fits requestBuffer ∧ ¬ PlayersFit [[97, 98]] requestBuffer :=
  kindReadable_iff serverAb (Nat.le_of_eq length_requestBuffer.symm) [[97, 98]]
    (Nat.le_of_eq length_requestBuffer.symm)

/-- The reply of server `ab` is the reply about a player called `ab31648`. -/
theorem kinds_are_confused :
    serverAb.text = [97, 98, 51, 49, 54, 52, 56] ∧
    (serverAb.reply requestBuffer).1 ≠ 0 ∧
    serverAb.reply requestBuffer =
      playerReply [[97, 98, 51, 49, 54, 52, 56]] requestBuffer ∧
    ¬ KindReadable serverAb requestBuffer [[97, 98, 51, 49, 54, 52, 56]] requestBuffer := by
  have htext : serverAb.text = [97, 98, 51, 49, 54, 52, 56] := by decide
  have hsame : serverAb.reply requestBuffer =
      playerReply [[97, 98, 51, 49, 54, 52, 56]] requestBuffer := by
    rw [← htext, info_reply_as_player_reply]
  have hmade : (serverAb.reply requestBuffer).1 ≠ 0 := by
    rw [reply_eq_writePacket, made_iff (Nat.le_of_eq length_requestBuffer.symm),
      length_requestBuffer]
    decide
  refine ⟨htext, hmade, hsame, fun h => ?_⟩
  exact h.differ hmade (hsame ▸ hmade) (by rw [hsame])

end Qwin
