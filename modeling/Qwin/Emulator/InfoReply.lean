import Qwin.Emulator.Packets

/-!
What can be read back from an A2S_INFO reply. The `"\0"` literals add no byte, so
the five fields run together and only their digits tell them apart.
-/

set_option autoImplicit false

namespace Qwin
open Decimals

structure A2SInfo where
  serverName : List UInt8
  mapName : List UInt8
  players : Int32
  maxPlayers : Int32
  protocolVersion : Int32
  deriving DecidableEq, Repr

def A2SInfo.NulFree (x : A2SInfo) : Prop := 0 ∉ x.serverName ∧ 0 ∉ x.mapName

instance (x : A2SInfo) : Decidable x.NulFree := inferInstanceAs (Decidable (_ ∧ _))

def A2SInfo.reply (x : A2SInfo) (buffer : List UInt8) : Nat × List UInt8 :=
  createA2SInfoPacket buffer buffer.length x.serverName x.mapName x.players x.maxPlayers
    x.protocolVersion

def SameReply (x : A2SInfo) (buffer : List UInt8) (y : A2SInfo) (buffer' : List UInt8) : Prop :=
  0 < (x.reply buffer).1 ∧ 0 < (y.reply buffer').1 ∧
    (x.reply buffer).2.take (x.reply buffer).1 = (y.reply buffer').2.take (y.reply buffer').1

instance (x y : A2SInfo) (buffer buffer' : List UInt8) : Decidable (SameReply x buffer y buffer') :=
  inferInstanceAs (Decidable (_ ∧ _ ∧ _))

def UniquelyDecodable (x : A2SInfo) (buffer : List UInt8) : Prop :=
  ∀ y buffer', y.NulFree → 1400 ≤ buffer'.length → SameReply x buffer y buffer' → y = x

def A2SInfo.text (x : A2SInfo) : List UInt8 :=
  x.serverName ++ x.mapName ++ decimal x.players.toInt ++ decimal x.maxPlayers.toInt ++
    decimal x.protocolVersion.toInt

def A2SInfo.Fits (x : A2SInfo) (buffer : List UInt8) : Prop := 4 + x.text.length ≤ buffer.length

/-- Empty names, and three numbers of one digit, the first without a sign. -/
structure A2SInfo.Rigid (x : A2SInfo) : Prop where
  serverName : x.serverName = []
  mapName : x.mapName = []
  unsigned : 0 ≤ x.players.toInt
  players : x.players.toInt.natAbs < 10
  maxPlayers : x.maxPlayers.toInt.natAbs < 10
  protocolVersion : x.protocolVersion.toInt.natAbs < 10

theorem createA2SInfoPacket_eq (buffer : List UInt8) (bufferSize : Nat) (x : A2SInfo) :
    createA2SInfoPacket buffer bufferSize x.serverName x.mapName x.players x.maxPlayers
        x.protocolVersion =
      writePacket buffer bufferSize [0xFF, 0xFF, 0xFF, 0xFF] x.text := by
  simp [createA2SInfoPacket, A2SInfo.text, stdToString, cString, nulLiteral]

theorem reply_eq_writePacket (x : A2SInfo) (buffer : List UInt8) :
    x.reply buffer = writePacket buffer buffer.length [0xFF, 0xFF, 0xFF, 0xFF] x.text :=
  createA2SInfoPacket_eq buffer buffer.length x

theorem sameReply_iff {x y : A2SInfo} {buffer buffer' : List UInt8} (hx : 1400 ≤ buffer.length)
    (hy : 1400 ≤ buffer'.length) :
    SameReply x buffer y buffer' ↔ x.Fits buffer ∧ y.Fits buffer' ∧ x.text = y.text := by
  unfold SameReply
  rw [reply_eq_writePacket, reply_eq_writePacket]
  exact same_written_iff hx hy (by decide)

section Digits
variable {x y : A2SInfo}

theorem digits_text (x : A2SInfo) :
    x.text.countP isDigit = x.serverName.countP isDigit + x.mapName.countP isDigit +
      (natDecimal x.players.toInt.natAbs).length + (natDecimal x.maxPlayers.toInt.natAbs).length +
      (natDecimal x.protocolVersion.toInt.natAbs).length := by
  simp only [A2SInfo.text, List.countP_append, countP_decimal]

theorem digits_rigid (h : x.Rigid) : x.text.countP isDigit = 3 := by
  rw [digits_text, length_natDecimal_eq_one.mpr h.players,
    length_natDecimal_eq_one.mpr h.maxPlayers, length_natDecimal_eq_one.mpr h.protocolVersion,
    h.serverName, h.mapName]
  rfl

theorem text_rigid (h : x.Rigid) :
    x.text = digit x.players.toInt.natAbs ::
      (decimal x.maxPlayers.toInt ++ decimal x.protocolVersion.toInt) := by
  have hunsigned := h.unsigned
  rw [A2SInfo.text, h.serverName, h.mapName, decimal_of_small h.players, if_neg (by omega)]
  simp

theorem eq_of_text_rigid (h : x.Rigid) (htext : y.text = x.text) : y = x := by
  have hcount := digits_text y
  rw [htext, digits_rigid h] at hcount
  have hp := length_natDecimal_pos y.players.toInt.natAbs
  have hm := length_natDecimal_pos y.maxPlayers.toInt.natAbs
  have hv := length_natDecimal_pos y.protocolVersion.toInt.natAbs
  have hnames : y.serverName ++ y.mapName = [] := by
    cases hcons : y.serverName ++ y.mapName with
    | nil => rfl
    | cons b rest =>
      have hfirst : b = digit x.players.toInt.natAbs := by
        rw [text_rigid h, A2SInfo.text, hcons] at htext
        exact (List.cons.inj htext).1
      have hdigit : isDigit b = true := hfirst ▸ isDigit_digit h.players
      have hpos : 0 < (y.serverName ++ y.mapName).countP isDigit :=
        List.countP_pos_iff.mpr ⟨b, by simp [hcons], hdigit⟩
      rw [List.countP_append] at hpos
      omega
  obtain ⟨hserver, hmap⟩ := List.append_eq_nil_iff.mp hnames
  have hyp := length_natDecimal_eq_one.mp (show (natDecimal y.players.toInt.natAbs).length = 1 by
    omega)
  have hym := length_natDecimal_eq_one.mp (show (natDecimal y.maxPlayers.toInt.natAbs).length = 1 by
    omega)
  have hyv := length_natDecimal_eq_one.mp
    (show (natDecimal y.protocolVersion.toInt.natAbs).length = 1 by omega)
  simp only [A2SInfo.text, hserver, hmap, h.serverName, h.mapName, List.nil_append,
    List.append_assoc] at htext
  obtain ⟨hplayers, hrest⟩ := decimal_append_cancel hyp h.players htext
  obtain ⟨hmax, hlast⟩ := decimal_append_cancel hym h.maxPlayers hrest
  rw [← List.append_nil (decimal y.protocolVersion.toInt),
    ← List.append_nil (decimal x.protocolVersion.toInt)] at hlast
  obtain ⟨hversion, -⟩ := decimal_append_cancel hyv h.protocolVersion hlast
  obtain ⟨sx, mx, px, qx, vx⟩ := x
  obtain ⟨sy, my, py, qy, vy⟩ := y
  rw [A2SInfo.mk.injEq]
  exact ⟨hserver.trans h.serverName.symm, hmap.trans h.mapName.symm, Int32.toInt_inj.mp hplayers,
    Int32.toInt_inj.mp hmax, Int32.toInt_inj.mp hversion⟩

end Digits

def InInt (z : Int) : Prop := -2 ^ 31 ≤ z ∧ z < 2 ^ 31

theorem inInt_toInt (i : Int32) : InInt i.toInt := ⟨i.le_toInt, i.toInt_lt⟩

theorem inInt_tdiv (i : Int32) : InInt (i.toInt.tdiv 10) := by
  have habs : (i.toInt.tdiv 10).natAbs = i.toInt.natAbs / 10 := Int.natAbs_tdiv _ _
  have hle := i.le_toInt
  have hlt := i.toInt_lt
  constructor <;> omega

theorem inInt_last (n : Nat) : InInt ((n % 10 : Nat) : Int) := by
  constructor <;> omega

section Ambiguity
variable {x : A2SInfo} (huniq : ∀ y : A2SInfo, y.NulFree → y.text = x.text → y = x)
include huniq

/-- A text that begins with more than three numbers need can be read with the
front part as the server's name. -/
theorem no_other_reading (hserver : x.serverName = []) {front : List UInt8} (hnul : 0 ∉ front)
    {p m v : Int} (hp : InInt p) (hm : InInt m) (hv : InInt v)
    (htext : x.text = front ++ (decimal p ++ (decimal m ++ decimal v))) : front = [] := by
  have hy := huniq ⟨front, [], .ofInt p, .ofInt m, .ofInt v⟩ ⟨hnul, by simp⟩ (by
    rw [htext, A2SInfo.text, Int32.toInt_ofInt_of_le hp.1 hp.2, Int32.toInt_ofInt_of_le hm.1 hm.2,
      Int32.toInt_ofInt_of_le hv.1 hv.2]
    simp)
  rw [← hserver, ← hy]

theorem serverName_eq_nil (hx : x.NulFree) : x.serverName = [] := by
  rcases List.eq_nil_or_concat x.serverName with hnil | ⟨front, last, hname⟩
  · exact hnil
  · obtain ⟨hserver, hmap⟩ := hx
    rw [hname] at hserver
    have hy := huniq { x with serverName := front, mapName := last :: x.mapName }
      (by simp_all [A2SInfo.NulFree]) (by simp [A2SInfo.text, hname])
    have hlen := congrArg (fun y => y.serverName.length) hy
    simp [hname] at hlen

theorem rigid_of_unique (hx : x.NulFree) : x.Rigid := by
  have hserver := serverName_eq_nil huniq hx
  have hmap : x.mapName = [] := by
    refine no_other_reading huniq hserver hx.2 (inInt_toInt x.players) (inInt_toInt x.maxPlayers)
      (inInt_toInt x.protocolVersion) ?_
    simp [A2SInfo.text, hserver]
  have htext : x.text = decimal x.players.toInt ++
      (decimal x.maxPlayers.toInt ++ decimal x.protocolVersion.toInt) := by
    simp [A2SInfo.text, hserver, hmap]
  have hplayers : x.players.toInt.natAbs < 10 := by
    by_contra hbig
    have hfront := no_other_reading huniq hserver (zero_notMem_decimal (x.players.toInt.tdiv 10))
      (inInt_last x.players.toInt.natAbs) (inInt_toInt x.maxPlayers) (inInt_toInt x.protocolVersion)
      (by rw [htext, decimal_split (Nat.le_of_not_lt hbig), List.append_assoc])
    exact decimal_ne_nil _ hfront
  have hunsigned : 0 ≤ x.players.toInt := by
    by_contra hneg
    have hsign : decimal x.players.toInt = [minus] ++ decimal (x.players.toInt.natAbs : Int) := by
      rw [decimal_of_small hplayers, if_pos (by omega), decimal_of_small (by omega),
        if_neg (by omega), Int.natAbs_natCast]
      rfl
    have hfront : [minus] = [] := no_other_reading huniq hserver (by decide)
      (p := x.players.toInt.natAbs) ⟨by omega, by omega⟩ (inInt_toInt x.maxPlayers)
      (inInt_toInt x.protocolVersion) (by rw [htext, hsign, List.append_assoc])
    cases hfront
  have hmax : x.maxPlayers.toInt.natAbs < 10 := by
    by_contra hbig
    have hfront := no_other_reading huniq hserver (zero_notMem_decimal x.players.toInt)
      (inInt_tdiv x.maxPlayers) (inInt_last x.maxPlayers.toInt.natAbs)
      (inInt_toInt x.protocolVersion)
      (by rw [htext, decimal_split (Nat.le_of_not_lt hbig), List.append_assoc])
    exact decimal_ne_nil _ hfront
  have hversion : x.protocolVersion.toInt.natAbs < 10 := by
    by_contra hbig
    have hfront := no_other_reading huniq hserver (zero_notMem_decimal x.players.toInt)
      (inInt_toInt x.maxPlayers) (inInt_tdiv x.protocolVersion)
      (inInt_last x.protocolVersion.toInt.natAbs)
      (by rw [htext, decimal_split (Nat.le_of_not_lt hbig)])
    exact decimal_ne_nil _ hfront
  exact ⟨hserver, hmap, hunsigned, hplayers, hmax, hversion⟩

end Ambiguity

/-- A reply determines its five fields exactly when both names are empty, the
numbers have one digit each and the first has no sign; no reply is sent that does
not fit. -/
theorem uniquelyDecodable_iff {x : A2SInfo} (hx : x.NulFree) {buffer : List UInt8}
    (hsize : 1400 ≤ buffer.length) :
    UniquelyDecodable x buffer ↔ ¬ x.Fits buffer ∨ x.Rigid := by
  constructor
  · intro hunique
    rw [Classical.or_iff_not_imp_left, not_not]
    intro hfits
    refine rigid_of_unique (fun y hy htext => ?_) hx
    have hfits' : y.Fits buffer := by rwa [A2SInfo.Fits, htext]
    exact hunique y buffer hy hsize ((sameReply_iff hsize hsize).mpr ⟨hfits, hfits', htext.symm⟩)
  · rintro hcond y buffer' - hsize' hsame
    obtain ⟨hfits, -, htext⟩ := (sameReply_iff hsize hsize').mp hsame
    exact eq_of_text_rigid (hcond.resolve_left fun hlong => hlong hfits) htext.symm

/-- `uint8_t buffer[1400]` of the request handler, cleared. -/
def requestBuffer : List UInt8 := List.replicate 1400 0

theorem length_requestBuffer : requestBuffer.length = 1400 := List.length_replicate

def namelessInfo : A2SInfo := ⟨[], [], 0, 8, -1⟩

theorem uniquelyDecodable_iff_nameless :
    UniquelyDecodable namelessInfo requestBuffer ↔
      ¬ namelessInfo.Fits requestBuffer ∨ namelessInfo.Rigid :=
  uniquelyDecodable_iff (by decide) (Nat.le_of_eq length_requestBuffer.symm)

def serverAb : A2SInfo := ⟨[97, 98], [], 3, 16, 48⟩
def serverA : A2SInfo := ⟨[97], [98], 3, 16, 48⟩

theorem names_run_together :
    serverAb.NulFree ∧ serverA.NulFree ∧ serverAb ≠ serverA ∧
      SameReply serverAb requestBuffer serverA requestBuffer := by
  refine ⟨by decide, by decide, by decide, ?_⟩
  have hsize : 1400 ≤ requestBuffer.length := Nat.le_of_eq length_requestBuffer.symm
  rw [sameReply_iff hsize hsize]
  unfold A2SInfo.Fits
  rw [length_requestBuffer]
  decide

end Qwin
