import Mathlib.Data.List.Basic
import Mathlib.Data.List.Forall2
import Mathlib.Tactic.SplitIfs

/-!
Which byte strings encode a character in UTF-8, by the ranges of their bytes, and
the bytes of a string.
-/

set_option autoImplicit false

namespace Utf8

/-- The scalar value `v` in UTF-8. -/
def encode (v : Nat) : List UInt8 :=
  if v ≤ 0x7F then [.ofNat v]
  else if v ≤ 0x7FF then [.ofNat (v / 64 % 32 + 0xC0), .ofNat (v % 64 + 0x80)]
  else if v ≤ 0xFFFF then
    [.ofNat (v / 4096 % 16 + 0xE0), .ofNat (v / 64 % 64 + 0x80), .ofNat (v % 64 + 0x80)]
  else
    [.ofNat (v / 262144 % 8 + 0xF0), .ofNat (v / 4096 % 64 + 0x80), .ofNat (v / 64 % 64 + 0x80),
      .ofNat (v % 64 + 0x80)]

theorem utf8EncodeChar_eq (c : Char) : String.utf8EncodeChar c = encode c.toNat := rfl

theorem toNat_ofNat {v : Nat} (h : v.isValidChar) : (Char.ofNat v).toNat = v := by
  rw [Char.ofNat, dif_pos h]
  rfl

theorem utf8EncodeChar_ofNat {v : Nat} (h : v.isValidChar) :
    String.utf8EncodeChar (.ofNat v) = encode v := by
  rw [utf8EncodeChar_eq, toNat_ofNat h]

/-- Bytes each in its range, bounds included. -/
def InRanges (bytes : List UInt8) (ranges : List (UInt8 × UInt8)) : Prop :=
  List.Forall₂ (fun b range => range.1 ≤ b ∧ b ≤ range.2) bytes ranges

/-- The ranges of the bytes that follow a first byte. Encodings that are too long,
surrogates and values above 0x10FFFF are kept out by the second byte. -/
def following (first : UInt8) : Option (List (UInt8 × UInt8)) :=
  if first ≤ 0x7F then some []
  else if first < 0xC2 then none
  else if first ≤ 0xDF then some [(0x80, 0xBF)]
  else if first = 0xE0 then some [(0xA0, 0xBF), (0x80, 0xBF)]
  else if first = 0xED then some [(0x80, 0x9F), (0x80, 0xBF)]
  else if first ≤ 0xEF then some [(0x80, 0xBF), (0x80, 0xBF)]
  else if first = 0xF0 then some [(0x90, 0xBF), (0x80, 0xBF), (0x80, 0xBF)]
  else if first ≤ 0xF3 then some [(0x80, 0xBF), (0x80, 0xBF), (0x80, 0xBF)]
  else if first = 0xF4 then some [(0x80, 0x8F), (0x80, 0xBF), (0x80, 0xBF)]
  else none

/-- The bytes `rest` may stand after `first`. -/
def Follows (first : UInt8) (rest : List UInt8) : Prop :=
  ∃ ranges, following first = some ranges ∧ InRanges rest ranges

section Lengths
variable {a b c d : UInt8}

theorem follows_nil : Follows a [] ↔ a.toNat ≤ 0x7F := by
  unfold Follows following
  simp only [UInt8.le_iff_toNat_le, UInt8.lt_iff_toNat_lt, ← UInt8.toNat_inj, UInt8.reduceToNat]
  split_ifs <;> simp [InRanges] <;> omega

theorem follows_one : Follows a [b] ↔
    0xC2 ≤ a.toNat ∧ a.toNat ≤ 0xDF ∧ 0x80 ≤ b.toNat ∧ b.toNat ≤ 0xBF := by
  unfold Follows following
  simp only [UInt8.le_iff_toNat_le, UInt8.lt_iff_toNat_lt, ← UInt8.toNat_inj, UInt8.reduceToNat]
  split_ifs <;> simp [InRanges, UInt8.le_iff_toNat_le] <;> omega

theorem follows_two : Follows a [b, c] ↔
    0xE0 ≤ a.toNat ∧ a.toNat ≤ 0xEF ∧ 0x80 ≤ b.toNat ∧ b.toNat ≤ 0xBF ∧
      (a.toNat = 0xE0 → 0xA0 ≤ b.toNat) ∧ (a.toNat = 0xED → b.toNat ≤ 0x9F) ∧
      0x80 ≤ c.toNat ∧ c.toNat ≤ 0xBF := by
  unfold Follows following
  simp only [UInt8.le_iff_toNat_le, UInt8.lt_iff_toNat_lt, ← UInt8.toNat_inj, UInt8.reduceToNat]
  split_ifs <;> simp [InRanges, UInt8.le_iff_toNat_le] <;> omega

theorem follows_three : Follows a [b, c, d] ↔
    0xF0 ≤ a.toNat ∧ a.toNat ≤ 0xF4 ∧ 0x80 ≤ b.toNat ∧ b.toNat ≤ 0xBF ∧
      (a.toNat = 0xF0 → 0x90 ≤ b.toNat) ∧ (a.toNat = 0xF4 → b.toNat ≤ 0x8F) ∧
      (0x80 ≤ c.toNat ∧ c.toNat ≤ 0xBF) ∧ 0x80 ≤ d.toNat ∧ d.toNat ≤ 0xBF := by
  unfold Follows following
  simp only [UInt8.le_iff_toNat_le, UInt8.lt_iff_toNat_lt, ← UInt8.toNat_inj, UInt8.reduceToNat]
  split_ifs <;> simp [InRanges, UInt8.le_iff_toNat_le] <;> omega

theorem length_le {rest : List UInt8} (h : Follows a rest) : rest.length ≤ 3 := by
  obtain ⟨ranges, hranges, hrest⟩ := h
  rw [List.Forall₂.length_eq hrest]
  unfold following at hranges
  split_ifs at hranges <;> simp [← Option.some.inj hranges]
end Lengths

theorem exists_encode_of_follows {first : UInt8} {rest : List UInt8} (h : Follows first rest) :
    ∃ v, v.isValidChar ∧ encode v = first :: rest := by
  have hlength := length_le h
  unfold Nat.isValidChar encode
  match rest with
  | [] =>
    rw [follows_nil] at h
    exact ⟨first.toNat, .inl (by omega), by rw [if_pos h, UInt8.ofNat_toNat]⟩
  | [b] =>
    obtain ⟨h1, h2, h3, h4⟩ := follows_one.mp h
    refine ⟨(first.toNat - 0xC0) * 64 + (b.toNat - 0x80), .inl (by omega), ?_⟩
    rw [if_neg (by omega), if_pos (by omega)]
    simp only [List.cons.injEq, and_true, ← UInt8.toNat_inj, UInt8.toNat_ofNat']
    omega
  | [b, c] =>
    obtain ⟨h1, h2, h3, h4, h5, h6, h7, h8⟩ := follows_two.mp h
    refine ⟨(first.toNat - 0xE0) * 4096 + (b.toNat - 0x80) * 64 + (c.toNat - 0x80), by omega, ?_⟩
    rw [if_neg (by omega), if_neg (by omega), if_pos (by omega)]
    simp only [List.cons.injEq, and_true, ← UInt8.toNat_inj, UInt8.toNat_ofNat']
    omega
  | [b, c, d] =>
    obtain ⟨h1, h2, h3, h4, h5, h6, ⟨h7, h8⟩, h9, h10⟩ := follows_three.mp h
    refine ⟨(first.toNat - 0xF0) * 262144 + (b.toNat - 0x80) * 4096 + (c.toNat - 0x80) * 64 +
      (d.toNat - 0x80), by omega, ?_⟩
    rw [if_neg (by omega), if_neg (by omega), if_neg (by omega)]
    simp only [List.cons.injEq, and_true, ← UInt8.toNat_inj, UInt8.toNat_ofNat']
    omega
  | _ :: _ :: _ :: _ :: _ =>
    simp only [List.length_cons] at hlength
    omega

theorem follows_of_encode {v : Nat} (hv : v.isValidChar) {first : UInt8} {rest : List UInt8}
    (h : encode v = first :: rest) : Follows first rest := by
  unfold Nat.isValidChar at hv
  unfold encode at h
  split_ifs at h <;> obtain ⟨rfl, rfl⟩ := List.cons.inj h
  · rw [follows_nil, UInt8.toNat_ofNat']
    omega
  · simp only [follows_one, UInt8.toNat_ofNat']
    omega
  · simp only [follows_two, UInt8.toNat_ofNat']
    omega
  · simp only [follows_three, UInt8.toNat_ofNat']
    omega

/-- The table has the encodings and nothing else. -/
theorem exists_utf8EncodeChar_iff {first : UInt8} {rest : List UInt8} :
    (∃ c, String.utf8EncodeChar c = first :: rest) ↔ Follows first rest := by
  constructor
  · rintro ⟨c, hc⟩
    exact follows_of_encode c.valid (utf8EncodeChar_eq c ▸ hc)
  · intro h
    obtain ⟨v, hv, hencode⟩ := exists_encode_of_follows h
    exact ⟨.ofNat v, (utf8EncodeChar_ofNat hv).trans hencode⟩

theorem utf8EncodeChar_ascii {c : Char} {first : UInt8} {rest : List UInt8}
    (h : String.utf8EncodeChar c = first :: rest) (hfirst : first ≤ 0x7F) :
    rest = [] ∧ first.toNat = c.toNat := by
  rw [utf8EncodeChar_eq, encode] at h
  simp only [UInt8.le_iff_toNat_le, UInt8.reduceToNat] at hfirst
  have hc := c.valid
  change c.toNat.isValidChar at hc
  unfold Nat.isValidChar at hc
  split_ifs at h <;> obtain ⟨rfl, rfl⟩ := List.cons.inj h <;> rw [UInt8.toNat_ofNat'] at hfirst ⊢
  · exact ⟨rfl, by omega⟩
  all_goals omega

theorem utf8EncodeChar_notAscii {c : Char} {first : UInt8} {rest : List UInt8}
    (h : String.utf8EncodeChar c = first :: rest) (hfirst : ¬ first ≤ 0x7F) : 0x7F < c.toNat := by
  by_contra hc
  rw [utf8EncodeChar_eq, encode, if_pos (by omega)] at h
  obtain ⟨rfl, -⟩ := List.cons.inj h
  simp only [UInt8.le_iff_toNat_le, UInt8.toNat_ofNat', UInt8.reduceToNat] at hfirst
  omega

def utf8 (s : String) : List UInt8 := s.toList.flatMap String.utf8EncodeChar

/-- The string of these bytes, if they are UTF-8. -/
def decode (bytes : List UInt8) : Option String := String.fromUTF8? bytes.toByteArray

theorem toByteArray_utf8 (s : String) : (utf8 s).toByteArray = s.toByteArray :=
  String.utf8Encode_toList

theorem decode_eq_some {bytes : List UInt8} {s : String} :
    decode bytes = some s ↔ bytes = utf8 s := by
  rw [← List.toByteArray_inj, toByteArray_utf8]
  unfold decode String.fromUTF8?
  constructor
  · intro h
    split at h
    · rw [← Option.some.inj h]
      rfl
    · cases h
  · intro h
    rw [dif_pos (h ▸ s.isValidUTF8)]
    exact congrArg some (String.toByteArray_inj.mp h)

@[simp] theorem decode_utf8 (s : String) : decode (utf8 s) = some s := decode_eq_some.mpr rfl

theorem utf8_injective : Function.Injective utf8 := fun s t h =>
  Option.some.inj ((decode_utf8 s).symm.trans (h ▸ decode_utf8 t))

theorem utf8_append (s t : String) : utf8 (s ++ t) = utf8 s ++ utf8 t := by
  rw [utf8, String.toList_append, List.flatMap_append]
  rfl

theorem utf8_ascii {s : String} (h : ∀ c ∈ s.toList, c.toNat ≤ 0x7F) :
    utf8 s = s.toList.map fun c => .ofNat c.toNat := by
  rw [utf8, List.map_eq_flatMap]
  refine List.flatMap_congr fun c hc => ?_
  rw [utf8EncodeChar_eq, encode, if_pos (h c hc)]

end Utf8
