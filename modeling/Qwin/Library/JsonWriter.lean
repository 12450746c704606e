import Qwin.Library.JsonText

/-!
One way to write strings, integers, arrays and objects as JSON texts.
-/

set_option autoImplicit false

namespace JsonText

open Decimals

def spaces (n : Nat) : Space :=
  ⟨List.replicate n 0x20, fun _ hb => List.eq_of_mem_replicate hb ▸ rfl⟩

/-- A new line and its indentation. -/
def newline (n : Nat) : Space where
  bytes := 0x0A :: (spaces n).bytes
  spaces := List.forall_mem_cons.mpr ⟨rfl, (spaces n).spaces⟩

/-! Strings -/

def Hex4.ofNat (n : Nat) : Hex4 :=
  ⟨⟨false, .ofNat 16 (n / 4096)⟩, ⟨false, .ofNat 16 (n / 256)⟩, ⟨false, .ofNat 16 (n / 16)⟩,
    ⟨false, .ofNat 16 n⟩⟩

theorem Hex4.value_ofNat {n : Nat} (h : n < 0x10000) : (Hex4.ofNat n).value = n := by
  simp only [Hex4.value, Hex4.ofNat, Fin.val_ofNat]
  omega

instance (c : Char) : Decidable (Plain c) :=
  inferInstanceAs (Decidable (0x20 ≤ c.toNat ∧ c.toNat ≠ 0x22 ∧ c.toNat ≠ 0x5C))

theorem toNat_lt_of_not_plain {c : Char} (h : ¬ Plain c) : c.toNat < 0x10000 := by
  unfold Plain at h
  omega

/-- As itself where that is allowed, and else as an escape. -/
def Piece.ofChar (c : Char) : Piece :=
  if h : Plain c then .plain c h
  else
    .unicode (.ofNat c.toNat) <| by
      rw [Hex4.value_ofNat (toNat_lt_of_not_plain h)]
      exact c.valid

theorem Piece.char_ofChar (c : Char) : (Piece.ofChar c).char = c := by
  unfold Piece.ofChar
  split
  · rfl
  · rename_i h
    rw [Piece.char, Hex4.value_ofNat (toNat_lt_of_not_plain h), Char.ofNat_toNat]

def quoted (s : String) : List Piece := s.toList.map .ofChar

theorem chars_quoted (s : String) : (quoted s).map Piece.char = s.toList := by
  rw [quoted, List.map_map]
  exact (List.map_congr_left fun c _ => Piece.char_ofChar c).trans (List.map_id _)

/-! Integers -/

theorem natDecimal_head {n : Nat} (h : (natDecimal n).head? = some 0x30) :
    natDecimal n = [0x30] := by
  induction n using Nat.strongRecOn with
  | ind n ih =>
    by_cases hn : n < 10
    · rw [natDecimal_of_lt hn] at h ⊢
      rw [Option.some.inj h]
    · rw [natDecimal_of_le (by omega)] at h
      have hne : natDecimal (n / 10) ≠ [] := List.length_pos_iff.mp (length_natDecimal_pos _)
      rw [List.head?_append_of_ne_nil _ hne] at h
      have hvalue := foldl_natDecimal (n / 10)
      rw [ih (n / 10) (by omega) h] at hvalue
      have hzero : 0 = n / 10 := hvalue
      omega

def Number.ofInt (z : Int) : Number where
  minus := z < 0
  int := ⟨natDecimal z.natAbs, List.length_pos_iff.mp (length_natDecimal_pos _),
    fun _ => isDigit_of_mem_natDecimal⟩
  noLeadingZero := natDecimal_head
  fraction := none
  exponent := none

theorem Number.integer_ofInt (z : Int) : (Number.ofInt z).integer = z := by
  have hvalue : (Number.ofInt z).integer =
      if decide (z < 0) then -(z.natAbs : Int) else (z.natAbs : Int) := by
    unfold Number.integer Number.ofInt
    rw [foldl_natDecimal]
  rw [hvalue]
  split <;> simp only [decide_eq_true_eq] at * <;> omega

/-! Arrays of scalars on one line, and objects -/

def Items.ofScalars : List Scalar → Items
  | [] => .close (spaces 0)
  | item :: items => .comma (spaces 0) (.leaf (spaces 1) item) (ofScalars items)

def Tree.ofScalars (before : Space) : List Scalar → Tree
  | [] => .emptyArray before (spaces 0)
  | item :: items => .array before (.leaf (spaces 0) item) (.ofScalars items)

theorem Items.numbers_ofScalars (items : List Scalar) :
    (Items.ofScalars items).numbers =
      items.flatMap fun item => (Tree.leaf (spaces 1) item).numbers := by
  induction items with
  | nil => rfl
  | cons item items ih => rw [Items.ofScalars, Items.numbers, ih, List.flatMap_cons]

theorem Tree.numbers_ofScalars (before : Space) (items : List Scalar) :
    (Tree.ofScalars before items).numbers =
      items.flatMap fun item => (Tree.leaf (spaces 1) item).numbers := by
  cases items with
  | nil => rfl
  | cons item items =>
    rw [Tree.ofScalars, Tree.numbers, Items.numbers_ofScalars, List.flatMap_cons]
    cases item <;> rfl

def Key.ofString (before : Space) (s : String) : Key := ⟨before, quoted s, spaces 0⟩

def Members.ofPairs (before close : Space) : List (String × Tree) → Members
  | [] => .close close
  | (key, value) :: pairs =>
    .comma (spaces 0) (.ofString before key) value (ofPairs before close pairs)

def Tree.ofPairs (before close : Space) : List (String × Tree) → Tree
  | [] => .emptyObject (spaces 0) close
  | (key, value) :: pairs =>
    .object (spaces 0) (.ofString before key) value (.ofPairs before close pairs)

theorem Members.numbers_ofPairs (before close : Space) (pairs : List (String × Tree)) :
    (Members.ofPairs before close pairs).numbers = pairs.flatMap fun pair => pair.2.numbers := by
  induction pairs with
  | nil => rfl
  | cons pair pairs ih => rw [Members.ofPairs, Members.numbers, ih, List.flatMap_cons]

theorem Tree.numbers_ofPairs (before close : Space) (pairs : List (String × Tree)) :
    (Tree.ofPairs before close pairs).numbers = pairs.flatMap fun pair => pair.2.numbers := by
  cases pairs with
  | nil => rfl
  | cons pair pairs =>
    rw [Tree.ofPairs, Tree.numbers, Members.numbers_ofPairs, List.flatMap_cons]

end JsonText
