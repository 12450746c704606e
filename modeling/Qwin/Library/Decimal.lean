import Mathlib.Data.List.Basic
import Mathlib.Tactic.IntervalCases

/-!
Integers in decimal as byte strings, with a minus sign and no leading zeros: how
such texts are read, and how they come apart when more is written beside them.
-/

set_option autoImplicit false

namespace Decimals

def digit (d : Nat) : UInt8 := .ofNat (48 + d)
def minus : UInt8 := 45
def isDigit (b : UInt8) : Bool := 48 ≤ b && b ≤ 57

def natDecimal (n : Nat) : List UInt8 := (Nat.toDigits 10 n).map fun c => .ofNat c.toNat

def decimal (z : Int) : List UInt8 :=
  if z < 0 then minus :: natDecimal z.natAbs else natDecimal z.natAbs

theorem isDigit_digit {d : Nat} (h : d < 10) : isDigit (digit d) = true := by
  interval_cases d <;> rfl

theorem digit_inj {d e : Nat} (hd : d < 10) (he : e < 10) (h : digit d = digit e) : d = e := by
  have hval := congrArg UInt8.toNat h
  simp only [digit, UInt8.toNat_ofNat'] at hval
  omega

theorem natDecimal_of_lt {n : Nat} (h : n < 10) : natDecimal n = [digit n] := by
  interval_cases n <;> rfl

theorem natDecimal_of_le {n : Nat} (h : 10 ≤ n) :
    natDecimal n = natDecimal (n / 10) ++ [digit (n % 10)] := by
  have hlast := natDecimal_of_lt (Nat.mod_lt n (by decide : 10 > 0))
  rw [← hlast]
  unfold natDecimal
  rw [Nat.toDigits_of_base_le (by decide) h, List.map_append,
    Nat.toDigits_of_lt_base (Nat.mod_lt n (by decide))]

theorem isDigit_of_mem_natDecimal {n : Nat} {b : UInt8} (h : b ∈ natDecimal n) :
    isDigit b = true := by
  induction n using Nat.strongRecOn with
  | ind n ih =>
    by_cases hn : n < 10
    · rw [natDecimal_of_lt hn, List.mem_singleton] at h
      rw [h]
      exact isDigit_digit hn
    · rw [natDecimal_of_le (by omega), List.mem_append, List.mem_singleton] at h
      rcases h with h | rfl
      · exact ih (n / 10) (by omega) h
      · exact isDigit_digit (by omega)

theorem length_natDecimal_pos (n : Nat) : 0 < (natDecimal n).length := by
  rw [natDecimal, List.length_map]
  exact Nat.length_toDigits_pos

theorem length_natDecimal_eq_one {n : Nat} : (natDecimal n).length = 1 ↔ n < 10 := by
  constructor
  · intro h
    by_contra hn
    rw [natDecimal_of_le (by omega), List.length_append] at h
    have hpos := length_natDecimal_pos (n / 10)
    simp only [List.length_singleton] at h
    omega
  · intro h
    rw [natDecimal_of_lt h]
    rfl

theorem decimal_of_small {z : Int} (h : z.natAbs < 10) :
    decimal z = if z < 0 then [minus, digit z.natAbs] else [digit z.natAbs] := by
  unfold decimal
  rw [natDecimal_of_lt h]

theorem decimal_split {z : Int} (h : 10 ≤ z.natAbs) :
    decimal z = decimal (z.tdiv 10) ++ decimal ((z.natAbs % 10 : Nat) : Int) := by
  have habs : (z.tdiv 10).natAbs = z.natAbs / 10 := Int.natAbs_tdiv z 10
  have hlast : decimal ((z.natAbs % 10 : Nat) : Int) = [digit (z.natAbs % 10)] := by
    rw [decimal_of_small (by omega), if_neg (by omega), Int.natAbs_natCast]
  rw [hlast]
  unfold decimal
  rw [habs, natDecimal_of_le h]
  by_cases hneg : z < 0
  · have hnonpos : 0 ≤ (-z).tdiv 10 := Int.tdiv_nonneg (by omega) (by decide)
    rw [Int.neg_tdiv] at hnonpos
    rw [if_pos hneg, if_pos (by omega), List.cons_append]
  · have hnonneg : 0 ≤ z.tdiv 10 := Int.tdiv_nonneg (by omega) (by decide)
    rw [if_neg hneg, if_neg (by omega)]

theorem decimal_ne_nil (z : Int) : decimal z ≠ [] := by
  intro h
  have hpos := length_natDecimal_pos z.natAbs
  unfold decimal at h
  split at h
  · cases h
  · rw [h] at hpos
    cases hpos

/-- Besides digits there is only the sign in a decimal. -/
theorem notMem_decimal {b : UInt8} (hdigit : isDigit b = false) (hminus : b ≠ minus) (z : Int) :
    b ∉ decimal z := by
  intro h
  have hmem : b ∈ natDecimal z.natAbs := by
    unfold decimal at h
    split at h
    · exact (List.mem_cons.mp h).resolve_left hminus
    · exact h
  rw [isDigit_of_mem_natDecimal hmem] at hdigit
  cases hdigit

theorem zero_notMem_decimal (z : Int) : 0 ∉ decimal z :=
  notMem_decimal (by decide) (by decide) z

theorem countP_decimal (z : Int) :
    (decimal z).countP isDigit = (natDecimal z.natAbs).length := by
  have hall : (natDecimal z.natAbs).countP isDigit = (natDecimal z.natAbs).length :=
    List.countP_eq_length.mpr fun b hb => isDigit_of_mem_natDecimal hb
  unfold decimal
  split
  · rw [List.countP_cons_of_neg (by decide), hall]
  · exact hall

/-- A text of one digit ends where that digit does, whatever follows. -/
theorem decimal_append_cancel {z w : Int} (hz : z.natAbs < 10) (hw : w.natAbs < 10)
    {s t : List UInt8} (h : decimal z ++ s = decimal w ++ t) : z = w ∧ s = t := by
  have hminus : ∀ {d : Nat}, d < 10 → minus ≠ digit d := by
    intro d hd heq
    have hdigit := isDigit_digit hd
    rw [← heq] at hdigit
    revert hdigit
    decide
  rw [decimal_of_small hz, decimal_of_small hw] at h
  by_cases hzneg : z < 0 <;> by_cases hwneg : w < 0 <;>
    simp only [hzneg, hwneg, if_true, if_false, List.cons_append, List.nil_append,
      List.cons.injEq] at h
  · obtain ⟨-, hdigit, hrest⟩ := h
    have habs := digit_inj hz hw hdigit
    exact ⟨by omega, hrest⟩
  · exact absurd h.1 (hminus hw)
  · exact absurd h.1.symm (hminus hz)
  · obtain ⟨hdigit, hrest⟩ := h
    have habs := digit_inj hz hw hdigit
    exact ⟨by omega, hrest⟩

/-- The number that a text of digits stands for, leading zeros allowed. -/
def readDigits (text : List UInt8) : Option Nat :=
  if text ≠ [] ∧ text.all isDigit then
    some (text.foldl (fun n b => 10 * n + (b.toNat - 48)) 0)
  else none

def readDecimal : List UInt8 → Option Int
  | [] => none
  | b :: text =>
    if b = minus then (readDigits text).map fun n : Nat => -(n : Int)
    else (readDigits (b :: text)).map fun n : Nat => (n : Int)

theorem toNat_digit {d : Nat} (h : d < 10) : (digit d).toNat - 48 = d := by
  interval_cases d <;> rfl

theorem foldl_natDecimal (n : Nat) :
    (natDecimal n).foldl (fun n b => 10 * n + (b.toNat - 48)) 0 = n := by
  induction n using Nat.strongRecOn with
  | ind n ih =>
    by_cases hn : n < 10
    · rw [natDecimal_of_lt hn, List.foldl_cons, List.foldl_nil, toNat_digit hn]
      omega
    · rw [natDecimal_of_le (by omega), List.foldl_append, ih (n / 10) (by omega), List.foldl_cons,
        List.foldl_nil, toNat_digit (Nat.mod_lt n (by decide))]
      omega

theorem readDigits_natDecimal (n : Nat) : readDigits (natDecimal n) = some n := by
  have hne : natDecimal n ≠ [] := List.length_pos_iff.mp (length_natDecimal_pos n)
  have hall : (natDecimal n).all isDigit = true :=
    List.all_eq_true.mpr fun b hb => isDigit_of_mem_natDecimal hb
  rw [readDigits, if_pos ⟨hne, hall⟩, foldl_natDecimal]

theorem readDecimal_of_digit {b : UInt8} {text : List UInt8} (h : isDigit b = true) :
    readDecimal (b :: text) = (readDigits (b :: text)).map fun n : Nat => (n : Int) := by
  refine if_neg ?_
  rintro rfl
  revert h
  decide

theorem readDecimal_decimal (z : Int) : readDecimal (decimal z) = some z := by
  unfold decimal
  split
  · rw [readDecimal, if_pos rfl, readDigits_natDecimal, Option.map_some]
    congr 1
    omega
  · have hread := readDigits_natDecimal z.natAbs
    cases htext : natDecimal z.natAbs with
    | nil =>
      rw [htext] at hread
      cases hread
    | cons b text =>
      have hdigit : isDigit b = true := isDigit_of_mem_natDecimal (htext ▸ List.mem_cons_self)
      rw [readDecimal_of_digit hdigit, ← htext, hread, Option.map_some]
      congr 1
      omega

/-- What stands before and after the last `separator`. -/
def splitLast (separator : UInt8) : List UInt8 → Option (List UInt8 × List UInt8)
  | [] => none
  | b :: text =>
    match splitLast separator text with
    | some (front, back) => some (b :: front, back)
    | none => if b = separator then some ([], text) else none

theorem splitLast_of_notMem {separator : UInt8} {text : List UInt8} (h : separator ∉ text) :
    splitLast separator text = none := by
  induction text with
  | nil => rfl
  | cons b text ih =>
    rw [List.mem_cons, not_or] at h
    rw [splitLast, ih h.2]
    exact if_neg fun heq => h.1 heq.symm

theorem splitLast_append {separator : UInt8} (front : List UInt8) {back : List UInt8}
    (h : separator ∉ back) :
    splitLast separator (front ++ separator :: back) = some (front, back) := by
  induction front with
  | nil =>
    rw [List.nil_append, splitLast, splitLast_of_notMem h]
    exact if_pos rfl
  | cons b front ih => rw [List.cons_append, splitLast, ih]

end Decimals
