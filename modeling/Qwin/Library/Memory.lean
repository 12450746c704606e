import Mathlib.Data.List.Basic

/-! Copies into a buffer at an offset, for buffers of any kind of cell. -/

set_option autoImplicit false

namespace Memory

variable {α : Type}

/-- `memcpy(dest + offset, src, count)`, both inside their objects. -/
def memcpy (dest : List α) (offset : Nat) (src : List α) (count : Nat) : List α :=
  dest.take offset ++ src.take count ++ dest.drop (offset + count)

theorem memcpy_front (dest src : List α) :
    memcpy dest 0 src src.length = src ++ dest.drop src.length := by
  simp [memcpy]

theorem memcpy_adjacent (dest first second : List α) :
    memcpy (memcpy dest 0 first first.length) first.length second second.length =
      first ++ second ++ dest.drop (first.length + second.length) := by
  rw [memcpy_front, memcpy, List.take_left, List.take_length, List.drop_append,
    List.drop_eq_nil_of_le (by omega), List.nil_append, List.drop_drop]
  congr 2
  omega

end Memory
