import Mathlib.Data.List.Basic

/-!
The loop that erases from a container while it iterates over it. Erasing hands
back the position of the item that follows; the others keep their order.
-/

set_option autoImplicit false

namespace Sweeping

variable {α : Type}

/-- `examined` is ghost: the items whose test was evaluated, in that order. -/
structure Sweep (α : Type) where
  table : List α
  it : Nat
  examined : List α
  deriving DecidableEq, Repr

def Sweep.loop (stale : α → Bool) (s : Sweep α) : Sweep α :=
  if h : s.it < s.table.length then
    let item := s.table[s.it]
    if stale item then
      loop stale ⟨s.table.eraseIdx s.it, s.it, s.examined ++ [item]⟩
    else
      loop stale ⟨s.table, s.it + 1, s.examined ++ [item]⟩
  else s
termination_by s.table.length - s.it
decreasing_by
  · simp only [List.length_eraseIdx, h, if_true]
    omega
  · omega

def sweep (stale : α → Bool) (table : List α) : Sweep α := Sweep.loop stale ⟨table, 0, []⟩

/-- What lies before the iterator stays; of the rest the items that are not stale
stay, and each was examined. -/
theorem loop_eq (stale : α → Bool) (kept rest seen : List α) :
    Sweep.loop stale ⟨kept ++ rest, kept.length, seen⟩ =
      ⟨kept ++ rest.filter (!stale ·), (kept ++ rest.filter (!stale ·)).length, seen ++ rest⟩ := by
  induction rest generalizing kept seen with
  | nil =>
    unfold Sweep.loop
    simp
  | cons item rest ih =>
    have hlt : kept.length < (kept ++ item :: rest).length := by simp
    have hitem : (kept ++ item :: rest)[kept.length] = item := by simp
    unfold Sweep.loop
    rw [dif_pos hlt]
    dsimp only
    rw [hitem]
    cases hstale : stale item with
    | true =>
      have herase : (kept ++ item :: rest).eraseIdx kept.length = kept ++ rest := by
        rw [List.eraseIdx_append_of_length_le (Nat.le_refl _), Nat.sub_self, List.eraseIdx_zero,
          List.tail_cons]
      rw [if_pos rfl, herase, ih, List.filter_cons_of_neg (by simp [hstale])]
      simp
    | false =>
      have hnext := ih (kept ++ [item]) (seen ++ [item])
      simp only [List.append_assoc, List.singleton_append, List.length_append,
        List.length_singleton] at hnext
      rw [if_neg (by simp), hnext, List.filter_cons_of_pos (by simp [hstale])]
      simp

theorem sweep_eq (stale : α → Bool) (table : List α) :
    sweep stale table =
      ⟨table.filter (!stale ·), (table.filter (!stale ·)).length, table⟩ :=
  loop_eq stale [] table []

end Sweeping
