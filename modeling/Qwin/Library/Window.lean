import Mathlib.Data.List.Basic
import Mathlib.Tactic.Linarith
import Mathlib.Tactic.Ring

/-!
Events that come in bursts. Bursts stand newest first; each has a bounded size,
and any two are at least a fixed gap apart. No window then holds more than one
burst for each gap that fits in it, and one more.
-/

set_option autoImplicit false

namespace Windows

variable {α : Type} (time : α → Int)

def inWindow (lo hi : Int) (a : α) : Bool := lo ≤ time a ∧ time a ≤ hi

/-- Every event of the later burst is `gap` or more after every one of the earlier. -/
def Apart (gap : Int) (later earlier : List α) : Prop :=
  ∀ y ∈ later, ∀ x ∈ earlier, time x + gap ≤ time y

variable {time}

theorem filter_inWindow_shrink {gap lo hi : Int} {y : α} {bursts : List (List α)}
    (hpos : 0 < gap) (hy : time y ≤ hi) (hgap : ∀ b ∈ bursts, ∀ x ∈ b, time x + gap ≤ time y) :
    bursts.flatten.filter (inWindow time lo hi) =
      bursts.flatten.filter (inWindow time lo (hi - gap)) := by
  apply List.filter_congr
  intro x hx
  obtain ⟨b, hb, hxb⟩ := List.mem_flatten.mp hx
  have hle := hgap b hb x hxb
  by_cases hlo : lo ≤ time x
  · have hnear : time x ≤ hi := by omega
    have hfar : time x ≤ hi - gap := by omega
    simp [inWindow, hlo, hnear, hfar]
  · simp [inWindow, hlo]

theorem length_inWindow_le {gap bound lo hi : Int} (hgap : 0 < gap) (hbound : 0 ≤ bound)
    {bursts : List (List α)} (hsize : ∀ b ∈ bursts, (b.length : Int) ≤ bound)
    (hapart : bursts.Pairwise (Apart time gap)) (hle : lo ≤ hi) :
    ((bursts.flatten.filter (inWindow time lo hi)).length : Int) ≤
      bound * (1 + (hi - lo) / gap) := by
  induction bursts generalizing hi with
  | nil =>
    have hq : 0 ≤ (hi - lo) / gap := Int.ediv_nonneg (by omega) (by omega)
    simpa using mul_nonneg hbound (by omega)
  | cons b bursts ih =>
    obtain ⟨hb, hrest⟩ := List.forall_mem_cons.mp hsize
    obtain ⟨hfirst, hlater⟩ := List.pairwise_cons.mp hapart
    rw [List.flatten_cons, List.filter_append, List.length_append]
    cases hin : b.filter (inWindow time lo hi) with
    | nil => simpa using ih hrest hlater hle
    | cons y ys =>
      -- the newest burst meets the window, so the older ones end a gap before its end
      obtain ⟨hy, hwin⟩ := List.mem_filter.mp (hin ▸ List.mem_cons_self : y ∈ b.filter _)
      obtain ⟨hylo, hyhi⟩ : lo ≤ time y ∧ time y ≤ hi := by simpa [inWindow] using hwin
      have hlen : ((y :: ys).length : Int) ≤ bound := by
        have hsub := List.length_filter_le (inWindow time lo hi) b
        rw [hin] at hsub
        omega
      have hgaps : ∀ c ∈ bursts, ∀ x ∈ c, time x + gap ≤ time y :=
        fun c hc x hx => hfirst c hc y hy x hx
      rw [filter_inWindow_shrink hgap hyhi hgaps]
      push_cast
      by_cases hfit : lo ≤ hi - gap
      · have hrec := ih hrest hlater hfit
        have hdiv : (hi - gap - lo) / gap = (hi - lo) / gap - 1 := by
          have hsub : hi - gap - lo = hi - lo - 1 * gap := by ring
          rw [hsub, Int.sub_mul_ediv_right _ _ (by omega)]
        rw [hdiv] at hrec
        linarith [mul_add bound 1 ((hi - lo) / gap), mul_add bound 1 ((hi - lo) / gap - 1),
          mul_sub bound ((hi - lo) / gap) 1]
      · have hnone : bursts.flatten.filter (inWindow time lo (hi - gap)) = [] := by
          apply List.filter_eq_nil_iff.mpr
          intro x _ hx
          have hx' : lo ≤ time x ∧ time x ≤ hi - gap := by simpa [inWindow] using hx
          omega
        have hq : 0 ≤ (hi - lo) / gap := Int.ediv_nonneg (by omega) (by omega)
        have hmul : 0 ≤ bound * ((hi - lo) / gap) := mul_nonneg hbound hq
        rw [hnone, mul_add, mul_one]
        simpa using le_add_of_le_of_nonneg hlen hmul

end Windows
