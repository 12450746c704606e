import Mathlib.Algebra.Order.Ring.Nat
import Mathlib.Data.List.Perm.Basic
import Qwin.Library.Run

/-!
What passes through a run. A ledger has what the steps put in on one side, and on
the other what they took out and the stock that is left.
-/

set_option autoImplicit false

namespace Runs

section Lists
variable {α β : Type} {l : List α} {i : Nat} {a : α}

theorem flatMap_eraseIdx (h : l[i]? = some a) (f : α → List β) :
    (l.flatMap f).Perm (f a ++ (l.eraseIdx i).flatMap f) := by
  obtain ⟨hi, rfl⟩ := List.getElem?_eq_some_iff.mp h
  exact (List.getElem_cons_eraseIdx_perm hi).symm.flatMap_right f

theorem flatMap_set (h : l[i]? = some a) (b : α) (f : α → List β) :
    (f b ++ l.flatMap f).Perm (f a ++ (l.set i b).flatMap f) := by
  obtain ⟨hi, -⟩ := List.getElem?_eq_some_iff.mp h
  have hset : ((l.set i b).flatMap f).Perm (f b ++ (l.eraseIdx i).flatMap f) :=
    (List.set_perm_cons_eraseIdx hi b).flatMap_right f
  refine ((flatMap_eraseIdx h f).append_left _).trans ?_
  exact (List.perm_append_comm_assoc _ _ _).trans (hset.symm.append_left _)

theorem flatMap_append_perm (f g : α → List β) (l : List α) :
    (l.flatMap fun a => f a ++ g a).Perm (l.flatMap f ++ l.flatMap g) := by
  induction l with
  | nil => exact .refl _
  | cons a l ih =>
    simp only [List.flatMap_cons, List.append_assoc]
    refine .append_left _ (.trans (ih.append_left _) ?_)
    exact List.perm_append_comm_assoc _ _ _

theorem sum_eraseIdx (h : l[i]? = some a) (f : α → Nat) :
    f a + ((l.eraseIdx i).map f).sum = (l.map f).sum := by
  obtain ⟨hi, rfl⟩ := List.getElem?_eq_some_iff.mp h
  rw [← List.sum_cons, ← List.map_cons]
  exact ((List.getElem_cons_eraseIdx_perm hi).map f).sum_nat

theorem sum_set (h : l[i]? = some a) (b : α) (f : α → Nat) :
    f a + ((l.set i b).map f).sum = f b + (l.map f).sum := by
  obtain ⟨hi, -⟩ := List.getElem?_eq_some_iff.mp h
  have hset : ((l.set i b).map f).sum = f b + ((l.eraseIdx i).map f).sum :=
    ((List.set_perm_cons_eraseIdx hi b).map f).sum_nat
  have herase := sum_eraseIdx h f
  omega

theorem sum_map_ite (l : List α) (b : Bool) (f : α → Nat) :
    (l.map fun x => if b then f x else 0).sum = if b then (l.map f).sum else 0 := by
  cases b <;> simp

end Lists

variable {σ ι ο : Type} {step : σ → ι → Option (ο × σ)}

/-- Where each step takes out what it puts in and what there was, less what is
there afterwards, so does a run. -/
theorem IsRun.balance {α : Type} (put taken : Transition σ ι ο → List α) (stock : σ → List α)
    (hstep : ∀ t, step t.pre t.input = some (t.output, t.post) →
      (put t ++ stock t.pre).Perm (taken t ++ stock t.post))
    {s : σ} {tr : List (Transition σ ι ο)} (hrun : IsRun step s tr) :
    (tr.flatMap put ++ stock s).Perm (tr.flatMap taken ++ stock (final s tr)) := by
  induction tr generalizing s with
  | nil => exact .refl _
  | cons t ts ih =>
    obtain ⟨rfl, ht, hts⟩ := (isRun_cons s t ts).mp hrun
    rw [List.flatMap_cons, List.flatMap_cons, List.append_assoc, List.append_assoc]
    have hfirst : (ts.flatMap put ++ (put t ++ stock t.pre)).Perm
        (ts.flatMap put ++ (taken t ++ stock t.post)) := (hstep t ht).append_left _
    have hlater : (taken t ++ (ts.flatMap put ++ stock t.post)).Perm
        (taken t ++ (ts.flatMap taken ++ stock (final t.post ts))) := (ih hts).append_left _
    exact (List.perm_append_comm_assoc _ _ _).trans
      (hfirst.trans ((List.perm_append_comm_assoc _ _ _).trans hlater))

end Runs
