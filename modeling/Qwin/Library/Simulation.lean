import Mathlib.Algebra.BigOperators.Group.List.Basic
import Mathlib.Algebra.Order.Ring.Nat
import Qwin.Library.Run

/-!
Runs seen from outside: a run of one system as a run of another one, what passes
through a run without being lost, and runs that cannot go on for ever.
-/

set_option autoImplicit false

namespace Runs

variable {σ ι ο σ' ι' ο' : Type} {step : σ → ι → Option (ο × σ)}
  {step' : σ' → ι' → Option (ο' × σ')}

/-- While `Inv` holds, a step of the one system is the step of the other one that
`view` makes of it, or, where `view` makes none of it, no step at all. -/
structure Simulates (step : σ → ι → Option (ο × σ)) (step' : σ' → ι' → Option (ο' × σ'))
    (Inv : σ → Prop) (proj : σ → σ') (view : Transition σ ι ο → Option (Transition σ' ι' ο')) :
    Prop where
  kept : ∀ t : Transition σ ι ο, Inv t.pre →
    step t.pre t.input = some (t.output, t.post) → Inv t.post
  silent : ∀ t : Transition σ ι ο, Inv t.pre →
    step t.pre t.input = some (t.output, t.post) → view t = none → proj t.post = proj t.pre
  visible : ∀ (t : Transition σ ι ο) u, Inv t.pre →
    step t.pre t.input = some (t.output, t.post) → view t = some u →
    u.pre = proj t.pre ∧ u.post = proj t.post ∧ step' u.pre u.input = some (u.output, u.post)

theorem Simulates.run {Inv : σ → Prop} {proj : σ → σ'}
    {view : Transition σ ι ο → Option (Transition σ' ι' ο')}
    (hsim : Simulates step step' Inv proj view) {s : σ} {tr : List (Transition σ ι ο)}
    (hrun : IsRun step s tr) (hinv : Inv s) :
    IsRun step' (proj s) (tr.filterMap view) ∧
      final (proj s) (tr.filterMap view) = proj (final s tr) := by
  induction tr generalizing s with
  | nil => exact ⟨trivial, rfl⟩
  | cons t ts ih =>
    obtain ⟨rfl, ht, hts⟩ := (isRun_cons s t ts).mp hrun
    obtain ⟨hrest, hfinal⟩ := ih hts (hsim.kept t hinv ht)
    cases hview : view t with
    | none =>
      rw [List.filterMap_cons_none hview, ← hsim.silent t hinv ht hview]
      exact ⟨hrest, hfinal⟩
    | some u =>
      obtain ⟨hpre, hpost, hstep⟩ := hsim.visible t u hinv ht hview
      rw [List.filterMap_cons_some hview]
      rw [← hpost] at hrest hfinal
      exact ⟨⟨hpre, hstep, hrest⟩, hfinal⟩

/-- In related states the two systems refuse the same inputs, and for the others
give the same output and go on to related states. -/
def Bisimulation (step : σ → ι → Option (ο × σ)) (step' : σ' → ι → Option (ο × σ'))
    (R : σ → σ' → Prop) : Prop :=
  ∀ s s' i, R s s' →
    step s i = none ∧ step' s' i = none ∨
      ∃ o u u', step s i = some (o, u) ∧ step' s' i = some (o, u') ∧ R u u'

theorem Bisimulation.trace {step' : σ' → ι → Option (ο × σ')} {R : σ → σ' → Prop}
    (hbisim : Bisimulation step step' R) {s : σ} {s' : σ'} (h : R s s') (is : List ι) :
    (trace step s is).map (·.output) = (Runs.trace step' s' is).map (·.output) ∧
      R (final s (Runs.trace step s is)) (final s' (Runs.trace step' s' is)) := by
  induction is generalizing s s' with
  | nil => exact ⟨rfl, h⟩
  | cons i is ih =>
    unfold Runs.trace
    rcases hbisim s s' i h with ⟨hnone, hnone'⟩ | ⟨o, u, u', hsome, hsome', hnext⟩
    · rw [hnone, hnone']
      exact ⟨rfl, h⟩
    · rw [hsome, hsome']
      obtain ⟨houtputs, hfinal⟩ := ih hnext
      exact ⟨by simp only [List.map_cons, houtputs], hfinal⟩

section Bounded
variable (potential : σ → Nat)

/-- Steps that pay from a potential what they cost cost no more than there was. -/
theorem IsRun.cost_le (cost : Transition σ ι ο → Nat) {s : σ} {tr : List (Transition σ ι ο)}
    (hrun : IsRun step s tr) (hpay : ∀ t ∈ tr, cost t + potential t.post ≤ potential t.pre) :
    (tr.map cost).sum + potential (final s tr) ≤ potential s := by
  induction tr generalizing s with
  | nil => simp [final]
  | cons t ts ih =>
    obtain ⟨rfl, -, hts⟩ := (isRun_cons s t ts).mp hrun
    obtain ⟨hpaid, hrest⟩ := List.forall_mem_cons.mp hpay
    have hlater := ih hts hrest
    simp only [final, List.map_cons, List.sum_cons]
    omega

theorem IsRun.length_le (hstep : ∀ t : Transition σ ι ο,
      step t.pre t.input = some (t.output, t.post) → potential t.post < potential t.pre)
    {s : σ} {tr : List (Transition σ ι ο)} (hrun : IsRun step s tr) :
    tr.length ≤ potential s := by
  have hcost := hrun.cost_le potential (fun _ => 1) fun t ht => by
    obtain ⟨-, -, -, -, -, hnext⟩ := hrun.split ht
    have hless := hstep t hnext
    omega
  rw [List.map_const', List.sum_replicate_nat, Nat.mul_one] at hcost
  omega

/-- Whatever happened so far, the system can be driven to where it accepts nothing. -/
theorem exists_last (hstep : ∀ t : Transition σ ι ο,
      step t.pre t.input = some (t.output, t.post) → potential t.post < potential t.pre) (s : σ) :
    ∃ tr, IsRun step s tr ∧ ∀ i, step (final s tr) i = none := by
  induction hn : potential s using Nat.strongRecOn generalizing s with
  | ind n ih =>
    by_cases hstuck : ∀ i, step s i = none
    · exact ⟨[], trivial, hstuck⟩
    · obtain ⟨i, hi⟩ := not_forall.mp hstuck
      obtain ⟨⟨o, s'⟩, hnext⟩ := Option.ne_none_iff_exists'.mp hi
      have hless := hstep ⟨s, i, o, s'⟩ hnext
      obtain ⟨tr, hrun, hlast⟩ := ih (potential s') (hn ▸ hless) s' rfl
      exact ⟨⟨s, i, o, s'⟩ :: tr, ⟨rfl, hnext, hrun⟩, hlast⟩

end Bounded

end Runs
