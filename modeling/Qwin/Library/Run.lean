import Mathlib.Data.List.Induction

/-!
Runs of deterministic systems with a partial step. An input that the step
refuses is one the environment cannot offer in that state; a run is a list of
accepted transitions in which every state is the one the last step left.
-/

set_option autoImplicit false

namespace Runs

variable {σ ι ο : Type}

structure Transition (σ ι ο : Type) where
  pre : σ
  input : ι
  output : ο
  post : σ

def IsRun (step : σ → ι → Option (ο × σ)) : σ → List (Transition σ ι ο) → Prop
  | _, [] => True
  | s, t :: ts => t.pre = s ∧ step t.pre t.input = some (t.output, t.post) ∧ IsRun step t.post ts

def final : σ → List (Transition σ ι ο) → σ
  | s, [] => s
  | _, t :: ts => final t.post ts

/-- The run that a list of inputs drives, up to the first input refused. -/
def trace (step : σ → ι → Option (ο × σ)) : σ → List ι → List (Transition σ ι ο)
  | _, [] => []
  | s, i :: is =>
    match step s i with
    | none => []
    | some (o, s') => ⟨s, i, o, s'⟩ :: trace step s' is

variable {step : σ → ι → Option (ο × σ)}

theorem isRun_trace (s : σ) (is : List ι) : IsRun step s (trace step s is) := by
  induction is generalizing s with
  | nil => trivial
  | cons i is ih =>
    unfold trace
    split
    · trivial
    · rename_i o s' h
      exact ⟨rfl, h, ih s'⟩

@[simp] theorem final_append (s : σ) (xs ys : List (Transition σ ι ο)) :
    final s (xs ++ ys) = final (final s xs) ys := by
  induction xs generalizing s with
  | nil => rfl
  | cons t ts ih => simp [final, ih]

theorem isRun_append (s : σ) (xs ys : List (Transition σ ι ο)) :
    IsRun step s (xs ++ ys) ↔ IsRun step s xs ∧ IsRun step (final s xs) ys := by
  induction xs generalizing s with
  | nil => simp [IsRun, final]
  | cons t ts ih => simp [IsRun, final, ih, and_assoc]

theorem IsRun.upTo {s : σ} {hist tr : List (Transition σ ι ο)} (hrun : IsRun step s tr)
    (hpre : hist <+: tr) : IsRun step s hist := by
  obtain ⟨rest, rfl⟩ := hpre
  exact ((isRun_append s hist rest).mp hrun).1

theorem isRun_cons (s : σ) (t : Transition σ ι ο) (ts : List (Transition σ ι ο)) :
    IsRun step s (t :: ts) ↔
      t.pre = s ∧ step t.pre t.input = some (t.output, t.post) ∧ IsRun step t.post ts := Iff.rfl

theorem isRun_singleton (s : σ) (t : Transition σ ι ο) :
    IsRun step s [t] ↔ t.pre = s ∧ step t.pre t.input = some (t.output, t.post) := by
  simp [IsRun]

/-- What is true of an empty history, and stays true when an accepted step is
added to the history, is true of every run and the state it ends in. -/
theorem IsRun.history (Inv : List (Transition σ ι ο) → σ → Prop) {s : σ}
    {tr : List (Transition σ ι ο)} (hrun : IsRun step s tr) (h0 : Inv [] s)
    (hstep : ∀ hist t, Inv hist t.pre → step t.pre t.input = some (t.output, t.post) →
      Inv (hist ++ [t]) t.post) :
    Inv tr (final s tr) := by
  induction tr using List.reverseRecOn with
  | nil => exact h0
  | append_singleton ts t ih =>
    obtain ⟨hts, ht⟩ := (isRun_append s ts [t]).mp hrun
    obtain ⟨hpre, hnext⟩ := (isRun_singleton _ t).mp ht
    have hinv := ih hts
    rw [← hpre] at hinv
    simpa [final] using hstep ts t hinv hnext

/-- An invariant kept by every step that meets a condition holds at the end of
every run whose steps all meet it. -/
theorem IsRun.invariant (Inv : σ → Prop) (Ok : Transition σ ι ο → Prop) {s : σ}
    {tr : List (Transition σ ι ο)} (hrun : IsRun step s tr) (hok : ∀ t ∈ tr, Ok t) (h0 : Inv s)
    (hstep : ∀ t, Ok t → Inv t.pre → step t.pre t.input = some (t.output, t.post) →
      Inv t.post) :
    Inv (final s tr) := by
  refine hrun.history (fun hist s => (∀ t ∈ hist, Ok t) → Inv s) (fun _ => h0) ?_ hok
  intro hist t ih hnext hall
  exact hstep t (hall t (by simp)) (ih fun u hu => hall u (by simp [hu])) hnext

theorem IsRun.split {s : σ} {tr : List (Transition σ ι ο)} (hrun : IsRun step s tr)
    {t : Transition σ ι ο} (ht : t ∈ tr) :
    ∃ before after, tr = before ++ t :: after ∧ IsRun step s before ∧
      t.pre = final s before ∧ step t.pre t.input = some (t.output, t.post) := by
  obtain ⟨before, after, rfl⟩ := List.append_of_mem ht
  obtain ⟨hbefore, hrest⟩ := (isRun_append s before _).mp hrun
  exact ⟨before, after, rfl, hbefore, hrest.1, hrest.2.1⟩

end Runs
