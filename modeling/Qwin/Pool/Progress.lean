import Qwin.Library.Simulation
import Qwin.Pool.LostWork

/-!
The pool always comes to its end: no thread waits for work that nobody will post,
and the number of steps is bounded, so that the `run()` of `main` returns.
-/

set_option autoImplicit false

namespace Qwin
open Runs

variable {η : Type}

/-- Where a thread loops, there is work, or somebody has stopped the scheduler or
is about to. -/
def Live (c : Scheduler η) (threads : List (RunState η)) : Prop :=
  .looping ∈ threads →
    c.stopped = true ∨ (∃ pc ∈ threads, pc.stops = true) ∨ c.outstandingWork ≠ 0

section Threads
variable {c c' : Scheduler η} {pc pc' : RunState η} {others threads threads' : List (RunState η)}
  {out : Option η}

theorem Live.reorder (h : Live c threads) (hperm : threads.Perm threads') : Live c threads' := by
  intro hlooping
  rcases h (hperm.mem_iff.mpr hlooping) with hstopped | ⟨pc, hpc, hstops⟩ | hwork
  · exact .inl hstopped
  · exact .inr (.inl ⟨pc, hperm.mem_iff.mp hpc, hstops⟩)
  · exact .inr (.inr hwork)

/-- A thread that was not about to stop changes its place on an unchanged scheduler. -/
theorem Live.move (h : Live c (pc :: others)) (hpc : pc.stops = false)
    (hlooping : pc' = .looping → pc = .looping ∨ c.outstandingWork ≠ 0) :
    Live c (pc' :: others) := by
  intro hmem
  have hbefore : .looping ∈ pc :: others → c.stopped = true ∨
      (∃ pc ∈ pc' :: others, pc.stops = true) ∨ c.outstandingWork ≠ 0 := by
    intro hold
    rcases h hold with hstopped | ⟨pc₁, hpc₁, hstops⟩ | hwork
    · exact .inl hstopped
    · rcases List.mem_cons.mp hpc₁ with rfl | hother
      · rw [hpc] at hstops
        cases hstops
      · exact .inr (.inl ⟨pc₁, List.mem_cons_of_mem _ hother, hstops⟩)
    · exact .inr (.inr hwork)
  rcases List.mem_cons.mp hmem with hself | hother
  · rcases hlooping hself.symm with rfl | hwork
    · exact hbefore List.mem_cons_self
    · exact .inr (.inr hwork)
  · exact hbefore (List.mem_cons_of_mem _ hother)

theorem Live.runStep (h : Live c (pc :: others)) (hrun : c.runStep pc = some (out, pc', c')) :
    Live c' (pc' :: others) := by
  unfold Scheduler.runStep at hrun
  cases pc with
  | entering =>
    dsimp only at hrun
    split at hrun
    · cases hrun
      exact h.move rfl nofun
    · rename_i hwork
      cases hrun
      exact h.move rfl fun _ => .inr hwork
  | stopping | stoppingLast =>
    cases hrun
    exact fun _ => .inl rfl
  | looping =>
    dsimp only at hrun
    split at hrun
    · cases hrun
      exact h.move rfl nofun
    · split at hrun
      · cases hrun
      · cases hrun
        exact h.move rfl nofun
  | executing handler =>
    cases hrun
    exact h.move rfl nofun
  | finishing =>
    dsimp only at hrun
    split at hrun
    · cases hrun
      exact fun _ => .inr (.inl ⟨_, List.mem_cons_self, rfl⟩)
    · rename_i hwork
      cases hrun
      exact fun _ => .inr (.inr hwork)
  | returned => cases hrun

/-- The threads that cannot go on have returned, or wait for work. -/
theorem runStep_none (h : c.runStep pc = none) :
    pc = .returned ∨ pc = .looping ∧ c.stopped = false ∧ c.opQueue = [] := by
  unfold Scheduler.runStep at h
  cases pc with
  | returned => exact .inl rfl
  | looping =>
    dsimp only at h
    split at h
    · cases h
    · rename_i hrunning
      split at h
      · rename_i hqueue
        exact .inr ⟨rfl, by simpa using hrunning, hqueue⟩
      · cases h
  | entering | finishing =>
    dsimp only at h
    split at h <;> cases h
  | stopping | stoppingLast | executing _ => cases h

theorem all_returned {handlers done unposted : List η}
    (hlive : Live c threads) (hconsistent : Consistent handlers done c 0 unposted threads)
    (hstuck : ∀ pc ∈ threads, c.runStep pc = none) : ∀ pc ∈ threads, pc = .returned := by
  intro pc hpc
  rcases runStep_none (hstuck pc hpc) with hreturned | ⟨rfl, hrunning, hqueue⟩
  · exact hreturned
  exfalso
  have hidle : ∀ pc ∈ threads, pc.stops = false ∧ pc.busy = false := by
    intro pc hpc
    rcases runStep_none (hstuck pc hpc) with rfl | ⟨rfl, -, -⟩ <;> exact ⟨rfl, rfl⟩
  rcases hlive hpc with hstopped | ⟨pc₁, hpc₁, hstops⟩ | hwork
  · rw [hrunning] at hstopped
    cases hstopped
  · rw [(hidle pc₁ hpc₁).1] at hstops
    cases hstops
  · have hbusy : threads.countP (·.busy) = 0 :=
      List.countP_eq_zero.mpr fun pc hpc => by simp [(hidle pc hpc).2]
    refine hwork ?_
    rw [hconsistent.work, hqueue, hbusy]
    rfl

end Threads

def ThreadPool.Live (s : ThreadPool η) : Prop := Qwin.Live s.scheduler s.threads

theorem live_start (threadsCount : Nat) (handlers : List η) :
    (ThreadPool.start threadsCount handlers).Live := by
  intro hlooping
  cases entering_of_start threadsCount handlers _ hlooping

theorem live_step {handlers done : List η} {t : PoolStep η} (h : t.pre.Live)
    (hconsistent : t.pre.Consistent handlers done)
    (ht : t.pre.step t.input = some (t.output, t.post)) : t.post.Live := by
  unfold ThreadPool.Live ThreadPool.threads at h ⊢
  cases pool_effect ht with
  | enters hmain _ hpost =>
    rw [hmain] at h
    rw [hpost]
    intro hlooping
    rcases h (by simpa [MainState.threads] using hlooping) with hstopped | ⟨pc, hpc, hstops⟩ | hwork
    · exact .inl hstopped
    · exact .inr (.inl ⟨pc, List.mem_cons_of_mem _ hpc, hstops⟩)
    · exact .inr (.inr hwork)
  | posts handler rest _ hmain _ hpost =>
    have hwork := hconsistent.work
    rw [hpost]
    refine fun _ => .inr (.inr ?_)
    dsimp only
    omega
  | pushes handler rest hmain _ hpost =>
    rw [hmain] at h
    rw [hpost]
    exact h
  | runs pc pc' others _ hpre hpost hrun =>
    exact ((h.reorder hpre).runStep hrun).reorder hpost.symm

/-- The steps a thread still has to make before it returns, unless it takes a handler. -/
def RunState.stepsLeft : RunState η → Nat
  | .entering => 2
  | .stopping => 1
  | .looping => 1
  | .executing _ => 4
  | .finishing => 3
  | .stoppingLast => 2
  | .returned => 0

/-- A handler costs its post and its push, and four steps in the queue. -/
def MainState.stepsLeft : MainState η → Nat
  | .posting rest => 6 * rest.length + 3
  | .pushing _ rest => 6 * rest.length + 8
  | .running _ => 0

def ThreadPool.stepsLeft (s : ThreadPool η) : Nat :=
  s.main.stepsLeft + 4 * s.scheduler.opQueue.length + (s.threads.map RunState.stepsLeft).sum

theorem runStep_stepsLeft {c c' : Scheduler η} {pc pc' : RunState η} {out : Option η}
    (hrun : c.runStep pc = some (out, pc', c')) :
    pc'.stepsLeft + 4 * c'.opQueue.length < pc.stepsLeft + 4 * c.opQueue.length := by
  unfold Scheduler.runStep at hrun
  cases pc with
  | entering | finishing =>
    dsimp only at hrun
    split at hrun <;> cases hrun <;> simp [RunState.stepsLeft]
  | looping =>
    dsimp only at hrun
    split at hrun
    · cases hrun
      simp [RunState.stepsLeft]
    · split at hrun
      · cases hrun
      · rename_i hqueue
        cases hrun
        simp only [RunState.stepsLeft, hqueue, List.length_cons]
        omega
  | stopping | stoppingLast | executing _ =>
    cases hrun
    simp [RunState.stepsLeft]
  | returned => cases hrun

theorem step_stepsLeft {t : PoolStep η} (ht : t.pre.step t.input = some (t.output, t.post)) :
    t.post.stepsLeft < t.pre.stepsLeft := by
  unfold ThreadPool.stepsLeft
  cases pool_effect ht with
  | enters hmain _ hpost | posts handler rest _ hmain _ hpost
  | pushes handler rest hmain _ hpost =>
    rw [hpost, ThreadPool.threads, ThreadPool.threads, hmain]
    simp only [MainState.stepsLeft, MainState.threads, RunState.stepsLeft, List.length_cons,
      List.length_append, List.length_nil, List.nil_append, List.cons_append, List.map_cons,
      List.sum_cons]
    omega
  | runs pc pc' others hmain hpre hpost hrun =>
    have hless := runStep_stepsLeft hrun
    have hmain' : t.post.main.stepsLeft = t.pre.main.stepsLeft := by
      rcases hmain with hsame | ⟨hbefore, hafter⟩
      · rw [hsame]
      · rw [hbefore, hafter]
        rfl
    rw [hmain', (hpre.map RunState.stepsLeft).sum_nat, (hpost.map RunState.stepsLeft).sum_nat]
    simp only [List.map_cons, List.sum_cons]
    omega

def ThreadPool.Returned (s : ThreadPool η) : Prop :=
  s.main = .running .returned ∧ ∀ pc ∈ s.workers, pc = .returned

/-- The end of a pool that was given these handlers, seen from some point of a run. -/
structure Ends (threadsCount : Nat) (handlers : List η) (tr : List (PoolStep η)) : Prop where
  steps : tr.length ≤ 2 * threadsCount + 6 * handlers.length + 3
  over_iff : (∀ thread, (final (.start threadsCount handlers) tr).step thread = none) ↔
    (final (.start threadsCount handlers) tr).Returned
  ends : ∃ rest, IsRun ThreadPool.step (final (.start threadsCount handlers) tr) rest ∧
    (final (final (.start threadsCount handlers) tr) rest).Returned

section Runs
variable {threadsCount : Nat} {handlers : List η} {tr : List (PoolStep η)}

theorem live_run (hrun : IsRun ThreadPool.step (.start threadsCount handlers) tr) :
    (final (.start threadsCount handlers) tr).Live := by
  refine (hrun.history (fun hist s => s.Consistent handlers (executed hist) ∧ s.Live)
    ⟨consistent_start threadsCount handlers, live_start threadsCount handlers⟩ ?_).2
  rintro hist t ⟨hconsistent, hlive⟩ ht
  rw [executed_append]
  exact ⟨consistent_step hconsistent ht, live_step hlive hconsistent ht⟩

theorem pool_stuck_iff (hrun : IsRun ThreadPool.step (.start threadsCount handlers) tr) :
    (∀ thread, (final (.start threadsCount handlers) tr).step thread = none) ↔
      (final (.start threadsCount handlers) tr).Returned := by
  have hlive := live_run hrun
  have hconsistent := consistent_run hrun
  generalize final (.start threadsCount handlers) tr = s at hlive hconsistent ⊢
  obtain ⟨c, workers, main⟩ := s
  constructor
  · intro hstuck
    have hmain := hstuck .main
    have hworker : ∀ pc ∈ workers, c.runStep pc = none := by
      intro pc hpc
      obtain ⟨i, hi⟩ := List.mem_iff_getElem?.mp hpc
      have hnext := hstuck (.worker i)
      simpa [ThreadPool.step, hi] using hnext
    cases main with
    | posting rest => cases rest <;> cases hmain
    | pushing handler rest => cases hmain
    | running pc =>
      have hpc : c.runStep pc = none := by simpa [ThreadPool.step] using hmain
      have hall := all_returned hlive hconsistent (List.forall_mem_cons.mpr ⟨hpc, hworker⟩)
      obtain ⟨hself, hothers⟩ := List.forall_mem_cons.mp hall
      exact ⟨congrArg MainState.running hself, hothers⟩
  · rintro ⟨hmain, hworkers⟩ thread
    dsimp only at hmain hworkers
    cases thread with
    | main => simp [ThreadPool.step, hmain, Scheduler.runStep]
    | worker i =>
      unfold ThreadPool.step
      dsimp only
      split
      · rfl
      · rename_i pc hi
        rw [hworkers pc (List.mem_of_getElem? hi)]
        rfl

theorem stepsLeft_start (threadsCount : Nat) (handlers : List η) :
    (ThreadPool.start threadsCount handlers).stepsLeft =
      2 * threadsCount + 6 * handlers.length + 3 := by
  simp only [ThreadPool.stepsLeft, ThreadPool.start, ThreadPool.threads, MainState.threads,
    MainState.stepsLeft, List.nil_append, List.map_replicate, List.sum_replicate_nat,
    RunState.stepsLeft, List.length_nil]
  omega

/-- Whatever the order of the steps, the pool makes a bounded number of them; where
none is possible all threads have returned, and there it can always get. -/
theorem pool_ends (hrun : IsRun ThreadPool.step (.start threadsCount handlers) tr) :
    Ends threadsCount handlers tr := by
  have hless : ∀ t : PoolStep η, t.pre.step t.input = some (t.output, t.post) →
      t.post.stepsLeft < t.pre.stepsLeft := fun t ht => step_stepsLeft ht
  refine ⟨?_, pool_stuck_iff hrun, ?_⟩
  · rw [← stepsLeft_start]
    exact hrun.length_le _ hless
  · obtain ⟨rest, hrest, hlast⟩ := exists_last _ hless (final (.start threadsCount handlers) tr)
    refine ⟨rest, hrest, ?_⟩
    rw [← final_append] at hlast ⊢
    exact (pool_stuck_iff ((isRun_append _ _ _).mpr ⟨hrun, hrest⟩)).mp hlast

end Runs

theorem pool_ends_first_lost : workerFirst.length = 7 ∧ Ends 1 [7] workerFirst :=
  ⟨by decide, pool_ends (isRun_trace _ _)⟩

end Qwin
