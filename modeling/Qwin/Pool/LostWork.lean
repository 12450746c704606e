import Mathlib.Data.List.Perm.Basic
import Qwin.Pool.Model

/-!
When a pool executes all that is posted to it. Nothing restarts a scheduler that
was stopped, so every post has to come before any thread finds no work.
-/

set_option autoImplicit false

namespace Qwin
open Runs

variable {η : Type}

/-- The thread has found the outstanding work at zero and is about to call `stop()`. -/
def RunState.stops : RunState η → Bool
  | .stopping | .stoppingLast => true
  | _ => false

/-- The thread has taken a handler whose work is not yet finished. -/
def RunState.busy : RunState η → Bool
  | .executing _ | .finishing => true
  | _ => false

def RunState.held : RunState η → List η
  | .executing handler => [handler]
  | _ => []

def MainState.threads : MainState η → List (RunState η)
  | .running pc => [pc]
  | _ => []

def ThreadPool.threads (s : ThreadPool η) : List (RunState η) := s.main.threads ++ s.workers

/-- The scheduler is stopped or about to be. -/
def ThreadPool.Ending (s : ThreadPool η) : Prop :=
  s.scheduler.stopped = true ∨ ∃ pc ∈ s.threads, pc.stops = true

def MainState.posts : MainState η → Bool
  | .posting (_ :: _) => true
  | _ => false

/-- No post begins in this step, or it begins before anything ends. -/
def PostsInTime (t : PoolStep η) : Prop :=
  t.input = .main → t.pre.main.posts = true → ¬ t.pre.Ending

instance (s : ThreadPool η) : Decidable s.Ending := inferInstanceAs (Decidable (_ ∨ _))

instance (t : PoolStep η) : Decidable (PostsInTime t) := inferInstanceAs (Decidable (_ → _ → _))

/-- The work of a post that has not been pushed yet. -/
def MainState.owed : MainState η → Nat
  | .pushing _ _ => 1
  | _ => 0

def MainState.unposted : MainState η → List η
  | .posting rest => rest
  | .pushing handler rest => handler :: rest
  | .running _ => []

/-- The work counter counts what is posted and not finished, and no handler is
lost or doubled on its way from `main` to its execution. -/
structure Consistent (handlers done : List η) (c : Scheduler η) (owed : Nat) (unposted : List η)
    (threads : List (RunState η)) : Prop where
  work : c.outstandingWork = owed + c.opQueue.length + threads.countP (·.busy)
  kept : (done ++ (threads.flatMap (·.held) ++ (c.opQueue ++ unposted))).Perm handlers
  returned : .returned ∈ threads → c.stopped = true

/-- Nothing ends before the work is done. -/
def Settled (c : Scheduler η) (threads : List (RunState η)) : Prop :=
  (c.stopped = true ∨ ∃ pc ∈ threads, pc.stops = true) → c.outstandingWork = 0

/-- Everything one step of `run` can do. -/
inductive RunEffect (c : Scheduler η) (pc : RunState η) :
    Option η → RunState η → Scheduler η → Prop where
  | moves (pc' : RunState η) (hbusy : pc'.busy = pc.busy) (hheld : pc'.held = pc.held)
      (hstops : pc'.stops = true → c.outstandingWork = 0)
      (hreturned : pc' = .returned → c.stopped = true) : RunEffect c pc none pc' c
  | stops (pc' : RunState η) (hpc : pc.stops = true) (hbusy : pc'.busy = pc.busy)
      (hheld : pc'.held = pc.held) : RunEffect c pc none pc' { c with stopped := true }
  | takes (handler : η) (rest : List η) (hpc : pc = .looping) (hrunning : c.stopped = false)
      (hqueue : c.opQueue = handler :: rest) :
      RunEffect c pc none (.executing handler) { c with opQueue := rest }
  | executes (handler : η) (hpc : pc = .executing handler) :
      RunEffect c pc (some handler) .finishing c
  | finishes (pc' : RunState η) (hpc : pc = .finishing) (hbusy : pc'.busy = false)
      (hheld : pc'.held = []) (hstays : pc' ≠ .returned)
      (hstops : pc'.stops = true → c.outstandingWork - 1 = 0) :
      RunEffect c pc none pc' { c with outstandingWork := c.outstandingWork - 1 }

section Threads
variable {handlers done unposted : List η} {c c' : Scheduler η} {owed : Nat}
  {pc pc' : RunState η} {others threads threads' : List (RunState η)} {out : Option η}

theorem runStep_effect (hstep : c.runStep pc = some (out, pc', c')) :
    RunEffect c pc out pc' c' := by
  unfold Scheduler.runStep at hstep
  cases pc with
  | entering =>
    dsimp only at hstep
    split at hstep
    · rename_i hzero
      cases hstep
      exact .moves _ rfl rfl (fun _ => hzero) nofun
    · cases hstep
      exact .moves _ rfl rfl nofun nofun
  | stopping | stoppingLast =>
    cases hstep
    exact .stops _ rfl rfl rfl
  | looping =>
    dsimp only at hstep
    split at hstep
    · rename_i hstopped
      cases hstep
      exact .moves _ rfl rfl nofun fun _ => hstopped
    · rename_i hrunning
      split at hstep
      · cases hstep
      · rename_i handler rest hqueue
        cases hstep
        exact .takes handler rest rfl (by simpa using hrunning) hqueue
  | executing handler =>
    cases hstep
    exact .executes handler rfl
  | finishing =>
    dsimp only at hstep
    split at hstep
    · rename_i hzero
      cases hstep
      exact .finishes _ rfl rfl rfl nofun fun _ => hzero
    · cases hstep
      exact .finishes _ rfl rfl rfl nofun nofun
  | returned => cases hstep

theorem Consistent.reorder (h : Consistent handlers done c owed unposted threads)
    (hperm : threads.Perm threads') : Consistent handlers done c owed unposted threads' := by
  refine ⟨?_, ?_, ?_⟩
  · rw [h.work, hperm.countP_eq]
  · refine .trans ?_ h.kept
    exact ((hperm.symm.flatMap_right _).append_right _).append_left _
  · intro hreturned
    exact h.returned (hperm.mem_iff.mpr hreturned)

theorem Settled.reorder (h : Settled c threads) (hperm : threads.Perm threads') :
    Settled c threads' := by
  rintro (hstopped | ⟨pc, hpc, hstops⟩)
  · exact h (.inl hstopped)
  · exact h (.inr ⟨pc, hperm.mem_iff.mpr hpc, hstops⟩)

/-- Between two places with the same work a thread moves without further effect. -/
theorem Consistent.move (h : Consistent handlers done c owed unposted (pc :: others))
    (hbusy : pc'.busy = pc.busy) (hheld : pc'.held = pc.held)
    (hreturned : pc' = .returned → c.stopped = true) :
    Consistent handlers done c owed unposted (pc' :: others) := by
  refine ⟨?_, ?_, ?_⟩
  · rw [List.countP_cons, hbusy, ← List.countP_cons, h.work]
  · rw [List.flatMap_cons, hheld, ← List.flatMap_cons]
    exact h.kept
  · intro hmem
    rcases List.mem_cons.mp hmem with hself | hother
    · exact hreturned hself.symm
    · exact h.returned (List.mem_cons_of_mem _ hother)

theorem Consistent.stop (h : Consistent handlers done c owed unposted threads) :
    Consistent handlers done { c with stopped := true } owed unposted threads :=
  ⟨h.work, h.kept, fun _ => rfl⟩

theorem Consistent.take (h : Consistent handlers done c owed unposted (.looping :: others))
    {handler : η} {rest : List η} (hqueue : c.opQueue = handler :: rest) :
    Consistent handlers done { c with opQueue := rest } owed unposted
      (.executing handler :: others) := by
  obtain ⟨hwork, hkept, hgone⟩ := h
  refine ⟨?_, ?_, by simpa using hgone⟩
  · simp [hwork, hqueue, RunState.busy]
    omega
  · refine .trans ?_ hkept
    simp only [List.flatMap_cons, RunState.held, hqueue, List.nil_append, List.cons_append]
    exact List.perm_middle.symm.append_left done

theorem Consistent.execute {handler : η}
    (h : Consistent handlers done c owed unposted (.executing handler :: others)) :
    Consistent handlers (done ++ [handler]) c owed unposted (.finishing :: others) := by
  obtain ⟨hwork, hkept, hgone⟩ := h
  refine ⟨by simpa [RunState.busy] using hwork, ?_, by simpa using hgone⟩
  simpa [RunState.held] using hkept

theorem Consistent.finish (h : Consistent handlers done c owed unposted (.finishing :: others))
    (hbusy : pc'.busy = false) (hheld : pc'.held = []) (hstays : pc' ≠ .returned) :
    Consistent handlers done { c with outstandingWork := c.outstandingWork - 1 } owed unposted
      (pc' :: others) := by
  obtain ⟨hwork, hkept, hgone⟩ := h
  have hfinishing : (RunState.finishing : RunState η).busy = true := rfl
  simp only [List.countP_cons, hfinishing, if_true] at hwork
  refine ⟨?_, ?_, ?_⟩
  · simp only [List.countP_cons, hbusy, Bool.false_eq_true, if_false]
    omega
  · rw [List.flatMap_cons] at hkept ⊢
    rwa [hheld]
  · intro hmem
    rcases List.mem_cons.mp hmem with hself | hother
    · exact absurd hself.symm hstays
    · exact hgone (List.mem_cons_of_mem _ hother)

theorem Consistent.runStep (h : Consistent handlers done c owed unposted (pc :: others))
    (heffect : RunEffect c pc out pc' c') :
    Consistent handlers (done ++ out.toList) c' owed unposted (pc' :: others) := by
  have hquiet : done ++ (none : Option η).toList = done := List.append_nil done
  cases heffect with
  | moves _ hbusy hheld _ hreturned =>
    rw [hquiet]
    exact h.move hbusy hheld hreturned
  | stops _ _ hbusy hheld =>
    rw [hquiet]
    exact h.stop.move hbusy hheld fun _ => rfl
  | takes handler rest hpc _ hqueue =>
    subst hpc
    rw [hquiet]
    exact h.take hqueue
  | executes handler hpc =>
    subst hpc
    exact h.execute
  | finishes _ hpc hbusy hheld hstays =>
    subst hpc
    rw [hquiet]
    exact h.finish hbusy hheld hstays

/-- A thread that finishes the last work ends the pool; before that nothing has
ended, as the work of this very thread shows. -/
theorem Settled.runStep (h : Settled c (pc :: others))
    (hconsistent : Consistent handlers done c owed unposted (pc :: others))
    (heffect : RunEffect c pc out pc' c') : Settled c' (pc' :: others) := by
  have hothers : (c.stopped = true ∨ ∃ pc ∈ others, pc.stops = true) → c.outstandingWork = 0 := by
    rintro (hstopped | ⟨pc₁, hpc₁, hstops⟩)
    · exact h (.inl hstopped)
    · exact h (.inr ⟨pc₁, List.mem_cons_of_mem _ hpc₁, hstops⟩)
  simp only [Settled, List.mem_cons, exists_eq_or_imp]
  cases heffect with
  | moves _ _ _ hstops =>
    rintro (hstopped | hself | hother)
    · exact hothers (.inl hstopped)
    · exact hstops hself
    · exact hothers (.inr hother)
  | stops _ hpc =>
    exact fun _ => h (.inr ⟨pc, List.mem_cons_self, hpc⟩)
  | takes =>
    rintro (hstopped | hself | hother)
    · exact hothers (.inl hstopped)
    · cases hself
    · exact hothers (.inr hother)
  | executes =>
    rintro (hstopped | hself | hother)
    · exact hothers (.inl hstopped)
    · cases hself
    · exact hothers (.inr hother)
  | finishes _ hpc _ _ _ hstops =>
    have hwork := hconsistent.work
    simp only [hpc, List.countP_cons, RunState.busy, if_true] at hwork
    rintro (hstopped | hself | hother)
    · have hzero := hothers (.inl hstopped)
      omega
    · exact hstops hself
    · have hzero := hothers (.inr hother)
      omega

theorem Consistent.enter (h : Consistent handlers done c owed unposted threads) :
    Consistent handlers done c owed unposted (.entering :: threads) := by
  obtain ⟨hwork, hkept, hgone⟩ := h
  refine ⟨by simpa [RunState.busy] using hwork, by simpa [RunState.held] using hkept,
    by simpa using hgone⟩

theorem Settled.enter (h : Settled c threads) : Settled c (.entering :: threads) := by
  simpa [Settled, RunState.stops] using h

theorem Consistent.post (h : Consistent handlers done c 0 unposted threads) :
    Consistent handlers done { c with outstandingWork := c.outstandingWork + 1 } 1 unposted
      threads := by
  refine ⟨?_, h.kept, h.returned⟩
  have hwork := h.work
  simp only
  omega

theorem Consistent.push {handler : η} {rest : List η}
    (h : Consistent handlers done c 1 (handler :: rest) threads) :
    Consistent handlers done { c with opQueue := c.opQueue ++ [handler] } 0 rest threads := by
  refine ⟨?_, ?_, h.returned⟩
  · have hwork := h.work
    simp only [List.length_append, List.length_singleton]
    omega
  · have hkept := h.kept
    simpa using hkept

end Threads

def ThreadPool.Consistent (handlers done : List η) (s : ThreadPool η) : Prop :=
  Qwin.Consistent handlers done s.scheduler s.main.owed s.main.unposted s.threads

def ThreadPool.Settled (s : ThreadPool η) : Prop := Qwin.Settled s.scheduler s.threads

section Starting
variable (threadsCount : Nat) (handlers : List η)

theorem entering_of_start : ∀ pc ∈ (ThreadPool.start threadsCount handlers).threads,
    pc = .entering := by
  intro pc hpc
  exact List.eq_of_mem_replicate hpc

theorem consistent_start : (ThreadPool.start threadsCount handlers).Consistent handlers [] := by
  have hentering := entering_of_start threadsCount handlers
  have hidle : (ThreadPool.start threadsCount handlers).threads.countP (·.busy) = 0 := by
    refine List.countP_eq_zero.mpr fun pc hpc => ?_
    rw [hentering pc hpc]
    nofun
  have hnone : (ThreadPool.start threadsCount handlers).threads.flatMap (·.held) = [] := by
    refine List.flatMap_eq_nil_iff.mpr fun pc hpc => ?_
    rw [hentering pc hpc]
    rfl
  refine ⟨?_, ?_, ?_⟩
  · rw [hidle]
    rfl
  · rw [hnone]
    exact .refl _
  · intro hreturned
    cases hentering _ hreturned

theorem settled_start : (ThreadPool.start threadsCount handlers).Settled := by
  rintro (hstopped | ⟨pc, hpc, hstops⟩)
  · cases hstopped
  · rw [entering_of_start threadsCount handlers pc hpc] at hstops
    cases hstops

end Starting

theorem worker_split (s : ThreadPool η) {i : Nat} {pc : RunState η} (hi : s.workers[i]? = some pc)
    (pc' : RunState η) :
    s.threads.Perm (pc :: (s.main.threads ++ s.workers.eraseIdx i)) ∧
      (s.main.threads ++ s.workers.set i pc').Perm
        (pc' :: (s.main.threads ++ s.workers.eraseIdx i)) := by
  obtain ⟨hlt, rfl⟩ := List.getElem?_eq_some_iff.mp hi
  constructor
  · exact ((List.getElem_cons_eraseIdx_perm hlt).symm.append_left _).trans List.perm_middle
  · exact ((List.set_perm_cons_eraseIdx hlt pc').append_left _).trans List.perm_middle

/-- What one step does: a post, a push, the call of `run()` in `main`, or a step
of `run()` in one of the threads. -/
inductive PoolEffect (t : PoolStep η) : Prop where
  | enters (hmain : t.pre.main = .posting []) (hout : t.output = none)
      (hpost : t.post = { t.pre with main := .running .entering })
  | posts (handler : η) (rest : List η) (hin : t.input = .main)
      (hmain : t.pre.main = .posting (handler :: rest)) (hout : t.output = none)
      (hpost : t.post = { t.pre with
        scheduler := { t.pre.scheduler with
          outstandingWork := t.pre.scheduler.outstandingWork + 1 }
        main := .pushing handler rest })
  | pushes (handler : η) (rest : List η) (hmain : t.pre.main = .pushing handler rest)
      (hout : t.output = none)
      (hpost : t.post = { t.pre with
        scheduler := { t.pre.scheduler with opQueue := t.pre.scheduler.opQueue ++ [handler] }
        main := .posting rest })
  | runs (pc pc' : RunState η) (others : List (RunState η))
      (hmain : t.post.main = t.pre.main ∨ t.pre.main = .running pc ∧ t.post.main = .running pc')
      (hpre : t.pre.threads.Perm (pc :: others)) (hpost : t.post.threads.Perm (pc' :: others))
      (hrun : t.pre.scheduler.runStep pc = some (t.output, pc', t.post.scheduler))

theorem pool_effect {t : PoolStep η} (ht : t.pre.step t.input = some (t.output, t.post)) :
    PoolEffect t := by
  obtain ⟨⟨c, workers, main⟩, input, output, s'⟩ := t
  dsimp only at ht
  unfold ThreadPool.step at ht
  cases input with
  | main =>
    cases main with
    | posting rest =>
      cases rest with
      | nil =>
        cases ht
        exact .enters rfl rfl rfl
      | cons handler rest =>
        cases ht
        exact .posts handler rest rfl rfl rfl rfl
    | pushing handler rest =>
      cases ht
      exact .pushes handler rest rfl rfl rfl
    | running pc =>
      obtain ⟨⟨out, pc', c'⟩, hrun, heq⟩ := Option.map_eq_some_iff.mp ht
      cases heq
      exact .runs pc pc' workers (.inr ⟨rfl, rfl⟩) (.refl _) (.refl _) hrun
  | worker i =>
    dsimp only at ht
    split at ht
    · cases ht
    · rename_i pc hi
      obtain ⟨⟨out, pc', c'⟩, hrun, heq⟩ := Option.map_eq_some_iff.mp ht
      cases heq
      obtain ⟨hbefore, hafter⟩ := worker_split ⟨c, workers, main⟩ hi pc'
      exact .runs pc pc' _ (.inl rfl) hbefore hafter hrun

section Steps
variable {handlers done : List η} {t : PoolStep η}

/-- A step of `run()` posts nothing. -/
theorem posts_nothing {pc pc' : RunState η}
    (hmain : t.post.main = t.pre.main ∨ t.pre.main = .running pc ∧ t.post.main = .running pc') :
    t.post.main.owed = t.pre.main.owed ∧ t.post.main.unposted = t.pre.main.unposted := by
  rcases hmain with hsame | ⟨hbefore, hafter⟩
  · rw [hsame]
    exact ⟨rfl, rfl⟩
  · rw [hbefore, hafter]
    exact ⟨rfl, rfl⟩

theorem consistent_step (h : t.pre.Consistent handlers done)
    (ht : t.pre.step t.input = some (t.output, t.post)) :
    t.post.Consistent handlers (done ++ t.output.toList) := by
  have hquiet : done ++ (none : Option η).toList = done := List.append_nil done
  unfold ThreadPool.Consistent ThreadPool.threads at h ⊢
  cases pool_effect ht with
  | enters hmain hout hpost =>
    rw [hmain] at h
    rw [hout, hquiet, hpost]
    exact h.enter
  | posts handler rest _ hmain hout hpost =>
    rw [hmain] at h
    rw [hout, hquiet, hpost]
    exact Consistent.post h
  | pushes handler rest hmain hout hpost =>
    rw [hmain] at h
    rw [hout, hquiet, hpost]
    exact h.push
  | runs pc pc' others hmain hpre hpost hrun =>
    obtain ⟨howed, hunposted⟩ := posts_nothing hmain
    rw [howed, hunposted]
    exact ((h.reorder hpre).runStep (runStep_effect hrun)).reorder hpost.symm

theorem settled_step (hok : PostsInTime t) (h : t.pre.Settled)
    (hconsistent : t.pre.Consistent handlers done)
    (ht : t.pre.step t.input = some (t.output, t.post)) : t.post.Settled := by
  unfold ThreadPool.Settled ThreadPool.threads at h ⊢
  cases pool_effect ht with
  | enters hmain _ hpost =>
    rw [hmain] at h
    rw [hpost]
    exact h.enter
  | posts handler rest hin hmain _ hpost =>
    have hrunning := hok hin (by rw [hmain]; rfl)
    unfold ThreadPool.Ending ThreadPool.threads at hrunning
    rw [hmain] at hrunning
    rw [hpost]
    exact fun hending => absurd hending hrunning
  | pushes handler rest hmain _ hpost =>
    rw [hmain] at h
    rw [hpost]
    exact h
  | runs pc pc' others _ hpre hpost hrun =>
    exact ((h.reorder hpre).runStep (hconsistent.reorder hpre) (runStep_effect hrun)).reorder
      hpost.symm

end Steps

theorem executed_append (hist : List (PoolStep η)) (t : PoolStep η) :
    executed (hist ++ [t]) = executed hist ++ t.output.toList := by
  simp only [executed, List.filterMap_append]
  cases h : t.output <;> simp [h]

theorem held_of_idle {threads : List (RunState η)} (h : threads.countP (·.busy) = 0) :
    threads.flatMap (·.held) = [] := by
  refine List.flatMap_eq_nil_iff.mpr fun pc hpc => ?_
  have hidle := List.countP_eq_zero.mp h pc hpc
  cases pc with
  | executing handler => exact absurd rfl hidle
  | entering | stopping | looping | finishing | stoppingLast | returned => rfl

section Runs
variable {threadsCount : Nat} {handlers : List η} {tr : List (PoolStep η)}

theorem consistent_run (hrun : IsRun ThreadPool.step (.start threadsCount handlers) tr) :
    (final (.start threadsCount handlers) tr).Consistent handlers (executed tr) := by
  refine hrun.history (fun hist s => s.Consistent handlers (executed hist))
    (consistent_start threadsCount handlers) ?_
  intro hist t ih ht
  rw [executed_append]
  exact consistent_step ih ht

theorem settled_run (hrun : IsRun ThreadPool.step (.start threadsCount handlers) tr)
    (hok : ∀ t ∈ tr, PostsInTime t) : (final (.start threadsCount handlers) tr).Settled := by
  refine (hrun.history (fun hist s => s.Consistent handlers (executed hist) ∧
    ((∀ t ∈ hist, PostsInTime t) → s.Settled))
    ⟨consistent_start threadsCount handlers, fun _ => settled_start threadsCount handlers⟩ ?_).2 hok
  rintro hist t ⟨hconsistent, ih⟩ ht
  rw [executed_append]
  refine ⟨consistent_step hconsistent ht, fun hall => ?_⟩
  exact settled_step (hall t (by simp)) (ih fun u hu => hall u (by simp [hu])) hconsistent ht

/-- No run executes a handler twice, or one that was not posted. -/
theorem executed_subperm (hrun : IsRun ThreadPool.step (.start threadsCount handlers) tr) :
    (executed tr).Subperm handlers :=
  (List.sublist_append_left _ _).subperm.trans (consistent_run hrun).kept.subperm

/-- In a run whose posts all begin in time, once the `run()` of `main` has
returned every handler was executed, and none twice. -/
theorem no_lost_work (hrun : IsRun ThreadPool.step (.start threadsCount handlers) tr)
    (hok : ∀ t ∈ tr, PostsInTime t) :
    ∀ hist, hist <+: tr → (final (.start threadsCount handlers) hist).main = .running .returned →
      (executed hist).Perm handlers := by
  intro hist hpre hreturned
  have hsettled := settled_run (hrun.upTo hpre) fun t ht => hok t (hpre.subset ht)
  obtain ⟨hwork, hkept, hgone⟩ := consistent_run (hrun.upTo hpre)
  have hthread : .returned ∈ (final (.start threadsCount handlers) hist).threads := by
    simp [ThreadPool.threads, hreturned, MainState.threads]
  have hzero := hsettled (.inl (hgone hthread))
  rw [hreturned] at hwork hkept
  simp only [hzero, MainState.owed] at hwork
  have hqueue := List.eq_nil_of_length_eq_zero (show
    (final (.start threadsCount handlers) hist).scheduler.opQueue.length = 0 by omega)
  rw [hqueue, held_of_idle (by omega)] at hkept
  simpa [MainState.unposted] using hkept

end Runs

section Stopped
variable {s : ThreadPool η} {t : PoolStep η} {tr : List (PoolStep η)}

theorem step_stopped (hstopped : t.pre.scheduler.stopped = true)
    (ht : t.pre.step t.input = some (t.output, t.post)) :
    t.post.scheduler.stopped = true ∧
      t.pre.scheduler.opQueue <+: t.post.scheduler.opQueue := by
  cases pool_effect ht with
  | enters _ _ hpost | posts _ _ _ _ _ hpost =>
    rw [hpost]
    exact ⟨hstopped, List.prefix_refl _⟩
  | pushes _ _ _ _ hpost =>
    rw [hpost]
    exact ⟨hstopped, List.prefix_append _ _⟩
  | runs pc pc' others _ _ _ hrun =>
    have heffect := runStep_effect hrun
    generalize t.post.scheduler = c' at heffect ⊢
    generalize t.output = out at heffect
    cases heffect with
    | moves | executes | finishes => exact ⟨hstopped, List.prefix_refl _⟩
    | stops => exact ⟨rfl, List.prefix_refl _⟩
    | takes _ _ _ hrunning =>
      rw [hstopped] at hrunning
      cases hrunning

/-- The handler is queued, or about to be, on a scheduler that is stopped. -/
def ThreadPool.Strands (handler : η) (s : ThreadPool η) : Prop :=
  s.scheduler.stopped = true ∧
    (handler ∈ s.scheduler.opQueue ∨
      s.main.owed = 1 ∧ s.main.unposted.head? = some handler)

theorem strands_step {handler : η} (h : t.pre.Strands handler)
    (ht : t.pre.step t.input = some (t.output, t.post)) : t.post.Strands handler := by
  obtain ⟨hstopped, hwhere⟩ := h
  obtain ⟨hstopped', hqueue⟩ := step_stopped hstopped ht
  refine ⟨hstopped', ?_⟩
  rcases hwhere with hqueued | ⟨howed, hhead⟩
  · exact .inl (hqueue.subset hqueued)
  · cases pool_effect ht with
    | enters hmain | posts _ _ _ hmain =>
      rw [hmain] at howed
      cases howed
    | pushes handler' rest hmain _ hpost =>
      rw [hmain] at hhead
      obtain rfl := Option.some.inj hhead
      rw [hpost]
      exact .inl (List.mem_append_right _ (List.mem_singleton_self _))
    | runs _ _ _ hmain =>
      obtain ⟨howed', hunposted⟩ := posts_nothing hmain
      exact .inr ⟨howed'.trans howed, by rw [hunposted, hhead]⟩

theorem late_post_strands (ht : t.pre.step t.input = some (t.output, t.post))
    (hin : t.input = .main) (hposts : t.pre.main.posts = true)
    (hstopped : t.pre.scheduler.stopped = true) : ∃ handler, t.post.Strands handler := by
  obtain ⟨⟨c, workers, main⟩, input, output, s'⟩ := t
  dsimp only at ht hin hposts hstopped ⊢
  subst hin
  cases main with
  | pushing | running => cases hposts
  | posting rest =>
    cases rest with
    | nil => cases hposts
    | cons handler rest =>
      cases ht
      exact ⟨handler, hstopped, .inr ⟨rfl, rfl⟩⟩

/-- A post that begins on a stopped scheduler is lost for good. -/
theorem late_post_is_lost {threadsCount : Nat} {handlers : List η}
    (hrun : IsRun ThreadPool.step (.start threadsCount handlers) tr) (ht : t ∈ tr)
    (hin : t.input = .main) (hposts : t.pre.main.posts = true)
    (hstopped : t.pre.scheduler.stopped = true)
    (hreturned : (final (.start threadsCount handlers) tr).main = .running .returned) :
    ¬ (executed tr).Perm handlers := by
  intro hall
  have hlength := (consistent_run hrun).kept.length_eq
  obtain ⟨before, after, rfl⟩ := List.append_of_mem ht
  obtain ⟨-, -, hstep, hafter⟩ := (isRun_append _ before _).mp hrun
  obtain ⟨handler, hstrands⟩ := late_post_strands hstep hin hposts hstopped
  obtain ⟨-, hwhere⟩ := hafter.invariant (ThreadPool.Strands handler) (fun _ => True)
    (fun _ _ => trivial) hstrands fun u _ hu hnext => strands_step hu hnext
  have hfinal : final (.start threadsCount handlers) (before ++ t :: after) =
      final t.post after := by rw [final_append]; rfl
  rw [hfinal] at hreturned hlength
  rcases hwhere with hqueued | ⟨howed, -⟩
  · have hpos := List.length_pos_of_mem hqueued
    simp only [List.length_append, hall.length_eq] at hlength
    omega
  · rw [hreturned] at howed
    cases howed

end Stopped

def twoInTime : List (PoolStep Nat) :=
  trace ThreadPool.step (.start 1 [7, 8])
    [.main, .main, .worker 0, .worker 0, .main, .main, .worker 0, .main, .worker 0, .main, .main,
      .main, .main, .main, .main]

theorem no_lost_work_two :
    twoInTime.length = 15 ∧ executed twoInTime = [7, 8] ∧
    ∀ hist, hist <+: twoInTime → (final (.start 1 [7, 8]) hist).main = .running .returned →
      (executed hist).Perm [7, 8] :=
  ⟨by decide, by decide, no_lost_work (isRun_trace _ _) (by decide)⟩

/-- The one worker reaches `run()` before the first post. -/
def workerFirst : List (PoolStep Nat) :=
  trace ThreadPool.step (.start 1 [7])
    [.worker 0, .worker 0, .main, .main, .main, .main, .main]

theorem first_post_is_lost :
    IsRun ThreadPool.step (.start 1 [7]) workerFirst ∧ workerFirst.length = 7 ∧
    (final (.start 1 [7]) workerFirst).main = .running .returned ∧
    (final (.start 1 [7]) workerFirst).scheduler.opQueue = [7] ∧ executed workerFirst = [] ∧
    ¬ (executed workerFirst).Perm [7] :=
  ⟨isRun_trace _ _, by decide, by decide, by decide, by decide, by decide⟩

end Qwin
