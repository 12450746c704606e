import Qwin.Library.Run

/-!
The thread pool of src/main.cpp on the vendored scheduler of asio. One step is
one access of one thread to what the threads share; the order is anybody's. Handlers
return, post nothing themselves and do not throw.
-/

set_option autoImplicit false

namespace Qwin

variable {η : Type}

/-- What the threads share. `opQueue` and `stopped` are only touched under the mutex. -/
structure Scheduler (η : Type) where
  outstandingWork : Int
  stopped : Bool
  opQueue : List η
  deriving DecidableEq, Repr

/-- Where a thread is in `scheduler::run`. -/
inductive RunState (η : Type) where
  /-- Before the test of `outstanding_work_`. -/
  | entering
  /-- The test found no work, and `stop()` is next. -/
  | stopping
  /-- In `do_run_one`, with the mutex. -/
  | looping
  | executing (handler : η)
  /-- `work_cleanup` is next. -/
  | finishing
  /-- `work_finished` took the last work away, and `stop()` is next. -/
  | stoppingLast
  | returned
  deriving DecidableEq, Repr

/-- One step of `run`. The output is the handler that it completes; a thread that
waits on an empty queue makes no step. -/
def Scheduler.runStep (c : Scheduler η) :
    RunState η → Option (Option η × RunState η × Scheduler η)
  | .entering =>
    if c.outstandingWork = 0 then some (none, .stopping, c) else some (none, .looping, c)
  | .stopping => some (none, .returned, { c with stopped := true })
  | .looping =>
    if c.stopped then some (none, .returned, c)
    else
      match c.opQueue with
      | [] => none
      | handler :: rest => some (none, .executing handler, { c with opQueue := rest })
  | .executing handler => some (some handler, .finishing, c)
  | .finishing =>
    let c := { c with outstandingWork := c.outstandingWork - 1 }
    if c.outstandingWork = 0 then some (none, .stoppingLast, c) else some (none, .looping, c)
  | .stoppingLast => some (none, .looping, { c with stopped := true })
  | .returned => none

/-- `main` after the constructor of the pool: it posts, and then calls `run` itself. -/
inductive MainState (η : Type) where
  | posting (rest : List η)
  /-- Between `work_started()` and the push of the handler. -/
  | pushing (handler : η) (rest : List η)
  | running (at_ : RunState η)
  deriving DecidableEq, Repr

/-- `main` posts all handlers; a handler's execution ends, and changes nothing here. -/
structure ThreadPool (η : Type) where
  scheduler : Scheduler η
  workers : List (RunState η)
  main : MainState η
  deriving DecidableEq, Repr

/-- The constructor starts `threadsCount` threads; none of them need have begun.
Those that `workers(threadsCount)` makes beside them run nothing. -/
def ThreadPool.start (threadsCount : Nat) (handlers : List η) : ThreadPool η :=
  ⟨⟨0, false, []⟩, List.replicate threadsCount .entering, .posting handlers⟩

inductive Thread where
  | main
  | worker (i : Nat)
  deriving DecidableEq, Repr

def ThreadPool.step (s : ThreadPool η) : Thread → Option (Option η × ThreadPool η)
  | .main =>
    match s.main with
    | .posting [] => some (none, { s with main := .running .entering })
    | .posting (handler :: rest) =>
      some (none,
        { s with
          scheduler := { s.scheduler with
            outstandingWork := s.scheduler.outstandingWork + 1 }
          main := .pushing handler rest })
    | .pushing handler rest =>
      some (none,
        { s with
          scheduler := { s.scheduler with opQueue := s.scheduler.opQueue ++ [handler] }
          main := .posting rest })
    | .running pc =>
      (s.scheduler.runStep pc).map fun (out, pc, c) =>
        (out, { s with scheduler := c, main := .running pc })
  | .worker i =>
    match s.workers[i]? with
    | none => none
    | some pc =>
      (s.scheduler.runStep pc).map fun (out, pc, c) =>
        (out, { s with scheduler := c, workers := s.workers.set i pc })

abbrev PoolStep (η : Type) := Runs.Transition (ThreadPool η) Thread (Option η)

/-- The handlers that were executed, in the order of their completion. -/
def executed (tr : List (PoolStep η)) : List η := tr.filterMap (·.output)

end Qwin
