import Qwin.Pool.Progress
import Qwin.Proxy.Lifetime
import Qwin.Proxy.PortLoops

/-!
`main` of src/main.cpp from the loaded configuration to its end: the servers, the
proxy on the same ports, and the pool whose `run()` comes last. Nothing posts to it.
-/

set_option autoImplicit false

namespace Qwin
open Runs

structure Program where
  servers : List ServerEmulator
  reachedRun : Bool
  proxy : UdpProxy
  pool : ThreadPool Empty

/-- Up to the return of `startProxy`, or to its `ioContext.run()`. The workers of the
pool were started before, and may not have begun. -/
def Program.start (ephemeral : Ephemeral) (config : Config) (clock : Int) (held : List Nat)
    (threadsCount fuel : Nat) : Option Program :=
  (createServersLoop config fuel).map fun ports =>
    let (held, servers) := createServers ephemeral (ports.map (·.toInt)) held
    let (reachedRun, _, proxy) := (UdpProxy.new config.serverPortStart.toInt
      config.serverPortEnd.toInt config.limits clock).startProxy ephemeral held
    ⟨servers, reachedRun, proxy, .start threadsCount []⟩

inductive ProgramAction where
  | proxy (a : Action)
  | pool (thread : Thread)
  deriving DecidableEq, Repr

inductive ProgramEvent where
  | proxy (event : Event)
  | pool (executed : Option Empty)

/-- The handlers of the proxy run in its `ioContext.run()`, and `main` does not come
to the `run()` of the pool before that call has returned for want of work. -/
def Program.step (s : Program) : ProgramAction → Option (ProgramEvent × Program)
  | .proxy a =>
    if a.isHandle && !s.reachedRun then none
    else (s.proxy.step a).map fun (event, proxy) => (.proxy event, { s with proxy := proxy })
  | .pool thread =>
    if thread = .main ∧ s.reachedRun = true ∧ s.proxy.outstandingWork ≠ 0 then none
    else (s.pool.step thread).map fun (out, pool) => (.pool out, { s with pool := pool })

abbrev ProgramStep := Transition Program ProgramAction ProgramEvent

/-- Nothing is outstanding at the proxy, and it has no socket to start anything on. -/
def UdpProxy.Empty (s : UdpProxy) : Prop := s.sockets = [] ∧ s.receives = [] ∧ s.sends = []

theorem portLoop_head {body : Int32 → Bool} {portEnd port : Int32} {fuel : Nat}
    {ports : List Int32} (h : portLoop body portEnd fuel port = some ports)
    (hle : port ≤ portEnd) : port ∈ ports := by
  cases fuel with
  | zero => cases h
  | succ fuel =>
    unfold portLoop at h
    rw [if_pos hle] at h
    split at h
    · obtain ⟨rest, -, rfl⟩ := Option.map_eq_some_iff.mp h
      exact List.mem_cons_self
    · cases h
      exact List.mem_cons_self

/-- No port is configured, or the first of them is not port 0, which nobody can hold. -/
def Config.NamesFirstPort (config : Config) : Prop :=
  config.serverPortStart ≤ config.serverPortEnd → portType config.serverPortStart.toInt ≠ 0

instance (config : Config) : Decidable config.NamesFirstPort :=
  inferInstanceAs (Decidable (_ → _))

section Starting
variable {ephemeral : Ephemeral} {config : Config} {clock : Int} {held : List Nat}
  {threadsCount fuel : Nat} {p : Program}

/-- Whatever the range and whoever holds its ports: the servers have taken the first
port or somebody else has, unless the range is empty. -/
theorem start_empty (hfirst : config.NamesFirstPort)
    (h : Program.start ephemeral config clock held threadsCount fuel = some p) :
    p.proxy.Empty ∧ p.pool = .start threadsCount [] := by
  obtain ⟨ports, hports, heq⟩ := Option.map_eq_some_iff.mp h
  subst heq
  refine ⟨?_, rfl⟩
  let s : UdpProxy := .new config.serverPortStart.toInt config.serverPortEnd.toInt
    config.limits clock
  have hnew : s.Empty := ⟨rfl, rfl, rfl⟩
  by_cases hle : config.serverPortStart ≤ config.serverPortEnd
  · have hmem := portLoop_head hports hle
    have htaken := (createServers_held ephemeral (ports.map (·.toInt)) held).2 _
      (List.mem_map_of_mem hmem) (hfirst hle)
    have hstarved := startProxy_starved ephemeral (s := s) (Int32.le_iff_toInt_le.mp hle)
      (hfirst hle) htaken
    dsimp only
    rw [hstarved]
    exact hnew
  · have hnone : portRange s.startPort s.endPort = [] := by
      refine portRange_nil ?_
      rw [Int32.le_iff_toInt_le] at hle
      exact Int.not_le.mp hle
    dsimp only
    rw [UdpProxy.startProxy, hnone]
    exact hnew

end Starting

theorem step_of_empty {s : UdpProxy} (h : s.Empty) (a : Action) : s.step a = none := by
  obtain ⟨-, hreceives, hsends⟩ := h
  cases a <;> simp [UdpProxy.step, UdpProxy.finish, UdpProxy.write, hreceives, hsends]

def poolStep (t : ProgramStep) : Option (PoolStep Empty) :=
  match t.input, t.output with
  | .pool thread, .pool out => some ⟨t.pre.pool, thread, out, t.post.pool⟩
  | _, _ => none

section Steps
variable {t : ProgramStep}

theorem program_step_cases (ht : t.pre.step t.input = some (t.output, t.post)) :
    (∃ a event, t.input = .proxy a ∧ t.pre.proxy.step a = some (event, t.post.proxy) ∧
        t.post.pool = t.pre.pool) ∨
      ∃ thread out, t.input = .pool thread ∧ t.output = .pool out ∧
        t.pre.pool.step thread = some (out, t.post.pool) ∧ t.post.proxy = t.pre.proxy := by
  obtain ⟨s, input, output, s'⟩ := t
  dsimp only at ht ⊢
  unfold Program.step at ht
  cases input with
  | proxy a =>
    dsimp only at ht
    split at ht
    · cases ht
    · obtain ⟨⟨event, proxy⟩, hstep, heq⟩ := Option.map_eq_some_iff.mp ht
      cases heq
      exact .inl ⟨a, event, rfl, hstep, rfl⟩
  | pool thread =>
    dsimp only at ht
    split at ht
    · cases ht
    · obtain ⟨⟨out, pool⟩, hstep, heq⟩ := Option.map_eq_some_iff.mp ht
      cases heq
      exact .inr ⟨thread, out, rfl, rfl, hstep, rfl⟩

theorem pool_step_of_empty (hempty : t.pre.proxy.Empty)
    (ht : t.pre.step t.input = some (t.output, t.post)) :
    ∃ thread out, t.input = .pool thread ∧ t.output = .pool out ∧
      t.pre.pool.step thread = some (out, t.post.pool) ∧ t.post.proxy = t.pre.proxy := by
  obtain ⟨a, event, -, hstep, -⟩ | hpool := program_step_cases ht
  · rw [step_of_empty hempty a] at hstep
    cases hstep
  · exact hpool

theorem program_simulates_pool :
    Simulates Program.step ThreadPool.step (fun s => s.proxy.Empty) Program.pool poolStep := by
  refine ⟨?_, ?_, ?_⟩
  · intro t hempty ht
    obtain ⟨-, -, -, -, -, hproxy⟩ := pool_step_of_empty hempty ht
    rw [hproxy]
    exact hempty
  · intro t hempty ht hview
    obtain ⟨thread, out, hin, hout, -, -⟩ := pool_step_of_empty hempty ht
    rw [poolStep, hin, hout] at hview
    cases hview
  · intro t u hempty ht hview
    obtain ⟨thread, out, hin, hout, hstep, -⟩ := pool_step_of_empty hempty ht
    rw [poolStep, hin, hout] at hview
    cases hview
    exact ⟨rfl, rfl, hstep⟩

def Program.stepsLeft (s : Program) : Nat :=
  s.proxy.stepsLeft + s.pool.stepsLeft

theorem program_stepsLeft (ht : t.pre.step t.input = some (t.output, t.post)) :
    t.post.stepsLeft < t.pre.stepsLeft := by
  unfold Program.stepsLeft
  obtain ⟨a, event, -, hstep, hpool⟩ | ⟨thread, out, -, -, hstep, hproxy⟩ := program_step_cases ht
  · have hless := proxy_stepsLeft (t := ⟨t.pre.proxy, a, event, t.post.proxy⟩) hstep
    rw [hpool]
    dsimp only at hless
    omega
  · have hless := step_stepsLeft (t := ⟨t.pre.pool, thread, out, t.post.pool⟩) hstep
    rw [hproxy]
    dsimp only at hless
    omega

end Steps

/-- The rest of `main`, once the servers are there and `startProxy` was called. -/
structure ServesNobody (threadsCount : Nat) (p : Program) (tr : List ProgramStep) : Prop where
  no_socket : (final p tr).proxy.sockets = []
  only_pool : ∀ t ∈ tr, ∃ thread, t.input = .pool thread
  steps : tr.length ≤ 2 * threadsCount + 3
  over_iff : (∀ a, (final p tr).step a = none) ↔ (final p tr).pool.Returned
  ends : ∃ rest, IsRun Program.step (final p tr) rest ∧ (final (final p tr) rest).pool.Returned

section Runs
variable {threadsCount : Nat} {p : Program} {tr : List ProgramStep}

theorem run_empty (hempty : p.proxy.Empty) (hrun : IsRun Program.step p tr) :
    (final p tr).proxy.Empty :=
  hrun.invariant (fun s => s.proxy.Empty) (fun _ => True) (fun _ _ => trivial) hempty
    fun _ _ h ht => program_simulates_pool.kept _ h ht

theorem program_stuck_iff (hempty : p.proxy.Empty) (hpool : p.pool = .start threadsCount [])
    (hrun : IsRun Program.step p tr) :
    (∀ a, (final p tr).step a = none) ↔ (final p tr).pool.Returned := by
  have hnow := run_empty hempty hrun
  obtain ⟨hpools, hfinal⟩ := program_simulates_pool.run hrun hempty
  rw [hpool] at hpools hfinal
  rw [← hfinal, ← pool_stuck_iff hpools, hfinal]
  have hidle : (final p tr).proxy.outstandingWork = 0 := by
    rw [UdpProxy.outstandingWork, hnow.2.1, hnow.2.2]
    rfl
  constructor
  · intro hstuck thread
    have hnext := hstuck (.pool thread)
    simpa [Program.step, hidle] using hnext
  · intro hstuck a
    cases a with
    | proxy a => simp [Program.step, step_of_empty hnow a]
    | pool thread => simp [Program.step, hidle, hstuck thread]

end Runs

/-- Whatever is configured, unless the first port is 0, and whichever ports are held: if
`main` gets past its loop, the proxy is without a socket, so that nothing is ever received,
and after a few steps of the pool's threads `main` returns. -/
theorem program_serves_nobody {ephemeral : Ephemeral} {config : Config} {clock : Int}
    {held : List Nat} {threadsCount fuel : Nat} {p : Program} (hfirst : config.NamesFirstPort)
    (hstart : Program.start ephemeral config clock held threadsCount fuel = some p)
    {tr : List ProgramStep} (hrun : IsRun Program.step p tr) : ServesNobody threadsCount p tr := by
  obtain ⟨hempty, hpool⟩ := start_empty hfirst hstart
  obtain ⟨hpools, -⟩ := program_simulates_pool.run hrun hempty
  have honly : ∀ t ∈ tr, ∃ u, poolStep t = some u ∧ ∃ thread, t.input = .pool thread := by
    intro t ht
    obtain ⟨before, after, rfl, hbefore, hpre, hstep⟩ := hrun.split ht
    have hnow := run_empty hempty hbefore
    rw [← hpre] at hnow
    obtain ⟨thread, out, hin, hout, -, -⟩ := pool_step_of_empty hnow hstep
    exact ⟨_, by rw [poolStep, hin, hout], thread, hin⟩
  refine ⟨(run_empty hempty hrun).1, fun t ht => ?_, ?_, program_stuck_iff hempty hpool hrun, ?_⟩
  · obtain ⟨-, -, hthread⟩ := honly t ht
    exact hthread
  · have hlength : (tr.filterMap poolStep).length = tr.length := by
      rw [List.length_filterMap_eq_countP, List.countP_eq_length]
      intro t ht
      obtain ⟨u, hu, -⟩ := honly t ht
      rw [hu]
      rfl
    have hbound := hpools.length_le ThreadPool.stepsLeft fun t ht => step_stepsLeft ht
    rw [hlength, hpool, stepsLeft_start] at hbound
    exact hbound
  · obtain ⟨rest, hrest, hlast⟩ := exists_last Program.stepsLeft
      (fun t ht => program_stepsLeft ht) (final p tr)
    refine ⟨rest, hrest, ?_⟩
    rw [← final_append] at hlast ⊢
    exact (program_stuck_iff hempty hpool ((isRun_append _ _ _).mpr ⟨hrun, hrest⟩)).mp hlast

/-- Port 27016 is held by another program. -/
theorem program_serves_nobody_two :
    ∃ p, Program.start dynamicPorts twoPortConfig 0 [27016] 1 3 = some p ∧
      ServesNobody 1 p (trace Program.step p [.pool .main, .pool (.worker 0), .pool .main]) := by
  have hstart : Program.start dynamicPorts twoPortConfig 0 [27016] 1 3 = some _ := rfl
  exact ⟨_, hstart, program_serves_nobody (by decide) hstart (isRun_trace _ _)⟩

end Qwin
