import Qwin.Proxy.Startup

/-!
The port loops of `main` and `startProxy` as they run on an `int`, and the two
other places where a configured number meets a narrower type or a product.
-/

set_option autoImplicit false

namespace Qwin

/-- `for (int port = ..; port <= portEnd; ++port)`. A body that throws leaves the
loop. The list holds the ports it was run for; without a result it goes on. -/
def portLoop (body : Int32 → Bool) (portEnd : Int32) : Nat → Int32 → Option (List Int32)
  | 0, _ => none
  | fuel + 1, port =>
    if port ≤ portEnd then
      if body port then (portLoop body portEnd fuel (port + 1)).map (port :: ·) else some [port]
    else some []

/-- The loop of `main` catches what a constructor throws. -/
def createServersLoop (config : Config) (fuel : Nat) : Option (List Int32) :=
  portLoop (fun _ => true) config.serverPortEnd fuel config.serverPortStart

def startProxyLoop (opens : Int → Bool) (config : Config) (fuel : Nat) : Option (List Int32) :=
  portLoop (fun port => opens port.toInt) config.serverPortEnd fuel config.serverPortStart

/-- The ports up to the first one that does not open, and that one. -/
def upToFailure (opens : Int → Bool) : List Int → List Int
  | [] => []
  | port :: ports => if opens port then port :: upToFailure opens ports else [port]

/-- A loop that ends, with these ports as counter values and as endpoint ports. -/
def RunsOver (loop : Nat → Option (List Int32)) (ports : List Int) : Prop :=
  ∃ fuel counters, loop fuel = some counters ∧ counters.map (·.toInt) = ports ∧
    ∀ port ∈ counters, (portType port.toInt : Int) = port.toInt

def Config.portRange (config : Config) : List Int :=
  Qwin.portRange config.serverPortStart.toInt config.serverPortEnd.toInt

structure NoWrap (config : Config) : Prop where
  main : RunsOver (createServersLoop config) config.portRange
  startProxy : ∀ opens, RunsOver (startProxyLoop opens config) (upToFailure opens config.portRange)
  blockDuration : config.limits.blockDurationSeconds = config.blockDurationMinutes.toInt * 60

theorem portRange_nil {startPort endPort : Int} (h : endPort < startPort) :
    portRange startPort endPort = [] := by
  have hlen : (endPort - startPort + 1).toNat = 0 := by omega
  simp [portRange, hlen]

theorem upToFailure_subset (opens : Int → Bool) (ports : List Int) :
    upToFailure opens ports ⊆ ports := by
  induction ports with
  | nil => exact List.Subset.refl _
  | cons port ports ih =>
    unfold upToFailure
    split
    · exact List.cons_subset_cons port ih
    · exact List.cons_subset.mpr ⟨List.mem_cons_self, List.nil_subset _⟩

theorem upToFailure_true (ports : List Int) : upToFailure (fun _ => true) ports = ports := by
  induction ports with
  | nil => rfl
  | cons port ports ih => simp [upToFailure, ih]

theorem toInt_next {port portEnd : Int32} (hle : port ≤ portEnd)
    (hmax : portEnd.toInt < 2147483647) : (port + 1).toInt = port.toInt + 1 := by
  have hport := Int32.le_iff_toInt_le.mp hle
  have hmin := port.le_toInt
  have hone : (1 : Int32).toInt = 1 := rfl
  rw [Int32.toInt_add, hone]
  exact Int.bmod_eq_of_le (by omega) (by omega)

/-- Below the largest `int` the loop ends, and its counter goes through the range. -/
theorem portLoop_ends (opens : Int → Bool) {portEnd : Int32} (hmax : portEnd.toInt < 2147483647)
    (n : Nat) (port : Int32) (hn : portEnd.toInt + 1 - port.toInt ≤ n) :
    ∃ counters, portLoop (fun port => opens port.toInt) portEnd (n + 1) port = some counters ∧
      counters.map (·.toInt) = upToFailure opens (portRange port.toInt portEnd.toInt) := by
  induction n generalizing port with
  | zero =>
    have hdone : ¬ port ≤ portEnd := by
      rw [Int32.le_iff_toInt_le]
      omega
    refine ⟨[], by simp [portLoop, hdone], ?_⟩
    rw [portRange_nil (by omega)]
    rfl
  | succ n ih =>
    unfold portLoop
    by_cases hle : port ≤ portEnd
    · rw [if_pos hle, portRange_cons (Int32.le_iff_toInt_le.mp hle)]
      unfold upToFailure
      split
      · have hnext := toInt_next hle hmax
        obtain ⟨counters, hloop, hmap⟩ := ih (port + 1) (by omega)
        rw [hnext] at hmap
        exact ⟨port :: counters, by simp [hloop], by simp [hmap]⟩
      · exact ⟨[port], rfl, rfl⟩
    · have hlt : portEnd.toInt < port.toInt := by
        rw [Int32.le_iff_toInt_le] at hle
        omega
      rw [if_neg hle, portRange_nil hlt]
      exact ⟨[], rfl, rfl⟩

theorem portType_eq_iff (port : Int) : (portType port : Int) = port ↔ 0 ≤ port ∧ port ≤ 65535 := by
  unfold portType
  omega

theorem toInt_times_sixty (minutes : Int32) :
    (minutes * 60).toInt = minutes.toInt * 60 ↔
      -35791394 ≤ minutes.toInt ∧ minutes.toInt ≤ 35791394 := by
  have hsixty : (60 : Int32).toInt = 60 := rfl
  constructor
  · intro h
    have hlo := (minutes * 60).le_toInt
    have hhi := (minutes * 60).toInt_lt
    omega
  · rintro ⟨hlo, hhi⟩
    rw [Int32.toInt_mul, hsixty]
    exact Int.bmod_eq_of_le (by omega) (by omega)

section Configured
variable {config : Config}

/-- A loop over ports that there are ends, whatever fails to open. -/
theorem startProxyLoop_runsOver (opens : Int → Bool)
    (hrange : config.serverPortStart.toInt ≤ config.serverPortEnd.toInt →
      0 ≤ config.serverPortStart.toInt ∧ config.serverPortEnd.toInt ≤ 65535) :
    RunsOver (startProxyLoop opens config) (upToFailure opens config.portRange) := by
  by_cases hle : config.serverPortStart.toInt ≤ config.serverPortEnd.toInt
  · obtain ⟨hlo, hhi⟩ := hrange hle
    have hmax : config.serverPortEnd.toInt < 2147483647 := by omega
    obtain ⟨counters, hcounters, hmap⟩ := portLoop_ends opens hmax
      (config.serverPortEnd.toInt + 1 - config.serverPortStart.toInt).toNat
      config.serverPortStart (by omega)
    refine ⟨_, counters, hcounters, hmap, fun port hport => (portType_eq_iff _).mpr ?_⟩
    have hmem : port.toInt ∈ config.portRange :=
      upToFailure_subset opens _ (hmap ▸ List.mem_map_of_mem hport)
    have hbounds := mem_portRange.mp hmem
    omega
  · have hdone : ¬ config.serverPortStart ≤ config.serverPortEnd := by
      rwa [Int32.le_iff_toInt_le]
    refine ⟨1, [], by simp [startProxyLoop, portLoop, hdone], ?_, by simp⟩
    rw [Config.portRange, portRange_nil (by omega)]
    rfl

theorem ports_of_runsOver {loop : Nat → Option (List Int32)} {ports : List Int}
    (h : RunsOver loop ports) : ∀ port ∈ ports, 0 ≤ port ∧ port ≤ 65535 := by
  obtain ⟨fuel, counters, -, rfl, hports⟩ := h
  intro port hport
  obtain ⟨counter, hcounter, rfl⟩ := List.mem_map.mp hport
  exact (portType_eq_iff _).mp (hports counter hcounter)

end Configured

/-- The configured numbers are harmless exactly when the range is empty or within
the ports there are, and the minutes make no more seconds than an `int` holds. -/
theorem noWrap_iff (config : Config) :
    NoWrap config ↔
      (config.serverPortStart.toInt ≤ config.serverPortEnd.toInt →
        0 ≤ config.serverPortStart.toInt ∧ config.serverPortEnd.toInt ≤ 65535) ∧
      -35791394 ≤ config.blockDurationMinutes.toInt ∧
        config.blockDurationMinutes.toInt ≤ 35791394 := by
  rw [← toInt_times_sixty]
  constructor
  · intro h
    refine ⟨fun hle => ?_, h.blockDuration⟩
    have hports := ports_of_runsOver h.main
    exact ⟨(hports _ (mem_portRange.mpr ⟨Int.le_refl _, hle⟩)).1,
      (hports _ (mem_portRange.mpr ⟨hle, Int.le_refl _⟩)).2⟩
  · rintro ⟨hrange, hminutes⟩
    have hmain := startProxyLoop_runsOver (fun _ => true) hrange
    rw [upToFailure_true] at hmain
    exact ⟨hmain, fun opens => startProxyLoop_runsOver opens hrange, hminutes⟩

/-- Port 65536 is opened as port 0, under the log line of port 65536. -/
def wideConfig : Config := { twoPortConfig with serverPortStart := 65536, serverPortEnd := 65536 }

def endlessConfig : Config :=
  { twoPortConfig with serverPortStart := 2147483647, serverPortEnd := 2147483647 }

def longBlockConfig : Config := { twoPortConfig with blockDurationMinutes := 35791395 }

theorem portLoop_endless (fuel : Nat) (port : Int32) :
    portLoop (fun _ => true) 2147483647 fuel port = none := by
  induction fuel generalizing port with
  | zero => rfl
  | succ fuel ih =>
    have hle : port ≤ 2147483647 := Int32.le_maxValue port
    simp [portLoop, hle, ih]

theorem configured_numbers_wrap :
    (¬ NoWrap wideConfig ∧ createServersLoop wideConfig 2 = some [65536] ∧
      portType 65536 = 0) ∧
    (¬ NoWrap endlessConfig ∧ ∀ fuel, createServersLoop endlessConfig fuel = none) ∧
    ¬ NoWrap longBlockConfig ∧ longBlockConfig.limits.blockDurationSeconds = -2147483596 := by
  refine ⟨⟨?_, by decide, by decide⟩, ⟨?_, ?_⟩, ?_, by decide⟩
  · rw [noWrap_iff]
    decide
  · rw [noWrap_iff]
    decide
  · intro fuel
    exact portLoop_endless fuel _
  · rw [noWrap_iff]
    decide

end Qwin
