import Qwin.Proxy.Listening

/-!
The start of src/main.cpp: one `ServerEmulator` for each port of the range, all of
them alive to the end of `main`, and then the proxy on the same range.
-/

set_option autoImplicit false

namespace Qwin

structure ServerEmulator where
  port : Int
  bound : Bool
  socket : Option Socket
  deriving DecidableEq, Repr

/-- The constructor catches the exception of a failed bind and returns an object
whose `bound` keeps its initial value. -/
def ServerEmulator.new (ephemeral : Ephemeral) (held : List Nat) (portNumParam : Int) :
    List Nat × ServerEmulator :=
  match bindPort ephemeral held (portType portNumParam) with
  | none => (held, ⟨portNumParam, false, none⟩)
  | some boundTo => (boundTo :: held, ⟨portNumParam, true, some ⟨boundTo⟩⟩)

def ServerEmulator.isBound (e : ServerEmulator) : Bool := e.bound

/-- The loop of `main` over the ports; `servers` owns every object it creates. -/
def createServers (ephemeral : Ephemeral) :
    List Int → List Nat → List Nat × List ServerEmulator
  | [], held => (held, [])
  | portNum :: ports, held =>
    let (held, server) := ServerEmulator.new ephemeral held portNum
    let (held, servers) := createServers ephemeral ports held
    (held, server :: servers)

structure Main where
  servers : List ServerEmulator
  reachedRun : Bool
  held : List Nat
  proxy : UdpProxy

/-- `main` from the loaded configuration to the return of `startProxy`, or to
its `ioContext.run()`. -/
def Main.start (ephemeral : Ephemeral) (config : Config) (clock : Int) (held : List Nat) : Main :=
  let startPort := config.serverPortStart.toInt
  let endPort := config.serverPortEnd.toInt
  let (held, servers) := createServers ephemeral (portRange startPort endPort) held
  let (reachedRun, held, proxy) :=
    (UdpProxy.new startPort endPort config.limits clock).startProxy ephemeral held
  ⟨servers, reachedRun, held, proxy⟩

structure Main.Serves (m : Main) : Prop where
  runs : m.reachedRun = true
  listens : ∀ port ∈ m.proxy.ports, ∃ socket ∈ m.proxy.sockets, socket.boundTo = portType port ∧
    ∃ r ∈ m.proxy.receives, r.socket = socket ∧ r.port = port ∧ r.result = none

/-- The ports are there, none of them is named twice, and none is held. -/
def AllFree (ports : List Int) (held : List Nat) : Prop :=
  (ports.map portType).Nodup ∧ ∀ port ∈ ports, portType port ≠ 0 ∧ portType port ∉ held

theorem allFree_cons {port : Int} {ports : List Int} {held : List Nat} :
    AllFree (port :: ports) held ↔
      (portType port ≠ 0 ∧ portType port ∉ held) ∧ AllFree ports (portType port :: held) := by
  unfold AllFree
  rw [List.forall_mem_cons, List.map_cons, List.nodup_cons]
  simp only [List.mem_map, List.mem_cons, not_or]
  constructor
  · rintro ⟨⟨hnew, hnodup⟩, hport, hall⟩
    exact ⟨hport, hnodup, fun p hp =>
      ⟨(hall p hp).1, fun heq => hnew ⟨p, hp, heq⟩, (hall p hp).2⟩⟩
  · rintro ⟨hport, hnodup, hall⟩
    refine ⟨⟨?_, hnodup⟩, hport, fun p hp => ⟨(hall p hp).1, (hall p hp).2.2⟩⟩
    rintro ⟨p, hp, heq⟩
    exact (hall p hp).2.1 heq

section Binding
variable {ephemeral : Ephemeral} {held : List Nat}

theorem bindPort_free {port : Nat} (hport : port ≠ 0 ∧ port ∉ held) :
    bindPort ephemeral held port = some port := by
  rw [bindPort, if_neg hport.1, if_neg hport.2]

theorem startLoop_reaches {ports : List Int} (hfree : AllFree ports held) (s : UdpProxy) :
    (UdpProxy.startLoop ephemeral ports held s).1 = true := by
  induction ports generalizing held s with
  | nil => rfl
  | cons port ports ih =>
    obtain ⟨hport, hrest⟩ := allFree_cons.mp hfree
    unfold UdpProxy.startLoop UdpProxy.openPort
    rw [bindPort_free hport]
    exact ih hrest _

/-- A proxy that comes first on free ports does serve them. -/
theorem serves_without_servers {startPort endPort : Int} (lim : Limits) (clock : Int)
    (hfree : AllFree (portRange startPort endPort) held) :
    let started := (UdpProxy.new startPort endPort lim clock).startProxy ephemeral held
    Main.Serves ⟨[], started.1, started.2.1, started.2.2⟩ := by
  intro started
  have hreached : started.1 = true := startLoop_reaches hfree _
  refine ⟨hreached, ?_⟩
  have hproxy : started = (true, started.2.1, started.2.2) := by rw [← hreached]
  obtain ⟨opened, hports, hshape, hopened⟩ := startLoop_reached hproxy
  dsimp only
  rw [hshape]
  intro port hport
  have hmem : port ∈ portRange startPort endPort := hport
  obtain ⟨o, ho, rfl⟩ := List.mem_map.mp (hports ▸ hmem)
  refine ⟨o.2, ?_, hopened.bound o ho (hfree.2 _ hmem).1, armedReceive o.2 o.1, ?_, rfl, rfl, rfl⟩
  · exact List.mem_append_right _ (List.mem_map_of_mem ho)
  · exact List.mem_append_right _ (List.mem_map_of_mem (f := fun o => armedReceive o.2 o.1) ho)

theorem createServers_bound {ports : List Int} (hfree : AllFree ports held) :
    ∀ server ∈ (createServers ephemeral ports held).2, server.isBound = true := by
  induction ports generalizing held with
  | nil => simp [createServers]
  | cons port ports ih =>
    obtain ⟨hport, hrest⟩ := allFree_cons.mp hfree
    have hnew : ServerEmulator.new ephemeral held port =
        (portType port :: held, ⟨port, true, some ⟨portType port⟩⟩) := by
      rw [ServerEmulator.new, bindPort_free hport]
    simp only [createServers, hnew, List.forall_mem_cons]
    exact ⟨rfl, ih hrest⟩

/-- A constructor that fails finds its port held; one for port 0 may hold any other. -/
theorem new_held (ephemeral : Ephemeral) (held : List Nat) (port : Int) :
    held ⊆ (ServerEmulator.new ephemeral held port).1 ∧
      (portType port ≠ 0 → portType port ∈ (ServerEmulator.new ephemeral held port).1) := by
  unfold ServerEmulator.new
  cases hbind : bindPort ephemeral held (portType port) with
  | none => exact ⟨List.Subset.refl _, fun hport => (bindPort_eq_none_iff hport).mp hbind⟩
  | some boundTo =>
    refine ⟨List.subset_cons_self _ _, fun hport => ?_⟩
    rw [← (bindPort_eq_some hbind).1 hport]
    exact List.mem_cons_self

theorem createServers_held (ephemeral : Ephemeral) (ports : List Int) (held : List Nat) :
    held ⊆ (createServers ephemeral ports held).1 ∧
      ∀ port ∈ ports, portType port ≠ 0 →
        portType port ∈ (createServers ephemeral ports held).1 := by
  induction ports generalizing held with
  | nil => exact ⟨List.Subset.refl _, by simp⟩
  | cons port ports ih =>
    obtain ⟨hsub, hall⟩ := ih (ServerEmulator.new ephemeral held port).1
    obtain ⟨hkept, hnew⟩ := new_held ephemeral held port
    refine ⟨List.Subset.trans hkept hsub, ?_⟩
    simp only [List.forall_mem_cons]
    exact ⟨fun hport => hsub (hnew hport), hall⟩

end Binding

theorem allFree_portRange {startPort endPort : Int} {held : List Nat} (hlo : 1 ≤ startPort)
    (hhi : endPort ≤ 65535) (hfree : ∀ port ∈ portRange startPort endPort, portType port ∉ held) :
    AllFree (portRange startPort endPort) held := by
  refine ⟨List.Nodup.map_on ?_ (portRange_nodup _ _), fun port hport => ⟨?_, hfree port hport⟩⟩
  · intro p hp q hq h
    have hp' := mem_portRange.mp hp
    have hq' := mem_portRange.mp hq
    simp only [portType] at h
    omega
  · have hbounds := mem_portRange.mp hport
    simp only [portType]
    omega

theorem portRange_cons {startPort endPort : Int} (h : startPort ≤ endPort) :
    portRange startPort endPort = startPort :: portRange (startPort + 1) endPort := by
  have hlen : (endPort - startPort + 1).toNat = (endPort - (startPort + 1) + 1).toNat + 1 := by
    omega
  unfold portRange
  rw [hlen, List.range_succ_eq_map, List.map_cons, List.map_map]
  congr 1
  · simp
  · apply List.map_congr_left
    intro i _
    simp
    omega

theorem startProxy_starved (ephemeral : Ephemeral) {s : UdpProxy} {held : List Nat}
    (hle : s.startPort ≤ s.endPort) (hport : portType s.startPort ≠ 0)
    (h : portType s.startPort ∈ held) : s.startProxy ephemeral held = (false, held, s) := by
  have hbind : bindPort ephemeral held (portType s.startPort) = none :=
    (bindPort_eq_none_iff hport).mpr h
  unfold UdpProxy.startProxy
  rw [portRange_cons hle]
  simp [UdpProxy.startLoop, UdpProxy.openPort, hbind]

/-- With every port of the range free the servers take them all, the proxy fails
at its first port and is left without a socket. -/
theorem main_starves_proxy (ephemeral : Ephemeral) (config : Config) (clock : Int)
    (held : List Nat) (hlo : 1 ≤ config.serverPortStart.toInt)
    (hle : config.serverPortStart.toInt ≤ config.serverPortEnd.toInt)
    (hhi : config.serverPortEnd.toInt ≤ 65535)
    (hfree : ∀ port ∈ portRange config.serverPortStart.toInt config.serverPortEnd.toInt,
      portType port ∉ held) :
    ¬ (Main.start ephemeral config clock held).Serves ∧
      (∀ server ∈ (Main.start ephemeral config clock held).servers, server.isBound = true) ∧
      (Main.start ephemeral config clock held).proxy.sockets = [] := by
  let ports := portRange config.serverPortStart.toInt config.serverPortEnd.toInt
  let proxy : UdpProxy := .new config.serverPortStart.toInt config.serverPortEnd.toInt
    config.limits clock
  have hports := allFree_portRange hlo hhi hfree
  have hfirst : config.serverPortStart.toInt ∈ ports := mem_portRange.mpr ⟨Int.le_refl _, hle⟩
  have hport : portType proxy.startPort ≠ 0 := (hports.2 _ hfirst).1
  have htaken : portType proxy.startPort ∈ (createServers ephemeral ports held).1 :=
    (createServers_held ephemeral ports held).2 _ hfirst hport
  have hstart : Main.start ephemeral config clock held =
      ⟨(createServers ephemeral ports held).2, false, (createServers ephemeral ports held).1,
        proxy⟩ := by
    have hstarved : proxy.startProxy ephemeral (createServers ephemeral ports held).1 =
        (false, (createServers ephemeral ports held).1, proxy) :=
      startProxy_starved ephemeral hle hport htaken
    simp only [Main.start]
    rw [hstarved]
  rw [hstart]
  refine ⟨fun hserves => ?_, ?_, rfl⟩
  · have hruns := hserves.runs
    cases hruns
  · exact createServers_bound hports

def twoPortConfig : Config where
  serverIp := "192.168.1.249"
  serverPortStart := 27015
  serverPortEnd := 27016
  remoteServerIp := "89.223.121.95"
  remoteServerPort := 27015
  logDirectory := "./logs/"
  maxConnectionsPerIp := 10
  blockDurationMinutes := 10
  excludedIps := ["127.0.0.1", "192.168.1.1"]

theorem main_starves_proxy_two :
    ¬ (Main.start dynamicPorts twoPortConfig 0 []).Serves ∧
      (∀ server ∈ (Main.start dynamicPorts twoPortConfig 0 []).servers, server.isBound = true) ∧
      (Main.start dynamicPorts twoPortConfig 0 []).proxy.sockets = [] :=
  main_starves_proxy dynamicPorts twoPortConfig 0 [] (by decide) (by decide) (by decide) (by decide)

theorem proxy_finds_ports_taken :
    (Main.start dynamicPorts twoPortConfig 0 []).servers.map (·.isBound) = [true, true] ∧
    (Main.start dynamicPorts twoPortConfig 0 []).reachedRun = false ∧
    (Main.start dynamicPorts twoPortConfig 0 []).proxy.receives = [] ∧
    ¬ (Main.start dynamicPorts twoPortConfig 0 []).Serves := by
  refine ⟨by decide, by decide, by decide, fun hserves => ?_⟩
  have hruns := hserves.runs
  revert hruns
  decide

end Qwin
