import Qwin.Proxy.FailedStart

/-!
Any number of calls of `startProxy` on one proxy. Handlers run while a call is in
`ioContext.run()`, which only a call that opened every port gets to.
-/

set_option autoImplicit false

namespace Qwin
open Runs

/-- A proxy and whether a call of `startProxy` is in `ioContext.run()`. -/
structure Caller where
  proxy : UdpProxy
  running : Bool

inductive CallerAction where
  /-- Ports of `others` cannot be bound, for whatever reason. -/
  | call (ephemeral : Ephemeral) (others : List Nat)
  | act (a : Action)
  /-- `run()` returns, and with it the call. -/
  | returned

inductive CallerEvent where
  | started (reached : Bool)
  | acted (event : Event)
  | returned

/-- Nor can the ports that sockets of the proxy itself are bound to be bound again. -/
def UdpProxy.unbindable (s : UdpProxy) (others : List Nat) : List Nat :=
  s.sockets.map (·.boundTo) ++ others

def Action.isHandle : Action → Bool
  | .handle _ _ => true
  | _ => false

def Caller.step (s : Caller) : CallerAction → Option (CallerEvent × Caller)
  | .call ephemeral others =>
    if s.running then none
    else
      let (reached, _, proxy) := s.proxy.startProxy ephemeral (s.proxy.unbindable others)
      some (.started reached, ⟨proxy, reached⟩)
  | .act a =>
    if a.isHandle && !s.running then none
    else (s.proxy.step a).map fun (event, proxy) => (.acted event, ⟨proxy, s.running⟩)
  | .returned => if s.running then some (.returned, ⟨s.proxy, false⟩) else none

abbrev CallerStep := Transition Caller CallerAction CallerEvent

/-- The handler finds at its index the socket that its receive was started on,
which is the one for its port. -/
structure OwnSocket (s : UdpProxy) (r : Receive) : Prop where
  first : s.startPort ≤ r.port
  index : s.sockets[(r.port - s.startPort).toNat]? = some r.socket
  bound : BoundFor r.port r.socket

/-- The sockets are those for the ports from the first on, as many as there are. -/
structure InStep (startPort endPort : Int) (s : UdpProxy) : Prop where
  range : s.startPort = startPort ∧ s.endPort = endPort
  sockets : ∃ (opened : List (Int × Socket)) (rest : List Int),
    portRange s.startPort s.endPort = opened.map (·.1) ++ rest ∧
      s.sockets = opened.map (·.2) ∧ ∀ o ∈ opened, BoundFor o.1 o.2
  receives : ∀ r ∈ s.receives, OwnSocket s r

theorem inStep_new (startPort endPort : Int) (lim : Limits) (clock : Int) :
    InStep startPort endPort (.new startPort endPort lim clock) :=
  ⟨⟨rfl, rfl⟩, ⟨[], _, rfl, rfl, by simp⟩, by simp [UdpProxy.new]⟩

section Calls
variable {startPort endPort : Int} {s : UdpProxy}

theorem InStep.opened (h : InStep startPort endPort s) (hnone : s.sockets = [])
    {opened : List (Int × Socket)} {rest : List Int}
    (hports : portRange s.startPort s.endPort = opened.map (·.1) ++ rest)
    (hbound : ∀ o ∈ opened, BoundFor o.1 o.2) :
    InStep startPort endPort (s.withOpened opened) := by
  refine ⟨h.range, ⟨opened, rest, hports, by simp [UdpProxy.withOpened, hnone], hbound⟩, ?_⟩
  intro r hr
  rcases List.mem_append.mp hr with hold | hnew
  · -- a receive from before would have a socket
    have hindex := (h.receives r hold).index
    rw [hnone] at hindex
    cases hindex
  · obtain ⟨o, ho, rfl⟩ := List.mem_map.mp hnew
    obtain ⟨i, hi⟩ := List.mem_iff_getElem?.mp ho
    have hrange : (portRange s.startPort s.endPort)[i]? = some o.1 := by
      have hmap : (opened.map (·.1))[i]? = some o.1 := by
        rw [List.getElem?_map, hi, Option.map_some]
      rw [hports, List.getElem?_append_left (List.getElem?_eq_some_iff.mp hmap).1, hmap]
    have hvalue := portRange_getElem? hrange
    refine ⟨by simp only [UdpProxy.withOpened, armedReceive]; omega, ?_, hbound o ho⟩
    have hindex : (o.1 - s.startPort).toNat = i := by omega
    simp only [UdpProxy.withOpened, armedReceive, hnone, List.nil_append, hindex,
      List.getElem?_map, hi, Option.map_some]

theorem InStep.call (h : InStep startPort endPort s)
    (hport : startPort ≤ endPort → portType startPort ≠ 0) {ephemeral : Ephemeral}
    {others held' : List Nat} {reached : Bool} {s' : UdpProxy}
    (hcall : s.startProxy ephemeral (s.unbindable others) = (reached, held', s')) :
    InStep startPort endPort s' := by
  obtain ⟨opened, rest, hports, hsockets, hbound⟩ := h.sockets
  by_cases hsome : opened = []
  · obtain ⟨new, rest', hports', rfl, -, -, hopened, -⟩ := startLoop_opens hcall
    exact h.opened (by rw [hsockets, hsome, List.map_nil]) hports' hopened.bound
  · -- the first port is held by the proxy itself
    obtain ⟨o, opened, rfl⟩ := List.exists_cons_of_ne_nil hsome
    have hmem : o.1 ∈ portRange s.startPort s.endPort := by simp [hports]
    have hle : s.startPort ≤ s.endPort := by
      have hbounds := mem_portRange.mp hmem
      omega
    have hfirst : s.startPort = o.1 := by
      rw [portRange_cons hle, List.map_cons, List.cons_append, List.cons.injEq] at hports
      exact hports.1
    obtain ⟨hstart, hend⟩ := h.range
    have hnonzero : portType s.startPort ≠ 0 := by
      rw [hstart]
      exact hport (by omega)
    have hown : o.2.boundTo = portType s.startPort := by
      rw [hfirst] at hnonzero ⊢
      exact hbound o List.mem_cons_self hnonzero
    have hheld : portType s.startPort ∈ s.unbindable others := by
      simp [UdpProxy.unbindable, hsockets, hown]
    rw [startProxy_starved ephemeral hle hnonzero hheld] at hcall
    cases hcall
    exact h

theorem InStep.frame (h : InStep startPort endPort s) {s' : UdpProxy}
    (hstart : s'.startPort = s.startPort) (hend : s'.endPort = s.endPort)
    (hsockets : s'.sockets = s.sockets) (hreceives : ∀ r ∈ s'.receives, OwnSocket s r) :
    InStep startPort endPort s' := by
  refine ⟨?_, by rw [hstart, hend, hsockets]; exact h.sockets, fun r hr => ?_⟩
  · rw [hstart, hend]
    exact h.range
  · obtain ⟨hfirst, hindex, hbound⟩ := hreceives r hr
    exact ⟨by rwa [hstart], by rwa [hstart, hsockets], hbound⟩

theorem InStep.completed (h : InStep startPort endPort s) {i : Nat} {r : Receive}
    (hr : s.receives[i]? = some r) (c : Completion) :
    ∀ r' ∈ s.receives.set i { r with result := some c }, OwnSocket s r' := by
  intro r' hr'
  rcases List.mem_or_eq_of_mem_set hr' with hold | rfl
  · exact h.receives r' hold
  · obtain ⟨hfirst, hindex, hbound⟩ := h.receives r (List.mem_of_getElem? hr)
    exact ⟨hfirst, hindex, hbound⟩

/-- The socket that a handler finds is the one its receive was started on. -/
theorem InStep.found (h : InStep startPort endPort s) {r : Receive} (hr : r ∈ s.receives)
    {c : Completion} {env : Surroundings} {socket : Socket} {out : Option Outcome}
    {l : LimiterState} (hcompletes : Completes s r c env socket out l) : socket = r.socket := by
  rcases hcompletes.found with hfound | ⟨hsame, -⟩
  · exact Option.some.inj (hfound.symm.trans (h.receives r hr).index)
  · exact hsame

theorem InStep.step {t : ProxyStep} (h : InStep startPort endPort t.pre)
    (ht : t.pre.step t.input = some (t.output, t.post)) : InStep startPort endPort t.post := by
  obtain ⟨hstart, hend, -, hsockets⟩ := step_frame ht
  refine h.frame hstart hend hsockets ?_
  cases step_effect ht with
  | deliver i d r _ hr _ _ hpost =>
    rw [hpost]
    exact h.completed hr _
  | fail i aborted r _ hr _ _ hpost =>
    rw [hpost]
    exact h.completed hr _
  | handle i env r c socket out l _ hr hc _ hcompletes hpost =>
    have hown := h.receives r (List.mem_of_getElem? hr)
    rw [hpost]
    intro r' hr'
    rcases List.mem_append.mp hr' with hold | hrearm
    · exact h.receives r' (List.mem_of_mem_eraseIdx hold)
    · -- the next receive is started on the socket the handler found
      obtain rfl := mem_rearm hrearm
      obtain rfl := h.found (List.mem_of_getElem? hr) hcompletes
      exact ⟨hown.first, hown.index, hown.bound⟩
  | transmit j w _ _ _ _ hpost | sent j w _ _ _ hpost =>
    rw [hpost]
    exact h.receives

/-- What a completion handler starts is on the socket of its own receive. -/
theorem InStep.starts {t : ProxyStep} (h : InStep startPort endPort t.pre)
    (ht : t.pre.step t.input = some (t.output, t.post)) {i : Nat} {env : Surroundings}
    (hin : t.input = .handle i env) {r : Receive} (hr : t.pre.receives[i]? = some r) :
    (∀ w ∈ t.post.sends, w ∈ t.pre.sends ∨ w.socket = r.socket) ∧
      ∀ r' ∈ t.post.receives, r' ∈ t.pre.receives ∨ r'.socket = r.socket ∧ r'.port = r.port := by
  cases step_effect ht with
  | deliver _ _ _ hin' | fail _ _ _ hin' | transmit _ _ hin' | sent _ _ hin' =>
    rw [hin] at hin'
    cases hin'
  | handle i' env' r₀ c socket out l hin' hr' hc _ hcompletes hpost =>
    obtain ⟨rfl, rfl⟩ := Action.handle.inj (hin.symm.trans hin')
    obtain rfl := Option.some.inj (hr.symm.trans hr')
    have hsame := h.found (List.mem_of_getElem? hr) hcompletes
    rw [hpost]
    constructor
    · intro w hw
      rcases List.mem_append.mp hw with hold | hnew
      · exact .inl hold
      · exact .inr ((mem_sends_socket hnew).trans hsame)
    · intro r' hr'
      rcases List.mem_append.mp hr' with hold | hrearm
      · exact .inl (List.mem_of_mem_eraseIdx hold)
      · obtain rfl := mem_rearm hrearm
        exact .inr ⟨hsame, rfl⟩

/-- Within 1..65535 the socket of a receive is bound to the handler's port. -/
theorem InStep.bound_to_port (h : InStep startPort endPort s) (hlo : 1 ≤ startPort)
    (hhi : endPort ≤ 65535) {r : Receive} (hr : r ∈ s.receives) :
    startPort ≤ r.port ∧ r.port ≤ endPort ∧ (r.socket.boundTo : Int) = r.port := by
  obtain ⟨⟨rfl, rfl⟩, ⟨opened, rest, hports, hsockets, -⟩, hreceives⟩ := h
  obtain ⟨hfirst, hindex, hbound⟩ := hreceives r hr
  have hlast : r.port ≤ s.endPort := by
    obtain ⟨hi, -⟩ := List.getElem?_eq_some_iff.mp hindex
    have hlen := length_portRange s.startPort s.endPort
    rw [hports, List.length_append, List.length_map] at hlen
    simp only [hsockets, List.length_map] at hi
    omega
  refine ⟨hfirst, hlast, ?_⟩
  have hnonzero : portType r.port ≠ 0 := by
    simp only [portType]
    omega
  rw [hbound hnonzero, portType]
  omega

theorem InStep.callerStep {t : CallerStep} (h : InStep startPort endPort t.pre.proxy)
    (hport : startPort ≤ endPort → portType startPort ≠ 0)
    (ht : t.pre.step t.input = some (t.output, t.post)) :
    InStep startPort endPort t.post.proxy := by
  obtain ⟨s, input, output, s'⟩ := t
  unfold Caller.step at ht
  cases input with
  | call ephemeral others =>
    dsimp only at ht h ⊢
    split at ht
    · cases ht
    · cases ht
      exact h.call hport rfl
  | act a =>
    dsimp only at ht h ⊢
    split at ht
    · cases ht
    · obtain ⟨⟨event, proxy⟩, hstep, heq⟩ := Option.map_eq_some_iff.mp ht
      cases heq
      exact InStep.step (t := ⟨s.proxy, a, event, proxy⟩) h hstep
  | returned =>
    dsimp only at ht h ⊢
    split at ht
    · cases ht
      exact h
    · cases ht

end Calls

theorem run_inStep {startPort endPort : Int}
    (hport : startPort ≤ endPort → portType startPort ≠ 0) {s : Caller}
    (h : InStep startPort endPort s.proxy) {tr : List CallerStep} (hrun : IsRun Caller.step s tr) :
    InStep startPort endPort (final s tr).proxy :=
  hrun.invariant (fun u => InStep startPort endPort u.proxy) (fun _ => True) (fun _ _ => trivial) h
    fun _ _ h ht => h.callerStep hport ht

theorem act_step {t : CallerStep} {a : Action} (hin : t.input = .act a)
    (ht : t.pre.step t.input = some (t.output, t.post)) :
    ∃ event, t.pre.proxy.step a = some (event, t.post.proxy) := by
  rw [hin] at ht
  unfold Caller.step at ht
  dsimp only at ht
  split at ht
  · cases ht
  · obtain ⟨⟨event, proxy⟩, hstep, heq⟩ := Option.map_eq_some_iff.mp ht
    obtain ⟨-, hpost⟩ := Prod.mk.inj heq
    exact ⟨event, by rw [hstep, ← hpost]⟩

/-- In every state that calls of `startProxy` and what happens between and in them
lead to, each receive that has a handler still to run is on the socket which that
handler will find at its index, and this socket is bound to the handler's port. And
whenever a handler runs, the send and the receive it starts are on that socket. -/
theorem handlers_address_own_socket {startPort endPort : Int} (hlo : 1 ≤ startPort)
    (hhi : endPort ≤ 65535) (lim : Limits) (clock : Int) {tr : List CallerStep}
    (hrun : IsRun Caller.step ⟨.new startPort endPort lim clock, false⟩ tr) :
    (∀ r ∈ (final ⟨.new startPort endPort lim clock, false⟩ tr).proxy.receives,
      startPort ≤ r.port ∧ r.port ≤ endPort ∧
      (final ⟨.new startPort endPort lim clock, false⟩ tr).proxy.sockets[
        (r.port - startPort).toNat]? = some r.socket ∧
      (r.socket.boundTo : Int) = r.port) ∧
    ∀ t ∈ tr, ∀ i env r, t.input = .act (.handle i env) →
      t.pre.proxy.receives[i]? = some r →
      (∀ w ∈ t.post.proxy.sends, w ∈ t.pre.proxy.sends ∨ w.socket = r.socket) ∧
      ∀ r' ∈ t.post.proxy.receives,
        r' ∈ t.pre.proxy.receives ∨ r'.socket = r.socket ∧ r'.port = r.port := by
  have hport : startPort ≤ endPort → portType startPort ≠ 0 := by
    intro hle
    simp only [portType]
    omega
  have hreached : ∀ {before : List CallerStep},
      IsRun Caller.step ⟨.new startPort endPort lim clock, false⟩ before →
      InStep startPort endPort (final ⟨.new startPort endPort lim clock, false⟩ before).proxy :=
    fun hbefore => run_inStep hport (inStep_new startPort endPort lim clock) hbefore
  constructor
  · intro r hr
    have h := hreached hrun
    obtain ⟨hfirst, hindex, -⟩ := h.receives r hr
    obtain ⟨hrfirst, hrlast, hbound⟩ := h.bound_to_port hlo hhi hr
    rw [h.range.1] at hindex
    exact ⟨hrfirst, hrlast, hindex, hbound⟩
  · intro t ht i env r hin hr
    obtain ⟨before, after, rfl, hbefore, hpre, hstep⟩ := hrun.split ht
    have h := hreached hbefore
    rw [← hpre] at h
    obtain ⟨event, hevent⟩ := act_step hin hstep
    exact InStep.starts (t := ⟨t.pre.proxy, .handle i env, event, t.post.proxy⟩) h hevent rfl hr

/-- The first call fails at its first port, the second serves, the third fails. -/
def serveOnce : List CallerStep :=
  trace Caller.step ⟨.new 27015 27016 ⟨[], 10, 600⟩ 0, false⟩
    [.call dynamicPorts [27016, 27015], .call dynamicPorts [], .act (.deliver 1 alice),
      .act (.handle 1 sampleSurroundings), .act (.deliver 0 bob),
      .act (.handle 0 sampleSurroundings), .returned, .call dynamicPorts []]

theorem handlers_address_own_socket_eight :
    serveOnce.length = 8 ∧
    (∀ r ∈ (final ⟨.new 27015 27016 ⟨[], 10, 600⟩ 0, false⟩ serveOnce).proxy.receives,
      27015 ≤ r.port ∧ r.port ≤ 27016 ∧
      (final ⟨.new 27015 27016 ⟨[], 10, 600⟩ 0, false⟩ serveOnce).proxy.sockets[
        (r.port - 27015).toNat]? = some r.socket ∧
      (r.socket.boundTo : Int) = r.port) ∧
    ∀ t ∈ serveOnce, ∀ i env r, t.input = .act (.handle i env) →
      t.pre.proxy.receives[i]? = some r →
      (∀ w ∈ t.post.proxy.sends, w ∈ t.pre.proxy.sends ∨ w.socket = r.socket) ∧
      ∀ r' ∈ t.post.proxy.receives,
        r' ∈ t.pre.proxy.receives ∨ r'.socket = r.socket ∧ r'.port = r.port :=
  ⟨by decide, handlers_address_own_socket (by decide) (by decide) ⟨[], 10, 600⟩ 0
    (isRun_trace _ _)⟩

end Qwin
