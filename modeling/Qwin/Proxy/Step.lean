import Qwin.Limiter.Step
import Qwin.Proxy.Model

/-! What starting the proxy leaves behind, and what each of its steps does. -/

set_option autoImplicit false

namespace Qwin
open Runs

theorem mem_portRange {startPort endPort port : Int} :
    port ∈ portRange startPort endPort ↔ startPort ≤ port ∧ port ≤ endPort := by
  simp only [portRange, List.mem_map, List.mem_range]
  constructor
  · rintro ⟨i, hi, rfl⟩
    omega
  · rintro ⟨hlo, hhi⟩
    exact ⟨(port - startPort).toNat, by omega, by omega⟩

/-- The steps of a loop that goes through the whole range. -/
theorem length_portRange (startPort endPort : Int) :
    ((portRange startPort endPort).length : Int) = max 0 (endPort - startPort + 1) := by
  simp only [portRange, List.length_map, List.length_range]
  omega

theorem portRange_nodup (startPort endPort : Int) : (portRange startPort endPort).Nodup := by
  refine List.Nodup.map ?_ List.nodup_range
  intro i j h
  simp only at h
  omega

theorem portRange_getElem? {startPort endPort port : Int} {i : Nat}
    (h : (portRange startPort endPort)[i]? = some port) : port = startPort + i := by
  obtain ⟨hi, rfl⟩ := List.getElem?_eq_some_iff.mp h
  simp [portRange]

def armedReceive (socket : Socket) (port : Int) : Receive := ⟨socket, port, .outer, none⟩

/-- Only for port 0 the machine chooses another one. -/
def BoundFor (port : Int) (socket : Socket) : Prop :=
  portType port ≠ 0 → socket.boundTo = portType port

/-- The proxy with these sockets opened, each of them armed for its port. -/
def UdpProxy.withOpened (s : UdpProxy) (opened : List (Int × Socket)) : UdpProxy :=
  { s with
    sockets := s.sockets ++ opened.map (·.2)
    receives := s.receives ++ opened.map fun o => armedReceive o.2 o.1 }

/-- The sockets that a loop opened where these ports were held before. -/
structure Opened (held : List Nat) (opened : List (Int × Socket)) : Prop where
  bound : ∀ o ∈ opened, BoundFor o.1 o.2
  fresh : ∀ o ∈ opened, o.2.boundTo ∉ held
  distinct : (opened.map (·.2.boundTo)).Nodup

section Starting
variable {ephemeral : Ephemeral} {held held' : List Nat} {s s' : UdpProxy}

theorem bindPort_eq_some {port : Int} {boundTo : Nat}
    (h : bindPort ephemeral held (portType port) = some boundTo) :
    BoundFor port ⟨boundTo⟩ ∧ boundTo ∉ held := by
  unfold bindPort at h
  split at h
  · rename_i hzero
    exact ⟨fun hport => absurd hzero hport, (ephemeral.free held boundTo h).2⟩
  · split at h
    · cases h
    · rename_i hfree
      obtain rfl := Option.some.inj h
      exact ⟨fun _ => rfl, hfree⟩

theorem opened_cons {o : Int × Socket} {opened : List (Int × Socket)} (hbound : BoundFor o.1 o.2)
    (hfresh : o.2.boundTo ∉ held) (h : Opened (o.2.boundTo :: held) opened) :
    Opened held (o :: opened) := by
  refine ⟨List.forall_mem_cons.mpr ⟨hbound, h.bound⟩, List.forall_mem_cons.mpr ⟨hfresh, ?_⟩, ?_⟩
  · exact fun o' ho' => List.not_mem_of_not_mem_cons (h.fresh o' ho')
  · refine List.nodup_cons.mpr ⟨fun hmem => ?_, h.distinct⟩
    obtain ⟨o', ho', heq⟩ := List.mem_map.mp hmem
    exact h.fresh o' ho' (heq ▸ List.mem_cons_self)

theorem bindPort_eq_none_iff {port : Nat} (hport : port ≠ 0) :
    bindPort ephemeral held port = none ↔ port ∈ held := by
  simp [bindPort, hport]

/-- The loop opens and arms the ports up to the first that cannot be bound, or all
of them. -/
theorem startLoop_opens {ports : List Int} {reached : Bool}
    (h : UdpProxy.startLoop ephemeral ports held s = (reached, held', s')) :
    ∃ opened rest, ports = opened.map (·.1) ++ rest ∧ s' = s.withOpened opened ∧
      held' = (opened.map (·.2.boundTo)).reverse ++ held ∧ (reached = true ↔ rest = []) ∧
      Opened held opened ∧
      ∀ port rest', rest = port :: rest' → bindPort ephemeral held' (portType port) = none := by
  induction ports generalizing held s with
  | nil =>
    simp only [UdpProxy.startLoop, Prod.mk.injEq] at h
    obtain ⟨rfl, rfl, rfl⟩ := h
    exact ⟨[], [], rfl, by simp [UdpProxy.withOpened], rfl, by simp, ⟨by simp, by simp, by simp⟩,
      by simp⟩
  | cons port ports ih =>
    unfold UdpProxy.startLoop UdpProxy.openPort at h
    cases hbind : bindPort ephemeral held (portType port) with
    | none =>
      simp only [hbind, Option.map_none, Prod.mk.injEq] at h
      obtain ⟨rfl, rfl, rfl⟩ := h
      refine ⟨[], port :: ports, rfl, by simp [UdpProxy.withOpened], rfl, by simp,
        ⟨by simp, by simp, by simp⟩, ?_⟩
      intro port' rest' hrest
      cases hrest
      exact hbind
    | some boundTo =>
      simp only [hbind, Option.map_some] at h
      obtain ⟨opened, rest, rfl, rfl, rfl, hreached, hopened, hnext⟩ := ih h
      obtain ⟨hbound, hfresh⟩ := bindPort_eq_some hbind
      refine ⟨(port, ⟨boundTo⟩) :: opened, rest, rfl, ?_, ?_, hreached, ?_, hnext⟩
      · simp [UdpProxy.withOpened, armedReceive]
      · simp
      · exact opened_cons hbound hfresh hopened

/-- A loop that reaches its end has opened and armed every port. -/
theorem startLoop_reached {ports : List Int}
    (h : UdpProxy.startLoop ephemeral ports held s = (true, held', s')) :
    ∃ opened, opened.map (·.1) = ports ∧ s' = s.withOpened opened ∧ Opened held opened := by
  obtain ⟨opened, rest, rfl, rfl, -, hreached, hopened, -⟩ := startLoop_opens h
  rw [hreached.mp rfl, List.append_nil]
  exact ⟨opened, rfl, rfl, hopened⟩

end Starting

def Started (s : UdpProxy) : Prop :=
  ∃ (startPort endPort : Int) (lim : Limits) (clock : Int) (ephemeral : Ephemeral)
    (held held' : List Nat),
    (UdpProxy.new startPort endPort lim clock).startProxy ephemeral held = (true, held', s)

/-- A started proxy is a new one with every port of its range opened. -/
theorem started_opened {s : UdpProxy} (h : Started s) :
    ∃ (lim : Limits) (clock : Int) (held : List Nat) (opened : List (Int × Socket)),
      s = (UdpProxy.new s.startPort s.endPort lim clock).withOpened opened ∧
      opened.map (·.1) = portRange s.startPort s.endPort ∧ Opened held opened := by
  obtain ⟨startPort, endPort, lim, clock, ephemeral, held, held', hs⟩ := h
  obtain ⟨opened, hports, rfl, hopened⟩ := startLoop_reached hs
  exact ⟨lim, clock, held, opened, rfl, hports, hopened⟩

theorem started_receives {s : UdpProxy} (h : Started s) :
    ∃ opened : List (Int × Socket), opened.map (·.1) = portRange s.startPort s.endPort ∧
      s.receives = (opened.map fun o => armedReceive o.2 o.1) ∧ s.sends = [] := by
  obtain ⟨lim, clock, -, opened, hs, hports, -⟩ := started_opened h
  refine ⟨opened, hports, ?_, ?_⟩
  · rw [hs]
    rfl
  · rw [hs]
    rfl

theorem getElem?_split {α : Type} {l : List α} {i : Nat} {a : α} (h : l[i]? = some a) :
    ∃ l₁ l₂, l = l₁ ++ a :: l₂ ∧ l.eraseIdx i = l₁ ++ l₂ ∧ ∀ x, l.set i x = l₁ ++ x :: l₂ := by
  obtain ⟨hi, rfl⟩ := List.getElem?_eq_some_iff.mp h
  refine ⟨l.take i, l.drop (i + 1), ?_, List.eraseIdx_eq_take_drop_succ l i, fun x => ?_⟩
  · rw [List.getElem_cons_drop, List.take_append_drop]
  · rw [List.set_eq_take_append_cons_drop, if_pos hi]

theorem step_forwarded_size {lim : Limits} {s s' : LimiterState} {p : Packet}
    {remoteEndpoint : Endpoint} {size : Nat}
    (h : step lim s p = some (.forwarded remoteEndpoint size, s')) :
    size = min p.bytesReceived bufferSize := by
  have hout := step_outcome h
  rw [handle_fst] at hout
  split at hout
  · cases hout
  · exact (forward_eq_forwarded_iff.mp hout).2.2.symm

/-- The send that a handler starts for its datagram, if it starts one. -/
def Outcome.sends (d : Datagram) (socket : Socket) : Outcome → List Send
  | .forwarded remoteEndpoint size => [⟨socket, remoteEndpoint, size, d, none⟩]
  | _ => []

theorem handleAt_eq (s : UdpProxy) (socket : Socket) (d : Datagram) (env : Surroundings) :
    s.handleAt socket d env =
      (step s.limits s.limiter ⟨s.clientEndpoint, d.kept.length, env⟩).map fun (out, l) =>
        (out, { s with limiter := l, sends := s.sends ++ out.sends d socket }) := by
  unfold UdpProxy.handleAt
  cases step s.limits s.limiter ⟨s.clientEndpoint, d.kept.length, env⟩ with
  | none => rfl
  | some r =>
    obtain ⟨out, l⟩ := r
    cases out <;> simp [Outcome.sends]

/-- Whether a completion makes its handler start the next receive. -/
def Handler.rearms : Handler → Completion → Bool
  | .outer, .received _ => true
  | _, _ => false

/-- Whether the handler passes what was received to `handleIncomingPacket`. -/
def Handler.examines : Handler → Completion → Bool
  | .outer, .received d => 0 < d.kept.length
  | .inner, .received _ => true
  | _, .failed _ => false

theorem examines_iff {handler : Handler} {d : Datagram} :
    handler.examines (.received d) = true ↔ (handler = .outer → 0 < d.kept.length) := by
  cases handler <;> simp [Handler.examines]

def Receive.rearm (r : Receive) (c : Completion) (socket : Socket) : List Receive :=
  if r.handler.rearms c then [⟨socket, r.port, .inner, none⟩] else []

theorem mem_rearm {r r' : Receive} {c : Completion} {socket : Socket}
    (h : r' ∈ r.rearm c socket) : r' = ⟨socket, r.port, .inner, none⟩ := by
  unfold Receive.rearm at h
  split at h
  · exact List.mem_singleton.mp h
  · cases h

theorem complete_failed (s : UdpProxy) (r : Receive) (aborted : Bool) (env : Surroundings) :
    s.complete r (.failed aborted) env = some (none, s) := by
  obtain ⟨sock, port, handler, result⟩ := r
  cases handler <;> rfl

theorem complete_received (s : UdpProxy) (r : Receive) (d : Datagram) (env : Surroundings) :
    s.complete r (.received d) env =
      s.sockets[(r.port - s.startPort).toNat]?.bind fun socket =>
        (if r.handler.examines (.received d) then
            (s.handleAt socket d env).map fun (out, s) => (some out, s)
          else some (none, s)).map fun (out, s) =>
            (out, { s with receives := s.receives ++ r.rearm (.received d) socket }) := by
  obtain ⟨sock, port, handler, result⟩ := r
  unfold UdpProxy.complete
  cases hsocket : s.sockets[(port - s.startPort).toNat]? with
  | none => cases handler <;> simp
  | some socket =>
    cases handler with
    | outer =>
      by_cases hpos : 0 < d.kept.length <;>
        simp [hpos, Receive.rearm, Handler.rearms, Handler.examines, Function.comp_def]
    | inner =>
      simp [Receive.rearm, Handler.rearms, Handler.examines, Function.comp_def]

/-- What a completion handler comes to. The limiter is asked about the endpoint that
lies in `clientEndpoint`; the socket is the one it finds at its port's index, or, as
a failed receive makes it look for none, the receive's own. -/
structure Completes (s : UdpProxy) (r : Receive) (c : Completion) (env : Surroundings)
    (socket : Socket) (out : Option Outcome) (l : LimiterState) : Prop where
  found : s.sockets[(r.port - s.startPort).toNat]? = some socket ∨
    socket = r.socket ∧ ∃ aborted, c = .failed aborted
  examined : out.isSome = r.handler.examines c
  unasked : out = none → l = s.limiter
  asked : ∀ o, out = some o →
    step s.limits s.limiter ⟨s.clientEndpoint, c.size, env⟩ = some (o, l)

/-- The send that a completion handler starts. -/
def Completion.sends (c : Completion) (out : Option Outcome) (socket : Socket) : List Send :=
  match c, out with
  | .received d, some out => out.sends d socket
  | _, _ => []

theorem complete_eq_some {s s' : UdpProxy} {r : Receive} {c : Completion} {env : Surroundings}
    {out : Option Outcome} (h : s.complete r c env = some (out, s')) :
    ∃ socket l, Completes s r c env socket out l ∧ s' = { s with
      limiter := l
      sends := s.sends ++ c.sends out socket
      receives := s.receives ++ r.rearm c socket } := by
  cases c with
  | failed aborted =>
    rw [complete_failed] at h
    cases h
    refine ⟨r.socket, s.limiter, ⟨.inr ⟨rfl, _, rfl⟩, ?_, fun _ => rfl, by simp⟩, ?_⟩
    · cases r.handler <;> rfl
    · have hrearm : r.handler.rearms (.failed aborted) = false := by cases r.handler <;> rfl
      simp [Completion.sends, Receive.rearm, hrearm]
  | received d =>
    rw [complete_received] at h
    obtain ⟨socket, hsocket, hmap⟩ := Option.bind_eq_some_iff.mp h
    obtain ⟨⟨out', s₁⟩, hexamine, heq⟩ := Option.map_eq_some_iff.mp hmap
    obtain ⟨rfl, rfl⟩ := Prod.mk.inj heq
    split at hexamine
    · rename_i hexamined
      obtain ⟨⟨o, s₂⟩, hhandle, heq⟩ := Option.map_eq_some_iff.mp hexamine
      obtain ⟨rfl, rfl⟩ := Prod.mk.inj heq
      rw [handleAt_eq] at hhandle
      obtain ⟨⟨o', l⟩, hstep, heq⟩ := Option.map_eq_some_iff.mp hhandle
      obtain ⟨rfl, rfl⟩ := Prod.mk.inj heq
      refine ⟨socket, l, ⟨.inl hsocket, hexamined.symm, by simp, ?_⟩, rfl⟩
      rintro _ ⟨⟩
      exact hstep
    · rename_i hskipped
      obtain ⟨rfl, rfl⟩ := Prod.mk.inj (Option.some.inj hexamine)
      refine ⟨socket, s.limiter, ⟨.inl hsocket, ?_, fun _ => rfl, by simp⟩, ?_⟩
      · exact (Bool.eq_false_iff.mpr hskipped).symm
      · simp [Completion.sends]

theorem mem_sends_socket {c : Completion} {out : Option Outcome} {socket : Socket} {w : Send}
    (hw : w ∈ c.sends out socket) : w.socket = socket := by
  unfold Completion.sends at hw
  split at hw
  · rename_i d o
    cases o with
    | forwarded remoteEndpoint size => rw [List.mem_singleton.mp hw]
    | refused | failed => cases hw
  · cases hw

/-- The sends that a handler starts are of its own datagram, as far as it was kept. -/
theorem mem_sends_of_completes {s : UdpProxy} {r : Receive} {c : Completion}
    {env : Surroundings} {socket : Socket} {out : Option Outcome} {l : LimiterState}
    (h : Completes s r c env socket out l) {w : Send} (hw : w ∈ c.sends out socket) :
    w.wire = none ∧ c = .received w.origin ∧ w.size = w.origin.kept.length ∧
      out = some (.forwarded w.remoteEndpoint w.size) := by
  unfold Completion.sends at hw
  split at hw
  · rename_i d o
    cases o with
    | forwarded remoteEndpoint size =>
      obtain rfl := List.mem_singleton.mp hw
      have hsize := step_forwarded_size (h.asked _ rfl)
      have hkept : d.kept.length ≤ bufferSize := List.length_take_le _ _
      exact ⟨rfl, rfl, hsize.trans (Nat.min_eq_left hkept), rfl⟩
    | refused | failed => cases hw
  · cases hw

inductive Effect (t : ProxyStep) : Prop where
  | deliver (i : Nat) (d : Datagram) (r : Receive) (hin : t.input = .deliver i d)
      (hr : t.pre.receives[i]? = some r) (hnone : r.result = none) (hout : t.output = .silent)
      (hpost : t.post = { t.pre.write d with
        receives := t.pre.receives.set i { r with result := some (.received d) } })
  | fail (i : Nat) (aborted : Bool) (r : Receive) (hin : t.input = .fail i aborted)
      (hr : t.pre.receives[i]? = some r) (hnone : r.result = none) (hout : t.output = .silent)
      (hpost : t.post = { t.pre with
        receives := t.pre.receives.set i { r with result := some (.failed aborted) } })
  | handle (i : Nat) (env : Surroundings) (r : Receive) (c : Completion) (socket : Socket)
      (out : Option Outcome) (l : LimiterState) (hin : t.input = .handle i env)
      (hr : t.pre.receives[i]? = some r) (hc : r.result = some c)
      (hout : t.output =
        .handled r.port c t.pre.clientEndpoint (t.pre.buffer.take c.size) out)
      (hcompletes : Completes t.pre r c env socket out l)
      (hpost : t.post = { t.pre with
        limiter := l
        sends := t.pre.sends ++ c.sends out socket
        receives := t.pre.receives.eraseIdx i ++ r.rearm c socket })
  | transmit (j : Nat) (w : Send) (hin : t.input = .transmit j)
      (hw : t.pre.sends[j]? = some w) (hnone : w.wire = none)
      (hout : t.output = .transmitted { w with wire := some (t.pre.buffer.take w.size) }
        (t.pre.buffer.take w.size))
      (hpost : t.post = { t.pre with
        sends := t.pre.sends.set j { w with wire := some (t.pre.buffer.take w.size) } })
  | sent (j : Nat) (w : Send) (hin : t.input = .sent j) (hw : t.pre.sends[j]? = some w)
      (hout : t.output = .silent)
      (hpost : t.post = { t.pre with sends := t.pre.sends.eraseIdx j })

theorem finish_eq_some {s s' : UdpProxy} {i : Nat} {c : Completion}
    (h : s.finish i c = some s') :
    ∃ r, s.receives[i]? = some r ∧ r.result = none ∧
      s' = { s with receives := s.receives.set i { r with result := some c } } := by
  unfold UdpProxy.finish at h
  split at h
  · rename_i socket port handler hr
    cases h
    exact ⟨_, hr, rfl, rfl⟩
  · cases h

theorem step_effect {t : ProxyStep} (ht : t.pre.step t.input = some (t.output, t.post)) :
    Effect t := by
  obtain ⟨s, input, output, s'⟩ := t
  dsimp only at ht
  cases input with
  | deliver i d =>
    obtain ⟨s₁, hs₁, heq⟩ := Option.map_eq_some_iff.mp ht
    obtain ⟨r, hr, hnone, rfl⟩ := finish_eq_some hs₁
    cases heq
    exact .deliver i d r rfl hr hnone rfl rfl
  | fail i aborted =>
    obtain ⟨s₁, hs₁, heq⟩ := Option.map_eq_some_iff.mp ht
    obtain ⟨r, hr, hnone, rfl⟩ := finish_eq_some hs₁
    cases heq
    exact .fail i aborted r rfl hr hnone rfl rfl
  | handle i env =>
    unfold UdpProxy.step at ht
    dsimp only at ht
    split at ht
    · rename_i socket port handler c hr
      obtain ⟨⟨out, s₁⟩, hs₁, heq⟩ := Option.map_eq_some_iff.mp ht
      obtain ⟨socket', l, hcompletes, rfl⟩ := complete_eq_some hs₁
      cases heq
      exact .handle i env _ c socket' out l rfl hr rfl rfl
        ⟨hcompletes.found, hcompletes.examined, hcompletes.unasked, hcompletes.asked⟩ rfl
    · cases ht
  | transmit j =>
    unfold UdpProxy.step at ht
    dsimp only at ht
    split at ht
    · rename_i socket remote size origin hw
      cases ht
      exact .transmit j _ rfl hw rfl rfl rfl
    · cases ht
  | sent j =>
    unfold UdpProxy.step at ht
    dsimp only at ht
    split at ht
    · rename_i w hw
      cases ht
      exact .sent j w rfl hw rfl rfl
    · cases ht

/-- What no step of the started proxy touches. -/
theorem step_frame {t : ProxyStep} (ht : t.pre.step t.input = some (t.output, t.post)) :
    t.post.startPort = t.pre.startPort ∧ t.post.endPort = t.pre.endPort ∧
      t.post.limits = t.pre.limits ∧ t.post.sockets = t.pre.sockets := by
  cases step_effect ht with
  | deliver _ _ _ _ _ _ _ hpost | fail _ _ _ _ _ _ _ hpost | handle _ _ _ _ _ _ _ _ _ _ _ _ hpost
  | transmit _ _ _ _ _ _ hpost | sent _ _ _ _ _ hpost =>
    rw [hpost]
    exact ⟨rfl, rfl, rfl, rfl⟩

end Qwin
