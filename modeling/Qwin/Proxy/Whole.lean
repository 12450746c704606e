import Mathlib.Data.List.TakeDrop
import Qwin.Proxy.Reflection

/-!
Whether a datagram is forwarded whole by either of the two completion handlers.
Only the outer one looks at the size, and the buffer has 1024 bytes.
-/

set_option autoImplicit false

namespace Qwin
open Runs

/-- The shared objects hold the datagram, or what the buffer has room for. -/
structure Holds (s : UdpProxy) (d : Datagram) : Prop where
  sender : s.clientEndpoint = d.sender
  bytes : s.buffer.take d.kept.length = d.kept

/-- No receive writes to the shared objects. -/
def Quiet (tr : List ProxyStep) : Prop := ∀ t ∈ tr, t.input.delivers = false

/-- A step that delivers nothing leaves both shared objects alone. -/
theorem shared_eq_of_quiet {t : ProxyStep} (hquiet : t.input.delivers = false)
    (ht : t.pre.step t.input = some (t.output, t.post)) :
    t.post.clientEndpoint = t.pre.clientEndpoint ∧ t.post.buffer = t.pre.buffer := by
  cases step_effect ht with
  | deliver i d r hin =>
    rw [hin] at hquiet
    cases hquiet
  | fail _ _ _ _ _ _ _ hpost | handle _ _ _ _ _ _ _ _ _ _ _ _ hpost | transmit _ _ _ _ _ _ hpost
  | sent _ _ _ _ _ hpost =>
    rw [hpost]
    exact ⟨rfl, rfl⟩

theorem shared_eq_of_quiet_run {s : UdpProxy} {tr : List ProxyStep}
    (hrun : IsRun UdpProxy.step s tr) (hquiet : Quiet tr) :
    (final s tr).clientEndpoint = s.clientEndpoint ∧ (final s tr).buffer = s.buffer := by
  refine hrun.invariant (fun u => u.clientEndpoint = s.clientEndpoint ∧ u.buffer = s.buffer)
    (fun t => t.input.delivers = false) (fun t ht => hquiet t ht) ⟨rfl, rfl⟩ ?_
  rintro t hok ⟨hendpoint, hbuffer⟩ ht
  obtain ⟨hendpoint', hbuffer'⟩ := shared_eq_of_quiet hok ht
  exact ⟨hendpoint'.trans hendpoint, hbuffer'.trans hbuffer⟩

theorem holds_delivered {t : ProxyStep} {i : Nat} {d : Datagram} (hin : t.input = .deliver i d)
    (ht : t.pre.step t.input = some (t.output, t.post)) : Holds t.post d := by
  rw [hin] at ht
  obtain ⟨s₁, hs₁, heq⟩ := Option.map_eq_some_iff.mp ht
  obtain ⟨r, -, -, rfl⟩ := finish_eq_some hs₁
  rw [← (Prod.mk.inj heq).2]
  exact ⟨rfl, List.take_left⟩

/-- The last datagram that a run delivered. -/
def LastDelivered (tr : List ProxyStep) (d : Datagram) : Prop :=
  ∃ before t after i, tr = before ++ t :: after ∧ t.input = .deliver i d ∧ Quiet after

theorem holds_last {s : UdpProxy} {tr : List ProxyStep} (hrun : IsRun UdpProxy.step s tr)
    {d : Datagram} (hlast : LastDelivered tr d) : Holds (final s tr) d := by
  obtain ⟨before, t, after, i, rfl, hin, hquiet⟩ := hlast
  obtain ⟨-, hrest⟩ := (isRun_append s before _).mp hrun
  obtain ⟨-, ht, hafter⟩ := (isRun_cons _ t after).mp hrest
  have hholds := holds_delivered hin ht
  obtain ⟨hendpoint, hbuffer⟩ := shared_eq_of_quiet_run hafter hquiet
  rw [final_append]
  constructor
  · exact hendpoint.trans hholds.sender
  · exact (congrArg (List.take d.kept.length) hbuffer).trans hholds.bytes

/-- No step moves a socket, so the port's own stays at its index. -/
theorem socket_of_port {s : UdpProxy} (hstart : Started s) {tr : List ProxyStep}
    (hrun : IsRun UdpProxy.step s tr) {port : Int} (hlo : s.startPort ≤ port)
    (hhi : port ≤ s.endPort) :
    ∃ socket, (final s tr).sockets[(port - (final s tr).startPort).toNat]? = some socket := by
  have hsame : (final s tr).startPort = s.startPort ∧ (final s tr).sockets = s.sockets := by
    refine hrun.history (fun _ u => u.startPort = s.startPort ∧ u.sockets = s.sockets)
      ⟨rfl, rfl⟩ fun _ t h ht => ?_
    obtain ⟨hfirst, -, -, hsockets⟩ := step_frame ht
    exact ⟨hfirst.trans h.1, hsockets.trans h.2⟩
  obtain ⟨lim, clock, -, opened, hs, hports, -⟩ := started_opened hstart
  obtain ⟨i, hi⟩ := List.mem_iff_getElem?.mp (mem_portRange.mpr ⟨hlo, hhi⟩)
  have hvalue := portRange_getElem? hi
  have hindex : (port - s.startPort).toNat = i := by omega
  have hsockets : s.sockets = opened.map (·.2) := by
    rw [hs]
    rfl
  rw [← hports, List.getElem?_map, Option.map_eq_some_iff] at hi
  obtain ⟨o, ho, -⟩ := hi
  rw [hsame.1, hsame.2, hindex, hsockets, List.getElem?_map, ho]
  exact ⟨o.2, rfl⟩

/-- From `s` to `s'` one send was started. Whenever it takes its bytes, with no
datagram delivered in between, they are these. -/
def SendsOnly (s s' : UdpProxy) (payload : Bytes) : Prop :=
  ∃ w, s'.sends = s.sends ++ [w] ∧ w.wire = none ∧
    ∀ tr, IsRun UdpProxy.step s' tr → Quiet tr → ∀ j, (final s' tr).sends[j]? = some w →
      ∃ s'', (final s' tr).step (.transmit j) =
        some (.transmitted { w with wire := some payload } payload, s'')

/-- The receive whose handler runs, with what it was started for. -/
def completedReceive (socket : Socket) (port : Int) (handler : Handler) (c : Completion) :
    Receive := ⟨socket, port, handler, some c⟩

/-- Whether the handler writes the line of a failed receive. The outer one does so
for an empty datagram too, as the absence of an error is not `operation_aborted`. -/
def Handler.logsError : Handler → Completion → Bool
  | _, .failed operationAborted => !operationAborted
  | .outer, .received d => d.kept.length = 0
  | .inner, .received _ => false

/-- All that becomes of a completion, beside the next receive of the port. -/
structure TreatedAlike (s : UdpProxy) (socket : Socket) (port : Int) (c : Completion)
    (env : Surroundings) : Prop where
  result : (s.complete (completedReceive socket port .outer c) c env).map
      (fun x => (x.1, x.2.limiter, x.2.sends)) =
    (s.complete (completedReceive socket port .inner c) c env).map
      fun x => (x.1, x.2.limiter, x.2.sends)
  log : Handler.outer.logsError c = Handler.inner.logsError c

def SendsWhole (s : UdpProxy) (socket : Socket) (port : Int) (handler : Handler) (d : Datagram)
    (env : Surroundings) : Prop :=
  ∃ out s', s.complete (completedReceive socket port handler (.received d)) (.received d) env =
    some (out, s') ∧ SendsOnly s s' d.payload

structure ForwardedWhole (s : UdpProxy) (socket : Socket) (port : Int) (d : Datagram)
    (env : Surroundings) : Prop where
  outer : SendsWhole s socket port .outer d env
  inner : SendsWhole s socket port .inner d env
  alike : TreatedAlike s socket port (.received d) env

/-- The limiter lets the sender pass, at readings of the clock that do not go back. -/
def Admits (s : UdpProxy) (d : Datagram) (env : Surroundings) : Prop :=
  ∃ out l, step s.limits s.limiter ⟨d.sender, d.kept.length, env⟩ = some (out, l) ∧
    out ≠ .refused

section Handlers
variable {s : UdpProxy} {socket own : Socket} {port : Int} {d : Datagram} {env : Surroundings}

theorem kept_eq_payload_iff : d.kept = d.payload ↔ d.payload.length ≤ bufferSize :=
  List.take_eq_self_iff _

theorem kept_length_eq_zero_iff : d.kept.length = 0 ↔ d.payload = [] := by
  simp [Datagram.kept, bufferSize]

theorem transmit_eq {j : Nat} {w : Send} (hw : s.sends[j]? = some w) (hwire : w.wire = none) :
    s.step (.transmit j) =
      some (.transmitted { w with wire := some (s.buffer.take w.size) } (s.buffer.take w.size),
        { s with sends := s.sends.set j { w with wire := some (s.buffer.take w.size) } }) := by
  obtain ⟨sock, remote, size, origin, wire⟩ := w
  obtain rfl : wire = none := hwire
  simp [UdpProxy.step, hw]

/-- A send of the kept bytes puts the whole payload on the wire if all was kept. -/
theorem sendsOnly_iff {s' : UdpProxy} {w : Send} (hholds : Holds s' d)
    (hsends : s'.sends = s.sends ++ [w]) (hwire : w.wire = none)
    (hsize : w.size = d.kept.length) :
    SendsOnly s s' d.payload ↔ d.payload.length ≤ bufferSize := by
  rw [← kept_eq_payload_iff]
  constructor
  · rintro ⟨w', hsends', -, hwhole⟩
    obtain rfl : w = w' := by simpa [hsends] using hsends'
    have hj : s'.sends[s.sends.length]? = some w := by simp [hsends]
    obtain ⟨s'', hstep⟩ := hwhole [] trivial (by simp [Quiet]) _ hj
    change s'.step _ = _ at hstep
    rw [transmit_eq hj hwire] at hstep
    have hbytes := (Event.transmitted.inj (Prod.mk.inj (Option.some.inj hstep)).1).2
    rw [hsize] at hbytes
    exact hholds.bytes.symm.trans hbytes
  · intro hkept
    refine ⟨w, hsends, hwire, fun tr hrun hquiet j hw => ?_⟩
    have hbytes : (final s' tr).buffer.take w.size = d.payload := by
      rw [(shared_eq_of_quiet_run hrun hquiet).2, hsize, hholds.bytes, hkept]
    rw [transmit_eq hw hwire, hbytes]
    exact ⟨_, rfl⟩

theorem step_admitted (hholds : Holds s d) (hadmits : Admits s d env) :
    ∃ l, step s.limits s.limiter ⟨s.clientEndpoint, d.kept.length, env⟩ =
      some (forward d.kept.length env, l) := by
  obtain ⟨out, l, hstep, hpass⟩ := hadmits
  have hout : out = forward d.kept.length env := by
    rw [← step_outcome hstep] at hpass ⊢
    rw [handle_fst, if_neg (mt (handle_refused_iff _ _).mpr hpass)]
  rw [← hholds.sender, hout] at hstep
  exact ⟨l, hstep⟩

/-- Past the check of the size both handlers do the same, the next receive apart. -/
theorem complete_examined (hown : s.sockets[(port - s.startPort).toNat]? = some own)
    {handler : Handler} (hexamined : handler = .outer → 0 < d.kept.length) :
    s.complete (completedReceive socket port handler (.received d)) (.received d) env =
      (s.handleAt own d env).map fun x => (some x.1, { x.2 with
        receives := x.2.receives ++
          (completedReceive socket port handler (.received d)).rearm (.received d) own }) := by
  simp [complete_received, completedReceive, hown, examines_iff.mpr hexamined, Function.comp_def]

/-- A handler that examines an admitted datagram starts one send of what was kept,
if the remote server is resolved and the send can be started. -/
theorem complete_sends (hholds : Holds s d) (hadmits : Admits s d env)
    (hown : s.sockets[(port - s.startPort).toNat]? = some own) {handler : Handler}
    (hexamined : handler = .outer → 0 < d.kept.length) (hresolved : env.resolved.isSome)
    (hstarts : env.sendStarts = true) :
    ∃ out s' e, s.complete (completedReceive socket port handler (.received d)) (.received d) env =
        some (out, s') ∧
      s'.sends = s.sends ++ [⟨own, e, d.kept.length, d, none⟩] ∧ Holds s' d := by
  obtain ⟨e, he⟩ := Option.isSome_iff_exists.mp hresolved
  obtain ⟨l, hstep⟩ := step_admitted hholds hadmits
  have hforward : forward d.kept.length env = .forwarded e d.kept.length :=
    forward_eq_forwarded_iff.mpr ⟨he, hstarts, Nat.min_eq_left (List.length_take_le _ _)⟩
  rw [hforward] at hstep
  rw [complete_examined hown hexamined, handleAt_eq, hstep]
  exact ⟨_, _, e, rfl, rfl, hholds.sender, hholds.bytes⟩

theorem complete_unsent {handler : Handler}
    (h : ¬ ((handler = .outer → 0 < d.kept.length) ∧ env.resolved.isSome ∧
      env.sendStarts = true)) {out : Option Outcome} {s' : UdpProxy}
    (hcomplete : s.complete (completedReceive socket port handler (.received d)) (.received d) env =
      some (out, s')) :
    s'.sends = s.sends := by
  obtain ⟨own, l, hcompletes, rfl⟩ := complete_eq_some hcomplete
  have hnone : (Completion.received d).sends out own = [] := by
    refine List.eq_nil_iff_forall_not_mem.mpr fun w hw => h ?_
    obtain ⟨-, -, -, hout⟩ := mem_sends_of_completes hcompletes hw
    obtain ⟨-, hresolved, hstarts⟩ :=
      (step_forwarded_iff (hcompletes.asked _ hout) w.remoteEndpoint).mp ⟨w.size, rfl⟩
    change env.resolved = _ at hresolved
    have hexamined := hcompletes.examined
    rw [hout] at hexamined
    exact ⟨examines_iff.mp hexamined.symm, by simp [hresolved], hstarts⟩
  rw [hnone, List.append_nil]

theorem sendsWhole_iff (hholds : Holds s d) (hadmits : Admits s d env)
    (hown : s.sockets[(port - s.startPort).toNat]? = some own) (handler : Handler) :
    SendsWhole s socket port handler d env ↔
      ((handler = .outer → 0 < d.kept.length) ∧ env.resolved.isSome ∧ env.sendStarts = true) ∧
        d.payload.length ≤ bufferSize := by
  by_cases hsent : (handler = .outer → 0 < d.kept.length) ∧ env.resolved.isSome ∧
    env.sendStarts = true
  · obtain ⟨hexamined, hresolved, hstarts⟩ := hsent
    obtain ⟨out, s', e, hcomplete, hsends, hholds'⟩ :=
      complete_sends hholds hadmits hown hexamined hresolved hstarts
    have hiff : SendsOnly s s' d.payload ↔ d.payload.length ≤ bufferSize :=
      sendsOnly_iff hholds' hsends rfl rfl
    constructor
    · rintro ⟨out', s'', hcomplete', hwhole⟩
      obtain ⟨-, rfl⟩ := Prod.mk.inj (Option.some.inj (hcomplete.symm.trans hcomplete'))
      exact ⟨⟨hexamined, hresolved, hstarts⟩, hiff.mp hwhole⟩
    · rintro ⟨-, hfits⟩
      exact ⟨out, s', hcomplete, hiff.mpr hfits⟩
  · constructor
    · rintro ⟨out, s', hcomplete, w, hsends, -, -⟩
      rw [complete_unsent hsent hcomplete] at hsends
      simp at hsends
    · rintro ⟨hsent', -⟩
      exact absurd hsent' hsent

/-- Beside the next receive, the two handlers differ on an empty datagram only. -/
theorem treatedAlike_iff (hown : s.sockets[(port - s.startPort).toNat]? = some own)
    (env : Surroundings) (c : Completion) :
    TreatedAlike s socket port c env ↔ ∀ d, c = .received d → d.payload ≠ [] := by
  cases c with
  | failed aborted =>
    refine ⟨fun _ d hd => ?_, fun _ => ⟨?_, rfl⟩⟩
    · cases hd
    · rw [complete_failed, complete_failed]
  | received d =>
    constructor
    · rintro ⟨-, hlog⟩ d' hd hempty
      cases hd
      simp [Handler.logsError, kept_length_eq_zero_iff.mpr hempty] at hlog
    · intro hnonempty
      have hpos : 0 < d.kept.length :=
        Nat.pos_of_ne_zero fun hzero => hnonempty d rfl (kept_length_eq_zero_iff.mp hzero)
      constructor
      · rw [complete_examined hown fun _ => hpos, complete_examined hown fun _ => hpos,
          Option.map_map, Option.map_map]
        rfl
      · simp [Handler.logsError, Nat.ne_of_gt hpos]

/-- The outer handler starts the next receive after every datagram, the inner never. -/
theorem rearms_alike_iff {c : Completion} {out out' : Option Outcome} {s₁ s₂ : UdpProxy}
    (houter : s.complete (completedReceive socket port .outer c) c env = some (out, s₁))
    (hinner : s.complete (completedReceive socket port .inner c) c env = some (out', s₂)) :
    s₁.receives = s₂.receives ↔ ∃ aborted, c = .failed aborted := by
  obtain ⟨_, _, -, rfl⟩ := complete_eq_some houter
  obtain ⟨_, _, -, rfl⟩ := complete_eq_some hinner
  cases c <;> simp [completedReceive, Receive.rearm, Handler.rearms]

end Handlers

/-- Between the arrival of a datagram and the next one, both handlers of any port
would forward it whole exactly if it has 1 to 1024 bytes and the send to the
remote server can be made. -/
theorem forwarded_whole_iff {s : UdpProxy} (hstart : Started s) {tr : List ProxyStep}
    (hrun : IsRun UdpProxy.step s tr) {d : Datagram} (hlast : LastDelivered tr d) {port : Int}
    (hlo : s.startPort ≤ port) (hhi : port ≤ s.endPort) (socket : Socket) {env : Surroundings}
    (hadmits : Admits (final s tr) d env) :
    (ForwardedWhole (final s tr) socket port d env ↔
      (1 ≤ d.payload.length ∧ d.payload.length ≤ bufferSize) ∧
        env.resolved.isSome ∧ env.sendStarts = true) ∧
    ∀ c, (TreatedAlike (final s tr) socket port c env ↔
        ∀ d', c = .received d' → d'.payload ≠ []) ∧
      ∀ out out' s₁ s₂,
        (final s tr).complete (completedReceive socket port .outer c) c env =
          some (out, s₁) →
        (final s tr).complete (completedReceive socket port .inner c) c env =
          some (out', s₂) →
        (s₁.receives = s₂.receives ↔ ∃ aborted, c = .failed aborted) := by
  have hholds := holds_last hrun hlast
  obtain ⟨own, hown⟩ := socket_of_port hstart hrun hlo hhi
  have halike (c : Completion) : TreatedAlike (final s tr) socket port c env ↔
      ∀ d', c = .received d' → d'.payload ≠ [] := treatedAlike_iff hown env c
  refine ⟨?_, fun c => ⟨halike c, fun _ _ _ _ houter hinner => rearms_alike_iff houter hinner⟩⟩
  have hwhole (handler : Handler) : SendsWhole (final s tr) socket port handler d env ↔ _ :=
    sendsWhole_iff hholds hadmits hown handler
  have hpos : 0 < d.kept.length ↔ 1 ≤ d.payload.length := by
    rw [Nat.pos_iff_ne_zero, ne_eq, kept_length_eq_zero_iff, ← List.length_eq_zero_iff]
    omega
  constructor
  · rintro ⟨houter, -, -⟩
    obtain ⟨⟨hexamined, hsend⟩, hfits⟩ := (hwhole .outer).mp houter
    exact ⟨⟨hpos.mp (hexamined rfl), hfits⟩, hsend⟩
  · rintro ⟨⟨hnonempty, hfits⟩, hsend⟩
    refine ⟨?_, ?_, (halike _).mpr ?_⟩
    · exact (hwhole .outer).mpr ⟨⟨fun _ => hpos.mpr hnonempty, hsend⟩, hfits⟩
    · exact (hwhole .inner).mpr ⟨⟨fun _ => hpos.mpr hnonempty, hsend⟩, hfits⟩
    · intro d' hd hempty
      cases hd
      simp [hempty] at hnonempty

def arrival (d : Datagram) : List ProxyStep := trace UdpProxy.step twoPorts [.deliver 0 d]

theorem arrival_run (d : Datagram) : IsRun UdpProxy.step twoPorts (arrival d) := isRun_trace _ _

theorem arrival_last (d : Datagram) : LastDelivered (arrival d) d :=
  ⟨[], _, [], 0, rfl, rfl, by simp [Quiet]⟩

/-- The limiter of `twoPorts` has seen no packet yet. -/
theorem arrival_admits (d : Datagram) :
    Admits (final twoPorts (arrival d)) d sampleSurroundings :=
  ⟨_, _, rfl, forward_ne_refused d.kept.length sampleSurroundings⟩

theorem forwarded_whole_iff_alice :
    ForwardedWhole (final twoPorts (arrival alice)) ⟨27016⟩ 27016 alice sampleSurroundings :=
  (forwarded_whole_iff twoPorts_started (arrival_run alice) (arrival_last alice) (by decide)
    (by decide) ⟨27016⟩ (arrival_admits alice)).1.mpr (by decide)

def emptyDatagram : Datagram := ⟨alice.sender, []⟩

/-- One byte more than the buffer holds. -/
def longDatagram : Datagram := ⟨alice.sender, List.replicate 1025 7⟩

/-- Only the inner handler forwards an empty datagram, and neither one a long one. -/
theorem empty_and_long_not_whole :
    (LastDelivered (arrival emptyDatagram) emptyDatagram ∧
      Admits (final twoPorts (arrival emptyDatagram)) emptyDatagram sampleSurroundings ∧
      ¬ SendsWhole (final twoPorts (arrival emptyDatagram)) ⟨27015⟩ 27015 .outer
        emptyDatagram sampleSurroundings ∧
      SendsWhole (final twoPorts (arrival emptyDatagram)) ⟨27015⟩ 27015 .inner
        emptyDatagram sampleSurroundings) ∧
    LastDelivered (arrival longDatagram) longDatagram ∧
      Admits (final twoPorts (arrival longDatagram)) longDatagram sampleSurroundings ∧
      ∀ handler, ¬ SendsWhole (final twoPorts (arrival longDatagram)) ⟨27015⟩ 27015
        handler longDatagram sampleSurroundings := by
  have hown (d : Datagram) :
      (final twoPorts (arrival d)).sockets[((27015 : Int) -
        (final twoPorts (arrival d)).startPort).toNat]? = some ⟨27015⟩ := rfl
  have hwhole (d : Datagram) (handler : Handler) :
      SendsWhole (final twoPorts (arrival d)) ⟨27015⟩ 27015 handler d sampleSurroundings ↔ _ :=
    sendsWhole_iff (holds_last (arrival_run d) (arrival_last d)) (arrival_admits d) (hown d) handler
  refine ⟨⟨arrival_last _, arrival_admits _, ?_, ?_⟩, arrival_last _, arrival_admits _, ?_⟩
  · intro h
    exact absurd (((hwhole emptyDatagram .outer).mp h).1.1 rfl) (by decide)
  · exact (hwhole emptyDatagram .inner).mpr (by decide)
  · intro handler h
    have hfits := ((hwhole longDatagram handler).mp h).2
    have hlong : longDatagram.payload.length = 1025 := List.length_replicate
    rw [hlong] at hfits
    exact absurd hfits (by decide)

end Qwin
