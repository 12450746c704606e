import Mathlib.Data.List.Perm.Subperm
import Qwin.Proxy.Integrity

/-!
Which ports still have a receive. The outer completion handler starts the next
receive of its port; the inner one and a failed one start none.
-/

set_option autoImplicit false

namespace Qwin
open Runs

def UdpProxy.ports (s : UdpProxy) : List Int := portRange s.startPort s.endPort

def UdpProxy.armed (s : UdpProxy) : List Int := s.receives.map (·.port)

/-- Operations whose handler has not run: `ioContext.run()` returns at zero. -/
def UdpProxy.outstandingWork (s : UdpProxy) : Nat := s.receives.length + s.sends.length

structure StillListening (s : UdpProxy) : Prop where
  one_receive : ∀ port ∈ s.ports, (s.receives.filter (·.port = port)).length = 1
  has_work : s.ports ≠ [] → 0 < s.outstandingWork

/-- The handler that is to run for the receive starts the next one. -/
def Receive.rearms (r : Receive) : Bool := r.result.any r.handler.rearms

/-- The action is no run of a handler that leaves its port without a receive. -/
def UdpProxy.rearms (s : UdpProxy) : Action → Bool
  | .handle i _ => s.receives[i]?.any Receive.rearms
  | _ => true

section Steps
variable {t : ProxyStep}

theorem step_ports (ht : t.pre.step t.input = some (t.output, t.post)) :
    t.post.ports = t.pre.ports := by
  obtain ⟨hstart, hend, -⟩ := step_frame ht
  rw [UdpProxy.ports, UdpProxy.ports, hstart, hend]

theorem armed_set {rs : List Receive} {i : Nat} {r : Receive} (hr : rs[i]? = some r)
    (c : Completion) :
    (rs.set i { r with result := some c }).map (·.port) = rs.map (·.port) := by
  obtain ⟨before, after, hsplit, -, hset⟩ := getElem?_split hr
  rw [hset, hsplit]
  simp

theorem armed_eraseIdx {rs : List Receive} {i : Nat} {r : Receive} (hr : rs[i]? = some r) :
    (r.port :: (rs.eraseIdx i).map (·.port)).Perm (rs.map (·.port)) := by
  obtain ⟨before, after, hsplit, herase, -⟩ := getElem?_split hr
  rw [herase, hsplit]
  simpa using List.perm_middle.symm

theorem rearm_eq {r : Receive} {c : Completion} (hc : r.result = some c) (socket : Socket) :
    r.rearm c socket = if r.rearms then [⟨socket, r.port, .inner, none⟩] else [] := by
  rw [Receive.rearm, Receive.rearms, hc, Option.any_some]

theorem armed_started {s : UdpProxy} (h : Started s) : s.armed.Perm s.ports := by
  obtain ⟨opened, hports, hreceives, -⟩ := started_receives h
  rw [UdpProxy.armed, hreceives, List.map_map, UdpProxy.ports, ← hports]
  exact .refl _

theorem step_armed (ht : t.pre.step t.input = some (t.output, t.post)) :
    (t.pre.rearms t.input = true ∧ t.post.armed.Perm t.pre.armed) ∨
      (t.pre.rearms t.input = false ∧ ∃ port, (port :: t.post.armed).Perm t.pre.armed) := by
  cases step_effect ht with
  | deliver i d r hin hr _ _ hpost =>
    refine .inl ⟨by rw [hin]; rfl, ?_⟩
    rw [hpost]
    exact .of_eq (armed_set hr _)
  | fail i aborted r hin hr _ _ hpost =>
    refine .inl ⟨by rw [hin]; rfl, ?_⟩
    rw [hpost]
    exact .of_eq (armed_set hr _)
  | handle i env r c socket out l hin hr hc _ _ hpost =>
    have hrearms : t.pre.rearms t.input = r.rearms := by
      rw [hin, UdpProxy.rearms, hr, Option.any_some]
    have herase := armed_eraseIdx hr
    rw [hrearms, hpost]
    simp only [UdpProxy.armed, rearm_eq hc]
    cases r.rearms with
    | true =>
      refine .inl ⟨rfl, ?_⟩
      simpa using List.perm_append_comm.trans herase
    | false =>
      refine .inr ⟨rfl, r.port, ?_⟩
      simpa using herase
  | transmit j w hin _ _ _ hpost =>
    refine .inl ⟨by rw [hin]; rfl, ?_⟩
    rw [hpost]
    exact .refl _
  | sent j w hin _ _ hpost =>
    refine .inl ⟨by rw [hin]; rfl, ?_⟩
    rw [hpost]
    exact .refl _

theorem armed_subperm {s : UdpProxy} (hstart : Started s) {tr : List ProxyStep}
    (hrun : IsRun UdpProxy.step s tr) :
    (final s tr).armed.Subperm (final s tr).ports ∧ (final s tr).ports = s.ports := by
  refine hrun.invariant (fun u => u.armed.Subperm u.ports ∧ u.ports = s.ports) (fun _ => True)
    (fun _ _ => trivial) ⟨?_, rfl⟩ ?_
  · exact (armed_started hstart).subperm
  · rintro t - ⟨hsub, hports⟩ ht
    rw [step_ports ht]
    refine ⟨?_, hports⟩
    obtain ⟨-, hperm⟩ | ⟨-, port, hperm⟩ := step_armed ht
    · exact hperm.subperm.trans hsub
    · exact (List.sublist_cons_self _ _).subperm.trans (hperm.subperm.trans hsub)

end Steps

theorem filter_port_length (s : UdpProxy) (port : Int) :
    (s.receives.filter (·.port = port)).length = s.armed.count port := by
  rw [UdpProxy.armed, List.count, List.countP_map, List.countP_eq_length_filter]
  rfl

theorem stillListening_iff {s : UdpProxy} (hsub : s.armed.Subperm s.ports) :
    StillListening s ↔ s.armed.Perm s.ports := by
  have hnodup : s.ports.Nodup := portRange_nodup _ _
  constructor
  · intro h
    refine hsub.antisymm (hnodup.subperm fun port hport => ?_)
    have hone := h.one_receive port hport
    rw [filter_port_length] at hone
    exact List.count_pos_iff.mp (by omega)
  · intro hperm
    constructor
    · intro port hport
      rw [filter_port_length, hperm.count_eq]
      exact List.count_eq_one_of_mem hnodup hport
    · intro hports
      have hlen := hperm.length_eq
      have hpos := List.length_pos_iff.mpr hports
      simp only [UdpProxy.armed, List.length_map] at hlen
      simp only [UdpProxy.outstandingWork]
      omega

/-- In every state of a run each port has its one receive exactly when every
handler that runs is an outer one that was given a datagram. -/
theorem keeps_listening_iff {s : UdpProxy} (hstart : Started s) {tr : List ProxyStep}
    (hrun : IsRun UdpProxy.step s tr) :
    (∀ hist, hist <+: tr → StillListening (final s hist)) ↔
      ∀ t ∈ tr, t.pre.rearms t.input = true := by
  constructor
  · intro hall t ht
    obtain ⟨before, after, rfl, hbefore, hpre, hstep⟩ := hrun.split ht
    have hlisten := hall (before ++ [t]) ⟨after, by simp⟩
    have hafter : IsRun UdpProxy.step s (before ++ [t]) := hrun.upTo ⟨after, by simp⟩
    have hlen := ((stillListening_iff (armed_subperm hstart hafter).1).mp hlisten).length_eq
    rw [(armed_subperm hstart hafter).2, ← (armed_subperm hstart hbefore).2, final_append,
      ← hpre] at hlen
    change t.post.armed.length = t.pre.ports.length at hlen
    have hle := (armed_subperm hstart hbefore).1.length_le
    rw [← hpre] at hle
    obtain ⟨hrearms, -⟩ | ⟨-, port, hperm⟩ := step_armed hstep
    · exact hrearms
    · have hlost := hperm.length_eq
      simp only [List.length_cons] at hlost
      omega
  · intro hall hist hpre
    have hhist := hrun.upTo hpre
    rw [stillListening_iff (armed_subperm hstart hhist).1, (armed_subperm hstart hhist).2]
    refine hhist.invariant (fun u => u.armed.Perm s.ports) (fun t => t.pre.rearms t.input = true)
      (fun t ht => hall t (hpre.subset ht)) (armed_started hstart) fun t hok hperm ht => ?_
    obtain ⟨-, hsame⟩ | ⟨hnot, -⟩ := step_armed ht
    · exact hsame.trans hperm
    · rw [hok] at hnot
      cases hnot

def onePort : UdpProxy :=
  ((UdpProxy.new 27015 27015 ⟨[], 10, 600⟩ 0).startProxy dynamicPorts []).2.2

theorem onePort_started : Started onePort :=
  ⟨27015, 27015, ⟨[], 10, 600⟩, 0, dynamicPorts, [], _, rfl⟩

def oneDatagram : List ProxyStep :=
  trace UdpProxy.step onePort [.deliver 0 alice, .handle 0 sampleSurroundings, .transmit 0,
    .sent 0]

theorem keeps_listening_iff_one :
    oneDatagram.length = 4 ∧
    ((∀ hist, hist <+: oneDatagram → StillListening (final onePort hist)) ↔
      ∀ t ∈ oneDatagram, t.pre.rearms t.input = true) :=
  ⟨by decide, keeps_listening_iff onePort_started (isRun_trace _ _)⟩

def twoDatagrams : List ProxyStep :=
  trace UdpProxy.step onePort [.deliver 0 alice, .handle 0 sampleSurroundings, .transmit 0,
    .sent 0, .deliver 0 bob, .handle 0 sampleSurroundings, .transmit 0, .sent 0]

/-- No receive is left for the port, and nothing else to do either. -/
theorem second_datagram_is_last :
    Started onePort ∧ IsRun UdpProxy.step onePort twoDatagrams ∧ twoDatagrams.length = 8 ∧
    onePort.ports = [27015] ∧ (final onePort twoDatagrams).receives = [] ∧
    (final onePort twoDatagrams).outstandingWork = 0 ∧
    ¬ StillListening (final onePort twoDatagrams) := by
  refine ⟨onePort_started, isRun_trace _ _, by decide, by decide, by decide, by decide, ?_⟩
  intro h
  have hone := h.one_receive 27015 (by decide)
  revert hone
  decide

end Qwin
