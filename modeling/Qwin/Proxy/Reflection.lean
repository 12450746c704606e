import Qwin.Proxy.Listening

/-!
Where a forwarded datagram goes. No handler asks who sent it, beside the limiter,
so an answer of the remote server on a port of the proxy is sent back to it.
-/

set_option autoImplicit false

namespace Qwin
open Runs

/-- In this step a handler that was given `d` starts a send of it to `e`. -/
def Forwards (t : ProxyStep) (d : Datagram) (e : Endpoint) : Prop :=
  ∃ i env port seen bytes size, t.input = .handle i env ∧
    t.output = .handled port (.received d) seen bytes (some (.forwarded e size))

/-- Everything the code asks before it forwards, whatever endpoint `d` is from. -/
structure Passes (s : UdpProxy) (r : Receive) (d : Datagram) (env : Surroundings) : Prop where
  examined : r.handler = .outer → 0 < d.kept.length
  unblocked : (isIpBlocked s.clientEndpoint.address s.limiter.limiter.ipMap s.limits.excludedIps
    s.limits.maxConnections s.limits.blockDurationSeconds env.checkTime).2 = false
  starts : env.sendStarts = true

theorem step_forwarded_iff {lim : Limits} {s s' : LimiterState} {p : Packet} {out : Outcome}
    (h : step lim s p = some (out, s')) (e : Endpoint) :
    (∃ size, out = .forwarded e size) ↔
      (isIpBlocked p.ip s.limiter.ipMap lim.excludedIps lim.maxConnections
        lim.blockDurationSeconds p.checkTime).2 = false ∧
      p.env.resolved = some e ∧ p.env.sendStarts = true := by
  rw [← step_outcome h, handle_fst]
  split
  · rename_i hblocked
    simp [hblocked]
  · rename_i hpass
    simp [hpass, forward_eq_forwarded_iff]

section Steps
variable {t : ProxyStep}

theorem forwards_iff (ht : t.pre.step t.input = some (t.output, t.post)) {i : Nat}
    {env : Surroundings} (hin : t.input = .handle i env) {r : Receive} {d : Datagram}
    (hr : t.pre.receives[i]? = some r) (hd : r.result = some (.received d)) (e : Endpoint) :
    Forwards t d e ↔ Passes t.pre r d env ∧ env.resolved = some e := by
  cases step_effect ht with
  | deliver _ _ _ hin' | fail _ _ _ hin' | transmit _ _ hin' | sent _ _ hin' =>
    rw [hin] at hin'
    cases hin'
  | handle i' env' r' c socket out l hin' hr' hc hout hcompletes =>
    obtain ⟨rfl, rfl⟩ := Action.handle.inj (hin.symm.trans hin')
    obtain rfl := Option.some.inj (hr.symm.trans hr')
    obtain rfl := Option.some.inj (hd.symm.trans hc)
    have hforwards : Forwards t d e ↔ ∃ size, out = some (.forwarded e size) := by
      constructor
      · rintro ⟨i', env', port, seen, bytes, size, -, hout'⟩
        rw [hout] at hout'
        exact ⟨size, (Event.handled.inj hout').2.2.2.2⟩
      · rintro ⟨size, rfl⟩
        exact ⟨i, env, _, _, _, size, hin, hout⟩
    rw [hforwards]
    have hexamined := hcompletes.examined
    cases out with
    | none =>
      have hnot : ¬ (r.handler = .outer → 0 < d.kept.length) := by
        rw [← examines_iff, ← hexamined]
        exact Bool.false_ne_true
      exact ⟨by rintro ⟨size, ⟨⟩⟩, fun h => absurd h.1.examined hnot⟩
    | some o =>
      have hiff := step_forwarded_iff (hcompletes.asked o rfl) e
      constructor
      · rintro ⟨size, ho⟩
        obtain ⟨hunblocked, hresolved, hstarts⟩ := hiff.mp ⟨size, Option.some.inj ho⟩
        exact ⟨⟨examines_iff.mp hexamined.symm, hunblocked, hstarts⟩, hresolved⟩
      · rintro ⟨hpasses, hresolved⟩
        obtain ⟨size, rfl⟩ := hiff.mpr ⟨hpasses.unblocked, hresolved, hpasses.starts⟩
        exact ⟨size, rfl⟩

/-- A send is there before the step or its handler starts it in the step. -/
theorem sends_step (ht : t.pre.step t.input = some (t.output, t.post)) :
    ∀ w ∈ t.post.sends, (∃ w' ∈ t.pre.sends, w'.origin = w.origin ∧
      w'.remoteEndpoint = w.remoteEndpoint) ∨ Forwards t w.origin w.remoteEndpoint := by
  intro w hw
  cases step_effect ht with
  | deliver _ _ _ _ _ _ _ hpost | fail _ _ _ _ _ _ _ hpost =>
    rw [hpost] at hw
    exact .inl ⟨w, hw, rfl, rfl⟩
  | handle i env r c socket out l hin hr hc hout hcompletes hpost =>
    rw [hpost] at hw
    rcases List.mem_append.mp hw with hold | hnew
    · exact .inl ⟨w, hold, rfl, rfl⟩
    · obtain ⟨-, rfl, -, rfl⟩ := mem_sends_of_completes hcompletes hnew
      exact .inr ⟨i, env, _, _, _, _, hin, hout⟩
  | transmit j w' _ hw' _ _ hpost =>
    rw [hpost] at hw
    rcases List.mem_or_eq_of_mem_set hw with hold | rfl
    · exact .inl ⟨w, hold, rfl, rfl⟩
    · exact .inl ⟨w', List.mem_of_getElem? hw', rfl, rfl⟩
  | sent j _ _ _ _ hpost =>
    rw [hpost] at hw
    exact .inl ⟨w, List.mem_of_mem_eraseIdx hw, rfl, rfl⟩

end Steps

theorem sends_run {s : UdpProxy} (hstart : Started s) {tr : List ProxyStep}
    (hrun : IsRun UdpProxy.step s tr) :
    ∀ w ∈ (final s tr).sends, ∃ t ∈ tr, Forwards t w.origin w.remoteEndpoint := by
  refine hrun.history
    (fun hist u => ∀ w ∈ u.sends, ∃ t ∈ hist, Forwards t w.origin w.remoteEndpoint) ?_ ?_
  · obtain ⟨opened, -, -, hsends⟩ := started_receives hstart
    simp [hsends]
  · intro hist t ih ht w hw
    rcases sends_step ht w hw with ⟨w', hw', horigin, hremote⟩ | hforwards
    · obtain ⟨u, hu, hforwards⟩ := ih w' hw'
      exact ⟨u, by simp [hu], by rwa [← horigin, ← hremote]⟩
    · exact ⟨t, by simp, hforwards⟩

/-- A handled datagram is sent back to the endpoint it is from exactly when that
is what the resolver returned for the remote server and the handler forwards at
all; and nothing is put on the wire that no earlier handler forwarded so. -/
theorem reflects_iff_from_server {s : UdpProxy} (hstart : Started s) {tr : List ProxyStep}
    (hrun : IsRun UdpProxy.step s tr) :
    (∀ t ∈ tr, ∀ i env r d, t.input = .handle i env → t.pre.receives[i]? = some r →
      r.result = some (.received d) →
      (Forwards t d d.sender ↔ Passes t.pre r d env ∧ env.resolved = some d.sender)) ∧
    ∀ hist t w bytes, hist ++ [t] <+: tr → t.output = .transmitted w bytes →
      ∃ u ∈ hist, Forwards u w.origin w.remoteEndpoint := by
  constructor
  · intro t ht i env r d hin hr hd
    obtain ⟨-, -, -, -, -, hstep⟩ := hrun.split ht
    exact forwards_iff hstep hin hr hd d.sender
  · intro hist t w bytes hpre hout
    obtain ⟨hhist, hlast⟩ := (isRun_append s hist [t]).mp (hrun.upTo hpre)
    obtain ⟨hfinal, hstep⟩ := (isRun_singleton _ t).mp hlast
    cases step_effect hstep with
    | deliver _ _ _ _ _ _ hout' | fail _ _ _ _ _ _ hout' | sent _ _ _ _ hout' =>
      rw [hout'] at hout
      cases hout
    | handle _ _ _ _ _ _ _ _ _ _ hout' =>
      rw [hout'] at hout
      cases hout
    | transmit j w' _ hw' _ hout' =>
      rw [hout'] at hout
      obtain ⟨rfl, -⟩ := Event.transmitted.inj hout
      rw [hfinal] at hw'
      exact sends_run hstart hhist w' (List.mem_of_getElem? hw')

/-- What the remote server answers to the port that forwarded `alice`. -/
def answer : Datagram := ⟨⟨"89.223.121.95", 27015⟩, [4, 5]⟩

def answeredDatagram : List ProxyStep :=
  trace UdpProxy.step onePort [.deliver 0 alice, .handle 0 sampleSurroundings, .transmit 0,
    .sent 0, .deliver 0 answer, .handle 0 sampleSurroundings, .transmit 0]

theorem reflects_iff_from_server_answer :
    answeredDatagram.length = 7 ∧
    (∀ t ∈ answeredDatagram, ∀ i env r d, t.input = .handle i env →
      t.pre.receives[i]? = some r → r.result = some (.received d) →
      (Forwards t d d.sender ↔ Passes t.pre r d env ∧ env.resolved = some d.sender)) ∧
    ∀ hist t w bytes, hist ++ [t] <+: answeredDatagram → t.output = .transmitted w bytes →
      ∃ u ∈ hist, Forwards u w.origin w.remoteEndpoint :=
  ⟨by decide, reflects_iff_from_server onePort_started (isRun_trace _ _)⟩

theorem answer_goes_back :
    Started onePort ∧ IsRun UdpProxy.step onePort answeredDatagram ∧
    answeredDatagram.map (·.output) =
      [.silent, .handled 27015 (.received alice) alice.sender alice.payload
          (some (.forwarded answer.sender 3)),
        .transmitted ⟨⟨27015⟩, answer.sender, 3, alice, some alice.payload⟩ alice.payload, .silent,
        .silent, .handled 27015 (.received answer) answer.sender answer.payload
          (some (.forwarded answer.sender 2)),
        .transmitted ⟨⟨27015⟩, answer.sender, 2, answer, some answer.payload⟩ answer.payload] ∧
    ∃ t ∈ answeredDatagram, Forwards t answer answer.sender := by
  refine ⟨onePort_started, isRun_trace _ _, by decide, ?_⟩
  refine ⟨answeredDatagram.get ⟨5, by decide⟩, List.get_mem _ _, ?_⟩
  exact ⟨0, sampleSurroundings, 27015, answer.sender, answer.payload, 2, by decide, by decide⟩

end Qwin
