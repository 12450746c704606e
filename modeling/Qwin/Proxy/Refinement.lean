import Qwin.Library.Simulation
import Qwin.Limiter.Quota
import Qwin.Proxy.Integrity

/-!
The whole proxy seen through its limiter. However the ports, the shared buffer and
the sends interleave, the limiter is only given one handler run after the other.
-/

set_option autoImplicit false

namespace Qwin
open Runs Windows

/-- The handler run of the limiter that a step is, if it is one. -/
def handling (t : ProxyStep) : Option Handling :=
  match t.input, t.output with
  | .handle _ env, .handled _ c seen _ (some out) =>
    some ⟨t.pre.limiter, ⟨seen, c.size, env⟩, out, t.post.limiter⟩
  | _, _ => none

def handlings (tr : List ProxyStep) : List Handling := tr.filterMap handling

theorem proxy_simulates_limiter (lim : Limits) :
    Simulates UdpProxy.step (step lim) (fun s => s.limits = lim) UdpProxy.limiter handling := by
  refine ⟨fun t hlim ht => (step_frame ht).2.2.1.trans hlim, ?_, ?_⟩
  · intro t _ ht hview
    cases step_effect ht with
    | deliver _ _ _ _ _ _ _ hpost =>
      rw [hpost]
      rfl
    | fail _ _ _ _ _ _ _ hpost | transmit _ _ _ _ _ _ hpost | sent _ _ _ _ _ hpost => rw [hpost]
    | handle i env r c socket out l hin _ _ hout hcompletes hpost =>
      cases out with
      | none =>
        rw [hpost]
        exact hcompletes.unasked rfl
      | some out =>
        simp only [handling, hin, hout] at hview
        cases hview
  · intro t u hlim ht hview
    cases step_effect ht with
    | deliver _ _ _ hin | fail _ _ _ hin | transmit _ _ hin | sent _ _ hin =>
      simp only [handling, hin] at hview
      cases hview
    | handle i env r c socket out l hin _ _ hout hcompletes hpost =>
      cases out with
      | none =>
        simp only [handling, hin, hout] at hview
        cases hview
      | some out =>
        simp only [handling, hin, hout, Option.some.injEq] at hview
        subst hview
        refine ⟨rfl, rfl, ?_⟩
        rw [hpost, ← hlim]
        exact hcompletes.asked out rfl

theorem run_handlings {s : UdpProxy} {tr : List ProxyStep} (hrun : IsRun UdpProxy.step s tr) :
    IsRun (step s.limits) s.limiter (handlings tr) ∧
      final s.limiter (handlings tr) = (final s tr).limiter :=
  (proxy_simulates_limiter s.limits).run hrun rfl

def outcomes (tr : List ProxyStep) : List (Endpoint × Outcome) :=
  tr.filterMap fun t =>
    match t.output with
    | .handled _ _ seen _ (some out) => some (seen, out)
    | _ => none

theorem outcomes_eq {s : UdpProxy} {tr : List ProxyStep} (hrun : IsRun UdpProxy.step s tr) :
    outcomes tr = (handlings tr).map fun t => (t.input.client, t.output) := by
  unfold outcomes handlings
  rw [List.map_filterMap]
  refine List.filterMap_congr fun t ht => ?_
  obtain ⟨-, -, -, -, -, hstep⟩ := hrun.split ht
  cases step_effect hstep with
  | handle i env r c socket out l hin hr hc hout =>
    cases out <;> simp [handling, hin, hout]
  | deliver _ _ _ hin _ _ hout | fail _ _ _ hin _ _ hout | transmit _ _ hin _ _ hout
  | sent _ _ hin _ hout => simp [handling, hin, hout]

/-- A run of the proxy is a run of its limiter: the handlers consult it one after
the other, each about the endpoint it saw, and nothing else touches it. -/
theorem proxy_runs_limiter {s : UdpProxy} {tr : List ProxyStep}
    (hrun : IsRun UdpProxy.step s tr) :
    ∃ consulted, IsRun (step s.limits) s.limiter consulted ∧
      final s.limiter consulted = (final s tr).limiter ∧
      outcomes tr = consulted.map fun t => (t.input.client, t.output) :=
  ⟨handlings tr, (run_handlings hrun).1, (run_handlings hrun).2, outcomes_eq hrun⟩

theorem proxy_runs_limiter_together :
    outcomes arriveTogether = [(bob.sender, .forwarded ⟨"89.223.121.95", 27015⟩ 3)] ∧
    ∃ consulted, IsRun (step twoPorts.limits) twoPorts.limiter consulted ∧
      final twoPorts.limiter consulted = (final twoPorts arriveTogether).limiter ∧
      outcomes arriveTogether = consulted.map fun t => (t.input.client, t.output) :=
  ⟨by decide, proxy_runs_limiter (isRun_trace _ _)⟩

end Qwin
