import Qwin.Library.Simulation
import Qwin.Limiter.Accounting
import Qwin.Limiter.Client

/-!
What the limiter is for, without its table: one counter for each address, none of
which is ever removed. Nobody can tell the code's limiter from this one.
-/

set_option autoImplicit false

namespace Qwin
open Runs

/-- The abstract limiter: an address is a function's argument, not a key. -/
structure PlainLimiter where
  entries : Ip → Option Entry
  totalConnections : Int32
  clock : Int

def PlainLimiter.start (clock : Int) : PlainLimiter := ⟨fun _ => none, 0, clock⟩

/-- An excluded address is let through, any other one goes by its own counter only. -/
def PlainLimiter.answer (lim : Limits) (s : PlainLimiter) (p : Packet) : Bool × Option Entry :=
  if p.ip ∈ lim.excludedIps then (false, s.entries p.ip)
  else clientStep lim (s.entries p.ip) p.checkTime p.addTime

def PlainLimiter.step (lim : Limits) (s : PlainLimiter) (p : Packet) :
    Option (Outcome × PlainLimiter) :=
  let (blocked, entry) := s.answer lim p
  let out := if blocked then .refused else forward p.bytesReceived p.env
  let last := lastReading lim p out
  let raised := if p.ip ∉ lim.excludedIps ∧ out ≠ .refused then 1 else 0
  if s.clock ≤ p.checkTime ∧ p.checkTime ≤ last then
    some (out, ⟨Function.update s.entries p.ip entry, s.totalConnections + .ofNat raised, last⟩)
  else none

/-- The table has of each counter what is left of it for the checks to come. -/
structure Implements (lim : Limits) (s : LimiterState) (plain : PlainLimiter) : Prop where
  clock : s.clock = plain.clock
  total : s.limiter.totalConnections = plain.totalConnections
  entries : ∀ ip ∉ lim.excludedIps, Tracks lim ip s (plain.entries ip)

theorem implements_start (lim : Limits) (clock : Int) :
    Implements lim (.start clock) (.start clock) := by
  refine ⟨rfl, rfl, fun ip _ c _ => ?_⟩
  rw [LimiterState.entry_of_empty rfl]
  rfl

section Steps
variable {lim : Limits} {s s' : LimiterState} {plain : PlainLimiter} {p : Packet} {out : Outcome}

theorem handle_answer (h : Implements lim s plain) (hcheck : s.clock ≤ p.checkTime) :
    (p.handle lim s.limiter).1 =
      if (plain.answer lim p).1 then .refused else forward p.bytesReceived p.env := by
  rw [handle_fst, PlainLimiter.answer]
  by_cases hip : p.ip ∈ lim.excludedIps
  · rw [isIpBlocked_excluded lim _ _ _ hip, if_pos hip]
  have htracks := h.entries p.ip hip p.checkTime hcheck
  have hentry : s.entry p.ip = s.limiter.ipMap.lookup p.ip := rfl
  rw [hentry] at htracks
  rw [if_neg hip, clientStep, ← htracks]
  cases he : lim.fresh p.checkTime (s.limiter.ipMap.lookup p.ip) with
  | none => rw [isIpBlocked_absent lim _ _ _ hip he]
  | some e =>
    rw [isIpBlocked_present lim _ _ _ hip he]
    by_cases hfull : lim.maxConnections ≤ e.count <;> simp [hfull]

theorem implements_step (h : Implements lim s plain) (ht : step lim s p = some (out, s')) :
    Implements lim s'
      ⟨Function.update plain.entries p.ip (plain.answer lim p).2,
        plain.totalConnections +
          .ofNat (if p.ip ∉ lim.excludedIps ∧ out ≠ .refused then 1 else 0),
        lastReading lim p out⟩ := by
  let t : Handling := ⟨s, p, out, s'⟩
  obtain ⟨-, -, hlast, -⟩ := step_eq_some.mp ht
  refine ⟨hlast, ?_, fun ip hip => ?_⟩
  · have hcounters := (step_counters (t := t) ht).1
    rw [h.total] at hcounters
    simpa [admitted, limited, t] using hcounters
  · have htracks := h.entries ip hip
    dsimp only
    by_cases hown : p.ip = ip
    · subst hown
      have hpost : s'.entry p.ip = (clientStep lim (plain.entries p.ip) p.checkTime p.addTime).2 :=
        (tracks_own (t := t) hip ht rfl htracks).2
      rw [Function.update_self, PlainLimiter.answer, if_neg hip, ← hpost]
      exact tracks_self lim p.ip s'
    · rw [Function.update_of_ne (Ne.symm hown)]
      exact tracks_other (t := t) hip ht hown htracks

/-- A refused input is refused for its readings, which both compare to one clock. -/
theorem limiter_bisimulation (lim : Limits) :
    Bisimulation (step lim) (PlainLimiter.step lim) (Implements lim) := by
  intro s plain p h
  by_cases hcheck : s.clock ≤ p.checkTime
  · have hout := handle_answer h hcheck
    cases hstep : step lim s p with
    | none =>
      refine .inl ⟨rfl, ?_⟩
      simp only [step, hout] at hstep
      simpa [PlainLimiter.step, ← h.clock] using hstep
    | some r =>
      obtain ⟨out, s'⟩ := r
      refine .inr ⟨out, s', _, rfl, ?_, implements_step h hstep⟩
      have hout' := (step_outcome hstep).symm.trans hout
      obtain ⟨-, hlast, hclock, -⟩ := step_eq_some.mp hstep
      rw [hclock] at hlast
      unfold PlainLimiter.step
      dsimp only
      rw [← hout', if_pos ⟨h.clock ▸ hcheck, hlast⟩]
  · have hplain : ¬ plain.clock ≤ p.checkTime := h.clock ▸ hcheck
    exact .inl ⟨by simp [step, hcheck], by simp [PlainLimiter.step, hplain]⟩

end Steps

/-- The code's limiter, which shares one table and keeps pruning it, answers every
sequence of packets as the abstract one, and counts as many connections. -/
theorem limiter_implements_plain (lim : Limits) (clock : Int) (packets : List Packet) :
    (trace (step lim) (.start clock) packets).map (·.output) =
        (trace (PlainLimiter.step lim) (.start clock) packets).map (·.output) ∧
      Implements lim (final (.start clock) (trace (step lim) (.start clock) packets))
        (final (.start clock) (trace (PlainLimiter.step lim) (.start clock) packets)) :=
  (limiter_bisimulation lim).trace (implements_start lim clock) packets

end Qwin
