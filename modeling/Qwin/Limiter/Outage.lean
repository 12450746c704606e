import Qwin.Limiter.Step

/-!
The limiter while forwarding fails. A packet is counted before the remote server
is resolved and a failure takes nothing back, so an outage is not seen at all.
-/

set_option autoImplicit false

namespace Qwin
open Runs

/-- The same packet at the same times, whatever becomes of its forwarding. -/
structure SameArrival (p p' : Packet) : Prop where
  client : p.client = p'.client
  checkTime : p.checkTime = p'.checkTime
  addTime : p.addTime = p'.addTime

def SameLimiting (t t' : Handling) : Prop :=
  t.post = t'.post ∧ (t.output = .refused ↔ t'.output = .refused)

/-- The limiter is what `isIpBlocked` left. -/
def LeftAsChecked (lim : Limits) (t : Handling) : Prop :=
  t.post.limiter.ipMap = checkedMap lim t ∧
    t.post.limiter.totalConnections = t.pre.limiter.totalConnections

section Steps
variable {lim : Limits}

theorem handle_sameArrival (lim : Limits) {p p' : Packet} (h : SameArrival p p') (l : Limiter) :
    (p.handle lim l).2 = (p'.handle lim l).2 ∧
      ((p.handle lim l).1 = .refused ↔ (p'.handle lim l).1 = .refused) := by
  have hip : p.ip = p'.ip := congrArg Endpoint.address h.client
  constructor
  · rw [handle_eq, handle_eq, hip, h.checkTime, h.addTime]
    dsimp only
    split <;> rfl
  · rw [handle_refused_iff, handle_refused_iff, hip, h.checkTime]

theorem step_sameArrival {t t' : Handling} (h : SameArrival t.input t'.input)
    (hpre : t.pre = t'.pre) (ht : step lim t.pre t.input = some (t.output, t.post))
    (ht' : step lim t'.pre t'.input = some (t'.output, t'.post)) : SameLimiting t t' := by
  obtain ⟨-, -, hclock, hh⟩ := step_eq_some.mp ht
  obtain ⟨-, -, hclock', hh'⟩ := step_eq_some.mp ht'
  obtain ⟨hlimiter, hrefused⟩ := handle_sameArrival lim h t.pre.limiter
  rw [hh, hpre, hh'] at hlimiter hrefused
  have hip : t.input.ip = t'.input.ip := congrArg Endpoint.address h.client
  have hlast : lastReading lim t.input t.output = lastReading lim t'.input t'.output := by
    simp only [lastReading, hrefused, hip, h.checkTime, h.addTime]
  refine ⟨?_, hrefused⟩
  rw [← hclock, ← hclock'] at hlast
  cases hpost : t.post with
  | mk l clock =>
    cases hpost' : t'.post with
    | mk l' clock' =>
      rw [hpost, hpost'] at hlimiter hlast
      rw [show l = l' from hlimiter, show clock = clock' from hlast]

/-- Whether an admitted packet leaves the limiter as it was checked is a matter
of its address alone. -/
theorem leftAsChecked_iff {t : Handling} (ht : step lim t.pre t.input = some (t.output, t.post))
    (hpass : t.output ≠ .refused) :
    LeftAsChecked lim t ↔ t.input.ip ∈ lim.excludedIps := by
  have hh := step_handled ht
  unfold LeftAsChecked
  constructor
  · rintro ⟨-, htotal⟩
    by_contra hip
    generalize t.post.limiter = l' at hh htotal
    generalize t.output = out at hh hpass
    cases hh with
    | excluded hex _ => exact hip hex
    | refused _ _ _ => exact hpass rfl
    | created _ _ _ | counted _ _ _ _ =>
      have hone : t.pre.limiter.totalConnections + 1 = t.pre.limiter.totalConnections + 0 := by
        rw [Int32.add_zero]
        exact htotal
      exact absurd (Int32.add_right_inj _ |>.mp hone) (by decide)
  · intro hip
    have hmap : checkedMap lim t = t.pre.limiter.ipMap := by
      rw [checkedMap, isIpBlocked_excluded lim _ _ _ hip]
    rw [hmap]
    generalize t.post.limiter = l' at hh
    generalize t.output = out at hh
    cases hh with
    | excluded _ _ => exact ⟨rfl, rfl⟩
    | refused hex _ _ | created hex _ _ | counted hex _ _ _ => exact absurd hip hex

end Steps

theorem run_sameArrival {lim : Limits} {s : LimiterState} {tr tr' : List Handling}
    (hrun : IsRun (step lim) s tr) (hrun' : IsRun (step lim) s tr')
    (hsame : List.Forall₂ (fun t t' => SameArrival t.input t'.input) tr tr') :
    List.Forall₂ SameLimiting tr tr' := by
  induction hsame generalizing s with
  | nil => exact .nil
  | @cons t t' ts ts' harrival _ ih =>
    obtain ⟨hpre, ht, hts⟩ := (isRun_cons s t ts).mp hrun
    obtain ⟨hpre', ht', hts'⟩ := (isRun_cons s t' ts').mp hrun'
    have hlimiting := step_sameArrival harrival (hpre.trans hpre'.symm) ht ht'
    refine .cons hlimiting (ih hts ?_)
    rw [hlimiting.1]
    exact hts'

/-- Failures leave the limiter as it was checked for excluded addresses only. A
run in which any of them fail goes through the same states of the limiter, and
refuses the same packets, as one in which others do or none. -/
theorem failures_are_counted {lim : Limits} {s : LimiterState} {tr tr' : List Handling}
    (hrun : IsRun (step lim) s tr) (hrun' : IsRun (step lim) s tr')
    (hsame : List.Forall₂ (fun t t' => SameArrival t.input t'.input) tr tr') :
    List.Forall₂ SameLimiting tr tr' ∧
      ∀ t ∈ tr, t.output = .failed → (LeftAsChecked lim t ↔ t.input.ip ∈ lim.excludedIps) := by
  refine ⟨run_sameArrival hrun hrun' hsame, fun t ht hfailed => ?_⟩
  obtain ⟨-, -, -, -, -, hstep⟩ := hrun.split ht
  refine leftAsChecked_iff hstep ?_
  rw [hfailed]
  simp

/-- A packet that the resolver fails for. -/
def Packet.lost (ip : Ip) (c a : Int) : Packet := ⟨⟨ip, 27005⟩, 1, ⟨c, a, none, true⟩⟩

def outage : List Handling :=
  trace (step ⟨["127.0.0.1"], 1, 600⟩) (.start 0) [.lost "10.0.0.1" 0 0, .lost "10.0.0.1" 1 1,
    .lost "127.0.0.1" 2 2]

def noOutage : List Handling :=
  trace (step ⟨["127.0.0.1"], 1, 600⟩) (.start 0) [.probe "10.0.0.1" 0 0, .probe "10.0.0.1" 1 1,
    .probe "127.0.0.1" 2 2]

theorem failures_are_counted_three :
    outage.length = 3 ∧ List.Forall₂ SameLimiting outage noOutage ∧
      ∀ t ∈ outage, t.output = .failed →
        (LeftAsChecked ⟨["127.0.0.1"], 1, 600⟩ t ↔ t.input.ip ∈ ["127.0.0.1"]) := by
  refine ⟨by decide, failures_are_counted (isRun_trace _ _) (isRun_trace _ _) ?_⟩
  exact .cons ⟨rfl, rfl, rfl⟩ (.cons ⟨rfl, rfl, rfl⟩ (.cons ⟨rfl, rfl, rfl⟩ .nil))

/-- The first packet is never forwarded, and blocks its sender all the same. -/
theorem lost_packet_blocks :
    IsRun (step ⟨["127.0.0.1"], 1, 600⟩) (.start 0) outage ∧
    outage.map (·.output) = [.failed, .refused, .failed] ∧
    ∃ t ∈ outage, t.output = .failed ∧ ¬ LeftAsChecked ⟨["127.0.0.1"], 1, 600⟩ t := by
  refine ⟨isRun_trace _ _, by decide, outage.get ⟨0, by decide⟩, List.get_mem _ _, by decide, ?_⟩
  rw [leftAsChecked_iff (by rfl) (by decide)]
  decide

end Qwin
