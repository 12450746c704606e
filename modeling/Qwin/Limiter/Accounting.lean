import Qwin.Limiter.Step

/-!
The two global counters over a run. Admissions are counted; `blockedConnections`
is declared beside them, and no function of the program writes it.
-/

set_option autoImplicit false

namespace Qwin
open Runs

def limited (lim : Limits) (t : Handling) : Bool := t.input.ip ∉ lim.excludedIps

def admitted (lim : Limits) (t : Handling) : Bool := limited lim t ∧ t.output ≠ .refused

def refused (t : Handling) : Bool := t.output = .refused

/-- Modulo the wrap of an `int`, as every sum of `Int32` is. -/
structure Accounted (lim : Limits) (s : LimiterState) (hist : List Handling) (u : LimiterState) :
    Prop where
  total : u.limiter.totalConnections =
    s.limiter.totalConnections + .ofNat (hist.countP (admitted lim))
  blocked : u.limiter.blockedConnections =
    s.limiter.blockedConnections + .ofNat (hist.countP refused)
  together : u.limiter.totalConnections + u.limiter.blockedConnections =
    s.limiter.totalConnections + s.limiter.blockedConnections +
      .ofNat (hist.countP (limited lim))

/-- The sender is limited, and its entry is not past the block duration and full. -/
def MeetsFullEntry (lim : Limits) (t : Handling) : Prop :=
  t.input.ip ∉ lim.excludedIps ∧ ∃ e, t.pre.entry t.input.ip = some e ∧
    ageSeconds t.input.checkTime e.timestamp ≤ lim.blockDurationSeconds ∧
    lim.maxConnections ≤ e.count

section Steps
variable {lim : Limits} {t : Handling}

theorem refused_iff_meetsFullEntry (ht : step lim t.pre t.input = some (t.output, t.post)) :
    refused t = true ↔ MeetsFullEntry lim t := by
  unfold refused MeetsFullEntry
  rw [decide_eq_true_iff, ← step_outcome ht, handle_refused_iff]
  by_cases hip : t.input.ip ∈ lim.excludedIps
  · rw [isIpBlocked_excluded lim _ _ _ hip]
    simp [hip]
  · rw [isIpBlocked_snd_iff lim hip]
    exact ⟨fun h => ⟨hip, h⟩, fun h => h.2⟩

theorem step_counters (ht : step lim t.pre t.input = some (t.output, t.post)) :
    t.post.limiter.totalConnections =
        t.pre.limiter.totalConnections + .ofNat (if admitted lim t then 1 else 0) ∧
      t.post.limiter.blockedConnections = t.pre.limiter.blockedConnections := by
  have hh := step_handled ht
  unfold admitted limited
  generalize t.post.limiter = l' at hh ⊢
  generalize t.output = out at hh ⊢
  cases hh with
  | excluded hip _ =>
    have hlimited : ¬ t.input.ip ∉ lim.excludedIps := not_not.mpr hip
    simp [hlimited]
  | refused _ _ _ => simp
  | created hip _ hout | counted hip _ _ hout =>
    have hlimited : t.input.ip ∉ lim.excludedIps := hip
    simp [hlimited, hout]

theorem limited_count (ht : step lim t.pre t.input = some (t.output, t.post)) :
    (if limited lim t then 1 else 0) =
      (if admitted lim t then 1 else 0) + if refused t then 1 else 0 := by
  have hrefused := refused_iff_meetsFullEntry ht
  by_cases hlimited : limited lim t = true
  · by_cases hout : t.output = .refused <;> simp [admitted, refused, hlimited, hout]
  · have hnot : ¬ refused t = true := by
      intro h
      exact hlimited (by simpa [limited] using (hrefused.mp h).1)
    simp [admitted, hlimited, hnot]

end Steps

theorem run_counters {lim : Limits} {s : LimiterState} {tr : List Handling}
    (hrun : IsRun (step lim) s tr) :
    (final s tr).limiter.totalConnections =
        s.limiter.totalConnections + .ofNat (tr.countP (admitted lim)) ∧
      (final s tr).limiter.blockedConnections = s.limiter.blockedConnections ∧
      tr.countP (limited lim) = tr.countP (admitted lim) + tr.countP refused := by
  refine hrun.history (fun hist u =>
    u.limiter.totalConnections =
        s.limiter.totalConnections + .ofNat (hist.countP (admitted lim)) ∧
      u.limiter.blockedConnections = s.limiter.blockedConnections ∧
      hist.countP (limited lim) = hist.countP (admitted lim) + hist.countP refused) ?_ ?_
  · simp
  · rintro hist t ⟨htotal, hblocked, hcount⟩ ht
    obtain ⟨htotal', hblocked'⟩ := step_counters ht
    have hone := limited_count ht
    simp only [List.countP_append, List.countP_singleton]
    refine ⟨?_, by rw [hblocked', hblocked], by omega⟩
    rw [htotal', htotal, Int32.ofNat_add, Int32.add_assoc]

/-- A state of a run is accounted for when the refusals so far make up whole
turns of the counter that is never raised. -/
theorem accounted_iff {lim : Limits} {s : LimiterState} {tr : List Handling}
    (hrun : IsRun (step lim) s tr) :
    Accounted lim s tr (final s tr) ↔ Int32.ofNat (tr.countP refused) = 0 := by
  obtain ⟨htotal, hblocked, hcount⟩ := run_counters hrun
  constructor
  · intro h
    have hsame := h.blocked
    rw [hblocked] at hsame
    simpa using hsame
  · intro hzero
    refine ⟨htotal, by rw [hblocked, hzero, Int32.add_zero], ?_⟩
    rw [htotal, hblocked, hcount, Int32.ofNat_add, hzero, Int32.add_zero, Int32.add_assoc,
      Int32.add_comm _ s.limiter.blockedConnections, Int32.add_assoc]

/-- The counters account for every state of a run exactly when no packet of it
meets a full entry. -/
theorem accounting_iff {lim : Limits} {s : LimiterState} {tr : List Handling}
    (hrun : IsRun (step lim) s tr) :
    (∀ hist, hist <+: tr → Accounted lim s hist (final s hist)) ↔
      ∀ t ∈ tr, ¬ MeetsFullEntry lim t := by
  constructor
  · intro hall t ht hfull
    obtain ⟨before, after, rfl, hbefore, hpre, hstep⟩ := hrun.split ht
    have hafter : before ++ [t] <+: before ++ t :: after := ⟨after, by simp⟩
    have hzero := (accounted_iff hbefore).mp (hall before ⟨t :: after, rfl⟩)
    have hone := (accounted_iff (hrun.upTo hafter)).mp (hall _ hafter)
    have hrefused : refused t = true := (refused_iff_meetsFullEntry hstep).mpr hfull
    rw [List.countP_append, List.countP_singleton, if_pos hrefused, Int32.ofNat_add, hzero] at hone
    exact absurd hone (by decide)
  · intro hall hist hpre
    rw [accounted_iff (hrun.upTo hpre)]
    have hnone : hist.countP refused = 0 := by
      refine List.countP_eq_zero.mpr fun t ht hrefused => ?_
      obtain ⟨-, -, -, -, -, hstep⟩ := hrun.split (hpre.subset ht)
      exact hall t (hpre.subset ht) ((refused_iff_meetsFullEntry hstep).mp hrefused)
    rw [hnone]
    rfl

def threePackets : List Handling :=
  trace (step ⟨["127.0.0.1"], 1, 60⟩) (.start 0) [.probe "10.0.0.1" 0 0,
    .probe "127.0.0.1" 1 1, .probe "10.0.0.2" 2 2]

theorem accounting_iff_three :
    threePackets.length = 3 ∧
    ((∀ hist, hist <+: threePackets → Accounted ⟨["127.0.0.1"], 1, 60⟩ (.start 0) hist
        (final (.start 0) hist)) ↔
      ∀ t ∈ threePackets, ¬ MeetsFullEntry ⟨["127.0.0.1"], 1, 60⟩ t) :=
  ⟨by decide, accounting_iff (isRun_trace _ _)⟩

def refusedPacket : List Handling :=
  trace (step ⟨[], 1, 60⟩) (.start 0) [.probe "10.0.0.1" 0 0, .probe "10.0.0.1" 1 1]

theorem refusal_not_counted :
    IsRun (step ⟨[], 1, 60⟩) (.start 0) refusedPacket ∧
    refusedPacket.map (·.output) = [.forwarded ⟨"89.223.121.95", 27015⟩ 1, .refused] ∧
    (final (.start 0) refusedPacket).limiter.totalConnections = 1 ∧
    (final (.start 0) refusedPacket).limiter.blockedConnections = 0 ∧
    ¬ Accounted ⟨[], 1, 60⟩ (.start 0) refusedPacket (final (.start 0) refusedPacket) := by
  refine ⟨isRun_trace _ _, by decide, by decide, by decide, fun h => ?_⟩
  have hblocked := h.blocked
  revert hblocked
  decide

end Qwin
