import Mathlib.Data.List.Chain
import Qwin.Library.Window
import Qwin.Limiter.Epochs

/-! How many packets of one address get through, and what a refusal says about them. -/

set_option autoImplicit false

namespace Qwin
open Runs Windows

def admitsWithin (ip : Ip) (lo hi : Int) (t : Handling) : Bool :=
  admits ip t && inWindow Packet.addTime lo hi t.input

theorem length_admitsWithin (lim : Limits) (ip : Ip) (tr : List Handling) (lo hi : Int) :
    (tr.filter (admitsWithin ip lo hi)).length =
      ((epochs lim ip tr).flatten.filter (inWindow Packet.addTime lo hi)).length := by
  rw [flatten_epochs, List.filter_reverse, List.length_reverse, List.filter_map, List.length_map,
    List.filter_filter]
  congr 1
  apply List.filter_congr
  intro t _
  simp [admitsWithin, Bool.and_comm]

theorem epochs_apart {lim : Limits} (hd : 0 ≤ lim.blockDurationSeconds) {ip : Ip}
    {bs : List (List Packet)} {s : LimiterState} (h : EpochInv lim ip bs s) :
    bs.Pairwise (Apart Packet.addTime ((lim.blockDurationSeconds + 1) * nanosPerSecond)) := by
  refine h.gaps.imp ?_
  intro later earlier hgap y hy x hx
  exact (lt_ageSeconds_iff hd).mp (hgap y hy x hx)

theorem length_admits_le {lim : Limits} {ip : Ip} (hip : ip ∉ lim.excludedIps)
    (hm : 1 ≤ lim.maxConnections) (hd : 0 ≤ lim.blockDurationSeconds) {s : LimiterState}
    {tr : List Handling} (hempty : s.limiter.ipMap = ∅) (hrun : IsRun (step lim) s tr)
    {lo hi : Int} (hle : lo ≤ hi) :
    ((tr.filter (admitsWithin ip lo hi)).length : Int) ≤
      lim.maxConnections *
        (1 + (hi - lo) / ((lim.blockDurationSeconds + 1) * nanosPerSecond)) := by
  have hinv := epochInv_run hip hempty hrun
  have hgap : 0 < (lim.blockDurationSeconds + 1) * nanosPerSecond := by
    simp only [nanosPerSecond]
    omega
  rw [length_admitsWithin lim]
  refine length_inWindow_le hgap (by omega) (fun b hb => ?_) (epochs_apart hd hinv) hle
  have hbound := hinv.bounded b hb
  omega

/-- Admission quota: a closed interval of length `len` sees at most one full
count for each block duration that fits into it, and one more. -/
theorem admission_quota (lim : Limits) {ip : Ip} (hip : ip ∉ lim.excludedIps)
    (hm : 1 ≤ lim.maxConnections) (hd : 0 ≤ lim.blockDurationSeconds) {s : LimiterState}
    {tr : List Handling} (hempty : s.limiter.ipMap = ∅) (hrun : IsRun (step lim) s tr)
    (start len : Int) (hlen : 0 ≤ len) :
    ((tr.filter (admitsWithin ip start (start + len))).length : Int) ≤
        lim.maxConnections * (1 + len / ((lim.blockDurationSeconds + 1) * nanosPerSecond)) ∧
      (len < (lim.blockDurationSeconds + 1) * nanosPerSecond →
        ((tr.filter (admitsWithin ip start (start + len))).length : Int) ≤ lim.maxConnections) := by
  have hquota := length_admits_le hip hm hd hempty hrun (show start ≤ start + len by omega)
  rw [show start + len - start = len by omega] at hquota
  refine ⟨hquota, fun hshort => ?_⟩
  rwa [Int.ediv_eq_zero_of_lt hlen hshort, Int.add_zero, Int.mul_one] at hquota

theorem admission_quota_burst :
    let lim : Limits := ⟨[], 2, 0⟩
    let tr := trace (step lim) (.start 0) [.probe "10.0.0.1" 0 0, .probe "10.0.0.1" 1 1,
      .probe "10.0.0.1" 2 2, .probe "10.0.0.1" 1000000001 1000000001]
    ((tr.filter (admitsWithin "10.0.0.1" 0 (0 + 1000000001))).length : Int) ≤
        2 * (1 + 1000000001 / ((0 + 1) * nanosPerSecond)) ∧
      (1000000001 < (0 + 1) * nanosPerSecond →
        ((tr.filter (admitsWithin "10.0.0.1" 0 (0 + 1000000001))).length : Int) ≤ 2) :=
  admission_quota ⟨[], 2, 0⟩ (by decide) (by decide) (by decide) rfl (isRun_trace _ _) _ _
    (by decide)

def Pursues (lim : Limits) (later earlier : Packet) : Prop :=
  ageSeconds later.checkTime earlier.addTime ≤ lim.blockDurationSeconds

instance (lim : Limits) (p q : Packet) : Decidable (Pursues lim p q) :=
  inferInstanceAs (Decidable (_ ≤ _))

def admissions (ip : Ip) (tr : List Handling) : List Packet :=
  ((tr.filter (admits ip)).map (·.input)).reverse

section Refusals
variable {lim : Limits} {ip : Ip} {s : LimiterState} {tr : List Handling} {q : Handling}

theorem refusal_has_chain (hip : ip ∉ lim.excludedIps) (hempty : s.limiter.ipMap = ∅)
    (hrun : IsRun (step lim) s (tr ++ [q])) (hown : q.input.ip = ip) (href : q.output = .refused) :
    ∃ chain, chain <+: admissions ip tr ∧ lim.maxConnections ≤ (chain.length : Int) ∧
      (q.input :: chain).IsChain (Pursues lim) := by
  obtain ⟨htr, hpre, hq, -⟩ := (isRun_append s tr [q]).mp hrun
  have hinv := epochInv_run hip hempty htr
  rw [← hpre] at hinv
  cases step_entryStep hip hq with
  | idle hother | pruned hother => exact absurd hown hother
  | created _ hout | counted _ _ hout => exact absurd href hout
  | refused e _ _ he hfull =>
    obtain ⟨hold, hage⟩ := lim.fresh_eq_some.mp he
    obtain ⟨p, b, past, hbs, hcount, htime⟩ := hinv.counts e hold
    refine ⟨p :: b, ⟨past.flatten, ?_⟩, hcount ▸ hfull, ?_⟩
    · rw [admissions, ← flatten_epochs lim, hbs, List.flatten_cons]
    · have hpursue : Pursues lim q.input p := by rwa [Pursues, ← htime]
      exact .cons_cons hpursue (hinv.chained (p :: b) (by simp [hbs]))

theorem chain_is_window {n : Nat} {chain : List Packet}
    (hall : ∀ t ∈ tr, t.input.ip = ip → t.output ≠ .refused) (hown : q.input.ip = ip)
    (hchain : chain <+: admissions ip tr) (hn : n ≤ chain.length)
    (hpursues : (q.input :: chain).IsChain (Pursues lim)) :
    ∃ w, w <:+: (tr ++ [q]).filter (own ip) ∧ w.length = n + 1 ∧
      (∀ t ∈ w.dropLast, t.output ≠ .refused) ∧
      w.IsChain fun earlier later => Pursues lim later.input earlier.input := by
  let l := tr.filter (own ip)
  have hadmissions : admissions ip tr = (l.map (·.input)).reverse := by
    unfold admissions
    congr 2
    apply List.filter_congr
    intro t ht
    by_cases hip : t.input.ip = ip
    · simp [admits, own, hip, hall t ht hip]
    · simp [admits, own, hip]
  have hlast : (tr ++ [q]).filter (own ip) = l ++ [q] := by
    simp [l, own, hown]
  have htake : chain.take n = (l.reverse.take n).map (·.input) := by
    rw [List.prefix_iff_eq_take.mp hchain, List.take_take, min_eq_left hn, hadmissions,
      ← List.map_reverse, List.map_take]
  refine ⟨(q :: l.reverse.take n).reverse, ?_, ?_, ?_, ?_⟩
  · rw [hlast]
    apply List.IsSuffix.isInfix
    rw [← List.reverse_prefix, List.reverse_reverse, List.reverse_append]
    exact List.prefix_cons_iff.mpr (Or.inr ⟨_, rfl, List.take_prefix _ _⟩)
  · have hlen := congrArg List.length htake
    simp only [List.length_take, List.length_map, List.length_reverse] at hlen
    simp only [List.length_reverse, List.length_cons, List.length_take]
    omega
  · intro t ht
    rw [List.reverse_cons, List.dropLast_concat, List.mem_reverse] at ht
    have hmem : t ∈ l := List.mem_reverse.mp (List.mem_of_mem_take ht)
    obtain ⟨htr, hip⟩ := List.mem_filter.mp hmem
    exact hall t htr (by simpa [own] using hip)
  · rw [List.isChain_reverse]
    have hinitial : q.input :: chain.take n <+: q.input :: chain :=
      List.prefix_cons_iff.mpr (Or.inr ⟨_, rfl, List.take_prefix _ _⟩)
    have hshort := hpursues.prefix hinitial
    rw [htake, ← List.map_cons, List.isChain_map] at hshort
    exact hshort

end Refusals

/-- No false blocking, as the code has it: behind a refusal stands a full count of
admissions, each within the block duration of the one before. A client that
leaves a longer pause somewhere in every `maxConnections + 1` packets in a row
is never refused. -/
theorem refusals_are_earned (lim : Limits) {ip : Ip} (hip : ip ∉ lim.excludedIps)
    {s : LimiterState} {tr : List Handling} (hempty : s.limiter.ipMap = ∅)
    (hrun : IsRun (step lim) s tr) :
    (∀ hist q, hist ++ [q] <+: tr → q.input.ip = ip → q.output = .refused →
      ∃ chain, chain <+: admissions ip hist ∧ lim.maxConnections ≤ (chain.length : Int) ∧
        (q.input :: chain).IsChain (Pursues lim)) ∧
    ((∀ w, w <:+: tr.filter (own ip) → w.length = lim.maxConnections.toNat + 1 →
        (∀ t ∈ w.dropLast, t.output ≠ .refused) →
        ¬ w.IsChain fun earlier later => Pursues lim later.input earlier.input) →
      ∀ t ∈ tr, t.input.ip = ip → t.output ≠ .refused) := by
  refine ⟨fun hist q hpre hown href =>
    refusal_has_chain hip hempty (hrun.upTo hpre) hown href, ?_⟩
  intro hpause
  suffices hall : ∀ hist, hist <+: tr → ∀ t ∈ hist, t.input.ip = ip → t.output ≠ .refused from
    hall tr List.prefix_rfl
  intro hist
  induction hist using List.reverseRecOn with
  | nil => simp
  | append_singleton hist q ih =>
    intro hpre
    have hold := ih ((List.prefix_append hist [q]).trans hpre)
    intro t ht hown href
    rcases List.mem_append.mp ht with ht | ht
    · exact hold t ht hown href
    -- the first refusal: every earlier packet of the address was admitted
    obtain rfl := List.mem_singleton.mp ht
    obtain ⟨chain, hchain, hfull, hpursues⟩ :=
      refusal_has_chain hip hempty (hrun.upTo hpre) hown href
    obtain ⟨w, hw, hlen, hpassed, hchained⟩ :=
      chain_is_window hold hown hchain (n := lim.maxConnections.toNat) (by omega) hpursues
    exact hpause w (hw.trans (hpre.filter (own ip)).isInfix) hlen hpassed hchained

/-- Two connections a minute: the third packet is refused although only one
admission lies within the last minute and no minute sees more than two packets. -/
def slowClient : List Handling :=
  trace (step ⟨[], 2, 60⟩) (.start 0) [.probe "10.0.0.1" 0 0,
    .probe "10.0.0.1" 50000000000 50000000000, .probe "10.0.0.1" 100000000000 100000000000]

theorem slow_client_is_refused :
    (slowClient.get ⟨2, by decide⟩).output = .refused ∧
      (slowClient.filter fun t =>
        admits "10.0.0.1" t && ageSeconds 100000000000 t.input.addTime ≤ 60).length < 2 ∧
      ∀ start, (slowClient.filter fun t =>
        inWindow Packet.checkTime start (start + 60 * nanosPerSecond) t.input).length ≤ 2 := by
  refine ⟨by decide, by decide, fun start => ?_⟩
  let first := slowClient.get ⟨0, by decide⟩
  let second := slowClient.get ⟨1, by decide⟩
  let third := slowClient.get ⟨2, by decide⟩
  have hlist : slowClient = [first, second, third] := rfl
  have hends : inWindow Packet.checkTime start (start + 60 * nanosPerSecond) first.input = false ∨
      inWindow Packet.checkTime start (start + 60 * nanosPerSecond) third.input = false := by
    have hfirst : first.input.checkTime = 0 := rfl
    have hthird : third.input.checkTime = 100000000000 := rfl
    simp only [inWindow, hfirst, hthird, nanosPerSecond, decide_eq_false_iff_not]
    omega
  rcases hends with h | h
  · rw [hlist, List.filter_cons_of_neg (by simp [h])]
    exact List.length_filter_le _ [second, third]
  · have hsplit : slowClient = [first, second] ++ [third] := rfl
    rw [hsplit, List.filter_append, List.filter_cons_of_neg (a := third) (by simp [h]),
      List.filter_nil, List.append_nil]
    exact List.length_filter_le _ [first, second]

theorem refusals_are_earned_slow :
    (∀ hist q, hist ++ [q] <+: slowClient → q.input.ip = "10.0.0.1" → q.output = .refused →
      ∃ chain, chain <+: admissions "10.0.0.1" hist ∧ (2 : Int) ≤ (chain.length : Int) ∧
        (q.input :: chain).IsChain (Pursues ⟨[], 2, 60⟩)) ∧
    ((∀ w, w <:+: slowClient.filter (own "10.0.0.1") → w.length = 2 + 1 →
        (∀ t ∈ w.dropLast, t.output ≠ .refused) →
        ¬ w.IsChain fun earlier later => Pursues ⟨[], 2, 60⟩ later.input earlier.input) →
      ∀ t ∈ slowClient, t.input.ip = "10.0.0.1" → t.output ≠ .refused) :=
  refusals_are_earned ⟨[], 2, 60⟩ (by decide) rfl (isRun_trace _ _)

end Qwin
