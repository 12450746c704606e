import Mathlib.Data.Finset.Card
import Qwin.Limiter.Epochs

/-!
What the stored count counts. The names and log lines of src/utils.cpp speak of
connections; the count goes up with every admitted datagram.
-/

set_option autoImplicit false

namespace Qwin
open Runs

def endpointsSince (lim : Limits) (ip : Ip) (tr : List Handling) : List Endpoint :=
  (admittedSince lim ip tr).map Packet.client

/-- The count is the number of distinct endpoints, and where a packet of a
counted endpoint is refused the other endpoints alone explain it. -/
structure CountsConnections (lim : Limits) (ip : Ip) (tr : List Handling) (s : LimiterState) :
    Prop where
  count : ∀ e, s.entry ip = some e → e.count = ((endpointsSince lim ip tr).toFinset.card : Int)
  refusal : ∀ q s', step lim s q = some (.refused, s') → q.ip = ip →
    q.client ∈ endpointsSince lim ip tr →
    lim.maxConnections ≤ ((endpointsSince lim ip tr).toFinset.card : Int)

/-- The packet is not let through, or starts an entry, or comes from an endpoint
that had no packet admitted since the entry was created. -/
def FreshEndpoint (lim : Limits) (ip : Ip) (hist : List Handling) (t : Handling) : Prop :=
  admits ip t = true → creates lim t = true ∨ t.input.client ∉ endpointsSince lim ip hist

section Steps
variable {lim : Limits} {ip : Ip}

theorem endpointsSince_append (hist : List Handling) (t : Handling) :
    endpointsSince lim ip (hist ++ [t]) =
      if admits ip t then
        if creates lim t then [t.input.client] else t.input.client :: endpointsSince lim ip hist
      else endpointsSince lim ip hist := by
  simp only [endpointsSince, admittedSince, epochs_append, record]
  split
  · split
    · simp
    · cases epochs lim ip hist <;> simp
  · rfl

theorem nodup_endpointsSince {s : LimiterState} {tr : List Handling}
    (hrun : IsRun (step lim) s tr)
    (hfresh : ∀ hist t, hist ++ [t] <+: tr → FreshEndpoint lim ip hist t) :
    (endpointsSince lim ip tr).Nodup := by
  induction tr using List.reverseRecOn with
  | nil => simp [endpointsSince, admittedSince, epochs]
  | append_singleton tr t ih =>
    have hold := ih (hrun.upTo (List.prefix_append tr [t])) fun hist u hpre =>
      hfresh hist u (hpre.trans (List.prefix_append tr [t]))
    have hlast := hfresh tr t List.prefix_rfl
    rw [endpointsSince_append]
    split
    · rename_i hadmits
      split
      · simp
      · rename_i hcreate
        exact List.nodup_cons.mpr ⟨(hlast hadmits).resolve_left hcreate, hold⟩
    · exact hold

theorem count_eq_length (hip : ip ∉ lim.excludedIps) {s : LimiterState} {tr : List Handling}
    (hempty : s.limiter.ipMap = ∅) (hrun : IsRun (step lim) s tr) {e : Entry}
    (he : (final s tr).entry ip = some e) :
    e.count = ((endpointsSince lim ip tr).length : Int) := by
  obtain ⟨p, b, past, hbs, hcount, -⟩ := (epochInv_run hip hempty hrun).counts e he
  simp [endpointsSince, admittedSince, hbs, hcount]

theorem countsConnections_of_nodup (hip : ip ∉ lim.excludedIps) {s : LimiterState}
    {tr : List Handling} (hempty : s.limiter.ipMap = ∅) (hrun : IsRun (step lim) s tr)
    (hnodup : (endpointsSince lim ip tr).Nodup) :
    CountsConnections lim ip tr (final s tr) := by
  have hcard := List.toFinset_card_of_nodup hnodup
  constructor
  · intro e he
    rw [hcard, count_eq_length hip hempty hrun he]
  · intro q s' hq hown _
    let t : Handling := ⟨final s tr, q, .refused, s'⟩
    have ht : step lim t.pre t.input = some (t.output, t.post) := hq
    cases step_entryStep hip ht with
    | idle hother | pruned hother => exact absurd hown hother
    | created _ hout | counted _ _ hout => exact absurd rfl hout
    | refused e _ _ he hfull =>
      rw [hcard, ← count_eq_length hip hempty hrun (lim.fresh_eq_some.mp he).1]
      exact hfull

theorem not_countsConnections (hip : ip ∉ lim.excludedIps) {s : LimiterState}
    {hist : List Handling} {t : Handling} (hempty : s.limiter.ipMap = ∅)
    (hrun : IsRun (step lim) s (hist ++ [t])) (hold : ¬ FreshEndpoint lim ip hist t) :
    ¬ CountsConnections lim ip (hist ++ [t]) (final s (hist ++ [t])) := by
  obtain ⟨hadmits, hcreate, hmem⟩ :
      admits ip t = true ∧ creates lim t = false ∧ t.input.client ∈ endpointsSince lim ip hist := by
    simpa [FreshEndpoint] using hold
  obtain ⟨-, -, ht, -⟩ := (isRun_append s hist [t]).mp hrun
  obtain ⟨hown, hout⟩ := admits_iff.mp hadmits
  have hentry : ∃ e, t.post.entry ip = some e := by
    cases step_entryStep hip ht with
    | idle hother | pruned hother => exact absurd hown hother
    | refused _ _ href => exact absurd href hout
    | created _ _ _ _ hpost | counted _ _ _ _ _ _ hpost => exact ⟨_, hpost⟩
  obtain ⟨e, he⟩ := hentry
  have hfinal : (final s (hist ++ [t])).entry ip = some e := by simpa [final] using he
  intro hcounts
  have hlength := count_eq_length hip hempty hrun hfinal
  have hcard := hcounts.count e hfinal
  rw [endpointsSince_append, if_pos hadmits, if_neg (by simp [hcreate])] at hlength hcard
  have hle := List.toFinset_card_le (endpointsSince lim ip hist)
  rw [List.toFinset_cons, Finset.insert_eq_of_mem (by simpa using hmem)] at hcard
  simp only [List.length_cons] at hlength
  omega

end Steps

/-- The count is a count of connections in every state of a run exactly when no
endpoint is let through twice within the life of one entry. -/
theorem counts_connections_iff (lim : Limits) {ip : Ip} (hip : ip ∉ lim.excludedIps)
    {s : LimiterState} {tr : List Handling} (hempty : s.limiter.ipMap = ∅)
    (hrun : IsRun (step lim) s tr) :
    (∀ hist, hist <+: tr → CountsConnections lim ip hist (final s hist)) ↔
      ∀ hist t, hist ++ [t] <+: tr → FreshEndpoint lim ip hist t := by
  constructor
  · intro hall hist t hpre
    by_contra hold
    exact not_countsConnections hip hempty (hrun.upTo hpre) hold (hall _ hpre)
  · intro hfresh hist hpre
    refine countsConnections_of_nodup hip hempty (hrun.upTo hpre) ?_
    exact nodup_endpointsSince (hrun.upTo hpre) fun h t ht => hfresh h t (ht.trans hpre)

def sessionSample : List Handling :=
  trace (step ⟨[], 2, 600⟩) (.start 0)
    [.probe "10.0.0.1" 0 0, .probe "10.0.0.1" 1 1, .probe "10.0.0.1" 2 2]

theorem counts_connections_iff_session :
    (∀ hist, hist <+: sessionSample →
        CountsConnections ⟨[], 2, 600⟩ "10.0.0.1" hist (final (.start 0) hist)) ↔
      ∀ hist t, hist ++ [t] <+: sessionSample → FreshEndpoint ⟨[], 2, 600⟩ "10.0.0.1" hist t :=
  counts_connections_iff ⟨[], 2, 600⟩ (by decide) rfl (isRun_trace _ _)

/-- After two datagrams the single session counts as two connections, and its
third datagram is refused. -/
theorem session_counted_twice :
    sessionSample.map (admits "10.0.0.1") = [true, true, false] ∧
    ((final (.start 0) (sessionSample.take 2)).entry "10.0.0.1").map Entry.count = some 2 ∧
    (endpointsSince ⟨[], 2, 600⟩ "10.0.0.1" (sessionSample.take 2)).toFinset.card = 1 ∧
    ¬ ∀ hist, hist <+: sessionSample →
        CountsConnections ⟨[], 2, 600⟩ "10.0.0.1" hist (final (.start 0) hist) := by
  refine ⟨by decide, by decide, by decide, ?_⟩
  intro hall
  have hcount := (hall _ (List.take_prefix 2 sessionSample)).count ⟨2, 1⟩ rfl
  revert hcount
  decide

end Qwin
