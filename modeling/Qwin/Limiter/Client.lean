import Qwin.Limiter.Step

/-!
The limiter as one client sees it: an automaton that is fed the client's own
packets only. The shared map, with everybody's packets, tracks it.
-/

set_option autoImplicit false

namespace Qwin
open Runs

/-- Answer and new entry for a packet checked at `c` and, if let through, added at `a`. -/
def clientStep (lim : Limits) (o : Option Entry) (c a : Int) : Bool × Option Entry :=
  match lim.fresh c o with
  | none => (false, some ⟨1, a⟩)
  | some e =>
    if lim.maxConnections ≤ e.count then (true, some e) else (false, some ⟨e.count + 1, a⟩)

def clientTake (lim : Limits) (o : Option Entry) (t : Handling) : Option Entry :=
  (clientStep lim o t.input.checkTime t.input.addTime).2

def ClientRun (lim : Limits) (ip : Ip) : Option Entry → List Handling → Prop
  | _, [] => True
  | o, t :: ts =>
    (t.output = .refused ↔ (clientStep lim o t.input.checkTime t.input.addTime).1 = true) ∧
      t.post.entry ip = clientTake lim o t ∧ ClientRun lim ip (clientTake lim o t) ts

/-- Equal for every check still to come: a stale entry counts as absent. -/
def Tracks (lim : Limits) (ip : Ip) (s : LimiterState) (o : Option Entry) : Prop :=
  ∀ c, s.clock ≤ c → lim.fresh c (s.entry ip) = lim.fresh c o

theorem tracks_self (lim : Limits) (ip : Ip) (s : LimiterState) :
    Tracks lim ip s (s.entry ip) := fun _ _ => rfl

section Tracking
variable {lim : Limits} {ip : Ip} {o : Option Entry}

theorem tracks_other (hip : ip ∉ lim.excludedIps) {t : Handling}
    (ht : step lim t.pre t.input = some (t.output, t.post)) (hother : t.input.ip ≠ ip)
    (h : Tracks lim ip t.pre o) : Tracks lim ip t.post o := by
  intro c hc
  obtain ⟨hpre, hpost⟩ := step_clock ht
  have hold := h c (by omega)
  cases step_entryStep hip ht with
  | idle _ he => rw [he, hold]
  | pruned _ he => rw [he, lim.fresh_fresh (by omega), hold]
  | refused _ hown | created hown | counted _ hown => exact absurd hown hother

theorem tracks_own (hip : ip ∉ lim.excludedIps) {t : Handling}
    (ht : step lim t.pre t.input = some (t.output, t.post)) (hown : t.input.ip = ip)
    (h : Tracks lim ip t.pre o) :
    (t.output = .refused ↔ (clientStep lim o t.input.checkTime t.input.addTime).1 = true) ∧
      t.post.entry ip = clientTake lim o t := by
  have hold := h t.input.checkTime (step_clock ht).1
  cases step_entryStep hip ht with
  | idle hother | pruned hother => exact absurd hown hother
  | refused e _ hout he hfull hpost =>
    rw [he] at hold
    simp [clientTake, clientStep, ← hold, hfull, hout, hpost]
  | created _ hout he _ hpost =>
    rw [he] at hold
    simp [clientTake, clientStep, ← hold, hout, hpost]
  | counted e _ hout he hlt _ hpost =>
    rw [he] at hold
    have hnot : ¬ lim.maxConnections ≤ e.count := by omega
    simp [clientTake, clientStep, ← hold, hnot, hout, hpost]

theorem tracks_run (hip : ip ∉ lim.excludedIps) {s : LimiterState} {tr : List Handling}
    (hrun : IsRun (step lim) s tr) (h : Tracks lim ip s o) :
    ClientRun lim ip o (tr.filter (own ip)) ∧
      Tracks lim ip (final s tr) ((tr.filter (own ip)).foldl (clientTake lim) o) := by
  induction tr generalizing s o with
  | nil => exact ⟨trivial, h⟩
  | cons t ts ih =>
    obtain ⟨rfl, ht, hts⟩ := (isRun_cons s t ts).mp hrun
    by_cases hown : t.input.ip = ip
    · obtain ⟨hout, hpost⟩ := tracks_own hip ht hown h
      have hnext : Tracks lim ip t.post (clientTake lim o t) := hpost ▸ tracks_self lim ip t.post
      obtain ⟨hclient, hfinal⟩ := ih hts hnext
      rw [List.filter_cons_of_pos (by simp [own, hown])]
      exact ⟨⟨hout, hpost, hclient⟩, hfinal⟩
    · rw [List.filter_cons_of_neg (by simp [own, hown])]
      exact ih hts (tracks_other hip ht hown h)

end Tracking

def SameReadings (t t' : Handling) : Prop :=
  t.input.checkTime = t'.input.checkTime ∧
    (t.output ≠ .refused → t'.output ≠ .refused → t.input.addTime = t'.input.addTime)

def SameTreatment (ip : Ip) (t t' : Handling) : Prop :=
  (t.output = .refused ↔ t'.output = .refused) ∧ t.post.entry ip = t'.post.entry ip

theorem clientStep_fst (lim : Limits) (o : Option Entry) (c a a' : Int) :
    (clientStep lim o c a).1 = (clientStep lim o c a').1 := by
  unfold clientStep
  split
  · rfl
  · split <;> rfl

theorem clientStep_snd (lim : Limits) (o : Option Entry) (c a a' : Int)
    (h : (clientStep lim o c a).1 = true ∨ a = a') :
    (clientStep lim o c a).2 = (clientStep lim o c a').2 := by
  rcases h with h | rfl
  · unfold clientStep at h ⊢
    split at h
    · simp at h
    · split at h
      · rename_i hfull
        simp [hfull]
      · simp at h
  · rfl

theorem clientRun_deterministic {lim : Limits} {ip : Ip} {o : Option Entry} {ts ts' : List Handling}
    (h : ClientRun lim ip o ts) (h' : ClientRun lim ip o ts')
    (hsame : List.Forall₂ SameReadings ts ts') : List.Forall₂ (SameTreatment ip) ts ts' := by
  induction hsame generalizing o with
  | nil => exact .nil
  | @cons t t' ts ts' hread _ ih =>
    obtain ⟨hout, hpost, hts⟩ := h
    obtain ⟨hout', hpost', hts'⟩ := h'
    obtain ⟨hcheck, hadd⟩ := hread
    have hiff : t.output = .refused ↔ t'.output = .refused := by
      rw [hout, hout', ← hcheck, clientStep_fst]
    have htake : clientTake lim o t = clientTake lim o t' := by
      unfold clientTake
      rw [← hcheck]
      apply clientStep_snd
      by_cases hr : t.output = .refused
      · exact Or.inl (hout.mp hr)
      · exact Or.inr (hadd hr fun hr' => hr (hiff.mpr hr'))
    refine .cons ⟨hiff, by rw [hpost, hpost', htake]⟩ (ih hts ?_)
    exact htake ▸ hts'

/-- Clients cannot influence each other: two runs in which one address sends the
same packets treat these alike, whatever the other addresses send. -/
theorem clients_are_isolated (lim : Limits) (ip : Ip) {s s' : LimiterState}
    {tr tr' : List Handling} (hempty : s.limiter.ipMap = ∅) (hempty' : s'.limiter.ipMap = ∅)
    (hrun : IsRun (step lim) s tr) (hrun' : IsRun (step lim) s' tr')
    (hsame : List.Forall₂ SameReadings (tr.filter (own ip)) (tr'.filter (own ip))) :
    List.Forall₂ (SameTreatment ip) (tr.filter (own ip)) (tr'.filter (own ip)) := by
  have he := LimiterState.entry_of_empty hempty ip
  have he' := LimiterState.entry_of_empty hempty' ip
  by_cases hip : ip ∈ lim.excludedIps
  · have hall := (run_excluded hip hrun he).2
    have hall' := (run_excluded hip hrun' he').2
    have htreat : ∀ t ∈ tr.filter (own ip), ∀ t' ∈ tr'.filter (own ip), SameTreatment ip t t' := by
      intro t ht t' ht'
      obtain ⟨hmem, hown⟩ := List.mem_filter.mp ht
      obtain ⟨hmem', hown'⟩ := List.mem_filter.mp ht'
      obtain ⟨hpost, hout⟩ := hall t hmem
      obtain ⟨hpost', hout'⟩ := hall' t' hmem'
      have hpass := hout (by simpa [own] using hown)
      have hpass' := hout' (by simpa [own] using hown')
      exact ⟨by simp [hpass, hpass'], by rw [hpost, hpost']⟩
    exact (List.forall₂_iff_get.mpr ⟨hsame.length_eq, fun i h h' =>
      htreat _ (List.get_mem _ _) _ (List.get_mem _ _)⟩)
  · have hclient := (tracks_run hip hrun (tracks_self lim ip s)).1
    have hclient' := (tracks_run hip hrun' (tracks_self lim ip s')).1
    rw [he] at hclient
    rw [he'] at hclient'
    exact clientRun_deterministic hclient hclient' hsame

instance (t t' : Handling) : Decidable (SameReadings t t') :=
  inferInstanceAs (Decidable (_ ∧ _))

theorem clients_are_isolated_pruned :
    let lim : Limits := ⟨["127.0.0.1"], 1, 0⟩
    let packets := [Packet.probe "10.0.0.1" 0 1, .probe "10.0.0.1" 5 5,
      .probe "10.0.0.1" 3000000000 3000000001]
    let others := [Packet.probe "10.0.0.1" 0 1, .probe "10.0.0.1" 5 5,
      .probe "10.0.0.2" 2000000000 2000000000, .probe "10.0.0.1" 3000000000 3000000001]
    List.Forall₂ (SameTreatment "10.0.0.1")
      ((trace (step lim) (.start 0) packets).filter (own "10.0.0.1"))
      ((trace (step lim) (.start 0) others).filter (own "10.0.0.1")) :=
  clients_are_isolated _ _ rfl rfl (isRun_trace _ _) (isRun_trace _ _) (by decide)

theorem clientStep_full (lim : Limits) {e : Entry} (hfull : lim.maxConnections ≤ e.count)
    {c : Int} (a : Int) (hage : ageSeconds c e.timestamp ≤ lim.blockDurationSeconds) :
    clientStep lim (some e) c a = (true, some e) := by
  simp [clientStep, lim.fresh_some, hage, hfull]

theorem clientStep_expired (lim : Limits) {e : Entry} {c : Int} (a : Int)
    (hage : lim.blockDurationSeconds < ageSeconds c e.timestamp) :
    clientStep lim (some e) c a = (false, some ⟨1, a⟩) := by
  have hnot : ¬ ageSeconds c e.timestamp ≤ lim.blockDurationSeconds := by omega
  simp [clientStep, lim.fresh_some, hnot]

theorem foldl_clientTake_full (lim : Limits) {e : Entry} (hfull : lim.maxConnections ≤ e.count)
    {ts : List Handling}
    (hage : ∀ t ∈ ts, ageSeconds t.input.checkTime e.timestamp ≤ lim.blockDurationSeconds) :
    ts.foldl (clientTake lim) (some e) = some e := by
  induction ts with
  | nil => rfl
  | cons t ts ih =>
    obtain ⟨ht, hts⟩ := List.forall_mem_cons.mp hage
    rw [List.foldl_cons, clientTake, clientStep_full lim hfull _ ht]
    exact ih hts

theorem admitted_timestamp {lim : Limits} {ip : Ip} (hip : ip ∉ lim.excludedIps) {t : Handling}
    (ht : step lim t.pre t.input = some (t.output, t.post)) (hadmits : admits ip t = true)
    {e : Entry} (he : t.post.entry ip = some e) : e.timestamp = t.input.addTime := by
  obtain ⟨hown, hout⟩ : t.input.ip = ip ∧ t.output ≠ .refused := by simpa [admits] using hadmits
  cases step_entryStep hip ht with
  | idle hother | pruned hother => exact absurd hown hother
  | refused _ _ href => exact absurd href hout
  | created _ _ _ _ hpost | counted _ _ _ _ _ _ hpost =>
    rw [hpost] at he
    rw [← Option.some.inj he]

/-- A block lasts exactly the configured time after the admission `t` that
filled the entry: refusals change nothing, and the first packet past it starts anew. -/
theorem block_is_exact (lim : Limits) {ip : Ip} (hip : ip ∉ lim.excludedIps) {s : LimiterState}
    {before mid : List Handling} {t q : Handling}
    (hrun : IsRun (step lim) s (before ++ t :: (mid ++ [q]))) (hadmits : admits ip t = true)
    (hfull : (t.post.entry ip).map Entry.count = some lim.maxConnections)
    (hq : q.input.ip = ip) :
    (ageSeconds q.input.checkTime t.input.addTime ≤ lim.blockDurationSeconds →
      q.output = .refused ∧ q.post.entry ip = some ⟨lim.maxConnections, t.input.addTime⟩) ∧
    (lim.blockDurationSeconds < ageSeconds q.input.checkTime t.input.addTime →
      (∀ r ∈ mid, r.input.ip = ip →
        ageSeconds r.input.checkTime t.input.addTime ≤ lim.blockDurationSeconds) →
      q.output ≠ .refused ∧ q.post.entry ip = some ⟨1, q.input.addTime⟩) := by
  obtain ⟨-, -, ht, hrest⟩ := (isRun_append s before _).mp hrun
  obtain ⟨hmid, hpre, hqstep, -⟩ := (isRun_append t.post mid [q]).mp hrest
  obtain ⟨e, he, hcount⟩ := Option.map_eq_some_iff.mp hfull
  have hadd := admitted_timestamp hip ht hadmits he
  have hentry : e = ⟨lim.maxConnections, t.input.addTime⟩ := by rw [← hcount, ← hadd]
  have hlimit : lim.maxConnections ≤ e.count := by omega
  have htrack := (tracks_run hip hmid (tracks_self lim ip t.post)).2
  rw [he, ← hpre] at htrack
  -- while the client's own checks stay within the block, its entry is tracked unchanged
  have hkept : (∀ r ∈ mid, r.input.ip = ip →
      ageSeconds r.input.checkTime t.input.addTime ≤ lim.blockDurationSeconds) →
      Tracks lim ip q.pre (some e) := by
    intro hage
    rwa [foldl_clientTake_full lim hlimit] at htrack
    intro r hr
    obtain ⟨hmem, hown⟩ := List.mem_filter.mp hr
    exact hadd ▸ hage r hmem (by simpa [own] using hown)
  constructor
  · intro hage
    have hearlier : ∀ r ∈ mid, r.input.checkTime ≤ q.input.checkTime := by
      intro r hr
      have hclock := ((run_clock hmid).2 r hr).1
      have hcheck := (step_clock hqstep).1
      rw [hpre] at hcheck
      omega
    have htracks := hkept fun r hr _ => Int.le_trans (ageSeconds_mono (hearlier r hr)) hage
    have hq' := tracks_own hip hqstep hq htracks
    rw [clientTake, clientStep_full lim hlimit _ (hadd ▸ hage)] at hq'
    exact ⟨hq'.1.mpr rfl, by rw [hq'.2, hentry]⟩
  · intro hpast hage
    have hq' := tracks_own hip hqstep hq (hkept hage)
    rw [clientTake, clientStep_expired lim _ (hadd ▸ hpast)] at hq'
    exact ⟨fun hr => by simpa using hq'.1.mp hr, hq'.2⟩

def blockSample : List Handling :=
  trace (step ⟨[], 1, 0⟩) (.start 0) [.probe "10.0.0.1" 0 1, .probe "10.0.0.2" 2 2,
    .probe "10.0.0.1" 1000000000 1000000000, .probe "10.0.0.1" 1000000001 1000000005]

theorem block_is_exact_boundary :
    ((blockSample.get ⟨2, by decide⟩).output = .refused ∧
      (blockSample.get ⟨2, by decide⟩).post.entry "10.0.0.1" = some ⟨1, 1⟩) ∧
    (blockSample.get ⟨3, by decide⟩).output ≠ .refused ∧
      (blockSample.get ⟨3, by decide⟩).post.entry "10.0.0.1" = some ⟨1, 1000000005⟩ := by
  let t := blockSample.get ⟨0, by decide⟩
  let other := blockSample.get ⟨1, by decide⟩
  let q := blockSample.get ⟨2, by decide⟩
  let r := blockSample.get ⟨3, by decide⟩
  have hrun : IsRun (step ⟨[], 1, 0⟩) (.start 0) ([] ++ t :: ([other] ++ [q])) :=
    ⟨rfl, rfl, rfl, rfl, rfl, rfl, trivial⟩
  have hrun' : IsRun (step ⟨[], 1, 0⟩) (.start 0) ([] ++ t :: ([other, q] ++ [r])) :=
    ⟨rfl, rfl, rfl, rfl, rfl, rfl, rfl, rfl, trivial⟩
  exact ⟨(block_is_exact _ (by decide) hrun (by decide) (by decide) (by decide)).1 (by decide),
    (block_is_exact _ (by decide) hrun' (by decide) (by decide) (by decide)).2
      (by decide) (by decide)⟩

end Qwin
