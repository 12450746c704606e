import Qwin.Limiter.Step

/-!
The history of an address cut into epochs: an epoch is what was admitted between
the creation of an entry and its removal. The entry counts its last epoch.
-/

set_option autoImplicit false

namespace Qwin
open Runs

/-- The check left no entry for the sender, so admitting this packet creates one. -/
def creates (lim : Limits) (t : Handling) : Bool := t.input.ip ∉ checkedMap lim t

/-- Epochs and the packets in them stand newest first. -/
def record (lim : Limits) (ip : Ip) (epochs : List (List Packet)) (t : Handling) :
    List (List Packet) :=
  if admits ip t then
    if creates lim t then [t.input] :: epochs
    else
      match epochs with
      | [] => [[t.input]]
      | b :: past => (t.input :: b) :: past
  else epochs

def epochs (lim : Limits) (ip : Ip) (tr : List Handling) : List (List Packet) :=
  tr.foldl (record lim ip) []

/-- The packets admitted since the entry was created, newest first. -/
def admittedSince (lim : Limits) (ip : Ip) (tr : List Handling) : List Packet :=
  (epochs lim ip tr).headD []

@[simp] theorem epochs_append (lim : Limits) (ip : Ip) (tr : List Handling) (t : Handling) :
    epochs lim ip (tr ++ [t]) = record lim ip (epochs lim ip tr) t := by
  simp [epochs]

theorem flatten_record (lim : Limits) (ip : Ip) (bs : List (List Packet)) (t : Handling) :
    (record lim ip bs t).flatten =
      if admits ip t then t.input :: bs.flatten else bs.flatten := by
  unfold record
  split
  · split
    · simp
    · cases bs <;> simp
  · rfl

theorem flatten_epochs (lim : Limits) (ip : Ip) (tr : List Handling) :
    (epochs lim ip tr).flatten = ((tr.filter (admits ip)).map (·.input)).reverse := by
  induction tr using List.reverseRecOn with
  | nil => rfl
  | append_singleton tr t ih =>
    rw [epochs_append, flatten_record, ih]
    by_cases h : admits ip t = true <;> simp [h]

structure EpochInv (lim : Limits) (ip : Ip) (bs : List (List Packet)) (s : LimiterState) :
    Prop where
  bounded : ∀ b ∈ bs, (b.length : Int) ≤ max 1 lim.maxConnections
  counts : ∀ e, s.entry ip = some e → ∃ p b past, bs = (p :: b) :: past ∧
    e.count = ((p :: b).length : Int) ∧ e.timestamp = p.addTime
  latest : ∀ e, s.entry ip = some e → ∀ q ∈ bs.flatten, q.addTime ≤ e.timestamp
  gone : s.entry ip = none → ∀ q ∈ bs.flatten,
    lim.blockDurationSeconds < ageSeconds s.clock q.addTime
  past : ∀ q ∈ bs.flatten, q.addTime ≤ s.clock
  gaps : bs.Pairwise fun later earlier => ∀ y ∈ later, ∀ x ∈ earlier,
    lim.blockDurationSeconds < ageSeconds y.addTime x.addTime
  chained : ∀ b ∈ bs, b.IsChain fun later earlier =>
    ageSeconds later.checkTime earlier.addTime ≤ lim.blockDurationSeconds

section Steps
variable {lim : Limits} {ip : Ip} {bs : List (List Packet)}

theorem EpochInv.expired {s : LimiterState} (h : EpochInv lim ip bs s) {c : Int}
    (hc : s.clock ≤ c) (he : lim.fresh c (s.entry ip) = none) :
    ∀ q ∈ bs.flatten, lim.blockDurationSeconds < ageSeconds c q.addTime := by
  intro q hq
  cases hs : s.entry ip with
  | none =>
    have hold := h.gone hs q hq
    have hage := ageSeconds_mono (t := q.addTime) hc
    omega
  | some e =>
    rw [hs, lim.fresh_some] at he
    have hstale : ¬ ageSeconds c e.timestamp ≤ lim.blockDurationSeconds := by
      intro hle
      simp [hle] at he
    have hage : ageSeconds c e.timestamp ≤ ageSeconds c q.addTime :=
      ageSeconds_anti (h.latest e hs q hq)
    omega

theorem creates_iff (hip : ip ∉ lim.excludedIps) {t : Handling} (hown : t.input.ip = ip) :
    creates lim t = true ↔ lim.fresh t.input.checkTime (t.pre.entry ip) = none := by
  rw [creates, checkedMap_eq lim t (hown ▸ hip), decide_eq_true_iff, hown,
    ← AList.lookup_eq_none, lim.lookup_prune]
  rfl

theorem admits_iff {t : Handling} : admits ip t = true ↔ t.input.ip = ip ∧ t.output ≠ .refused := by
  simp [admits]

theorem admission_times {t : Handling} {e : Entry} (hs : t.post.entry ip = some e)
    (htime : e.timestamp = t.input.addTime) (hclock : t.post.clock = t.input.addTime)
    (hpast : ∀ q ∈ bs.flatten, q.addTime ≤ t.post.clock) :
    (∀ e', t.post.entry ip = some e' → ∀ q ∈ t.input :: bs.flatten, q.addTime ≤ e'.timestamp) ∧
      ∀ q ∈ t.input :: bs.flatten, q.addTime ≤ t.post.clock := by
  have hall : ∀ q ∈ t.input :: bs.flatten, q.addTime ≤ t.post.clock := by
    intro q hq
    rcases List.mem_cons.mp hq with rfl | hq
    · omega
    · exact hpast q hq
  refine ⟨fun e' he' q hq => ?_, hall⟩
  obtain rfl := Option.some.inj (hs.symm.trans he')
  rw [htime, ← hclock]
  exact hall q hq

theorem record_of_not_admits {t : Handling} (h : t.input.ip ≠ ip ∨ t.output = .refused) :
    record lim ip bs t = bs := by
  have hno : ¬ admits ip t = true := by
    rw [admits_iff]
    rintro ⟨hown, hout⟩
    exact h.elim (absurd hown) hout
  simp [record, hno]

/-- A step that admits nothing of the address can only lose its entry. -/
theorem EpochInv.keep {s s' : LimiterState} (h : EpochInv lim ip bs s)
    (hpast : ∀ q ∈ bs.flatten, q.addTime ≤ s'.clock)
    (hkept : ∀ e, s'.entry ip = some e → s.entry ip = some e)
    (hgone : s'.entry ip = none → ∀ q ∈ bs.flatten,
      lim.blockDurationSeconds < ageSeconds s'.clock q.addTime) : EpochInv lim ip bs s' :=
  { h with
    past := hpast
    counts := fun e hs => h.counts e (hkept e hs)
    latest := fun e hs => h.latest e (hkept e hs)
    gone := hgone }

theorem EpochInv.create {t : Handling} (h : EpochInv lim ip bs t.pre)
    (hpast : ∀ q ∈ bs.flatten, q.addTime ≤ t.post.clock)
    (hexpired : ∀ q ∈ bs.flatten, lim.blockDurationSeconds < ageSeconds t.input.addTime q.addTime)
    (hclock : t.post.clock = t.input.addTime)
    (hs : t.post.entry ip = some ⟨1, t.input.addTime⟩) :
    EpochInv lim ip ([t.input] :: bs) t.post := by
  obtain ⟨hlatest, hall⟩ := admission_times hs rfl hclock hpast
  refine ⟨?_, ?_, hlatest, by simp [hs], hall, ?_, ?_⟩
  · intro b hb
    rcases List.mem_cons.mp hb with rfl | hb
    · simp only [List.length_singleton]
      omega
    · exact h.bounded b hb
  · rintro e' he'
    obtain rfl := Option.some.inj (hs.symm.trans he')
    exact ⟨t.input, [], bs, rfl, rfl, rfl⟩
  · refine List.pairwise_cons.mpr ⟨?_, h.gaps⟩
    intro b hb y hy x hx
    obtain rfl := List.mem_singleton.mp hy
    exact hexpired x (List.mem_flatten.mpr ⟨b, hb, hx⟩)
  · intro b hb
    rcases List.mem_cons.mp hb with rfl | hb
    · exact .singleton _
    · exact h.chained b hb

theorem EpochInv.extend {t : Handling} {p : Packet} {b : List Packet} {rest : List (List Packet)}
    {e : Entry} (h : EpochInv lim ip ((p :: b) :: rest) t.pre)
    (hpast : ∀ q ∈ ((p :: b) :: rest).flatten, q.addTime ≤ t.post.clock)
    (hcount : e.count = ((p :: b).length : Int)) (hlt : e.count < lim.maxConnections)
    (hage : ageSeconds t.input.checkTime p.addTime ≤ lim.blockDurationSeconds)
    (hclock : t.post.clock = t.input.addTime)
    (hs : t.post.entry ip = some ⟨e.count + 1, t.input.addTime⟩) :
    EpochInv lim ip ((t.input :: p :: b) :: rest) t.post := by
  have hadd : p.addTime ≤ t.input.addTime := hclock ▸ hpast p (by simp)
  obtain ⟨hgap, hgaps⟩ := List.pairwise_cons.mp h.gaps
  obtain ⟨hlatest, hall⟩ := admission_times hs rfl hclock hpast
  refine ⟨?_, ?_, hlatest, by simp [hs], hall, ?_, ?_⟩
  · intro b' hb'
    rcases List.mem_cons.mp hb' with rfl | hb'
    · simp only [List.length_cons] at hcount ⊢
      omega
    · exact h.bounded b' (by simp [hb'])
  · rintro e' he'
    obtain rfl := Option.some.inj (hs.symm.trans he')
    exact ⟨t.input, p :: b, rest, rfl, by simp [hcount], rfl⟩
  · refine List.pairwise_cons.mpr ⟨?_, hgaps⟩
    intro b' hb' y hy x hx
    rcases List.mem_cons.mp hy with rfl | hy
    · have hp := hgap b' hb' p (by simp) x hx
      have hmono := ageSeconds_mono (t := x.addTime) hadd
      omega
    · exact hgap b' hb' y hy x hx
  · intro b' hb'
    rcases List.mem_cons.mp hb' with rfl | hb'
    · exact .cons_cons hage (h.chained _ (by simp))
    · exact h.chained b' (by simp [hb'])

theorem EpochInv.step (hip : ip ∉ lim.excludedIps) {t : Handling}
    (ht : step lim t.pre t.input = some (t.output, t.post)) (h : EpochInv lim ip bs t.pre) :
    EpochInv lim ip (record lim ip bs t) t.post := by
  obtain ⟨hpre, hpost⟩ := step_clock ht
  have hpast : ∀ q ∈ bs.flatten, q.addTime ≤ t.post.clock := by
    intro q hq
    have hold := h.past q hq
    omega
  cases step_entryStep hip ht with
  | idle hother he =>
    rw [record_of_not_admits (Or.inl hother)]
    refine h.keep hpast (fun e hs => he ▸ hs) fun hnone q hq => ?_
    have hold := h.gone (he ▸ hnone) q hq
    have hage := ageSeconds_mono (t := q.addTime) (Int.le_trans hpre hpost)
    omega
  | pruned hother he =>
    rw [record_of_not_admits (Or.inl hother)]
    refine h.keep hpast (fun e hs => (lim.fresh_eq_some.mp (he ▸ hs)).1) fun hnone q hq => ?_
    have hold := h.expired hpre (he ▸ hnone) q hq
    have hage := ageSeconds_mono (t := q.addTime) hpost
    omega
  | refused e hown hout he hfull hs =>
    rw [record_of_not_admits (Or.inr hout)]
    refine h.keep hpast (fun e' he' => ?_) fun hnone => ?_
    · rw [← he', hs, (lim.fresh_eq_some.mp he).1]
    · rw [hs] at hnone
      cases hnone
  | created hown hout he hclock hs =>
    have hrec : record lim ip bs t = [t.input] :: bs := by
      simp [record, admits_iff.mpr ⟨hown, hout⟩, (creates_iff hip hown).mpr he]
    rw [hrec]
    refine h.create hpast (fun q hq => ?_) hclock hs
    have hold := h.expired hpre he q hq
    have hage := ageSeconds_mono (t := q.addTime) (hclock ▸ hpost)
    omega
  | counted e hown hout he hlt hclock hs =>
    obtain ⟨hold, hage⟩ := lim.fresh_eq_some.mp he
    obtain ⟨p, b, rest, rfl, hcount, htime⟩ := h.counts e hold
    have hrec : record lim ip ((p :: b) :: rest) t = (t.input :: p :: b) :: rest := by
      have hnot : ¬ creates lim t = true := by rw [creates_iff hip hown, he]; simp
      simp [record, admits_iff.mpr ⟨hown, hout⟩, hnot]
    rw [hrec]
    exact h.extend hpast hcount hlt (htime ▸ hage) hclock hs

end Steps

theorem epochInv_run {lim : Limits} {ip : Ip} (hip : ip ∉ lim.excludedIps) {s : LimiterState}
    {tr : List Handling} (hempty : s.limiter.ipMap = ∅) (hrun : IsRun (step lim) s tr) :
    EpochInv lim ip (epochs lim ip tr) (final s tr) := by
  refine hrun.history (fun hist s => EpochInv lim ip (epochs lim ip hist) s) ?_ ?_
  · have he := LimiterState.entry_of_empty hempty ip
    constructor <;> simp [epochs, he]
  · intro hist t h ht
    rw [epochs_append]
    exact h.step hip ht

theorem mem_flatten_epochs {lim : Limits} {ip : Ip} {tr : List Handling} {p : Packet} :
    p ∈ (epochs lim ip tr).flatten ↔ ∃ t ∈ tr, admits ip t = true ∧ t.input = p := by
  simp [flatten_epochs, and_assoc]

structure IpMapInv (lim : Limits) (tr : List Handling) (s : LimiterState) : Prop where
  excluded : ∀ ip ∈ lim.excludedIps, ip ∉ s.limiter.ipMap
  counts : ∀ ip e, s.entry ip = some e →
    1 ≤ e.count ∧ e.count ≤ max 1 lim.maxConnections ∧
      e.count = ((admittedSince lim ip tr).length : Int)
  timestamps : ∀ ip e, s.entry ip = some e →
    (admittedSince lim ip tr).head?.map Packet.addTime = some e.timestamp ∧ e.timestamp ≤ s.clock
  checked : ∀ ip c, ip ∉ lim.excludedIps → s.clock ≤ c → ∀ ip' e,
    (isIpBlocked ip s.limiter.ipMap lim.excludedIps lim.maxConnections
      lim.blockDurationSeconds c).1.lookup ip' = some e →
    s.entry ip' = some e ∧ ageSeconds c e.timestamp ≤ lim.blockDurationSeconds ∧
      ∃ t ∈ tr, admits ip' t = true ∧ t.input.addTime = e.timestamp ∧
        c < t.input.addTime + (lim.blockDurationSeconds + 1) * nanosPerSecond

theorem age_le_window {c t d : Int} (ht : t ≤ c) (h : ageSeconds c t ≤ d) :
    c < t + (d + 1) * nanosPerSecond := by
  rw [ageSeconds_eq ht] at h
  simp only [nanosPerSecond] at h ⊢
  omega

theorem ipMap_invariant (lim : Limits) {s : LimiterState} {tr : List Handling}
    (hempty : s.limiter.ipMap = ∅) (hrun : IsRun (step lim) s tr) :
    IpMapInv lim tr (final s tr) := by
  have hexcluded : ∀ ip ∈ lim.excludedIps, (final s tr).entry ip = none := fun ip hip =>
    (run_excluded hip hrun (LimiterState.entry_of_empty hempty ip)).1
  have hinv : ∀ ip e, (final s tr).entry ip = some e →
      EpochInv lim ip (epochs lim ip tr) (final s tr) := by
    intro ip e he
    refine epochInv_run (fun hip => ?_) hempty hrun
    rw [hexcluded ip hip] at he
    cases he
  have htime : ∀ ip e, (final s tr).entry ip = some e →
      ∃ p ∈ (epochs lim ip tr).flatten, p.addTime = e.timestamp ∧
        e.timestamp ≤ (final s tr).clock := by
    intro ip e he
    obtain ⟨p, b, past, hbs, -, htime⟩ := (hinv ip e he).counts e he
    have hp : p ∈ (epochs lim ip tr).flatten := by simp [hbs]
    exact ⟨p, hp, htime.symm, htime ▸ (hinv ip e he).past p hp⟩
  constructor
  · intro ip hip
    exact AList.lookup_eq_none.mp (hexcluded ip hip)
  · intro ip e he
    obtain ⟨p, b, past, hbs, hcount, -⟩ := (hinv ip e he).counts e he
    have hbound := (hinv ip e he).bounded (p :: b) (by simp [hbs])
    simp only [admittedSince, hbs, List.headD_cons]
    refine ⟨?_, by omega, hcount⟩
    simp only [List.length_cons] at hcount
    omega
  · intro ip e he
    obtain ⟨p, b, past, hbs, -, htime'⟩ := (hinv ip e he).counts e he
    obtain ⟨-, -, -, hle⟩ := htime ip e he
    exact ⟨by simp [admittedSince, hbs, htime'], hle⟩
  · intro ip c hip hc ip' e he
    rw [isIpBlocked_fst lim hip, lim.lookup_prune] at he
    obtain ⟨hold, hage⟩ := lim.fresh_eq_some.mp he
    obtain ⟨p, hp, hadd, hle⟩ := htime ip' e hold
    obtain ⟨t, htr, hadmits, rfl⟩ := mem_flatten_epochs.mp hp
    exact ⟨hold, hage, t, htr, hadmits, hadd, hadd ▸ age_le_window (by omega) hage⟩

theorem ipMap_invariant_sample :
    let lim : Limits := ⟨["127.0.0.1"], 2, 0⟩
    let tr := trace (step lim) (.start 0) [.probe "127.0.0.1" 0 0, .probe "10.0.0.1" 0 1,
      .probe "10.0.0.1" 2 3, .probe "10.0.0.1" 4 4, .probe "10.0.0.2" 5 5]
    IpMapInv lim tr (final (.start 0) tr) :=
  ipMap_invariant _ rfl (isRun_trace _ _)

end Qwin
