import Qwin.Limiter.Handler

/-! What one handler run does to the entry of an address. -/

set_option autoImplicit false

namespace Qwin
open Runs

theorem ageSeconds_mono {now now' t : Int} (h : now ≤ now') :
    ageSeconds now t ≤ ageSeconds now' t :=
  Int.tdiv_le_tdiv (by decide) (by omega)

theorem ageSeconds_anti {now t t' : Int} (h : t ≤ t') :
    ageSeconds now t' ≤ ageSeconds now t :=
  Int.tdiv_le_tdiv (by decide) (by omega)

theorem ageSeconds_eq {now t : Int} (h : t ≤ now) :
    ageSeconds now t = (now - t) / nanosPerSecond :=
  Int.tdiv_eq_ediv_of_nonneg (by omega)

theorem lt_ageSeconds_iff {now t : Int} {d : Int} (hd : 0 ≤ d) :
    d < ageSeconds now t ↔ t + (d + 1) * nanosPerSecond ≤ now := by
  by_cases h : t ≤ now
  · rw [ageSeconds_eq h]
    simp only [nanosPerSecond]
    omega
  · have hneg : ageSeconds now t ≤ ageSeconds t t := ageSeconds_mono (by omega)
    have hzero : ageSeconds t t = 0 := by simp [ageSeconds]
    simp only [nanosPerSecond]
    omega

/-- The entry as a check at time `c` sees it: gone once its age in whole
seconds is past the block duration. -/
def Limits.fresh (lim : Limits) (c : Int) (o : Option Entry) : Option Entry :=
  o.filter fun e => !stale lim.blockDurationSeconds c e

@[simp] theorem Limits.fresh_none (lim : Limits) (c : Int) : lim.fresh c none = none := rfl

theorem Limits.fresh_some (lim : Limits) (c : Int) (e : Entry) :
    lim.fresh c (some e) =
      if ageSeconds c e.timestamp ≤ lim.blockDurationSeconds then some e else none := by
  simp [fresh, stale, Option.filter]

theorem Limits.fresh_eq_some {lim : Limits} {c : Int} {o : Option Entry} {e : Entry} :
    lim.fresh c o = some e ↔
      o = some e ∧ ageSeconds c e.timestamp ≤ lim.blockDurationSeconds := by
  simp [fresh, stale, Option.filter_eq_some_iff]

theorem Limits.fresh_fresh (lim : Limits) {c c' : Int} (h : c ≤ c') (o : Option Entry) :
    lim.fresh c' (lim.fresh c o) = lim.fresh c' o := by
  cases o with
  | none => rfl
  | some e =>
    have hage := ageSeconds_mono (t := e.timestamp) h
    by_cases hc : ageSeconds c e.timestamp ≤ lim.blockDurationSeconds
    · simp [lim.fresh_some c, hc]
    · have hc' : ¬ ageSeconds c' e.timestamp ≤ lim.blockDurationSeconds := by omega
      simp [fresh_some, hc, hc']

theorem lookup_pruneLoop_of_notMem (d : Int) (now : Int) (ip : Ip)
    (rest : List (Sigma fun _ : Ip => Entry)) (ipMap : IpMap) (h : ip ∉ rest.keys) :
    (pruneLoop d now rest ipMap).lookup ip = ipMap.lookup ip := by
  induction rest generalizing ipMap with
  | nil => rfl
  | cons it rest ih =>
    simp only [List.keys_cons, List.mem_cons, not_or] at h
    unfold pruneLoop
    split
    · rw [ih _ h.2, AList.lookup_erase_ne h.1]
    · exact ih _ h.2

/-- The loop visits every entry once, in whatever order the table lists them. -/
theorem lookup_pruneLoop (d : Int) (now : Int) (ip : Ip)
    (rest : List (Sigma fun _ : Ip => Entry)) (ipMap : IpMap) (hnodup : rest.NodupKeys)
    {e : Entry} (hmem : ⟨ip, e⟩ ∈ rest) (he : ipMap.lookup ip = some e) :
    (pruneLoop d now rest ipMap).lookup ip = if stale d now e then none else some e := by
  induction rest generalizing ipMap with
  | nil => simp at hmem
  | cons it rest ih =>
    obtain ⟨hnot, hrest⟩ := List.nodupKeys_cons.mp hnodup
    unfold pruneLoop
    rcases List.mem_cons.mp hmem with rfl | hmem
    · -- the iterator stands at this entry, and no later one has its key
      split
      · rw [lookup_pruneLoop_of_notMem _ _ _ _ _ hnot, AList.lookup_erase]
      · rw [lookup_pruneLoop_of_notMem _ _ _ _ _ hnot, he]
    · have hne : ip ≠ it.1 := by
        rintro rfl
        exact hnot (List.mem_keys.mpr ⟨e, hmem⟩)
      split
      · exact ih _ hrest hmem (by rw [AList.lookup_erase_ne hne, he])
      · exact ih _ hrest hmem he

def Limits.prune (lim : Limits) (now : Int) (ipMap : IpMap) : IpMap :=
  Qwin.prune lim.blockDurationSeconds now ipMap

@[simp] theorem Limits.lookup_prune (lim : Limits) (now : Int) (ip : Ip) (ipMap : IpMap) :
    (lim.prune now ipMap).lookup ip = lim.fresh now (ipMap.lookup ip) := by
  unfold Limits.prune Qwin.prune
  cases he : ipMap.lookup ip with
  | none =>
    rw [lookup_pruneLoop_of_notMem, he, Limits.fresh_none]
    exact AList.lookup_eq_none.mp he
  | some e =>
    have hmem : ⟨ip, e⟩ ∈ ipMap.entries := AList.mem_lookup_iff.mp he
    rw [lookup_pruneLoop _ _ _ _ _ ipMap.nodupKeys hmem he]
    cases hs : stale lim.blockDurationSeconds now e <;> simp [Limits.fresh, Option.filter, hs]

theorem Limits.mem_prune (lim : Limits) (now : Int) (ip : Ip) (ipMap : IpMap) :
    ip ∈ lim.prune now ipMap ↔ (lim.fresh now (ipMap.lookup ip)).isSome := by
  rw [← AList.lookup_isSome, lookup_prune]

section Functions
variable (lim : Limits) (ip : Ip) (now : Int)

theorem isIpBlocked_excluded (ipMap : IpMap) (hip : ip ∈ lim.excludedIps) :
    isIpBlocked ip ipMap lim.excludedIps lim.maxConnections lim.blockDurationSeconds now =
      (ipMap, false) := by
  simp [isIpBlocked, hip]

theorem isIpBlocked_absent (ipMap : IpMap) (hip : ip ∉ lim.excludedIps)
    (he : lim.fresh now (ipMap.lookup ip) = none) :
    isIpBlocked ip ipMap lim.excludedIps lim.maxConnections lim.blockDurationSeconds now =
      (lim.prune now ipMap, false) := by
  have hmem : ip ∉ lim.prune now ipMap := by simp [lim.mem_prune, he]
  simp only [isIpBlocked, if_neg hip]
  exact if_pos hmem

theorem isIpBlocked_present (ipMap : IpMap) (hip : ip ∉ lim.excludedIps) {e : Entry}
    (he : lim.fresh now (ipMap.lookup ip) = some e) :
    isIpBlocked ip ipMap lim.excludedIps lim.maxConnections lim.blockDurationSeconds now =
      (lim.prune now ipMap, decide (lim.maxConnections ≤ e.count)) := by
  have hmem : ip ∈ lim.prune now ipMap := by simp [lim.mem_prune, he]
  have hsub : subscript (lim.prune now ipMap) ip = (lim.prune now ipMap, e) := by
    simp [subscript, he]
  unfold Limits.prune at hmem hsub
  simp only [isIpBlocked, if_neg hip, if_neg (not_not.mpr hmem), hsub]
  by_cases hfull : lim.maxConnections ≤ e.count <;> simp [hfull, Limits.prune]

theorem addIpConnection_excluded (l : Limiter) (hip : ip ∈ lim.excludedIps) :
    addIpConnection ip l lim.excludedIps lim.maxConnections now = l := by
  simp [addIpConnection, hip]

theorem addIpConnection_absent (l : Limiter) (hip : ip ∉ lim.excludedIps)
    (he : l.ipMap.lookup ip = none) :
    addIpConnection ip l lim.excludedIps lim.maxConnections now =
      ⟨l.ipMap.insert ip ⟨1, now⟩, l.totalConnections + 1, l.blockedConnections⟩ := by
  simp [addIpConnection, hip, AList.lookup_eq_none.mp he]

theorem addIpConnection_present (l : Limiter) (hip : ip ∉ lim.excludedIps) {e : Entry}
    (he : l.ipMap.lookup ip = some e) (hlt : e.count < lim.maxConnections) :
    addIpConnection ip l lim.excludedIps lim.maxConnections now =
      ⟨l.ipMap.insert ip ⟨e.count + 1, now⟩, l.totalConnections + 1, l.blockedConnections⟩ := by
  have hmem : ip ∈ l.ipMap := by simp [← AList.lookup_isSome, he]
  simp [addIpConnection, hip, hmem, subscript, he, hlt]

end Functions

theorem forward_ne_refused (n : Nat) (env : Surroundings) : forward n env ≠ .refused := by
  unfold forward
  split
  · simp
  · split <;> simp

theorem forward_eq_forwarded_iff {n size : Nat} {env : Surroundings} {e : Endpoint} :
    forward n env = .forwarded e size ↔
      env.resolved = some e ∧ env.sendStarts = true ∧ min n bufferSize = size := by
  unfold forward
  cases env.resolved with
  | none => simp
  | some e' => cases env.sendStarts <;> simp

/-- The four ways in which a handler run treats the limiter. -/
inductive Handled (lim : Limits) (p : Packet) (l : Limiter) : Outcome → Limiter → Prop where
  | excluded {out : Outcome} (hip : p.ip ∈ lim.excludedIps) (hout : out ≠ .refused) :
      Handled lim p l out l
  | refused {e : Entry} (hip : p.ip ∉ lim.excludedIps)
      (he : lim.fresh p.checkTime (l.ipMap.lookup p.ip) = some e)
      (hfull : lim.maxConnections ≤ e.count) :
      Handled lim p l .refused { l with ipMap := lim.prune p.checkTime l.ipMap }
  | created {out : Outcome} (hip : p.ip ∉ lim.excludedIps)
      (he : lim.fresh p.checkTime (l.ipMap.lookup p.ip) = none) (hout : out ≠ .refused) :
      Handled lim p l out
        ⟨(lim.prune p.checkTime l.ipMap).insert p.ip ⟨1, p.addTime⟩,
          l.totalConnections + 1, l.blockedConnections⟩
  | counted {out : Outcome} {e : Entry} (hip : p.ip ∉ lim.excludedIps)
      (he : lim.fresh p.checkTime (l.ipMap.lookup p.ip) = some e)
      (hlt : e.count < lim.maxConnections) (hout : out ≠ .refused) :
      Handled lim p l out
        ⟨(lim.prune p.checkTime l.ipMap).insert p.ip ⟨e.count + 1, p.addTime⟩,
          l.totalConnections + 1, l.blockedConnections⟩

theorem handle_eq (lim : Limits) (p : Packet) (l : Limiter) :
    p.handle lim l =
      let r := isIpBlocked p.ip l.ipMap lim.excludedIps lim.maxConnections
        lim.blockDurationSeconds p.checkTime
      let l := { l with ipMap := r.1 }
      if r.2 then (.refused, l)
      else (forward p.bytesReceived p.env,
        addIpConnection p.ip l lim.excludedIps lim.maxConnections p.addTime) := rfl

theorem handle_fst (lim : Limits) (p : Packet) (l : Limiter) :
    (p.handle lim l).1 =
      if (isIpBlocked p.ip l.ipMap lim.excludedIps lim.maxConnections lim.blockDurationSeconds
        p.checkTime).2 then .refused
      else forward p.bytesReceived p.env := by
  rw [handle_eq]
  dsimp only
  split <;> rfl

theorem handle_refused_iff {lim : Limits} (p : Packet) (l : Limiter) :
    (p.handle lim l).1 = .refused ↔
      (isIpBlocked p.ip l.ipMap lim.excludedIps lim.maxConnections lim.blockDurationSeconds
        p.checkTime).2 = true := by
  rw [handle_fst]
  split
  · simp [*]
  · simp [*, forward_ne_refused]

theorem handle_handled (lim : Limits) (p : Packet) (l : Limiter) :
    Handled lim p l (p.handle lim l).1 (p.handle lim l).2 := by
  have hfwd := forward_ne_refused p.bytesReceived p.env
  rw [handle_eq]
  by_cases hip : p.ip ∈ lim.excludedIps
  · rw [isIpBlocked_excluded lim _ _ _ hip]
    simp only [Bool.false_eq_true, if_false, addIpConnection_excluded lim _ _ _ hip]
    exact .excluded hip hfwd
  cases he : lim.fresh p.checkTime (l.ipMap.lookup p.ip) with
  | none =>
    rw [isIpBlocked_absent lim _ _ _ hip he]
    simp only [Bool.false_eq_true, if_false]
    rw [addIpConnection_absent lim _ _ _ hip (by simpa using he)]
    exact .created hip he hfwd
  | some e =>
    rw [isIpBlocked_present lim _ _ _ hip he]
    by_cases hfull : lim.maxConnections ≤ e.count
    · simp only [hfull, decide_true, if_true]
      exact .refused hip he hfull
    · simp only [hfull, decide_false, Bool.false_eq_true, if_false]
      rw [addIpConnection_present lim _ _ _ hip (by simpa using he) (by omega)]
      exact .counted hip he (by omega) hfwd

theorem step_eq_some {lim : Limits} {s s' : LimiterState} {p : Packet} {out : Outcome} :
    step lim s p = some (out, s') ↔
      s.clock ≤ p.checkTime ∧ p.checkTime ≤ s'.clock ∧ s'.clock = lastReading lim p out ∧
        p.handle lim s.limiter = (out, s'.limiter) := by
  obtain ⟨l', clock'⟩ := s'
  simp only [step, Option.ite_none_right_eq_some, Option.some.injEq, Prod.mk.injEq,
    LimiterState.mk.injEq]
  constructor
  · rintro ⟨⟨hle, hlast⟩, rfl, rfl, rfl⟩
    exact ⟨hle, hlast, rfl, rfl⟩
  · rintro ⟨hle, hlast, rfl, hh⟩
    rw [hh]
    exact ⟨⟨hle, hlast⟩, rfl, rfl, rfl⟩

theorem step_outcome {lim : Limits} {s s' : LimiterState} {p : Packet} {out : Outcome}
    (h : step lim s p = some (out, s')) : (p.handle lim s.limiter).1 = out := by
  obtain ⟨-, -, -, hh⟩ := step_eq_some.mp h
  rw [hh]

theorem isIpBlocked_fst (lim : Limits) {ip : Ip} (hip : ip ∉ lim.excludedIps) (ipMap : IpMap)
    (c : Int) :
    (isIpBlocked ip ipMap lim.excludedIps lim.maxConnections lim.blockDurationSeconds c).1 =
      lim.prune c ipMap := by
  cases he : lim.fresh c (ipMap.lookup ip) with
  | none => rw [isIpBlocked_absent lim _ _ _ hip he]
  | some e => rw [isIpBlocked_present lim _ _ _ hip he]

theorem isIpBlocked_snd_iff (lim : Limits) {ip : Ip} (hip : ip ∉ lim.excludedIps) (ipMap : IpMap)
    (c : Int) :
    (isIpBlocked ip ipMap lim.excludedIps lim.maxConnections lim.blockDurationSeconds c).2 = true ↔
      ∃ e, ipMap.lookup ip = some e ∧ ageSeconds c e.timestamp ≤ lim.blockDurationSeconds ∧
        lim.maxConnections ≤ e.count := by
  cases he : lim.fresh c (ipMap.lookup ip) with
  | none =>
    rw [isIpBlocked_absent lim _ _ _ hip he]
    constructor
    · intro h
      cases h
    · rintro ⟨e, hold, hage, -⟩
      rw [lim.fresh_eq_some.mpr ⟨hold, hage⟩] at he
      cases he
  | some e =>
    obtain ⟨hold, hage⟩ := lim.fresh_eq_some.mp he
    rw [isIpBlocked_present lim _ _ _ hip he, decide_eq_true_iff]
    constructor
    · intro hfull
      exact ⟨e, hold, hage, hfull⟩
    · rintro ⟨e', hold', -, hfull⟩
      obtain rfl := Option.some.inj (hold.symm.trans hold')
      exact hfull

theorem checkedMap_eq (lim : Limits) (t : Handling) (hip : t.input.ip ∉ lim.excludedIps) :
    checkedMap lim t = lim.prune t.input.checkTime t.pre.limiter.ipMap :=
  isIpBlocked_fst lim hip _ _

/-- Everything one step can do to the entry of an address that is not excluded:
nothing or a prune for the packets of others, and one of three things for its own. -/
inductive EntryStep (lim : Limits) (ip : Ip) (t : Handling) : Prop where
  | idle (hother : t.input.ip ≠ ip) (he : t.post.entry ip = t.pre.entry ip)
  | pruned (hother : t.input.ip ≠ ip)
      (he : t.post.entry ip = lim.fresh t.input.checkTime (t.pre.entry ip))
  | refused (e : Entry) (hown : t.input.ip = ip) (hout : t.output = .refused)
      (he : lim.fresh t.input.checkTime (t.pre.entry ip) = some e)
      (hfull : lim.maxConnections ≤ e.count) (hpost : t.post.entry ip = some e)
  | created (hown : t.input.ip = ip) (hout : t.output ≠ .refused)
      (he : lim.fresh t.input.checkTime (t.pre.entry ip) = none)
      (hclock : t.post.clock = t.input.addTime)
      (hpost : t.post.entry ip = some ⟨1, t.input.addTime⟩)
  | counted (e : Entry) (hown : t.input.ip = ip) (hout : t.output ≠ .refused)
      (he : lim.fresh t.input.checkTime (t.pre.entry ip) = some e)
      (hlt : e.count < lim.maxConnections)
      (hclock : t.post.clock = t.input.addTime)
      (hpost : t.post.entry ip = some ⟨e.count + 1, t.input.addTime⟩)

theorem step_clock {lim : Limits} {t : Handling}
    (ht : step lim t.pre t.input = some (t.output, t.post)) :
    t.pre.clock ≤ t.input.checkTime ∧ t.input.checkTime ≤ t.post.clock :=
  have h := step_eq_some.mp ht
  ⟨h.1, h.2.1⟩

theorem step_handled {lim : Limits} {t : Handling}
    (ht : step lim t.pre t.input = some (t.output, t.post)) :
    Handled lim t.input t.pre.limiter t.output t.post.limiter := by
  obtain ⟨-, -, -, hh⟩ := step_eq_some.mp ht
  simpa [hh] using handle_handled lim t.input t.pre.limiter

theorem step_entryStep {lim : Limits} {ip : Ip} (hip : ip ∉ lim.excludedIps) {t : Handling}
    (ht : step lim t.pre t.input = some (t.output, t.post)) : EntryStep lim ip t := by
  obtain ⟨-, -, hclock, -⟩ := step_eq_some.mp ht
  have hh := step_handled ht
  have hentry : ∀ s : LimiterState, s.entry ip = s.limiter.ipMap.lookup ip := fun _ => rfl
  generalize hl : t.post.limiter = l' at hh
  generalize ho : t.output = out at hh
  by_cases hown : t.input.ip = ip
  · cases hh with
    | excluded hex _ => exact absurd (hown ▸ hex) hip
    | @refused e _ he hfull =>
      rw [hown] at he
      exact .refused e hown ho he hfull (by simpa [hentry, hl] using he)
    | created hex he hout =>
      rw [lastReading, if_neg (by simp [hex, ho, hout])] at hclock
      rw [hown] at he
      refine .created hown (ho ▸ hout) he hclock ?_
      simp [hentry, hl, hown]
    | @counted _ e hex he hlt hout =>
      rw [lastReading, if_neg (by simp [hex, ho, hout])] at hclock
      rw [hown] at he
      refine .counted e hown (ho ▸ hout) he hlt hclock ?_
      simp [hentry, hl, hown]
  · have hne : ip ≠ t.input.ip := fun h => hown h.symm
    cases hh with
    | excluded _ _ => exact .idle hown (by simp [hentry, hl])
    | refused _ _ _ => exact .pruned hown (by simp [hentry, hl])
    | created _ _ _ => exact .pruned hown (by simp [hentry, hl, AList.lookup_insert_ne hne])
    | counted _ _ _ _ => exact .pruned hown (by simp [hentry, hl, AList.lookup_insert_ne hne])

theorem step_excluded {lim : Limits} {ip : Ip} (hip : ip ∈ lim.excludedIps) {t : Handling}
    (ht : step lim t.pre t.input = some (t.output, t.post)) (he : t.pre.entry ip = none) :
    t.post.entry ip = none ∧ (t.input.ip = ip → t.output ≠ .refused) := by
  have hh := step_handled ht
  have hentry : ∀ s : LimiterState, s.entry ip = s.limiter.ipMap.lookup ip := fun _ => rfl
  rw [hentry] at he ⊢
  generalize t.post.limiter = l' at hh ⊢
  generalize t.output = out at hh ⊢
  cases hh with
  | excluded _ hout => exact ⟨he, fun _ => hout⟩
  | refused hex => exact ⟨by simp [he], fun hown => absurd (hown ▸ hip) hex⟩
  | created hex _ hout | counted hex _ _ hout =>
    have hne : ip ≠ t.input.ip := fun h => hex (h ▸ hip)
    exact ⟨by simp [AList.lookup_insert_ne hne, he], fun _ => hout⟩

theorem run_clock {lim : Limits} {s : LimiterState} {tr : List Handling}
    (hrun : IsRun (step lim) s tr) :
    s.clock ≤ (final s tr).clock ∧
      ∀ t ∈ tr, t.input.checkTime ≤ (final s tr).clock ∧ t.post.clock ≤ (final s tr).clock := by
  induction tr generalizing s with
  | nil => simp [final]
  | cons t ts ih =>
    obtain ⟨rfl, ht, hts⟩ := (isRun_cons s t ts).mp hrun
    obtain ⟨hpre, hpost⟩ := step_clock ht
    obtain ⟨hfirst, hlater⟩ := ih hts
    refine ⟨by simp only [final]; omega, ?_⟩
    intro u hu
    rcases List.mem_cons.mp hu with rfl | hu
    · simp only [final]; omega
    · exact hlater u hu

theorem run_excluded {lim : Limits} {ip : Ip} (hip : ip ∈ lim.excludedIps) {s : LimiterState}
    {tr : List Handling} (hrun : IsRun (step lim) s tr) (he : s.entry ip = none) :
    (final s tr).entry ip = none ∧
      ∀ t ∈ tr, t.post.entry ip = none ∧ (t.input.ip = ip → t.output ≠ .refused) := by
  induction tr generalizing s with
  | nil => simpa [final] using he
  | cons t ts ih =>
    obtain ⟨rfl, ht, hts⟩ := (isRun_cons s t ts).mp hrun
    obtain ⟨hpost, hout⟩ := step_excluded hip ht he
    obtain ⟨hfinal, hlater⟩ := ih hts hpost
    exact ⟨hfinal, List.forall_mem_cons.mpr ⟨⟨hpost, hout⟩, hlater⟩⟩

end Qwin
