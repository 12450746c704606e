import Mathlib.Tactic.Ring
import Qwin.Limiter.Client

/-!
One client under two configurations. A looser one is not always kinder: an
admission more refreshes the time stamp, and the block it ends in can cover
packets the stricter one lets through. What is lost this way is bounded.
-/

set_option autoImplicit false

namespace Qwin
open Runs

def admissionCount (ip : Ip) (tr : List Handling) : Int := (tr.filter (admits ip)).length

/-- The packet is let through and takes the last place in the entry of its address. -/
def fills (lim : Limits) (ip : Ip) (t : Handling) : Bool :=
  admits ip t && (t.post.entry ip).any (lim.maxConnections ≤ ·.count)

def filledCount (lim : Limits) (ip : Ip) (tr : List Handling) : Int :=
  (tr.filter (fills lim ip)).length

/-- What one answer adds to the admissions. -/
def gain (blocked : Bool) : Int := if blocked then 0 else 1

/-- What one answer, with the entry it leaves, adds to the filled entries. -/
def filling (lim : Limits) (r : Bool × Option Entry) : Int :=
  if !r.1 && r.2.any (lim.maxConnections ≤ ·.count) then 1 else 0

theorem clientStep_cases (lim : Limits) (o : Option Entry) (c a : Int) :
    (lim.fresh c o = none ∧ clientStep lim o c a = (false, some ⟨1, a⟩)) ∨
    (∃ e, o = some e ∧ ageSeconds c e.timestamp ≤ lim.blockDurationSeconds ∧
      lim.maxConnections ≤ e.count ∧ clientStep lim o c a = (true, some e)) ∨
    (∃ e, o = some e ∧ ageSeconds c e.timestamp ≤ lim.blockDurationSeconds ∧
      e.count < lim.maxConnections ∧ clientStep lim o c a = (false, some ⟨e.count + 1, a⟩)) := by
  unfold clientStep
  cases he : lim.fresh c o with
  | none => exact .inl ⟨rfl, rfl⟩
  | some e =>
    obtain ⟨ho, hage⟩ := lim.fresh_eq_some.mp he
    by_cases hfull : lim.maxConnections ≤ e.count
    · exact .inr (.inl ⟨e, ho, hage, hfull, by simp [hfull]⟩)
    · exact .inr (.inr ⟨e, ho, hage, by omega, by simp [hfull]⟩)

/-- Where the stricter limiter stands once the looser one has filled `full` entries.
While the last of them blocks, `w` counts what the stricter one has admitted from
the filling packet on; all of it is in its one entry. -/
inductive Debt (lim lim' : Limits) (o : Option Entry) (n : Int) (o' : Option Entry) (n' : Int)
    (full : Int) : Prop where
  | unfilled (hroom : ∀ e', o' = some e' → e'.count < lim'.maxConnections)
      (hcount : ∀ e', o' = some e' → full * lim'.maxConnections + e'.count ≤ n')
      (hfull : full * lim'.maxConnections ≤ n')
      (hn : n ≤ n' + (lim.maxConnections - 1) * full)
  | filled (e' : Entry) (w : Int) (ho' : o' = some e') (hfilled : lim'.maxConnections ≤ e'.count)
      (hfull : full * lim'.maxConnections ≤ n')
      (hn : n + lim.maxConnections ≤ n' + (lim.maxConnections - 1) * full + w)
      (hw : w = 0 ∨ ∃ e, o = some e ∧ w ≤ e.count ∧ e'.timestamp ≤ e.timestamp)

structure Lag (lim lim' : Limits) (now : Int) (o : Option Entry) (n : Int) (o' : Option Entry)
    (n' full : Int) : Prop where
  capped : ∀ e, o = some e → 0 ≤ e.count ∧ e.count ≤ lim.maxConnections
  late : ∀ e', o' = some e' → 0 ≤ e'.count ∧ e'.timestamp ≤ now
  debt : Debt lim lim' o n o' n' full

section Steps
variable {lim lim' : Limits} {o o' : Option Entry} {now n n' full : Int}

theorem Lag.settled (hm : 1 ≤ lim.maxConnections) (h : Lag lim lim' now o n o' n' full) :
    full * lim'.maxConnections ≤ n' ∧ n ≤ n' + (lim.maxConnections - 1) * full := by
  cases h.debt with
  | unfilled _ _ hfull hn => exact ⟨hfull, hn⟩
  | filled e' w _ _ hfull hn hw =>
    have hwle : w ≤ lim.maxConnections := by
      rcases hw with rfl | ⟨e, ho, hwe, -⟩
      · omega
      · have hcap := h.capped e ho
        omega
    exact ⟨hfull, by omega⟩

theorem capped_step (hm : 1 ≤ lim.maxConnections) {t : Int}
    (h : ∀ e, o = some e → 0 ≤ e.count ∧ e.count ≤ lim.maxConnections) :
    ∀ e, (clientStep lim o t t).2 = some e → 0 ≤ e.count ∧ e.count ≤ lim.maxConnections := by
  intro e he
  rcases clientStep_cases lim o t t with ⟨-, hs⟩ | ⟨e₀, ho, -, -, hs⟩ | ⟨e₀, ho, -, hlt, hs⟩ <;>
    rw [hs] at he <;> obtain rfl := Option.some.inj he
  · exact ⟨by simp, hm⟩
  · exact h e₀ ho
  · have hcap := h e₀ ho
    exact ⟨by simp only; omega, by simp only; omega⟩

/-- A packet the stricter limiter admits leaves it an entry of that time. -/
theorem gain_entry (hcap : ∀ e, o = some e → 0 ≤ e.count ∧ e.count ≤ lim.maxConnections)
    (t : Int) :
    gain (clientStep lim o t t).1 = 0 ∨
      ∃ e, (clientStep lim o t t).2 = some e ∧ gain (clientStep lim o t t).1 ≤ e.count ∧
        t ≤ e.timestamp := by
  rcases clientStep_cases lim o t t with ⟨-, hs⟩ | ⟨e₀, ho, -, -, hs⟩ | ⟨e₀, ho, -, -, hs⟩ <;>
    rw [hs]
  · exact .inr ⟨_, rfl, by simp [gain], Int.le_refl t⟩
  · exact .inl rfl
  · have hpos := hcap e₀ ho
    exact .inr ⟨_, rfl, by simp only [gain, Bool.false_eq_true, if_false]; omega, Int.le_refl t⟩

theorem gain_cases (b : Bool) : gain b = 0 ∨ gain b = 1 := by
  cases b <;> simp [gain]

theorem filling_some (e : Entry) :
    filling lim (false, some e) = if lim.maxConnections ≤ e.count then 1 else 0 := by
  simp [filling]

/-- A looser entry that takes a packet has room left or is filled by it. What both
limiters admit of the packet itself makes no difference between them. -/
theorem Debt.took (hcap : ∀ e, o = some e → 0 ≤ e.count ∧ e.count ≤ lim.maxConnections)
    {count : Int} (hpos : 0 ≤ count) (hle : count < lim'.maxConnections)
    (hcount : full * lim'.maxConnections + count ≤ n')
    (hn : n ≤ n' + (lim.maxConnections - 1) * full) (t : Int) :
    Debt lim lim' (clientStep lim o t t).2 (n + gain (clientStep lim o t t).1)
      (some ⟨count + 1, t⟩) (n' + 1) (full + filling lim' (false, some ⟨count + 1, t⟩)) := by
  have hgain := gain_cases (clientStep lim o t t).1
  rw [filling_some]
  split
  · rename_i hfilled
    dsimp only at hfilled
    have hmul : (full + 1) * lim'.maxConnections =
        full * lim'.maxConnections + lim'.maxConnections := by ring
    have hmul' : (lim.maxConnections - 1) * (full + 1) =
        (lim.maxConnections - 1) * full + (lim.maxConnections - 1) := by ring
    exact .filled _ (gain (clientStep lim o t t).1) rfl hfilled (by omega) (by omega)
      (gain_entry hcap t)
  · rename_i hroom
    dsimp only at hroom
    rw [add_zero]
    refine .unfilled ?_ ?_ (by omega) (by omega)
    · rintro e he
      obtain rfl := Option.some.inj he
      exact Int.not_le.mp hroom
    · rintro e he
      obtain rfl := Option.some.inj he
      dsimp only
      omega

/-- While the looser entry blocks, the stricter limiter fills one entry at most. -/
theorem Debt.block {e' : Entry}
    (hd : lim'.blockDurationSeconds ≤ lim.blockDurationSeconds)
    (hcap : ∀ e, o = some e → 0 ≤ e.count ∧ e.count ≤ lim.maxConnections)
    (h : Debt lim lim' o n (some e') n' full) (hfilled : lim'.maxConnections ≤ e'.count) {t : Int}
    (hlate : e'.timestamp ≤ t) (hage : ageSeconds t e'.timestamp ≤ lim'.blockDurationSeconds) :
    Debt lim lim' (clientStep lim o t t).2 (n + gain (clientStep lim o t t).1) (some e') n'
      full := by
  cases h with
  | unfilled hroom =>
    have hlt := hroom e' rfl
    omega
  | filled e₀ w ho' _ hfull hn hw =>
    obtain rfl := Option.some.inj ho'
    refine .filled e' (w + gain (clientStep lim o t t).1) rfl hfilled hfull (by omega) ?_
    rcases hw with rfl | ⟨e, ho, hwe, htime⟩
    · rcases gain_entry hcap t with hzero | ⟨e, he, hge, hte⟩
      · exact .inl (by omega)
      · exact .inr ⟨e, he, by omega, by omega⟩
    · -- the stricter entry is younger than the blocking one, so it is still there
      have hanti : ageSeconds t e.timestamp ≤ ageSeconds t e'.timestamp := ageSeconds_anti htime
      have hfresh : lim.fresh t o = some e := Limits.fresh_eq_some.mpr ⟨ho, by omega⟩
      rcases clientStep_cases lim o t t with
        ⟨hnone, -⟩ | ⟨e₁, ho₁, -, -, hs⟩ | ⟨e₁, ho₁, -, -, hs⟩
      · rw [hfresh] at hnone
        cases hnone
      · obtain rfl := Option.some.inj (ho.symm.trans ho₁)
        rw [hs]
        exact .inr ⟨e, rfl, by simpa [gain] using hwe, htime⟩
      · obtain rfl := Option.some.inj (ho.symm.trans ho₁)
        rw [hs]
        exact .inr ⟨_, rfl, by simpa [gain] using hwe, hlate⟩

theorem late_step {t : Int} (ht : now ≤ t)
    (h : ∀ e', o' = some e' → 0 ≤ e'.count ∧ e'.timestamp ≤ now) :
    ∀ e', (clientStep lim' o' t t).2 = some e' → 0 ≤ e'.count ∧ e'.timestamp ≤ t := by
  intro e' he'
  rcases clientStep_cases lim' o' t t with ⟨-, hs⟩ | ⟨e₀, ho', -, -, hs⟩ | ⟨e₀, ho', -, -, hs⟩ <;>
    rw [hs] at he' <;> obtain rfl := Option.some.inj he'
  · exact ⟨by simp, Int.le_refl t⟩
  · have hold := h e₀ ho'
    exact ⟨hold.1, by omega⟩
  · have hold := h e₀ ho'
    exact ⟨by simp only; omega, Int.le_refl t⟩

theorem Lag.step (hm : 1 ≤ lim.maxConnections) (hm' : 1 ≤ lim'.maxConnections)
    (hd : lim'.blockDurationSeconds ≤ lim.blockDurationSeconds)
    (h : Lag lim lim' now o n o' n' full) {t : Int} (ht : now ≤ t) :
    Lag lim lim' t (clientStep lim o t t).2 (n + gain (clientStep lim o t t).1)
      (clientStep lim' o' t t).2 (n' + gain (clientStep lim' o' t t).1)
      (full + filling lim' (clientStep lim' o' t t)) := by
  refine ⟨capped_step hm h.capped, late_step ht h.late, ?_⟩
  rcases clientStep_cases lim' o' t t with
    ⟨-, hs⟩ | ⟨e', rfl, hage, hfilled, hs⟩ | ⟨e', rfl, -, hroom, hs⟩ <;>
    rw [hs]
  · obtain ⟨hfull, hn⟩ := h.settled hm
    have hcount : (0 : Int) ≤ 0 := Int.le_refl 0
    exact .took h.capped hcount (by omega) (by omega) hn t
  · have hlate := (h.late e' rfl).2
    simpa [gain, filling] using h.debt.block hd h.capped hfilled (by omega) hage
  · cases h.debt with
    | unfilled _ hcount _ hn =>
      exact .took h.capped (h.late e' rfl).1 hroom (hcount e' rfl) hn t
    | filled e₀ _ ho' hfilled =>
      obtain rfl := Option.some.inj ho'
      omega

theorem lag_nothing : Lag lim lim' now none 0 none 0 0 := by
  refine ⟨by simp, by simp, .unfilled (by simp) (by simp) ?_ ?_⟩ <;> simp

end Steps

section Runs
variable {lim lim' : Limits} {ip : Ip}

theorem length_filter_cons (p : Handling → Bool) (t : Handling) (ts : List Handling) :
    (((t :: ts).filter p).length : Int) = (if p t then 1 else 0) + (ts.filter p).length := by
  by_cases hp : p t = true
  · rw [List.filter_cons_of_pos hp, if_pos hp, List.length_cons]
    omega
  · rw [List.filter_cons_of_neg hp, if_neg hp]
    omega

theorem own_gain (hip : ip ∉ lim.excludedIps) {o : Option Entry} {t : Handling}
    (ht : step lim t.pre t.input = some (t.output, t.post)) (hown : t.input.ip = ip)
    (hread : t.input.checkTime = t.input.addTime) (h : Tracks lim ip t.pre o) :
    (if admits ip t then 1 else 0) =
        gain (clientStep lim o t.input.checkTime t.input.checkTime).1 ∧
      (if fills lim ip t then 1 else 0) =
        filling lim (clientStep lim o t.input.checkTime t.input.checkTime) ∧
      Tracks lim ip t.post (clientStep lim o t.input.checkTime t.input.checkTime).2 := by
  obtain ⟨hout, hpost⟩ := tracks_own hip ht hown h
  rw [clientTake] at hpost
  rw [← hread] at hout hpost
  have hadmits : admits ip t = !(clientStep lim o t.input.checkTime t.input.checkTime).1 := by
    by_cases hr : t.output = .refused
    · simp [admits, hr, hout.mp hr]
    · simp [admits, hown, hr, mt hout.mpr hr]
  refine ⟨?_, ?_, hpost ▸ tracks_self lim ip t.post⟩
  · rw [hadmits, gain]
    cases (clientStep lim o t.input.checkTime t.input.checkTime).1 <;> rfl
  · rw [fills, filling, hadmits, hpost]

theorem lag_run (hm : 1 ≤ lim.maxConnections) (hm' : 1 ≤ lim'.maxConnections)
    (hd : lim'.blockDurationSeconds ≤ lim.blockDurationSeconds) (hip : ip ∉ lim.excludedIps)
    (hip' : ip ∉ lim'.excludedIps) {s s' : LimiterState} {tr tr' : List Handling}
    (hrun : IsRun (step lim) s tr) (hrun' : IsRun (step lim') s' tr')
    (hsame : tr.map (·.input) = tr'.map (·.input))
    (hread : ∀ t ∈ tr, t.input.ip = ip → t.input.checkTime = t.input.addTime)
    {now n n' full : Int} {o o' : Option Entry} (htrack : Tracks lim ip s o)
    (htrack' : Tracks lim' ip s' o') (hnow : now ≤ s.clock)
    (h : Lag lim lim' now o n o' n' full) :
    ∃ now o o', Lag lim lim' now o (n + admissionCount ip tr) o'
      (n' + admissionCount ip tr') (full + filledCount lim' ip tr') := by
  induction tr generalizing tr' s s' now n n' full o o' with
  | nil =>
    obtain rfl : tr' = [] := List.map_eq_nil_iff.mp hsame.symm
    exact ⟨now, o, o', by simpa [admissionCount, filledCount] using h⟩
  | cons t ts ih =>
    obtain ⟨t', ts', rfl, hinput, hrest⟩ := List.map_eq_cons_iff.mp hsame.symm
    obtain ⟨rfl, ht, hts⟩ := (isRun_cons s t ts).mp hrun
    obtain ⟨rfl, ht', hts'⟩ := (isRun_cons s' t' ts').mp hrun'
    obtain ⟨hhead, htail⟩ := List.forall_mem_cons.mp hread
    obtain ⟨hcheck, hclock⟩ := step_clock ht
    simp only [admissionCount, filledCount, length_filter_cons, ← add_assoc]
    by_cases hown : t.input.ip = ip
    · obtain ⟨hgain, -, hpost⟩ := own_gain hip ht hown (hhead hown) htrack
      obtain ⟨hgain', hfill', hpost'⟩ :=
        own_gain hip' ht' (hinput ▸ hown) (hinput ▸ hhead hown) htrack'
      rw [hinput] at hgain' hfill' hpost'
      rw [hgain, hgain', hfill']
      exact ih hts hts' hrest.symm htail hpost hpost' hclock (h.step hm hm' hd (by omega))
    · have hother' : t'.input.ip ≠ ip := hinput ▸ hown
      have hno : admits ip t = false := by simp [admits, hown]
      have hno' : admits ip t' = false := by simp [admits, hother']
      have hnofill : fills lim' ip t' = false := by rw [fills, hno', Bool.false_and]
      simp only [hno, hno', hnofill, Bool.false_eq_true, if_false, add_zero]
      exact ih hts hts' hrest.symm htail (tracks_other hip ht hown htrack)
        (tracks_other hip' ht' hother' htrack') (by omega) h

/-- After every prefix of the same packets, the stricter limiter is ahead by at most
`maxConnections - 1` admissions for each entry that the looser one has filled, and every
such entry stands for `maxConnections` admissions of its own. -/
theorem strict_admissions_le (hm : 1 ≤ lim.maxConnections)
    (hmm' : lim.maxConnections ≤ lim'.maxConnections)
    (hd : lim'.blockDurationSeconds ≤ lim.blockDurationSeconds) (hip : ip ∉ lim.excludedIps)
    (hip' : ip ∉ lim'.excludedIps) {s s' : LimiterState} {tr tr' : List Handling}
    (hempty : s.limiter.ipMap = ∅) (hempty' : s'.limiter.ipMap = ∅)
    (hrun : IsRun (step lim) s tr) (hrun' : IsRun (step lim') s' tr')
    (hsame : tr.map (·.input) = tr'.map (·.input))
    (hread : ∀ t ∈ tr, t.input.ip = ip → t.input.checkTime = t.input.addTime) (k : Nat) :
    admissionCount ip (tr.take k) ≤ admissionCount ip (tr'.take k) +
        (lim.maxConnections - 1) * filledCount lim' ip (tr'.take k) ∧
      filledCount lim' ip (tr'.take k) * lim'.maxConnections ≤
        admissionCount ip (tr'.take k) := by
  have htrack := tracks_self lim ip s
  have htrack' := tracks_self lim' ip s'
  have he := LimiterState.entry_of_empty hempty ip
  have he' := LimiterState.entry_of_empty hempty' ip
  rw [he] at htrack
  rw [he'] at htrack'
  have hm' : 1 ≤ lim'.maxConnections := by omega
  obtain ⟨now, o, o', hlag⟩ := lag_run hm hm' hd hip hip'
    (hrun.upTo (List.take_prefix k tr)) (hrun'.upTo (List.take_prefix k tr'))
    (by rw [List.map_take, List.map_take, hsame])
    (fun t ht => hread t (List.mem_of_mem_take ht)) htrack htrack' (Int.le_refl s.clock)
    lag_nothing
  simp only [zero_add] at hlag
  exact (hlag.settled hm).symm

end Runs

def gapPackets : List Packet :=
  [.probe "10.0.0.1" 0 0, .probe "10.0.0.1" 10000000000 10000000000,
    .probe "10.0.0.1" 20000000000 20000000000, .probe "10.0.0.1" 21000000000 21000000000,
    .probe "10.0.0.1" 22000000000 22000000000]

def gapRun (maxConnections : Int) : List Handling :=
  trace (step ⟨[], maxConnections, 10⟩) (.start 0) gapPackets

theorem strict_admissions_le_gap :
    admissionCount "10.0.0.1" ((gapRun 2).take 5) ≤
        admissionCount "10.0.0.1" ((gapRun 3).take 5) +
          (2 - 1) * filledCount ⟨[], 3, 10⟩ "10.0.0.1" ((gapRun 3).take 5) ∧
      filledCount ⟨[], 3, 10⟩ "10.0.0.1" ((gapRun 3).take 5) * 3 ≤
        admissionCount "10.0.0.1" ((gapRun 3).take 5) := by
  have hrun : IsRun (step ⟨[], 2, 10⟩) (.start 0) (gapRun 2) := isRun_trace _ _
  have hrun' : IsRun (step ⟨[], 3, 10⟩) (.start 0) (gapRun 3) := isRun_trace _ _
  exact strict_admissions_le (by decide) (by decide) (by decide) (by decide) (by decide) rfl rfl
    hrun hrun' (by decide) (by decide) 5

/-- The third packet is refused by the limit of two and fills the entry of three. -/
theorem looser_limit_admits_less :
    (gapRun 2).map (·.input) = gapPackets ∧ (gapRun 3).map (·.input) = gapPackets ∧
    admissionCount "10.0.0.1" (gapRun 2) = 4 ∧ admissionCount "10.0.0.1" (gapRun 3) = 3 ∧
    filledCount ⟨[], 3, 10⟩ "10.0.0.1" (gapRun 3) = 1 := by
  decide

end Qwin
