import Qwin.Limiter.Step

/-!
Check and update as one packet meets them. The update asks for the limit only
where it finds an entry, and the check lets every packet without one through.
-/

set_option autoImplicit false

namespace Qwin

/-- What the check at `c` answers, and the limiter it leaves. -/
def Limits.check (lim : Limits) (ip : Ip) (l : Limiter) (c : Int) : Limiter × Bool :=
  let (ipMap, blocked) := isIpBlocked ip l.ipMap lim.excludedIps lim.maxConnections
    lim.blockDurationSeconds c
  ({ l with ipMap := ipMap }, blocked)

def Limits.update (lim : Limits) (ip : Ip) (l : Limiter) (a : Int) : Limiter :=
  addIpConnection ip l lim.excludedIps lim.maxConnections a

/-- An absent address has no connections. -/
def countOf (o : Option Entry) : Int := (o.map (·.count)).getD 0

structure CountedOnce (lim : Limits) (ip : Ip) (checked updated : Limiter) (a : Int) : Prop where
  own : ∃ e, updated.ipMap.lookup ip = some e ∧ e.timestamp = a ∧
    e.count = countOf (checked.ipMap.lookup ip) + 1 ∧ e.count ≤ lim.maxConnections
  total : updated.totalConnections = checked.totalConnections + 1
  others : ∀ other, other ≠ ip → updated.ipMap.lookup other = checked.ipMap.lookup other

/-- What the check lets through the update counts, and what the check refuses
the update would not count either. -/
structure CheckAgrees (lim : Limits) (ip : Ip) (l : Limiter) (c a : Int) : Prop where
  passed : (lim.check ip l c).2 = false →
    CountedOnce lim ip (lim.check ip l c).1 (lim.update ip (lim.check ip l c).1 a) a
  refused : (lim.check ip l c).2 = true →
    (lim.update ip (lim.check ip l c).1 a).ipMap = (lim.check ip l c).1.ipMap ∧
      (lim.update ip (lim.check ip l c).1 a).totalConnections = l.totalConnections

section Functions
variable {lim : Limits} {ip : Ip} {l : Limiter} {e : Entry}

theorem check_absent (hip : ip ∉ lim.excludedIps) {c : Int}
    (he : lim.fresh c (l.ipMap.lookup ip) = none) :
    lim.check ip l c = ({ l with ipMap := lim.prune c l.ipMap }, false) := by
  unfold Limits.check
  rw [isIpBlocked_absent lim _ _ _ hip he]

theorem check_present (hip : ip ∉ lim.excludedIps) {c : Int}
    (he : lim.fresh c (l.ipMap.lookup ip) = some e) :
    lim.check ip l c =
      ({ l with ipMap := lim.prune c l.ipMap }, decide (lim.maxConnections ≤ e.count)) := by
  unfold Limits.check
  rw [isIpBlocked_present lim _ _ _ hip he]

theorem update_absent (hip : ip ∉ lim.excludedIps) (he : l.ipMap.lookup ip = none) (a : Int) :
    lim.update ip l a =
      ⟨l.ipMap.insert ip ⟨1, a⟩, l.totalConnections + 1, l.blockedConnections⟩ :=
  addIpConnection_absent lim ip a l hip he

theorem update_below (hip : ip ∉ lim.excludedIps) (he : l.ipMap.lookup ip = some e)
    (hlt : e.count < lim.maxConnections) (a : Int) :
    lim.update ip l a =
      ⟨l.ipMap.insert ip ⟨e.count + 1, a⟩, l.totalConnections + 1, l.blockedConnections⟩ :=
  addIpConnection_present lim ip a l hip he hlt

theorem update_full (hip : ip ∉ lim.excludedIps) (he : l.ipMap.lookup ip = some e)
    (hfull : lim.maxConnections ≤ e.count) (a : Int) : lim.update ip l a = l := by
  have hmem : ip ∈ l.ipMap := by simp [← AList.lookup_isSome, he]
  have hnot : ¬ e.count < lim.maxConnections := Int.not_lt.mpr hfull
  simp [Limits.update, addIpConnection, hip, hmem, subscript, he, hnot]

/-- Both ways in which the update counts write one entry and raise the counter. -/
theorem countedOnce_insert_iff {n a : Int} (hn : n = countOf (l.ipMap.lookup ip) + 1) :
    CountedOnce lim ip l
        ⟨l.ipMap.insert ip ⟨n, a⟩, l.totalConnections + 1, l.blockedConnections⟩ a ↔
      n ≤ lim.maxConnections := by
  constructor
  · rintro ⟨⟨e, he, -, -, hle⟩, -, -⟩
    rw [AList.lookup_insert] at he
    obtain rfl := Option.some.inj he
    exact hle
  · intro hle
    refine ⟨⟨⟨n, a⟩, AList.lookup_insert _, rfl, hn, hle⟩, rfl, fun other hother => ?_⟩
    exact AList.lookup_insert_ne hother

end Functions

/-- Check and update agree exactly when the limit is positive or the check finds
an entry: a packet without one is let through and counted whatever the limit. -/
theorem checkAgrees_iff {lim : Limits} {ip : Ip} (hip : ip ∉ lim.excludedIps) (l : Limiter)
    (c a : Int) :
    CheckAgrees lim ip l c a ↔
      (lim.fresh c (l.ipMap.lookup ip) = none → 1 ≤ lim.maxConnections) := by
  cases he : lim.fresh c (l.ipMap.lookup ip) with
  | none =>
    have hchecked : (lim.prune c l.ipMap).lookup ip = none := by rw [lim.lookup_prune, he]
    have hcount : (1 : Int) = countOf ((lim.prune c l.ipMap).lookup ip) + 1 := by
      rw [hchecked]
      rfl
    constructor
    · rintro ⟨hpassed, -⟩ -
      rw [check_absent hip he, update_absent hip hchecked] at hpassed
      exact (countedOnce_insert_iff (l := { l with ipMap := lim.prune c l.ipMap }) hcount).mp
        (hpassed rfl)
    · intro hlimit
      constructor <;> rw [check_absent hip he]
      · intro _
        rw [update_absent hip hchecked]
        exact (countedOnce_insert_iff (l := { l with ipMap := lim.prune c l.ipMap }) hcount).mpr
          (hlimit rfl)
      · intro h
        cases h
  | some e =>
    have hchecked : (lim.prune c l.ipMap).lookup ip = some e := by rw [lim.lookup_prune, he]
    have hpresent : some e = none → 1 ≤ lim.maxConnections := by
      intro h
      cases h
    refine ⟨fun _ => hpresent, fun _ => ?_⟩
    constructor <;> rw [check_present hip he] <;> dsimp only
    · intro hpass
      have hlt : e.count < lim.maxConnections := by simpa using hpass
      have hcount : e.count + 1 = countOf ((lim.prune c l.ipMap).lookup ip) + 1 := by
        rw [hchecked]
        rfl
      rw [update_below hip hchecked hlt]
      exact (countedOnce_insert_iff (l := { l with ipMap := lim.prune c l.ipMap }) hcount).mpr hlt
    · intro hblocked
      rw [update_full hip hchecked (by simpa using hblocked)]
      exact ⟨rfl, rfl⟩

/-- One entry with room left, beside an address that is excluded. -/
def oneConnection : IpMap := AList.insert "10.0.0.1" ⟨1, 0⟩ ∅

theorem checkAgrees_iff_present :
    CheckAgrees ⟨["127.0.0.1"], 2, 600⟩ "10.0.0.1" ⟨oneConnection, 1, 0⟩ 3 5 ↔
      ((⟨["127.0.0.1"], 2, 600⟩ : Limits).fresh 3 (oneConnection.lookup "10.0.0.1") = none →
        (1 : Int) ≤ 2) :=
  checkAgrees_iff (by simp) ⟨oneConnection, 1, 0⟩ 3 5

/-- With a limit of zero connections the first packet of an address is counted. -/
theorem first_packet_passes_zero_limit :
    ((⟨[], 0, 600⟩ : Limits).check "10.0.0.1" ⟨∅, 0, 0⟩ 0).2 = false ∧
    ((⟨[], 0, 600⟩ : Limits).update "10.0.0.1" ⟨∅, 0, 0⟩ 5).ipMap.lookup "10.0.0.1" =
      some ⟨1, 5⟩ ∧
    ¬ CheckAgrees ⟨[], 0, 600⟩ "10.0.0.1" ⟨∅, 0, 0⟩ 0 5 := by
  refine ⟨by decide, by decide, fun h => ?_⟩
  obtain ⟨e, he, -, -, hle⟩ := (h.passed (by decide)).own
  have hone : e = ⟨1, 5⟩ := by
    refine Option.some.inj (he.symm.trans ?_)
    decide
  rw [hone] at hle
  exact absurd hle (by decide)

end Qwin
