import Qwin.Library.Sweep
import Qwin.Limiter.Step

/-!
The pruning loop of `isIpBlocked` on the hash table itself: an iterator over the
entries in the order in which the table happens to list them.
-/

set_option autoImplicit false

namespace Qwin
open Sweeping

/-- The loop from `ipMap.begin()` to `ipMap.end()`. -/
def pruneTable (blockDurationSeconds now : Int) (table : List (Sigma fun _ : Ip => Entry)) :
    Sweep (Sigma fun _ : Ip => Entry) :=
  sweep (fun it => stale blockDurationSeconds now it.2) table

def floorSeconds (now t : Int) : Int := (now - t) / nanosPerSecond

theorem floorSeconds_le_iff {c t d : Int} (h : t ≤ c ∨ 0 ≤ d) :
    ageSeconds c t ≤ d ↔ floorSeconds c t ≤ d := by
  by_cases hpast : t ≤ c
  · rw [ageSeconds_eq hpast, floorSeconds]
  · have hd : 0 ≤ d := h.resolve_left hpast
    have hage : ageSeconds c t ≤ ageSeconds c c := ageSeconds_anti (by omega)
    have hzero : ageSeconds c c = 0 := by simp [ageSeconds]
    have hfloor : floorSeconds c t ≤ 0 := by
      simp only [floorSeconds, nanosPerSecond]
      omega
    exact ⟨fun _ => by omega, fun _ => by omega⟩

theorem pruneTable_eq (d now : Int) (table : List (Sigma fun _ : Ip => Entry)) :
    pruneTable d now table =
      ⟨table.filter fun it => !stale d now it.2,
        (table.filter fun it => !stale d now it.2).length, table⟩ :=
  sweep_eq _ table

section Erasing
variable (d now : Int) {ipMap : IpMap} {kept rest : List (Sigma fun _ : Ip => Entry)}

theorem entries_erase {it : Sigma fun _ : Ip => Entry} (h : ipMap.entries = kept ++ it :: rest) :
    (ipMap.erase it.1).entries = kept ++ rest := by
  have hnodup : (kept ++ it :: rest).NodupKeys := h ▸ ipMap.nodupKeys
  have hnot : it.1 ∉ kept.keys := by
    intro hmem
    rw [List.NodupKeys, List.keys, List.map_append, List.nodup_append] at hnodup
    exact hnodup.2.2 _ hmem it.1 (by simp) rfl
  change List.kerase it.1 ipMap.entries = kept ++ rest
  rw [h, List.kerase_append_right hnot, List.kerase_cons_eq rfl]

theorem entries_pruneLoop (h : ipMap.entries = kept ++ rest) :
    (pruneLoop d now rest ipMap).entries = kept ++ rest.filter fun it => !stale d now it.2 := by
  induction rest generalizing ipMap kept with
  | nil => simpa [pruneLoop] using h
  | cons it rest ih =>
    unfold pruneLoop
    cases hstale : stale d now it.2 with
    | true =>
      rw [if_pos rfl, ih (entries_erase h), List.filter_cons_of_neg (by simp [hstale])]
    | false =>
      have hmoved : ipMap.entries = (kept ++ [it]) ++ rest := by
        rw [h, List.append_assoc, List.singleton_append]
      rw [if_neg (by simp), ih hmoved, List.filter_cons_of_pos (by simp [hstale]),
        List.append_assoc, List.singleton_append]

/-- Erasing by key in the map is erasing at the iterator in its table. -/
theorem entries_prune (ipMap : IpMap) :
    (prune d now ipMap).entries = (pruneTable d now ipMap.entries).table := by
  rw [pruneTable_eq]
  exact entries_pruneLoop d now (List.nil_append _).symm

end Erasing

/-- The loop ends having examined every entry once and keeps those that are not
past the block duration; what follows it reads the map and inserts nothing. -/
structure PrunesExactly (lim : Limits) (ip : Ip) (ipMap : IpMap) (c : Int) : Prop where
  ends : (pruneTable lim.blockDurationSeconds c ipMap.entries).it =
    (pruneTable lim.blockDurationSeconds c ipMap.entries).table.length
  examined : (pruneTable lim.blockDurationSeconds c ipMap.entries).examined = ipMap.entries
  kept : (pruneTable lim.blockDurationSeconds c ipMap.entries).table =
    ipMap.entries.filter fun it => ageSeconds c it.2.timestamp ≤ lim.blockDurationSeconds
  inserts_nothing :
    (isIpBlocked ip ipMap lim.excludedIps lim.maxConnections lim.blockDurationSeconds
      c).1.entries = (pruneTable lim.blockDurationSeconds c ipMap.entries).table
  answer :
    (isIpBlocked ip ipMap lim.excludedIps lim.maxConnections lim.blockDurationSeconds
      c).2 = true ↔
    ∃ e, ipMap.lookup ip = some e ∧ ageSeconds c e.timestamp ≤ lim.blockDurationSeconds ∧
      lim.maxConnections ≤ e.count
  any_order : ∀ ipMap' : IpMap, ipMap'.entries.Perm ipMap.entries →
    (isIpBlocked ip ipMap' lim.excludedIps lim.maxConnections lim.blockDurationSeconds c).2 =
      (isIpBlocked ip ipMap lim.excludedIps lim.maxConnections lim.blockDurationSeconds c).2 ∧
    (pruneTable lim.blockDurationSeconds c ipMap'.entries).table.Perm
      (pruneTable lim.blockDurationSeconds c ipMap.entries).table

/-- Ages are truncated toward zero. That is their floor unless the time stamp
lies in the future and the block duration is negative. -/
theorem pruning_is_exact (lim : Limits) {ip : Ip} (hip : ip ∉ lim.excludedIps) (ipMap : IpMap)
    (c : Int) :
    PrunesExactly lim ip ipMap c ∧
      ∀ t, t ≤ c ∨ 0 ≤ lim.blockDurationSeconds →
        (ageSeconds c t ≤ lim.blockDurationSeconds ↔
          floorSeconds c t ≤ lim.blockDurationSeconds) := by
  refine ⟨⟨?_, ?_, ?_, ?_, isIpBlocked_snd_iff lim hip ipMap c, ?_⟩, fun t => floorSeconds_le_iff⟩
  · rw [pruneTable_eq]
  · rw [pruneTable_eq]
  · rw [pruneTable_eq]
    exact List.filter_congr fun it _ => by simp only [stale, gt_iff_lt, ← decide_not, Int.not_lt]
  · rw [isIpBlocked_fst lim hip]
    exact entries_prune _ _ _
  · intro ipMap' hperm
    constructor
    · rw [Bool.eq_iff_iff, isIpBlocked_snd_iff lim hip, isIpBlocked_snd_iff lim hip,
        AList.perm_lookup hperm]
    · rw [pruneTable_eq, pruneTable_eq]
      exact hperm.filter _

def twoEntries : IpMap := (AList.singleton "10.0.0.1" ⟨1, 0⟩).insert "10.0.0.2" ⟨3, 9000000000⟩

theorem pruning_is_exact_two :
    PrunesExactly ⟨[], 3, 5⟩ "10.0.0.2" twoEntries 10000000000 ∧
      ∀ t, t ≤ 10000000000 ∨ (0 : Int) ≤ 5 →
        (ageSeconds 10000000000 t ≤ 5 ↔ floorSeconds 10000000000 t ≤ 5) :=
  pruning_is_exact ⟨[], 3, 5⟩ (by simp) twoEntries 10000000000

/-- An entry of one nanosecond from now has an age of zero seconds, which is past
a block duration of minus one. Its floor is not. -/
theorem future_entry_is_erased :
    floorSeconds 0 1 ≤ -1 ∧ ageSeconds 0 1 = 0 ∧
    (pruneTable (-1) 0 (AList.singleton "10.0.0.1" (⟨1, 1⟩ : Entry)).entries).table = [] := by
  rw [pruneTable_eq]
  decide

end Qwin
