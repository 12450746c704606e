import Mathlib.Data.List.Basic

/-!
Records kept in files, one a line, one file for each value of a key: how a text
comes apart into its lines, and the files into the records in their order.
-/

set_option autoImplicit false

namespace Lines

section Splitting
variable {α : Type} [DecidableEq α] {newline : α}

/-- The lines of a text, the last one of which need not be ended. -/
def splitLines (newline : α) : List α → List (List α)
  | [] => []
  | c :: text =>
    if c = newline then [] :: splitLines newline text
    else
      match splitLines newline text with
      | [] => [[c]]
      | line :: lines => (c :: line) :: lines

theorem splitLines_append {line : List α} (h : newline ∉ line) (text : List α) :
    splitLines newline (line ++ newline :: text) = line :: splitLines newline text := by
  induction line with
  | nil => exact if_pos rfl
  | cons c line ih =>
    obtain ⟨hc, hline⟩ := not_or.mp (List.mem_cons.not.mp h)
    rw [List.cons_append, splitLines, if_neg (Ne.symm hc), ih hline]

theorem splitLines_flatMap {lines : List (List α)} (h : ∀ line ∈ lines, newline ∉ line) :
    splitLines newline (lines.flatMap fun line => line ++ [newline]) = lines := by
  induction lines with
  | nil => rfl
  | cons line lines ih =>
    obtain ⟨hline, hlines⟩ := List.forall_mem_cons.mp h
    rw [List.flatMap_cons, List.append_assoc, List.singleton_append, splitLines_append hline,
      ih hlines]

end Splitting

section Buckets
variable {α : Type} {key : α → Nat} {k : Nat} {items : List α}

theorem filter_least (hsorted : items.Pairwise fun a b => key a ≤ key b)
    (hleast : ∀ a ∈ items, k ≤ key a) :
    items.filter (key · = k) ++ items.filter (key · ≠ k) = items := by
  induction items with
  | nil => rfl
  | cons a items ih =>
    obtain ⟨hfirst, hrest⟩ := List.pairwise_cons.mp hsorted
    obtain ⟨ha, hleast'⟩ := List.forall_mem_cons.mp hleast
    by_cases hk : key a = k
    · rw [List.filter_cons_of_pos (by simpa using hk), List.filter_cons_of_neg (by simpa using hk),
        List.cons_append, ih hrest hleast']
    · -- every later key is above `k` as well
      have hnone : (a :: items).filter (key · = k) = [] := by
        refine List.filter_eq_nil_iff.mpr fun b hb => ?_
        have hab : key a ≤ key b := by
          rcases List.mem_cons.mp hb with rfl | hb
          · exact Nat.le_refl _
          · exact hfirst b hb
        rw [decide_eq_true_iff]
        omega
      have hall : (a :: items).filter (key · ≠ k) = a :: items := by
        refine List.filter_eq_self.mpr fun b hb => ?_
        have hnot := List.filter_eq_nil_iff.mp hnone b hb
        simpa using hnot
      rw [hnone, hall, List.nil_append]

/-- Items that are sorted by a key are those of each key, in the order of the keys. -/
theorem flatMap_filter {keys : List Nat} (hsorted : items.Pairwise fun a b => key a ≤ key b)
    (hkeys : keys.Pairwise (· < ·)) (hcover : ∀ a ∈ items, key a ∈ keys) :
    (keys.flatMap fun k => items.filter (key · = k)) = items := by
  induction keys generalizing items with
  | nil => exact (List.eq_nil_iff_forall_not_mem.mpr fun a ha => by cases hcover a ha).symm
  | cons k keys ih =>
    obtain ⟨hfirst, hrest⟩ := List.pairwise_cons.mp hkeys
    have hleast : ∀ a ∈ items, k ≤ key a := by
      intro a ha
      rcases List.mem_cons.mp (hcover a ha) with heq | hmem
      · exact Nat.le_of_eq heq.symm
      · exact Nat.le_of_lt (hfirst _ hmem)
    have hlater := ih (hsorted.filter fun a => key a ≠ k) hrest fun a ha => by
      obtain ⟨hmem, hne⟩ := List.mem_filter.mp ha
      exact (List.mem_cons.mp (hcover a hmem)).resolve_left (by simpa using hne)
    have hsame : (keys.flatMap fun k' => (items.filter (key · ≠ k)).filter (key · = k')) =
        keys.flatMap fun k' => items.filter (key · = k') := by
      refine List.flatMap_congr fun k' hk' => ?_
      rw [List.filter_filter]
      refine List.filter_congr fun a _ => ?_
      have hlt := hfirst k' hk'
      by_cases ha : key a = k'
      · have hne : key a ≠ k := by omega
        simp [ha, ha ▸ hne]
      · simp [ha]
    rw [List.flatMap_cons, ← hsame, hlater]
    exact filter_least hsorted hleast

end Buckets

end Lines
