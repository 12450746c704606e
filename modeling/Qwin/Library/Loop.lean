import Mathlib.Data.Nat.Init
import Mathlib.Logic.Relation

/-!
Loops that go round while a measure of their state falls: what they come to, and
how facts about one turn become facts about the whole loop.
-/

set_option autoImplicit false

namespace Loops

/-- What the body of a loop does: another turn, or an end. -/
inductive Turn (σ ρ : Type) where
  | next (s : σ)
  | done (r : ρ)

structure Loop (σ ρ : Type) where
  turn : σ → Turn σ ρ
  measure : σ → Nat
  decreases : ∀ {s s' : σ}, turn s = .next s' → measure s' < measure s

namespace Loop

variable {σ ρ : Type} (loop : Loop σ ρ)

/-- The fuel never runs out: it is above the measure, which every turn lowers. -/
def runWith : (fuel : Nat) → (s : σ) → loop.measure s < fuel → ρ
  | fuel + 1, s, h =>
    match hturn : loop.turn s with
    | .next s' => runWith fuel s' (Nat.lt_of_lt_of_le (loop.decreases hturn) (Nat.le_of_lt_succ h))
    | .done r => r

def run (s : σ) : ρ := loop.runWith (loop.measure s + 1) s (Nat.lt_succ_self _)

theorem runWith_next {fuel : Nat} {s s' : σ} (hturn : loop.turn s = .next s')
    (h : loop.measure s < fuel + 1) :
    loop.runWith (fuel + 1) s h = loop.runWith fuel s'
      (Nat.lt_of_lt_of_le (loop.decreases hturn) (Nat.le_of_lt_succ h)) := by
  rw [runWith]
  split
  · rename_i s'' hturn'
    obtain rfl : s'' = s' := by
      rw [hturn'] at hturn
      injection hturn
    rfl
  · rename_i r hturn'
    rw [hturn'] at hturn
    cases hturn

theorem runWith_done {fuel : Nat} {s : σ} {r : ρ} (hturn : loop.turn s = .done r)
    (h : loop.measure s < fuel) : loop.runWith fuel s h = r := by
  cases fuel with
  | zero => exact absurd h (Nat.not_lt_zero _)
  | succ fuel =>
    rw [runWith]
    split
    · rename_i s' hturn'
      rw [hturn'] at hturn
      cases hturn
    · rename_i r' hturn'
      rw [hturn'] at hturn
      injection hturn

/-- How much fuel there is makes no difference. -/
theorem runWith_fuel {fuel fuel' : Nat} {s : σ} (h : loop.measure s < fuel)
    (h' : loop.measure s < fuel') : loop.runWith fuel s h = loop.runWith fuel' s h' := by
  induction fuel generalizing fuel' s with
  | zero => exact absurd h (Nat.not_lt_zero _)
  | succ fuel ih =>
    cases fuel' with
    | zero => exact absurd h' (Nat.not_lt_zero _)
    | succ fuel' =>
      cases hturn : loop.turn s with
      | next s' =>
        rw [loop.runWith_next hturn h, loop.runWith_next hturn h']
        exact ih _ _
      | done r => rw [loop.runWith_done hturn h, loop.runWith_done hturn h']

variable {loop} {s s' : σ} {r : ρ}

theorem run_next (hturn : loop.turn s = .next s') : loop.run s = loop.run s' := by
  unfold run
  rw [loop.runWith_next hturn]
  exact loop.runWith_fuel _ _

theorem run_done (hturn : loop.turn s = .done r) : loop.run s = r :=
  loop.runWith_done hturn _

/-- Two states with the same turn come to the same. -/
theorem run_congr (hturn : loop.turn s = loop.turn s') : loop.run s = loop.run s' := by
  cases h : loop.turn s' with
  | next s'' => rw [run_next (hturn.trans h), run_next h]
  | done r => rw [run_done (hturn.trans h), run_done h]

/-- Induction along the turns: what is true where the loop ends, and before a turn
when it is true after it, is true everywhere. -/
theorem induction {P : σ → Prop} (hdone : ∀ s r, loop.turn s = .done r → P s)
    (hnext : ∀ s s', loop.turn s = .next s' → P s' → P s) (s : σ) : P s := by
  induction hmeasure : loop.measure s using Nat.strongRecOn generalizing s with
  | ind n ih =>
    cases hturn : loop.turn s with
    | next s' => exact hnext s s' hturn (ih _ (hmeasure ▸ loop.decreases hturn) s' rfl)
    | done r => exact hdone s r hturn

/-- An invariant that turns keep holds where the loop ends. -/
theorem invariant {P : σ → Prop} {Q : ρ → Prop}
    (hnext : ∀ s s', P s → loop.turn s = .next s' → P s')
    (hdone : ∀ s r, P s → loop.turn s = .done r → Q r) (hinv : P s) :
    Q (loop.run s) := by
  induction s using loop.induction with
  | hdone s r hturn =>
    rw [run_done hturn]
    exact hdone s r hinv hturn
  | hnext s s' hturn ih =>
    rw [run_next hturn]
    exact ih (hnext s s' hinv hturn)

/-- The states that the loop comes through. -/
def Reaches (loop : Loop σ ρ) : σ → σ → Prop :=
  Relation.ReflTransGen fun s s' => loop.turn s = .next s'

/-- The loop comes to a last state, and that one to its result. -/
theorem exists_last (loop : Loop σ ρ) (s : σ) :
    ∃ s', loop.Reaches s s' ∧ loop.turn s' = .done (loop.run s) := by
  induction s using loop.induction with
  | hdone s r hturn => exact ⟨s, .refl, by rw [run_done hturn, hturn]⟩
  | hnext s s' hturn ih =>
    obtain ⟨last, hreaches, hlast⟩ := ih
    exact ⟨last, .head hturn hreaches, by rw [run_next hturn, hlast]⟩

/-- Two loops whose turns go together come to the same. -/
theorem run_eq_run {τ : Type} {loop' : Loop τ ρ} {R : σ → τ → Prop}
    (hturns : ∀ s t, R s t →
      (∃ s' t', loop.turn s = .next s' ∧ loop'.turn t = .next t' ∧ R s' t') ∨
        ∃ r, loop.turn s = .done r ∧ loop'.turn t = .done r) {t : τ} (h : R s t) :
    loop.run s = loop'.run t := by
  induction s using loop.induction generalizing t with
  | hdone s r hturn =>
    rcases hturns s t h with ⟨s', t', hs, -, -⟩ | ⟨r', hs, ht⟩
    · cases hturn.symm.trans hs
    · rw [run_done hs, run_done ht]
  | hnext s s' hturn ih =>
    rcases hturns s t h with ⟨s'', t', hs, ht, hrelated⟩ | ⟨r', hs, -⟩
    · obtain rfl := Turn.next.inj (hturn.symm.trans hs)
      rw [run_next hturn, run_next ht]
      exact ih hrelated
    · cases hturn.symm.trans hs

end Loop

end Loops
