import Mathlib.Data.List.Infix

/-!
Texts that begin with one of a few tags. If no tag is the beginning of another one,
a text says itself which tag it was put behind.
-/

set_option autoImplicit false

namespace Tags

variable {ι α : Type}

def Apart (a b : List α) : Prop := ¬ a <+: b ∧ ¬ b <+: a

instance [DecidableEq α] (a b : List α) : Decidable (Apart a b) :=
  inferInstanceAs (Decidable (_ ∧ _))

/-- No tag begins with another one. -/
def PrefixFree (tags : List (ι × List α)) : Prop := tags.Pairwise fun s t => Apart s.2 t.2

instance [DecidableEq α] (tags : List (ι × List α)) : Decidable (PrefixFree tags) :=
  inferInstanceAs (Decidable (List.Pairwise _ _))

/-- The tag that a text begins with, and the rest of the text. -/
def read [DecidableEq α] : List (ι × List α) → List α → Option (ι × List α)
  | [], _ => none
  | tag :: tags, text =>
    if tag.2 <+: text then some (tag.1, text.drop tag.2.length) else read tags text

theorem Apart.not_prefix_append {a b : List α} (h : Apart a b) (text : List α) :
    ¬ b <+: a ++ text := by
  intro hb
  rcases List.prefix_or_prefix_of_prefix (List.prefix_append a text) hb with hab | hba
  · exact h.1 hab
  · exact h.2 hba

theorem Apart.symm {a b : List α} (h : Apart a b) : Apart b a := ⟨h.2, h.1⟩

theorem read_tag [DecidableEq α] {tags : List (ι × List α)} (hfree : PrefixFree tags) {i : ι}
    {tag : List α} (hmem : (i, tag) ∈ tags) (text : List α) :
    read tags (tag ++ text) = some (i, text) := by
  induction tags with
  | nil => cases hmem
  | cons first tags ih =>
    obtain ⟨hfirst, htags⟩ := List.pairwise_cons.mp hfree
    unfold read
    rcases List.mem_cons.mp hmem with rfl | hmem
    · rw [if_pos (List.prefix_append tag text), List.drop_left]
    · rw [if_neg ((hfirst _ hmem).symm.not_prefix_append text)]
      exact ih htags hmem

end Tags
