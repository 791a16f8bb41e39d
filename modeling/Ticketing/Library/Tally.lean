import Mathlib.Data.Finset.Card
import Mathlib.Algebra.BigOperators.Group.Finset.Basic
import Mathlib.Algebra.BigOperators.Group.Finset.Sigma
import Mathlib.Algebra.Order.BigOperators.Group.Finset
import Mathlib.Tactic

/-!
# Counting a finite set by class

How many members of a set fall into each class, and how these numbers move when one member is added
or changes its class.
-/

namespace Tally

variable {α β : Type} [DecidableEq β]

def tally (s : Finset α) (f : α → β) (b : β) : ℕ := (s.filter fun a => f a = b).card

theorem tally_le (s : Finset α) (f : α → β) (b : β) : tally s f b ≤ s.card :=
  Finset.card_filter_le s _

theorem tally_congr {s : Finset α} {f g : α → β} (h : ∀ a ∈ s, f a = g a) (b : β) :
    tally s f b = tally s g b := by
  unfold tally
  congr 1
  apply Finset.filter_congr
  intro a ha
  rw [h a ha]

/-- The numbers of the classes that occur add up to the size of the set. -/
theorem sum_tally {s : Finset α} {f : α → β} {classes : Finset β} (h : ∀ a ∈ s, f a ∈ classes) :
    ∑ b ∈ classes, tally s f b = s.card :=
  (Finset.card_eq_sum_card_fiberwise h).symm

/-- A class with a member is not empty. -/
theorem tally_pos {s : Finset α} {a : α} (ha : a ∈ s) (f : α → β) : 0 < tally s f (f a) :=
  Finset.card_pos.mpr ⟨a, Finset.mem_filter.mpr ⟨ha, rfl⟩⟩

variable [DecidableEq α]

theorem tally_insert {s : Finset α} {a : α} (ha : a ∉ s) (f : α → β) (b : β) :
    tally (insert a s) f b = tally s f b + if f a = b then 1 else 0 := by
  unfold tally
  rw [Finset.filter_insert]
  split_ifs with h
  · exact Finset.card_insert_of_notMem fun hmem => ha (Finset.mem_of_mem_filter a hmem)
  · rfl

/-- A member of the set that leaves a class is one less there. -/
theorem tally_split {s : Finset α} {a : α} (ha : a ∈ s) (f : α → β) (b : β) :
    tally s f b = tally (s.erase a) f b + if f a = b then 1 else 0 := by
  conv_lhs => rw [← Finset.insert_erase ha]
  exact tally_insert (Finset.notMem_erase a s) f b

/-- When one member changes its class, that class gains one and the old one loses one. -/
theorem tally_move {s : Finset α} {a : α} (ha : a ∈ s) {f g : α → β}
    (hsame : ∀ other ∈ s, other ≠ a → g other = f other) (b : β) :
    (tally s g b + if f a = b then 1 else 0) = tally s f b + if g a = b then 1 else 0 := by
  have hrest : tally (s.erase a) g b = tally (s.erase a) f b :=
    tally_congr (fun other hother => hsame other (Finset.mem_of_mem_erase hother)
      (Finset.ne_of_mem_erase hother)) b
  rw [tally_split ha g, tally_split ha f, hrest]
  omega

end Tally
