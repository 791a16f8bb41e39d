import Ticketing.Library.Table
import Mathlib.Data.List.MinMax
import Mathlib.Data.List.Sort
import Mathlib.Data.Prod.Lex
import Mathlib.Data.String.Basic

/-!
# Sorted sets

A sorted set gives every member one score and orders its members by score, ties by the members
themselves. A rank counts the members that stand before; it can only fall when nothing new is
placed before a member.
-/

namespace Relational

abbrev SortedSet (μ : Type) := Table μ ℕ

namespace SortedSet

variable {μ : Type}

def card (s : SortedSet μ) : ℕ := s.rows.length

variable [LinearOrder μ]

/-- Add a member or move it to a new score. -/
def add (s : SortedSet μ) (m : μ) (score : ℕ) : SortedSet μ := s.set m score

def remove (s : SortedSet μ) (m : μ) : SortedSet μ := s.erase m

@[simp] theorem find_add (s : SortedSet μ) (m k : μ) (score : ℕ) :
    (s.add m score).find k = if k = m then some score else s.find k := s.find_set m score k

@[simp] theorem find_remove (s : SortedSet μ) (m k : μ) :
    (s.remove m).find k = if k = m then none else s.find k := s.find_erase m k

theorem find_add_of_ne (s : SortedSet μ) {m k : μ} (score : ℕ) (h : k ≠ m) :
    (s.add m score).find k = s.find k := s.find_set_of_ne score h

theorem find_remove_self (s : SortedSet μ) (m : μ) : (s.remove m).find m = none := by
  rw [find_remove, if_pos rfl]

theorem find_remove_of_ne (s : SortedSet μ) {m k : μ} (h : k ≠ m) :
    (s.remove m).find k = s.find k := by
  rw [find_remove, if_neg h]

def place (row : μ × ℕ) : ℕ ×ₗ μ := toLex (row.2, row.1)

def first (s : SortedSet μ) : Option μ := (s.rows.argmin place).map Prod.fst

/-- How many members stand before a place. -/
def before (s : SortedSet μ) (p : ℕ ×ₗ μ) : ℕ := s.count fun k r => decide (place (k, r) < p)

def rank (s : SortedSet μ) (m : μ) : Option ℕ := (s.find m).map fun score => s.before (place (m, score))

/-- Members whose score satisfies a condition, in order. -/
def ranged (s : SortedSet μ) (p : ℕ → Bool) : List μ :=
  ((s.rows.filter fun row => p row.2).insertionSort fun x y => place x ≤ place y).map Prod.fst

theorem first_eq_none {s : SortedSet μ} : s.first = none ↔ s.rows = [] := by
  unfold first
  rw [Option.map_eq_none_iff, List.argmin_eq_none]

theorem first_spec {s : SortedSet μ} {m : μ} (h : s.first = some m) :
    ∃ score, s.find m = some score ∧
      ∀ k r, s.find k = some r → place (m, score) ≤ place (k, r) := by
  obtain ⟨⟨k, score⟩, hrow, rfl⟩ := Option.map_eq_some_iff.mp h
  refine ⟨score, (s.find_eq_some _ _).mpr (List.argmin_mem hrow), ?_⟩
  intro j r hj
  exact List.le_of_mem_argmin ((s.find_eq_some j r).mp hj) hrow

theorem mem_ranged {s : SortedSet μ} {p : ℕ → Bool} {m : μ} (h : m ∈ s.ranged p) :
    ∃ score, s.find m = some score ∧ p score = true := by
  obtain ⟨row, hrow, rfl⟩ := List.mem_map.mp h
  have hmem := (List.mem_insertionSort _).mp hrow
  obtain ⟨hin, hp⟩ := List.mem_filter.mp hmem
  exact ⟨row.2, (s.find_eq_some _ _).mpr hin, hp⟩

/-- Fewer members, none of them moved: a place has no more before it. -/
theorem before_le_of_find {s t : SortedSet μ} (p : ℕ ×ₗ μ)
    (h : ∀ k r, place (k, r) < p → t.find k = some r → s.find k = some r) :
    t.before p ≤ s.before p := by
  have hnodup : (t.select fun k r => decide (place (k, r) < p)).Nodup :=
    List.Nodup.filter _ (List.Nodup.of_map _ t.nodup)
  apply List.Subperm.length_le
  apply hnodup.subperm
  rintro ⟨k, r⟩ hrow
  obtain ⟨hfind, hp⟩ := (t.mem_select _ k r).mp hrow
  exact (s.mem_select _ k r).mpr ⟨h k r (of_decide_eq_true hp) hfind, hp⟩

theorem card_le_of_find {s t : SortedSet μ} (h : ∀ k r, t.find k = some r → (s.find k).isSome) :
    t.card ≤ s.card := by
  have hkeys : t.rows.map Prod.fst ⊆ s.rows.map Prod.fst := by
    intro k hk
    rw [Table.mem_keys_iff] at hk ⊢
    obtain ⟨r, hr⟩ := Option.isSome_iff_exists.mp hk
    exact h k r hr
  have hlen := (t.nodup.subperm hkeys).length_le
  simpa [card] using hlen

theorem card_add_le (s : SortedSet μ) (m : μ) (score : ℕ) : (s.add m score).card ≤ s.card + 1 := by
  have hkeys : (s.add m score).rows.map Prod.fst ⊆ m :: s.rows.map Prod.fst := by
    intro k hk
    by_cases hkm : k = m
    · rw [hkm]
      exact List.mem_cons_self
    · rw [Table.mem_keys_iff, find_add_of_ne s score hkm] at hk
      exact List.mem_cons_of_mem _ ((s.mem_keys_iff k).mpr hk)
  have hlen := ((s.add m score).nodup.subperm hkeys).length_le
  simpa [card] using hlen

theorem card_remove_le (s : SortedSet μ) (m : μ) : (s.remove m).card ≤ s.card := by
  apply card_le_of_find
  intro k r hk
  by_cases hkm : k = m
  · rw [hkm, find_remove_self] at hk
    cases hk
  · rw [← find_remove_of_ne s hkm, hk]
    rfl

end SortedSet
end Relational
