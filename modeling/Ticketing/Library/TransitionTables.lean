import Mathlib.Data.List.Nodup

/-!
# Statements and their transition tables

A statement on a list of rows inserts rows, replaces rows by rows or deletes rows, and its trigger
sees the rows before and after it. What a projection of the rows loses or gains is found in the
two transition tables alone.
-/

namespace Relational

/-- An update keeps the rows without a new row. -/
inductive Change (ρ : Type) where
  | insert (rows : List ρ)
  | update (set : ρ → Option ρ)
  | delete (hit : ρ → Bool)

namespace Change

variable {ρ σ : Type}

def apply : Change ρ → List ρ → List ρ
  | insert new, rows => rows ++ new
  | update set, rows => rows.map fun row => (set row).getD row
  | delete hit, rows => rows.filter fun row => !hit row

def oldRows : Change ρ → List ρ → List ρ
  | insert _, _ => []
  | update set, rows => rows.filter fun row => (set row).isSome
  | delete hit, rows => rows.filter hit

def newRows : Change ρ → List ρ → List ρ
  | insert new, _ => new
  | update set, rows => rows.filterMap set
  | delete _, _ => []

/-- The set difference of two selections. -/
def except [DecidableEq σ] (xs ys : List σ) : List σ := xs.filter fun x => decide (x ∉ ys)

variable {c : Change ρ} {rows : List ρ} {row : ρ}

theorem mem_except [DecidableEq σ] {xs ys : List σ} {x : σ} :
    x ∈ except xs ys ↔ x ∈ xs ∧ x ∉ ys := by
  rw [except, List.mem_filter, decide_eq_true_eq]

theorem oldRows_subset (h : row ∈ c.oldRows rows) : row ∈ rows := by
  cases c with
  | insert new => cases h
  | update set => exact List.mem_of_mem_filter h
  | delete hit => exact List.mem_of_mem_filter h

theorem mem_apply_of_newRows (h : row ∈ c.newRows rows) : row ∈ c.apply rows := by
  cases c with
  | insert new => exact List.mem_append_right _ h
  | update set =>
      obtain ⟨before, hbefore, hset⟩ := List.mem_filterMap.mp h
      exact List.mem_map.mpr ⟨before, hbefore, by rw [hset, Option.getD_some]⟩
  | delete hit => cases h

/-- A row after the statement is new or was there before. -/
theorem mem_apply (h : row ∈ c.apply rows) : row ∈ c.newRows rows ∨ row ∈ rows := by
  cases c with
  | insert new => exact (List.mem_append.mp h).symm
  | update set =>
      obtain ⟨before, hbefore, rfl⟩ := List.mem_map.mp h
      cases hset : set before with
      | none => exact .inr hbefore
      | some after => exact .inl (List.mem_filterMap.mpr ⟨before, hbefore, hset⟩)
  | delete hit => exact .inr (List.mem_of_mem_filter h)

/-- A row before the statement is replaced or removed, or still there. -/
theorem mem_apply_of_mem (h : row ∈ rows) : row ∈ c.oldRows rows ∨ row ∈ c.apply rows := by
  cases c with
  | insert new => exact .inr (List.mem_append_left _ h)
  | update set =>
      cases hset : set row with
      | none => exact .inr (List.mem_map.mpr ⟨row, h, by rw [hset, Option.getD_none]⟩)
      | some after => exact .inl (List.mem_filter.mpr ⟨h, by rw [hset]; rfl⟩)
  | delete hit =>
      cases hhit : hit row with
      | true => exact .inl (List.mem_filter.mpr ⟨h, hhit⟩)
      | false => exact .inr (List.mem_filter.mpr ⟨h, by rw [hhit]; rfl⟩)

/-! ## Projections -/

variable [DecidableEq σ] (π : ρ → σ)

/-- The projected rows that only one of the transition tables holds. -/
def changed (c : Change ρ) (rows : List ρ) : List σ :=
  except ((c.newRows rows).map π) ((c.oldRows rows).map π) ++
    except ((c.oldRows rows).map π) ((c.newRows rows).map π)

variable {π} {p : σ}

theorem mem_changed : p ∈ c.changed π rows ↔
    (p ∈ (c.newRows rows).map π ∧ p ∉ (c.oldRows rows).map π) ∨
      (p ∈ (c.oldRows rows).map π ∧ p ∉ (c.newRows rows).map π) := by
  rw [changed, List.mem_append, mem_except, mem_except]

theorem changed_insert (new : List ρ) : (insert new).changed π rows = new.map π := by
  simp [changed, except, oldRows, newRows]

theorem changed_delete (hit : ρ → Bool) :
    (delete hit).changed π rows = (rows.filter hit).map π := by
  simp [changed, except, oldRows, newRows]

/-- A changed row stands in the table before the statement or after it. -/
theorem mem_of_changed (h : p ∈ c.changed π rows) :
    p ∈ rows.map π ∨ p ∈ (c.apply rows).map π := by
  obtain ⟨hnew, -⟩ | ⟨hold, -⟩ := mem_changed.mp h
  · obtain ⟨row, hrow, rfl⟩ := List.mem_map.mp hnew
    exact .inr (List.mem_map_of_mem (mem_apply_of_newRows hrow))
  · obtain ⟨row, hrow, rfl⟩ := List.mem_map.mp hold
    exact .inl (List.mem_map_of_mem (oldRows_subset hrow))

/-- Outside the changed rows the projection of the table stays as it is. -/
theorem mem_map_apply (h : p ∉ c.changed π rows) :
    p ∈ (c.apply rows).map π ↔ p ∈ rows.map π := by
  have hsame : p ∈ (c.newRows rows).map π ↔ p ∈ (c.oldRows rows).map π := by
    rw [mem_changed] at h
    tauto
  constructor
  · intro hafter
    obtain ⟨row, hrow, rfl⟩ := List.mem_map.mp hafter
    obtain hnew | hbefore := mem_apply hrow
    · obtain ⟨old, hold, heq⟩ := List.mem_map.mp (hsame.mp (List.mem_map_of_mem hnew))
      exact heq ▸ List.mem_map_of_mem (oldRows_subset hold)
    · exact List.mem_map_of_mem hbefore
  · intro hbefore
    obtain ⟨row, hrow, rfl⟩ := List.mem_map.mp hbefore
    obtain hold | hafter := mem_apply_of_mem (c := c) hrow
    · obtain ⟨new, hnew, heq⟩ := List.mem_map.mp (hsame.mpr (List.mem_map_of_mem hold))
      exact heq ▸ List.mem_map_of_mem (mem_apply_of_newRows hnew)
    · exact List.mem_map_of_mem hafter

end Change

/-! ## Joins along keys -/

section Joins

variable {ρ σ κ : Type}

/-- At most one row has a given key. -/
theorem filter_key [DecidableEq κ] {rows : List ρ} {key : ρ → κ} {k : κ} {p : ρ → Bool}
    (hnodup : (rows.map key).Nodup) (hp : ∀ row, p row = true → key row = k) :
    rows.filter p = [] ∨ ∃ row, rows.filter p = [row] := by
  have hkeys : ((rows.filter p).map key).Nodup := hnodup.sublist (List.filter_sublist.map key)
  have hsame : ∀ row ∈ rows.filter p, key row = k := fun row hrow => hp row (List.mem_filter.mp hrow).2
  cases hrows : rows.filter p with
  | nil => exact .inl rfl
  | cons row rest =>
      cases rest with
      | nil => exact .inr ⟨row, rfl⟩
      | cons next rest =>
          rw [hrows] at hkeys hsame
          have hne : key row ≠ key next := by
            rw [List.map_cons, List.nodup_cons] at hkeys
            exact fun heq => hkeys.1 (heq ▸ List.mem_map_of_mem List.mem_cons_self)
          exact absurd ((hsame row (by simp)).trans (hsame next (by simp)).symm) hne

/-- Where every row finds at most one partner the keys of the join are keys of the rows. -/
theorem flatMap_keys_sublist {key : ρ → κ} {join : ρ → List σ} {joinKey : σ → κ}
    (h : ∀ row, ((join row).map joinKey).Sublist [key row]) (rows : List ρ) :
    ((rows.flatMap join).map joinKey).Sublist (rows.map key) := by
  induction rows with
  | nil => exact List.Sublist.refl _
  | cons row rows ih =>
      rw [List.flatMap_cons, List.map_append, List.map_cons]
      exact (h row).append ih

end Joins
end Relational
