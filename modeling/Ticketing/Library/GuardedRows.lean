import Mathlib.Data.List.Basic

/-!
# Tables whose rows are guarded by locks

Every row names the locks under which alone it may be inserted, changed or deleted. An edit
records the rows that a statement found, so that it can be replayed on a table in which rows
under other locks have moved on, and what it does under one lock depends on the rows under that
lock only.
-/

namespace GuardedRows

variable {ρ Λ : Type}

class Guarded (ρ : Type) (Λ : outParam Type) where
  locks : ρ → List Λ

/-- What a statement does to a table. An update finds its rows again and replaces or deletes
them; a row never changes the locks it is under. -/
inductive Edit (ρ : Type) {Λ : Type} [Guarded ρ Λ] where
  | insert (rows : List ρ)
  | update (rows : List ρ) (f : ρ → Option ρ)
      (keeps : ∀ r r', f r = some r' → Guarded.locks r' = Guarded.locks r)

variable [Guarded ρ Λ]

namespace Edit

def delete (rows : List ρ) : Edit ρ := .update rows (fun _ => none) (fun _ _ h => by cases h)

def set (rows : List ρ) (f : ρ → ρ) (keeps : ∀ r, Guarded.locks (f r) = Guarded.locks r) :
    Edit ρ :=
  .update rows (fun r => some (f r)) (fun r _ h => by cases h; exact keeps r)

def rows : Edit ρ → List ρ
  | .insert rows => rows
  | .update rows _ _ => rows

def run [DecidableEq ρ] : Edit ρ → List ρ → List ρ
  | .insert rows, table => table ++ rows
  | .update rows f _, table => table.filterMap fun r => if r ∈ rows then f r else some r

/-- Some row of the edit is under the lock. -/
def Touches (e : Edit ρ) (l : Λ) : Prop := ∃ r ∈ e.rows, l ∈ Guarded.locks r

end Edit

section Locks

variable [DecidableEq Λ]

def under (l : Λ) (table : List ρ) : List ρ :=
  table.filter fun r => decide (l ∈ Guarded.locks r)

theorem mem_under {l : Λ} {table : List ρ} {r : ρ} :
    r ∈ under l table ↔ r ∈ table ∧ l ∈ Guarded.locks r := by
  simp [under]

/-- A condition that holds under the lock only selects the same rows wherever the rows under
the lock are the same. -/
theorem filter_congr {l : Λ} {table table' : List ρ} (h : under l table = under l table')
    {p : ρ → Bool} (hp : ∀ r, p r = true → l ∈ Guarded.locks r) :
    table.filter p = table'.filter p := by
  have hunder : ∀ rows : List ρ, rows.filter p = (under l rows).filter p := by
    intro rows
    rw [under, List.filter_filter]
    apply List.filter_congr
    intro r _
    cases hr : p r with
    | false => simp
    | true => simp [hp r hr]
  rw [hunder table, hunder table', h]

/-! ## Edits under one lock -/

variable [DecidableEq ρ]

theorem under_run_update (l : Λ) (rows : List ρ) (f : ρ → Option ρ)
    (keeps : ∀ r r', f r = some r' → Guarded.locks r' = Guarded.locks r) (table : List ρ) :
    under l ((Edit.update rows f keeps).run table) =
      (Edit.update rows f keeps).run (under l table) := by
  simp only [Edit.run]
  induction table with
  | nil => rfl
  | cons r table ih =>
      rw [List.filterMap_cons]
      have hlocks : ∀ r', (if r ∈ rows then f r else some r) = some r' →
          Guarded.locks r' = Guarded.locks r := by
        intro r' h
        by_cases hr : r ∈ rows
        · rw [if_pos hr] at h
          exact keeps r r' h
        · rw [if_neg hr] at h
          cases h
          rfl
      cases hf : (if r ∈ rows then f r else some r) with
      | none =>
          by_cases hl : l ∈ Guarded.locks r
          · simpa [under, hl, List.filterMap_cons, hf] using ih
          · simpa [under, hl] using ih
      | some r' =>
          have hkeep := hlocks r' hf
          by_cases hl : l ∈ Guarded.locks r
          · simpa [under, hl, hkeep, List.filterMap_cons, hf] using ih
          · simpa [under, hl, hkeep] using ih

theorem under_run_congr {l : Λ} (e : Edit ρ) {table table' : List ρ}
    (h : under l table = under l table') : under l (e.run table) = under l (e.run table') := by
  cases e with
  | insert rows => simpa [under, Edit.run] using h
  | update rows f keeps => rw [under_run_update, under_run_update, h]

theorem under_run_untouched {l : Λ} (e : Edit ρ) (h : ¬e.Touches l) (table : List ρ) :
    under l (e.run table) = under l table := by
  have hrows : ∀ r ∈ e.rows, l ∉ Guarded.locks r := fun r hr hl => h ⟨r, hr, hl⟩
  cases e with
  | insert rows =>
      have hnone : under l rows = [] := by
        rw [under, List.filter_eq_nil_iff]
        intro r hr
        simpa using hrows r hr
      simp only [under] at hnone ⊢
      rw [Edit.run, List.filter_append, hnone, List.append_nil]
  | update rows f keeps =>
      rw [under_run_update, Edit.run]
      calc (under l table).filterMap (fun r => if r ∈ rows then f r else some r)
          = (under l table).filterMap some := by
            apply List.filterMap_congr
            intro r hr
            have hl := (mem_under.mp hr).2
            exact if_neg fun hrow => hrows r hrow hl
        _ = under l table := List.filterMap_some

end Locks

/-! ## What the edits of a statement come to -/

variable [DecidableEq ρ]

theorem run_delete_filter (table : List ρ) (p : ρ → Bool) :
    (Edit.delete (table.filter p)).run table = table.filter fun r => !p r := by
  calc (Edit.delete (table.filter p)).run table
      = table.filterMap (Option.guard fun r => !p r) := by
        apply List.filterMap_congr
        intro r hr
        cases hp : p r <;> simp [Option.guard, List.mem_filter, hr, hp]
    _ = table.filter fun r => !p r := congrFun List.filterMap_eq_filter table

theorem run_set_filter (table : List ρ) (p : ρ → Bool) (f : ρ → ρ)
    (keeps : ∀ r, Guarded.locks (f r) = Guarded.locks r) :
    (Edit.set (table.filter p) f keeps).run table =
      table.map fun r => if p r then f r else r := by
  calc (Edit.set (table.filter p) f keeps).run table
      = table.filterMap (some ∘ fun r => if p r then f r else r) := by
        apply List.filterMap_congr
        intro r hr
        cases hp : p r <;> simp [List.mem_filter, hr, hp]
    _ = table.map fun r => if p r then f r else r := congrFun List.filterMap_eq_map table

end GuardedRows
