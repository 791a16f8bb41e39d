import Mathlib.Data.List.Nodup
import Mathlib.Data.List.Perm.Basic
import Mathlib.Tactic

/-!
# Tables of rows under unique keys

A table keeps its rows in insertion order together with the proof that no key
occurs twice. Lookups, conditional updates and row counts are computable, and
every operation is described by what a later lookup returns.
-/

namespace Relational

structure Table (κ ρ : Type) where
  rows : List (κ × ρ)
  nodup : (rows.map Prod.fst).Nodup

namespace Table

variable {κ ρ : Type}

def empty : Table κ ρ := ⟨[], List.nodup_nil⟩

/-- All rows that satisfy the condition, in insertion order. -/
def select (t : Table κ ρ) (p : κ → ρ → Bool) : List (κ × ρ) :=
  t.rows.filter fun row => p row.1 row.2

def count (t : Table κ ρ) (p : κ → ρ → Bool) : ℕ := (t.select p).length

/-- Replace every row that satisfies the condition; keys never change. -/
def update (t : Table κ ρ) (p : κ → ρ → Bool) (f : κ → ρ → ρ) : Table κ ρ where
  rows := t.rows.map fun row => if p row.1 row.2 then (row.1, f row.1 row.2) else row
  nodup := by
    have hkeys : (t.rows.map fun row => if p row.1 row.2 then (row.1, f row.1 row.2) else row).map
        Prod.fst = t.rows.map Prod.fst := by
      rw [List.map_map]
      apply List.map_congr_left
      intro row _
      by_cases hp : p row.1 row.2 <;> simp [hp]
    rw [hkeys]
    exact t.nodup

/-- Keep only the rows that satisfy the condition. -/
def retain (t : Table κ ρ) (p : κ → ρ → Bool) : Table κ ρ where
  rows := t.select p
  nodup := t.nodup.sublist (List.filter_sublist.map Prod.fst)

theorem row_unique (t : Table κ ρ) {k : κ} {r r' : ρ} (h : (k, r) ∈ t.rows)
    (h' : (k, r') ∈ t.rows) : r = r' := by
  have hpair := List.inj_on_of_nodup_map t.nodup h h' rfl
  exact (Prod.mk.inj hpair).2

theorem eq_empty_of_rows {t : Table κ ρ} (h : t.rows = []) : t = empty := by
  obtain ⟨rows, nodup⟩ := t
  cases h
  rfl

/-- Rows that an update takes out of a selection. -/
theorem select_update_dropped (t : Table κ ρ) {p q : κ → ρ → Bool} {f : κ → ρ → ρ}
    (h : ∀ k r, q k (f k r) = false) :
    (t.update p f).select q = (t.select q).filter fun row => !p row.1 row.2 := by
  obtain ⟨rows, nodup⟩ := t
  show (rows.map fun row => if p row.1 row.2 then (row.1, f row.1 row.2) else row).filter
    (fun row => q row.1 row.2) = (rows.filter fun row => q row.1 row.2).filter _
  clear nodup
  induction rows with
  | nil => rfl
  | cons row rows ih =>
      by_cases hp : p row.1 row.2 = true
      · by_cases hq : q row.1 row.2 = true <;> simp [hp, hq, h, ih]
      · by_cases hq : q row.1 row.2 = true <;> simp [hp, hq, ih]

/-- An update outside a selection that stays outside it. -/
theorem select_update_of_disjoint (t : Table κ ρ) {p q : κ → ρ → Bool} {f : κ → ρ → ρ}
    (h : ∀ k r, p k r = true → q k r = false ∧ q k (f k r) = false) :
    (t.update p f).select q = t.select q := by
  obtain ⟨rows, nodup⟩ := t
  show (rows.map fun row => if p row.1 row.2 then (row.1, f row.1 row.2) else row).filter
    (fun row => q row.1 row.2) = rows.filter fun row => q row.1 row.2
  clear nodup
  induction rows with
  | nil => rfl
  | cons row rows ih =>
      by_cases hp : p row.1 row.2 = true
      · obtain ⟨hold, hnew⟩ := h row.1 row.2 hp
        simp [hp, hold, hnew, ih]
      · by_cases hq : q row.1 row.2 = true <;> simp [hp, hq, ih]

variable [DecidableEq κ]

def find (t : Table κ ρ) (k : κ) : Option ρ :=
  (t.rows.find? fun row => decide (row.1 = k)).map Prod.snd

/-- Insertion is refused when the key is taken. -/
def insert (t : Table κ ρ) (k : κ) (r : ρ) : Option (Table κ ρ) :=
  if h : k ∈ t.rows.map Prod.fst then none
  else some ⟨t.rows ++ [(k, r)], by
    rw [List.map_append, List.nodup_append]
    refine ⟨t.nodup, List.nodup_singleton k, ?_⟩
    rintro a ha b hb rfl
    rw [List.map_singleton, List.mem_singleton] at hb
    subst hb
    exact h ha⟩

theorem find_eq_some (t : Table κ ρ) (k : κ) (r : ρ) :
    t.find k = some r ↔ (k, r) ∈ t.rows := by
  unfold find
  constructor
  · intro h
    obtain ⟨row, hrow, rfl⟩ := Option.map_eq_some_iff.mp h
    have hk : row.1 = k := by simpa using List.find?_some hrow
    have hm := List.mem_of_find?_eq_some hrow
    rwa [← hk]
  · intro h
    cases hf : t.rows.find? fun row => decide (row.1 = k) with
    | none =>
        have hn := List.find?_eq_none.mp hf (k, r) h
        simp at hn
    | some row =>
        have hk : row.1 = k := by simpa using List.find?_some hf
        have hm : (k, row.2) ∈ t.rows := hk ▸ List.mem_of_find?_eq_some hf
        simp [t.row_unique hm h]

theorem find_eq_none (t : Table κ ρ) (k : κ) :
    t.find k = none ↔ ∀ r, (k, r) ∉ t.rows := by
  constructor
  · intro h r hr
    rw [(t.find_eq_some k r).mpr hr] at h
    cases h
  · intro h
    cases hf : t.find k with
    | none => rfl
    | some r => exact absurd ((t.find_eq_some k r).mp hf) (h r)

theorem find_of_rows_nil {t : Table κ ρ} (h : t.rows = []) (k : κ) : t.find k = none := by
  rw [eq_empty_of_rows h]
  rfl

theorem mem_keys_iff (t : Table κ ρ) (k : κ) :
    k ∈ t.rows.map Prod.fst ↔ (t.find k).isSome := by
  rw [List.mem_map]
  constructor
  · rintro ⟨row, hrow, rfl⟩
    rw [(t.find_eq_some row.1 row.2).mpr hrow]
    rfl
  · intro h
    obtain ⟨r, hr⟩ := Option.isSome_iff_exists.mp h
    exact ⟨(k, r), (t.find_eq_some k r).mp hr, rfl⟩

theorem rows_nil_of_find_none {t : Table κ ρ} (h : ∀ k, t.find k = none) : t.rows = [] := by
  rw [List.eq_nil_iff_forall_not_mem]
  intro row hrow
  have hkey := (t.mem_keys_iff row.1).mp (List.mem_map_of_mem hrow)
  rw [h row.1] at hkey
  cases hkey

@[simp] theorem find_update (t : Table κ ρ) (p : κ → ρ → Bool) (f : κ → ρ → ρ) (k : κ) :
    (t.update p f).find k = (t.find k).map fun r => if p k r then f k r else r := by
  cases hf : t.find k with
  | none =>
      rw [Option.map_none, find_eq_none]
      intro r hr
      obtain ⟨row, hrow, heq⟩ := List.mem_map.mp hr
      have hk : row.1 = k := by
        by_cases hp : p row.1 row.2 <;> simp [hp] at heq
        · exact heq.1
        · exact congrArg Prod.fst heq
      exact (t.find_eq_none k).mp hf row.2 (hk ▸ hrow)
  | some r =>
      rw [Option.map_some, find_eq_some]
      refine List.mem_map.mpr ⟨(k, r), (t.find_eq_some k r).mp hf, ?_⟩
      by_cases hp : p k r <;> simp [hp]

theorem insert_fresh {t t' : Table κ ρ} {k : κ} {r : ρ} (h : t.insert k r = some t') :
    t.find k = none := by
  unfold insert at h
  split_ifs at h with hk
  rw [mem_keys_iff] at hk
  simpa using hk

theorem rows_of_insert {t t' : Table κ ρ} {k : κ} {r : ρ} (h : t.insert k r = some t') :
    t'.rows = t.rows ++ [(k, r)] := by
  unfold insert at h
  split_ifs at h with hk
  cases h
  rfl

theorem find_insert {t t' : Table κ ρ} {k : κ} {r : ρ} (h : t.insert k r = some t') (j : κ) :
    t'.find j = if j = k then some r else t.find j := by
  have hfresh := insert_fresh h
  have hrows := rows_of_insert h
  by_cases hj : j = k
  · subst j
    rw [if_pos rfl, find_eq_some, hrows]
    simp
  · rw [if_neg hj]
    ext x
    rw [find_eq_some, find_eq_some, hrows]
    simp [hj]

theorem insert_of_find_none (t : Table κ ρ) {k : κ} (r : ρ) (h : t.find k = none) :
    ∃ t', t.insert k r = some t' := by
  have hk : k ∉ t.rows.map Prod.fst := by simp [mem_keys_iff, h]
  unfold insert
  rw [dif_neg hk]
  exact ⟨_, rfl⟩

/-- Insert or overwrite. -/
def set (t : Table κ ρ) (k : κ) (r : ρ) : Table κ ρ :=
  match t.insert k r with
  | some t' => t'
  | none => t.update (fun j _ => decide (j = k)) fun _ _ => r

def erase (t : Table κ ρ) (k : κ) : Table κ ρ := t.retain fun j _ => decide (j ≠ k)

theorem insert_eq_none {t : Table κ ρ} {k : κ} {r : ρ} (h : t.insert k r = none) :
    (t.find k).isSome := by
  unfold insert at h
  split_ifs at h with hk
  exact (t.mem_keys_iff k).mp hk

@[simp] theorem find_set (t : Table κ ρ) (k : κ) (r : ρ) (j : κ) :
    (t.set k r).find j = if j = k then some r else t.find j := by
  unfold set
  cases h : t.insert k r with
  | some t' => exact find_insert h j
  | none =>
      obtain ⟨x, hx⟩ := Option.isSome_iff_exists.mp (insert_eq_none h)
      show (t.update (fun j _ => decide (j = k)) fun _ _ => r).find j = _
      rw [find_update]
      by_cases hj : j = k
      · subst j
        simp [hx]
      · simp [hj]

theorem find_set_self (t : Table κ ρ) (k : κ) (r : ρ) : (t.set k r).find k = some r := by
  rw [find_set, if_pos rfl]

theorem find_set_of_ne (t : Table κ ρ) {k j : κ} (r : ρ) (h : j ≠ k) :
    (t.set k r).find j = t.find j := by
  rw [find_set, if_neg h]

theorem length_set (t : Table κ ρ) (k : κ) (r : ρ) :
    (t.set k r).rows.length = t.rows.length + if (t.find k).isSome then 0 else 1 := by
  unfold set
  cases h : t.insert k r with
  | some t' =>
      show t'.rows.length = _
      rw [rows_of_insert h, insert_fresh h, List.length_append]
      rfl
  | none =>
      show (t.update (fun j _ => decide (j = k)) fun _ _ => r).rows.length = _
      rw [if_pos (insert_eq_none h), update, List.length_map]
      rfl

theorem length_erase_le (t : Table κ ρ) (k : κ) : (t.erase k).rows.length ≤ t.rows.length :=
  List.length_filter_le _ _

theorem mem_select (t : Table κ ρ) (p : κ → ρ → Bool) (k : κ) (r : ρ) :
    (k, r) ∈ t.select p ↔ t.find k = some r ∧ p k r = true := by
  rw [select, List.mem_filter, find_eq_some]

@[simp] theorem find_retain (t : Table κ ρ) (p : κ → ρ → Bool) (k : κ) :
    (t.retain p).find k = (t.find k).filter (p k) := by
  ext r
  rw [find_eq_some, Option.filter_eq_some_iff]
  exact t.mem_select p k r

@[simp] theorem find_erase (t : Table κ ρ) (k j : κ) :
    (t.erase k).find j = if j = k then none else t.find j := by
  unfold erase
  rw [find_retain]
  by_cases hj : j = k
  · subst j
    cases t.find k <;> simp
  · cases t.find j <;> simp [hj]

theorem select_eq_nil (t : Table κ ρ) (p : κ → ρ → Bool) :
    t.select p = [] ↔ ∀ k r, t.find k = some r → p k r = false := by
  rw [select, List.filter_eq_nil_iff]
  constructor
  · intro h k r hr
    simpa using h (k, r) ((t.find_eq_some k r).mp hr)
  · intro h row hrow
    simp [h row.1 row.2 ((t.find_eq_some row.1 row.2).mpr hrow)]

theorem count_eq_zero (t : Table κ ρ) (p : κ → ρ → Bool) :
    t.count p = 0 ↔ ∀ k r, t.find k = some r → p k r = false := by
  rw [count, List.length_eq_zero_iff, select_eq_nil]

theorem count_congr (t : Table κ ρ) {p q : κ → ρ → Bool}
    (h : ∀ k r, t.find k = some r → p k r = q k r) : t.count p = t.count q := by
  unfold count select
  congr 1
  apply List.filter_congr
  intro row hrow
  exact h row.1 row.2 ((t.find_eq_some row.1 row.2).mpr hrow)

/-- A row count is one exactly when a single row qualifies. -/
theorem count_eq_one (t : Table κ ρ) (p : κ → ρ → Bool) :
    t.count p = 1 ↔ ∃ k r, (t.find k = some r ∧ p k r = true) ∧
      ∀ k' r', t.find k' = some r' → p k' r' = true → k' = k := by
  rw [count, List.length_eq_one_iff]
  constructor
  · rintro ⟨row, hrow⟩
    have hself : (row.1, row.2) ∈ t.select p := by rw [hrow]; exact List.mem_singleton_self row
    refine ⟨row.1, row.2, (t.mem_select p _ _).mp hself, ?_⟩
    intro k' r' hf hp
    have hother : (k', r') ∈ t.select p := (t.mem_select p _ _).mpr ⟨hf, hp⟩
    rw [hrow, List.mem_singleton] at hother
    exact congrArg Prod.fst hother
  · rintro ⟨k, r, ⟨hf, hp⟩, huniq⟩
    refine ⟨(k, r), ?_⟩
    have hkeys : ((t.select p).map Prod.fst).Nodup :=
      t.nodup.sublist (List.filter_sublist.map Prod.fst)
    have hmem : (k, r) ∈ t.select p := (t.mem_select p k r).mpr ⟨hf, hp⟩
    have hall : ∀ row ∈ t.select p, row = (k, r) := by
      intro row hrow
      obtain ⟨hf', hp'⟩ := (t.mem_select p row.1 row.2).mp hrow
      have hk := huniq row.1 row.2 hf' hp'
      rw [hk, hf] at hf'
      exact Prod.ext hk (Option.some.inj hf').symm
    have hrep := List.eq_replicate_of_mem hall
    have hlen : (t.select p).length ≤ 1 := by
      by_contra! hgt
      rw [hrep, List.map_replicate] at hkeys
      have hle := List.nodup_replicate.mp hkeys
      omega
    have hpos := List.length_pos_of_mem hmem
    rw [hrep, show (t.select p).length = 1 by omega]
    rfl

/-- Under a key condition at most one row qualifies. -/
theorem count_key (t : Table κ ρ) (k : κ) (q : ρ → Bool) :
    t.count (fun j r => decide (j = k) && q r) = if (t.find k).any q then 1 else 0 := by
  by_cases h : (t.find k).any q
  · rw [if_pos h, count_eq_one]
    obtain ⟨r, hr, hq⟩ := Option.any_eq_true_iff_get (p := q) (t.find k) |>.mp h |> fun ⟨hs, hg⟩ =>
      (⟨(t.find k).get hs, (Option.some_get hs).symm, hg⟩ : ∃ r, t.find k = some r ∧ q r = true)
    refine ⟨k, r, ⟨hr, by simp [hq]⟩, ?_⟩
    intro k' r' _ hp
    simpa using (Bool.and_eq_true_iff.mp hp).1
  · rw [if_neg h, count_eq_zero]
    intro j r hf
    by_cases hj : j = k
    · subst j
      simp only [hf, Option.any_some, Bool.not_eq_true] at h
      simp [h]
    · simp [hj]

/-- Update the row under one key if it meets the guard; the row count comes first. -/
def updateRow (t : Table κ ρ) (k : κ) (guard : ρ → Bool) (f : ρ → ρ) : ℕ × Table κ ρ :=
  (t.count fun j r => decide (j = k) && guard r,
    t.update (fun j r => decide (j = k) && guard r) fun _ r => f r)

theorem updateRow_count (t : Table κ ρ) (k : κ) (guard : ρ → Bool) (f : ρ → ρ) :
    (t.updateRow k guard f).1 = 1 ↔ ∃ r, t.find k = some r ∧ guard r = true := by
  unfold updateRow
  rw [count_key]
  cases t.find k with
  | none => simp
  | some r => simp

@[simp] theorem find_updateRow (t : Table κ ρ) (k : κ) (guard : ρ → Bool) (f : ρ → ρ) (j : κ) :
    (t.updateRow k guard f).2.find j =
      (t.find j).map fun r => if j = k ∧ guard r = true then f r else r := by
  unfold updateRow
  rw [find_update]
  simp

theorem find_updateRow_of_ne (t : Table κ ρ) {k j : κ} (guard : ρ → Bool) (f : ρ → ρ)
    (h : j ≠ k) : (t.updateRow k guard f).2.find j = t.find j := by
  rw [find_updateRow]
  simp [h]

/-- One row is new and all others are as before. -/
structure Inserted (t : Table κ ρ) (k : κ) (r : ρ) (t' : Table κ ρ) : Prop where
  fresh : t.find k = none
  after : ∀ j, t'.find j = if j = k then some r else t.find j

/-- One row is replaced and all others are as before. -/
structure Replaced (t : Table κ ρ) (k : κ) (r r' : ρ) (t' : Table κ ρ) : Prop where
  found : t.find k = some r
  after : ∀ j, t'.find j = if j = k then some r' else t.find j

theorem inserted_of_insert {t t' : Table κ ρ} {k : κ} {r : ρ} (h : t.insert k r = some t') :
    t.Inserted k r t' :=
  ⟨insert_fresh h, find_insert h⟩

/-- An update that counted its row replaced it. -/
theorem replaced_of_count {t : Table κ ρ} {k : κ} {guard : ρ → Bool} {f : ρ → ρ}
    (h : (t.updateRow k guard f).1 = 1) :
    ∃ r, guard r = true ∧ t.Replaced k r (f r) (t.updateRow k guard f).2 := by
  obtain ⟨r, hr, hg⟩ := (updateRow_count t k guard f).mp h
  refine ⟨r, hg, hr, fun j => ?_⟩
  by_cases hj : j = k
  · subst j
    simp [hr, hg]
  · rw [if_neg hj, find_updateRow_of_ne t guard f hj]

theorem Inserted.find_self {t t' : Table κ ρ} {k : κ} {r : ρ} (h : t.Inserted k r t') :
    t'.find k = some r := by
  rw [h.after, if_pos rfl]

theorem Inserted.find_of_ne {t t' : Table κ ρ} {k j : κ} {r : ρ} (h : t.Inserted k r t')
    (hj : j ≠ k) : t'.find j = t.find j := by
  rw [h.after, if_neg hj]

theorem Inserted.find_old {t t' : Table κ ρ} {k j : κ} {r x : ρ} (h : t.Inserted k r t')
    (hj : t.find j = some x) : t'.find j = some x := by
  rw [h.find_of_ne, hj]
  rintro rfl
  rw [h.fresh] at hj
  cases hj

theorem Inserted.cases {t t' : Table κ ρ} {k j : κ} {r x : ρ} (h : t.Inserted k r t')
    (hj : t'.find j = some x) : (j = k ∧ x = r) ∨ t.find j = some x := by
  rw [h.after] at hj
  split_ifs at hj with hk
  · exact Or.inl ⟨hk, (Option.some.inj hj).symm⟩
  · exact Or.inr hj

theorem Replaced.find_self {t t' : Table κ ρ} {k : κ} {r r' : ρ} (h : t.Replaced k r r' t') :
    t'.find k = some r' := by
  rw [h.after, if_pos rfl]

theorem Replaced.find_of_ne {t t' : Table κ ρ} {k j : κ} {r r' : ρ}
    (h : t.Replaced k r r' t') (hj : j ≠ k) : t'.find j = t.find j := by
  rw [h.after, if_neg hj]

/-- Two replacements of one row compose. -/
theorem replaced_refl {t : Table κ ρ} {k : κ} {r : ρ} (h : t.find k = some r) :
    t.Replaced k r r t := by
  refine ⟨h, fun j => ?_⟩
  by_cases hj : j = k
  · rw [if_pos hj, hj, h]
  · rw [if_neg hj]

theorem Replaced.trans {t t' t'' : Table κ ρ} {k : κ} {r r' x r'' : ρ}
    (h : t.Replaced k r r' t') (h' : t'.Replaced k x r'' t'') :
    x = r' ∧ t.Replaced k r r'' t'' := by
  refine ⟨Option.some.inj (h'.found.symm.trans h.find_self), h.found, fun j => ?_⟩
  by_cases hj : j = k
  · rw [if_pos hj, hj, h'.find_self]
  · rw [if_neg hj, h'.find_of_ne hj, h.find_of_ne hj]

theorem Replaced.cases {t t' : Table κ ρ} {k j : κ} {r r' x : ρ} (h : t.Replaced k r r' t')
    (hj : t'.find j = some x) : (j = k ∧ x = r') ∨ (j ≠ k ∧ t.find j = some x) := by
  rw [h.after] at hj
  split_ifs at hj with hk
  · exact Or.inl ⟨hk, (Option.some.inj hj).symm⟩
  · exact Or.inr ⟨hk, hj⟩

section pairs

variable {σ : Type} [DecidableEq σ]

/-- The second parts of the keys that share a first part. -/
def seconds (t : Table (κ × σ) ρ) (k : κ) : List σ :=
  (t.select fun key _ => decide (key.1 = k)).map fun row => row.1.2

theorem mem_seconds (t : Table (κ × σ) ρ) (k : κ) (s : σ) :
    s ∈ t.seconds k ↔ (t.find (k, s)).isSome := by
  unfold seconds
  rw [List.mem_map]
  constructor
  · rintro ⟨row, hrow, rfl⟩
    obtain ⟨hf, hk⟩ := (t.mem_select _ row.1 row.2).mp hrow
    have hkey : row.1 = (k, row.1.2) := Prod.ext (of_decide_eq_true hk) rfl
    rw [← hkey, hf]
    rfl
  · intro h
    obtain ⟨r, hr⟩ := Option.isSome_iff_exists.mp h
    exact ⟨((k, s), r), (t.mem_select _ _ _).mpr ⟨hr, decide_eq_true rfl⟩, rfl⟩

theorem seconds_nodup (t : Table (κ × σ) ρ) (k : κ) : (t.seconds k).Nodup := by
  have hkeys : ((t.select fun key _ => decide (key.1 = k)).map Prod.fst).Nodup :=
    t.nodup.sublist (List.filter_sublist.map Prod.fst)
  have hmap : t.seconds k = ((t.select fun key _ => decide (key.1 = k)).map Prod.fst).map
      Prod.snd := by
    rw [List.map_map]
    rfl
  rw [hmap]
  apply hkeys.map_on
  intro key hkey key' hkey' heq
  have hfst : ∀ j ∈ (t.select fun key _ => decide (key.1 = k)).map Prod.fst, j.1 = k := by
    intro j hj
    obtain ⟨row, hrow, rfl⟩ := List.mem_map.mp hj
    exact of_decide_eq_true ((t.mem_select _ row.1 row.2).mp hrow).2
  exact Prod.ext ((hfst key hkey).trans (hfst key' hkey').symm) heq

end pairs

end Table

/-- Rows under ascending serial numbers that are never used twice. -/
structure Serial (ρ : Type) where
  table : Table ℕ ρ
  next : ℕ
  bound : ∀ k r, table.find k = some r → k < next

namespace Serial

variable {ρ : Type}

def empty : Serial ρ := ⟨Table.empty, 0, by intro k r h; cases h⟩

def push (s : Serial ρ) (r : ρ) : Serial ρ where
  table := ⟨s.table.rows ++ [(s.next, r)], by
    rw [List.map_append, List.nodup_append]
    refine ⟨s.table.nodup, List.nodup_singleton _, ?_⟩
    intro a ha b hb hab
    rw [List.map_singleton, List.mem_singleton] at hb
    obtain ⟨row, hrow, rfl⟩ := List.mem_map.mp ha
    have hlt := s.bound row.1 row.2 ((s.table.find_eq_some _ _).mpr hrow)
    omega⟩
  next := s.next + 1
  bound := by
    intro k x h
    rw [Table.find_eq_some, List.mem_append, List.mem_singleton] at h
    rcases h with h | h
    · exact (s.bound k x ((s.table.find_eq_some _ _).mpr h)).trans (Nat.lt_succ_self _)
    · cases h
      exact Nat.lt_succ_self _

def pushAll (s : Serial ρ) (rs : List ρ) : Serial ρ := rs.foldl push s

end Serial
end Relational
