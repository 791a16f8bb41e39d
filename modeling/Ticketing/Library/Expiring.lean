import Ticketing.Library.SortedSet

/-!
# Keys with an expiry time

A key holds a value and possibly a deadline. It is seen up to and including its deadline; a
deadline that is not in the future deletes the key at once; a key whose collection becomes empty
no longer exists, and a key created anew has no deadline.
-/

namespace Expiring

open Relational

structure Cell (α : Type) where
  content : α
  deadline : Option ℕ

abbrev Key (α : Type) := Option (Cell α)

namespace Key

variable {α : Type}

def visible (k : Key α) (now : ℕ) : Key α :=
  k.filter fun cell => cell.deadline.all fun d => decide (now ≤ d)

def expireAt (k : Key α) (now deadline : ℕ) : Key α :=
  if deadline ≤ now then none else k.map fun cell => { cell with deadline := some deadline }

def content (k : Key α) : Option α := k.map Cell.content

/-- Overwrite the value; the deadline of an existing key stays. -/
def write (k : Key α) (a : α) : Key α := some ⟨a, k.bind Cell.deadline⟩

/-- A key that exists is due at this deadline. -/
def Due (k : Key α) (d : ℕ) : Prop := ∀ cell, k = some cell → cell.deadline = some d

theorem content_expireAt_of_lt (k : Key α) {now deadline : ℕ} (h : now < deadline) :
    (k.expireAt now deadline).content = k.content := by
  unfold expireAt
  rw [if_neg (Nat.not_le.mpr h)]
  cases k <;> rfl

theorem expireAt_of_le (k : Key α) {now deadline : ℕ} (h : deadline ≤ now) :
    k.expireAt now deadline = none := if_pos h

theorem due_none (d : ℕ) : Due (none : Key α) d := by
  intro cell h
  cases h

theorem due_expireAt (k : Key α) (now deadline : ℕ) : (k.expireAt now deadline).Due deadline := by
  intro cell h
  unfold expireAt at h
  split_ifs at h with hle
  obtain ⟨old, -, rfl⟩ := Option.map_eq_some_iff.mp h
  rfl

theorem due_write {k : Key α} {d : ℕ} (a : α) (h : k.Due d) (hsome : k.isSome) :
    (k.write a).Due d := by
  obtain ⟨old, hold⟩ := Option.isSome_iff_exists.mp hsome
  intro cell hcell
  unfold write at hcell
  rw [hold, Option.bind_some] at hcell
  cases hcell
  exact h old hold

theorem visible_none (now : ℕ) : visible (none : Key α) now = none := rfl

theorem expireAt_none (now deadline : ℕ) : expireAt (none : Key α) now deadline = none := by
  unfold expireAt
  split_ifs <;> rfl

theorem visible_of_due {k : Key α} {d now : ℕ} (h : k.Due d) (hle : now ≤ d) :
    k.visible now = k := by
  cases k with
  | none => rfl
  | some cell => simp [visible, Option.filter, h cell rfl, hle]

theorem visible_of_past {k : Key α} {d now : ℕ} (h : k.Due d) (hlt : d < now) :
    k.visible now = none := by
  cases k with
  | none => rfl
  | some cell => simp [visible, Option.filter, h cell rfl, hlt]

section sets

variable {μ : Type}

def members (k : Key (SortedSet μ)) : SortedSet μ := k.content.getD Table.empty

@[simp] theorem members_none : members (none : Key (SortedSet μ)) = Table.empty := rfl

theorem members_expireAt_of_lt (k : Key (SortedSet μ)) {now deadline : ℕ} (h : now < deadline) :
    (k.expireAt now deadline).members = k.members := by
  unfold members
  rw [content_expireAt_of_lt k h]

/-- A collection that became empty takes its key with it. -/
def store (k : Key (SortedSet μ)) (s : SortedSet μ) : Key (SortedSet μ) :=
  if s.rows.isEmpty then none else k.write s

@[simp] theorem members_store (k : Key (SortedSet μ)) (s : SortedSet μ) :
    (k.store s).members = s := by
  unfold store
  split_ifs with hempty
  · rw [Table.eq_empty_of_rows (List.isEmpty_iff.mp hempty), members_none]
  · rfl

variable [LinearOrder μ]

def zadd (k : Key (SortedSet μ)) (score : ℕ) (m : μ) : Key (SortedSet μ) :=
  k.store (k.members.add m score)

def zrem (k : Key (SortedSet μ)) (m : μ) : Key (SortedSet μ) := k.store (k.members.remove m)

def zscore (k : Key (SortedSet μ)) (m : μ) : Option ℕ := k.members.find m

def zrank (k : Key (SortedSet μ)) (m : μ) : Option ℕ := k.members.rank m

def zcard (k : Key (SortedSet μ)) : ℕ := k.members.card

def zfirst (k : Key (SortedSet μ)) : Option μ := k.members.first

/-- At most `limit` members with a score up to `max`, lowest first. -/
def zrangeByScore (k : Key (SortedSet μ)) (max limit : ℕ) : List μ :=
  (k.members.ranged fun score => decide (score ≤ max)).take limit

@[simp] theorem zscore_none (m : μ) : zscore (none : Key (SortedSet μ)) m = none := rfl

@[simp] theorem zscore_zadd (k : Key (SortedSet μ)) (m j : μ) (score : ℕ) :
    (k.zadd score m).zscore j = if j = m then some score else k.zscore j := by
  unfold zscore zadd
  rw [members_store, SortedSet.find_add]

@[simp] theorem zscore_zrem (k : Key (SortedSet μ)) (m j : μ) :
    (k.zrem m).zscore j = if j = m then none else k.zscore j := by
  unfold zscore zrem
  rw [members_store, SortedSet.find_remove]

theorem zcard_zadd_le (k : Key (SortedSet μ)) (m : μ) (score : ℕ) :
    (k.zadd score m).zcard ≤ k.zcard + 1 := by
  unfold zcard zadd
  rw [members_store]
  exact SortedSet.card_add_le _ _ _

theorem zcard_zrem_le (k : Key (SortedSet μ)) (m : μ) : (k.zrem m).zcard ≤ k.zcard := by
  unfold zcard zrem
  rw [members_store]
  exact SortedSet.card_remove_le _ _

theorem zcard_eq_zero {k : Key (SortedSet μ)} (h : ∀ m, k.zscore m = none) : k.zcard = 0 := by
  unfold zcard SortedSet.card
  rw [Table.rows_nil_of_find_none h]
  rfl

theorem mem_zrangeByScore {k : Key (SortedSet μ)} {m : μ} {max limit : ℕ}
    (h : m ∈ k.zrangeByScore max limit) : ∃ score, k.zscore m = some score ∧ score ≤ max := by
  obtain ⟨score, hfind, hle⟩ := SortedSet.mem_ranged (List.mem_of_mem_take h)
  exact ⟨score, hfind, of_decide_eq_true hle⟩

theorem zrangeByScore_none (max limit : ℕ) :
    zrangeByScore (none : Key (SortedSet μ)) max limit = [] := by
  rw [List.eq_nil_iff_forall_not_mem]
  intro m hm
  obtain ⟨score, hscore, -⟩ := mem_zrangeByScore hm
  cases hscore

theorem due_zrem {k : Key (SortedSet μ)} {d : ℕ} (h : k.Due d) (m : μ) : (k.zrem m).Due d := by
  intro cell hcell
  unfold zrem store at hcell
  split_ifs at hcell with hempty
  apply due_write _ h _ cell hcell
  cases k with
  | some old => rfl
  | none => exact absurd rfl hempty

end sets

end Key
end Expiring
