import Mathlib.Logic.Relation
import Ticketing.Library.Table

/-!
# Transactions that lock rows

A transaction runs a script of statements, each of which locks some rows one at a time. A locked
row stays locked until the transaction ends. What a script may lock is checked statement by
statement against the rows that it holds by then, and what every admitted lock keeps true of the
held rows is true in every reachable state.
-/

namespace Locking

/-! ## Graphs of waiting transactions -/

section Graphs

variable {τ : Type*} {waits : τ → τ → Prop}

def Acyclic (waits : τ → τ → Prop) : Prop := ∀ t, ¬Relation.TransGen waits t t

/-- A transaction that waits and that another one waits for. -/
def Inner (waits : τ → τ → Prop) (t : τ) : Prop := (∃ s, waits s t) ∧ ∃ u, waits t u

theorem inner_chain {t u : τ} (h : Relation.TransGen waits t u) (hin : ∃ s, waits s t)
    (hout : ∃ v, waits u v) :
    Relation.TransGen (fun a b => waits a b ∧ Inner waits a ∧ Inner waits b) t u := by
  induction h using Relation.TransGen.head_induction_on with
  | single hlast => exact .single ⟨hlast, ⟨hin, _, hlast⟩, ⟨_, hlast⟩, hout⟩
  | head hfirst hrest ih =>
      obtain ⟨w, hnext⟩ : ∃ w, waits _ w := by
        cases hrest using Relation.TransGen.head_induction_on with
        | single hlast => exact ⟨_, hlast⟩
        | head hnext _ => exact ⟨_, hnext⟩
      exact .head ⟨hfirst, ⟨hin, _, hfirst⟩, ⟨_, hfirst⟩, w, hnext⟩ (ih ⟨_, hfirst⟩)

/-- Waiting that climbs an order along its inner transactions has no cycle. -/
theorem acyclic_of_climbing {σ : Type*} (awaited : τ → Option σ) (before : σ → σ → Prop)
    (hirrefl : ∀ a, ¬before a a) (htrans : ∀ a b c, before a b → before b c → before a c)
    (hclimb : ∀ t u v, waits t u → waits u v → Inner waits t → Inner waits u → Inner waits v →
      ∃ a b, awaited t = some a ∧ awaited u = some b ∧ before a b) : Acyclic waits := by
  let edge : τ → τ → Prop := fun a b => waits a b ∧ Inner waits a ∧ Inner waits b
  have hchain : ∀ t u, Relation.TransGen edge t u → ∀ v, edge u v →
      ∃ a b, awaited t = some a ∧ awaited u = some b ∧ before a b := by
    intro t u h
    induction h with
    | single hedge =>
        exact fun v hnext => hclimb _ _ v hedge.1 hnext.1 hedge.2.1 hnext.2.1 hnext.2.2
    | tail _ hedge ih =>
        intro v hnext
        obtain ⟨a, b, ha, hb, hab⟩ := ih _ hedge
        obtain ⟨b', d, hb', hd, hbd⟩ :=
          hclimb _ _ v hedge.1 hnext.1 hedge.2.1 hnext.2.1 hnext.2.2
        obtain rfl := Option.some.inj (hb.symm.trans hb')
        exact ⟨a, d, ha, hd, htrans a b d hab hbd⟩
  intro t hcycle
  have hin : ∃ s, waits s t := by
    cases hcycle with
    | single hlast => exact ⟨_, hlast⟩
    | tail _ hlast => exact ⟨_, hlast⟩
  have hout : ∃ v, waits t v := by
    cases hcycle using Relation.TransGen.head_induction_on with
    | single hlast => exact ⟨_, hlast⟩
    | head hfirst _ => exact ⟨_, hfirst⟩
  have hedges := inner_chain hcycle hin hout
  obtain ⟨v, hnext⟩ : ∃ v, edge t v := by
    cases hedges using Relation.TransGen.head_induction_on with
    | single hlast => exact ⟨_, hlast⟩
    | head hfirst _ => exact ⟨_, hfirst⟩
  obtain ⟨a, b, ha, hb, hab⟩ := hchain t t hedges v hnext
  obtain rfl := Option.some.inj (ha.symm.trans hb)
  exact hirrefl a hab

end Graphs

/-! ## Scripts -/

/-- Which rows a statement may lock, in their order, given the rows held before it. Under
`skipLocked` it passes over rows that others hold. Where a row is missing from a `required`
statement the transaction ends after it. -/
structure LockStatement (ρ : Type) where
  chooses : List ρ → List ρ → Bool
  skipLocked : Bool
  required : Bool

section Scripts

variable {ρ : Type} [DecidableEq ρ]

namespace LockStatement

def forUpdate (rows : List ρ) : LockStatement ρ :=
  ⟨fun _ chosen => decide (chosen = rows), false, true⟩

def forUpdateSkipLocked (rows : List ρ) : LockStatement ρ :=
  ⟨fun _ chosen => decide (chosen = rows), true, true⟩

/-- A statement without an order locks rows that match, in any order. -/
def anyOrder (wants : List ρ → ρ → Bool) : LockStatement ρ :=
  ⟨fun held chosen => chosen.all (wants held), false, false⟩

def claim (wants : ρ → Bool) : LockStatement ρ :=
  ⟨fun _ chosen => chosen.all wants, true, false⟩

/-- The keys of an insertion that fails, or that returns no row, where a key is taken. -/
def insert (rows : List ρ) : LockStatement ρ :=
  ⟨fun _ chosen => decide (chosen = rows), false, true⟩

def insertOrIgnore (rows : List ρ) : LockStatement ρ :=
  ⟨fun _ chosen => decide (chosen = rows), false, false⟩

end LockStatement

def lockRow (held : List ρ) (row : ρ) : List ρ := if row ∈ held then held else held ++ [row]

theorem mem_lockRow {held : List ρ} {row r : ρ} :
    r ∈ lockRow held row ↔ r ∈ held ∨ r = row := by
  unfold lockRow
  split_ifs with h
  · exact ⟨.inl, fun hr => hr.elim id fun heq => heq ▸ h⟩
  · rw [List.mem_append, List.mem_singleton]

/-- The rows that may be locked on top of the rows held, and whether locked ones are skipped. -/
abbrev Rule (ρ : Type) := Bool → List ρ → ρ → Prop

variable (admits : Rule ρ)

/-- Every row that a statement locks next is held or admitted, whichever rows were missing before
it, and `after` holds of the rows that are held at its end. -/
def Locks (skipLocked required : Bool) : (List ρ → Prop) → List ρ → List ρ → Prop
  | after, held, [] => after held
  | after, held, row :: rows =>
      (row ∈ held ∨ admits skipLocked held row) ∧
        Locks skipLocked required after (lockRow held row) rows ∧
          Locks skipLocked required (if required then fun _ => True else after) held rows

/-- Every row of the script is admitted when its turn comes. -/
def Disciplined : List (LockStatement ρ) → List ρ → Prop
  | [], _ => True
  | statement :: script, held => ∀ rows, statement.chooses held rows = true →
      Locks admits statement.skipLocked statement.required (Disciplined script) held rows

variable {admits} {skipLocked required : Bool} {after : List ρ → Prop} {rows held : List ρ} {row : ρ}

/-- A property of the held rows under which all rows are admitted, and which they keep. -/
theorem locks_of_kept {Q : List ρ → Prop} (hQ : Q held)
    (hadmits : ∀ held, Q held → ∀ row ∈ rows, row ∈ held ∨ admits skipLocked held row)
    (hkeeps : ∀ held, Q held → ∀ row ∈ rows, Q (lockRow held row))
    (hafter : ∀ held, Q held → after held) : Locks admits skipLocked required after held rows := by
  induction rows generalizing held after with
  | nil => exact hafter held hQ
  | cons row rows ih =>
      have hrest : ∀ {after : List ρ → Prop} {held : List ρ}, Q held →
          (∀ held, Q held → after held) → Locks admits skipLocked required after held rows :=
        fun hQ' hafter' => ih hQ' (fun held h r hr => hadmits held h r (List.mem_cons_of_mem _ hr))
          (fun held h r hr => hkeeps held h r (List.mem_cons_of_mem _ hr)) hafter'
      refine ⟨hadmits held hQ row List.mem_cons_self,
        hrest (hkeeps held hQ row List.mem_cons_self) hafter, hrest hQ ?_⟩
      intro held' h'
      cases required with
      | true => trivial
      | false => exact hafter held' h'

theorem disciplined_of_kept {Q : List ρ → Prop} {statement : LockStatement ρ}
    {script : List (LockStatement ρ)} (hQ : Q held)
    (hadmits : ∀ rows, statement.chooses held rows = true → ∀ held', Q held' → ∀ row ∈ rows,
      row ∈ held' ∨ admits statement.skipLocked held' row)
    (hkeeps : ∀ rows, statement.chooses held rows = true → ∀ held', Q held' → ∀ row ∈ rows,
      Q (lockRow held' row))
    (hafter : ∀ held', Q held' → Disciplined admits script held') :
    Disciplined admits (statement :: script) held :=
  fun rows hrows => locks_of_kept hQ (hadmits rows hrows) (hkeeps rows hrows) hafter

/-- All rows of a required statement, locked one after another in an order under which each is
admitted. -/
theorem locks_in_order {before : ρ → ρ → Prop} (hordered : rows.Pairwise before)
    (hadmits : ∀ held' row, row ∈ rows → (∀ r ∈ held, r ∈ held') →
      (∀ r ∈ held', r ∈ held ∨ r ∈ rows ∧ before r row) →
        row ∈ held' ∨ admits skipLocked held' row)
    (hafter : ∀ held', (∀ r, r ∈ held' ↔ r ∈ held ∨ r ∈ rows) → after held') :
    Locks admits skipLocked true after held rows := by
  induction rows generalizing held after with
  | nil => exact hafter held fun r => by simp
  | cons row rows ih =>
      obtain ⟨hfirst, hordered⟩ := List.pairwise_cons.mp hordered
      have hlater : ∀ held₁ : List ρ, (∀ r ∈ held, r ∈ held₁) →
          (∀ r ∈ held₁, r ∈ held ∨ r = row) → ∀ (held' : List ρ) r, r ∈ rows →
          (∀ q ∈ held₁, q ∈ held') → (∀ q ∈ held', q ∈ held₁ ∨ q ∈ rows ∧ before q r) →
          r ∈ held' ∨ admits skipLocked held' r := by
        intro held₁ hsub hheld₁ held' r hr hsub' hheld'
        refine hadmits held' r (List.mem_cons_of_mem _ hr) (fun q hq => hsub' q (hsub q hq))
          fun q hq => ?_
        obtain hq | ⟨hq, hbefore⟩ := hheld' q hq
        · obtain hq | rfl := hheld₁ q hq
          · exact .inl hq
          · exact .inr ⟨List.mem_cons_self, hfirst r hr⟩
        · exact .inr ⟨List.mem_cons_of_mem _ hq, hbefore⟩
      refine ⟨hadmits held row List.mem_cons_self (fun r hr => hr) fun r hr => .inl hr, ?_, ?_⟩
      · refine ih hordered (hlater _ (fun r hr => mem_lockRow.mpr (.inl hr))
          fun r hr => mem_lockRow.mp hr) fun held' hheld' => ?_
        refine hafter held' fun r => ?_
        rw [hheld', mem_lockRow, List.mem_cons, or_assoc]
      · exact ih hordered (hlater held (fun r hr => hr) fun r hr => .inl hr) fun _ _ => trivial

end Scripts

/-! ## Systems -/

section Systems

open Relational

variable {κ ρ : Type} [DecidableEq ρ]

/-- The scripts of the flows, and the rows whose ids a flow draws anew. -/
structure Flows (κ ρ : Type) where
  drawn : κ → List ρ
  script : κ → List (LockStatement ρ)

/-- A transaction between two locks: the rows the current statement still has to lock, and the
row it waits for. -/
structure Running (κ ρ : Type) where
  flow : κ
  held : List ρ
  waiting : Option ρ
  rows : List ρ
  skipLocked : Bool
  required : Bool
  script : List (LockStatement ρ)

abbrev System (κ ρ : Type) := Table ℕ (Running κ ρ)

inductive Action (κ ρ : Type) where
  | start (t : ℕ) (flow : κ)
  | execute (t : ℕ) (rows : List ρ)
  | lock (t : ℕ)
  | pass (t : ℕ)
  | block (t : ℕ)
  | wake (t : ℕ)
  | finish (t : ℕ)

variable (F : Flows κ ρ)

def others (sys : System κ ρ) (t : ℕ) : List (ℕ × Running κ ρ) := sys.select fun u _ => decide (u ≠ t)

def heldByOther (sys : System κ ρ) (t : ℕ) (row : ρ) : Bool :=
  (others sys t).any fun entry => decide (row ∈ entry.2.held)

/-- A row that another transaction has inserted and not committed. -/
def hiddenFrom (sys : System κ ρ) (t : ℕ) (row : ρ) : Bool :=
  (others sys t).any fun entry => decide (row ∈ F.drawn entry.2.flow)

/-- No transaction has drawn, locked or asked for the row. -/
def unused (sys : System κ ρ) (t : ℕ) (row : ρ) : Bool :=
  !hiddenFrom F sys t row && !heldByOther sys t row &&
    !(others sys t).any fun entry => decide (entry.2.waiting = some row)

def start (flow : κ) : Running κ ρ where
  flow := flow
  held := []
  waiting := none
  rows := []
  skipLocked := false
  required := false
  script := F.script flow

/-- The next state of a transaction, from its state and the others. -/
def advance (sys : System κ ρ) (t : ℕ) (a : Running κ ρ) : Action κ ρ → Option (Running κ ρ)
  | .execute _ chosen =>
      match a.script, a.rows with
      | statement :: script, [] =>
          if statement.chooses a.held chosen then
            some { a with rows := chosen, skipLocked := statement.skipLocked
                          required := statement.required, script := script }
          else none
      | _, _ => none
  | .lock _ =>
      match a.waiting, a.rows with
      | none, row :: rows =>
          if heldByOther sys t row || hiddenFrom F sys t row then none
          else some { a with held := lockRow a.held row, rows := rows }
      | _, _ => none
  | .pass _ =>
      match a.waiting, a.rows with
      | none, _ :: rows =>
          some { a with rows := rows, script := if a.required then [] else a.script }
      | _, _ => none
  | .block _ =>
      match a.waiting, a.rows with
      | none, row :: _ =>
          if !a.skipLocked && heldByOther sys t row && !hiddenFrom F sys t row then
            some { a with waiting := some row }
          else none
      | _, _ => none
  | .wake _ =>
      match a.waiting, a.rows with
      | some row, _ :: rows =>
          if heldByOther sys t row then none
          else some { a with held := lockRow a.held row, waiting := none, rows := rows }
      | _, _ => none
  | _ => none

def Action.transaction : Action κ ρ → ℕ
  | .start t _ | .execute t _ | .lock t | .pass t | .block t | .wake t | .finish t => t

def step (sys : System κ ρ) (action : Action κ ρ) : Option (System κ ρ) :=
  match action with
  | .start t flow =>
      if (F.drawn flow).all (unused F sys t) then sys.insert t (start F flow) else none
  | .finish t => (sys.find t).map fun _ => sys.erase t
  | action => do
      let a ← sys.find action.transaction
      let a' ← advance F sys action.transaction a action
      some (sys.set action.transaction a')

def run (actions : List (Action κ ρ)) (sys : System κ ρ) : Option (System κ ρ) :=
  actions.foldlM (step F) sys

def WaitsFor (sys : System κ ρ) (t u : ℕ) : Prop :=
  t ≠ u ∧ ∃ a b row, sys.find t = some a ∧ sys.find u = some b ∧ a.waiting = some row ∧
    row ∈ b.held

instance (sys : System κ ρ) (t u : ℕ) : Decidable (WaitsFor sys t u) :=
  decidable_of_iff (t ≠ u ∧ ∃ row ∈ (sys.find t).bind Running.waiting,
      ∃ b ∈ sys.find u, row ∈ b.held) <| by
    constructor
    · rintro ⟨hne, row, hrow, b, hb, hheld⟩
      obtain ⟨a, ha, hwaiting⟩ := Option.bind_eq_some_iff.mp hrow
      exact ⟨hne, a, b, row, ha, hb, hwaiting, hheld⟩
    · rintro ⟨hne, a, b, row, ha, hb, hwaiting, hheld⟩
      exact ⟨hne, row, Option.bind_eq_some_iff.mpr ⟨a, ha, hwaiting⟩, b, hb, hheld⟩

/-! ## Invariants -/

section Invariants

variable {F} {sys sys' : System κ ρ} {t u : ℕ} {a a' b : Running κ ρ} {row : ρ}
  {action : Action κ ρ}

omit [DecidableEq ρ] in
theorem mem_others : (u, b) ∈ others sys t ↔ sys.find u = some b ∧ u ≠ t := by
  rw [others, Table.mem_select, decide_eq_true_eq]

theorem heldByOther_eq_false (h : heldByOther sys t row = false) (hu : sys.find u = some b)
    (hne : u ≠ t) : row ∉ b.held := by
  have hall := List.any_eq_false.mp h (u, b) (mem_others.mpr ⟨hu, hne⟩)
  simpa using hall

theorem hiddenFrom_eq_false (h : hiddenFrom F sys t row = false) (hu : sys.find u = some b)
    (hne : u ≠ t) : row ∉ F.drawn b.flow := by
  have hall := List.any_eq_false.mp h (u, b) (mem_others.mpr ⟨hu, hne⟩)
  simpa using hall

theorem unused_spec (h : unused F sys t row = true) (hu : sys.find u = some b) (hne : u ≠ t) :
    row ∉ F.drawn b.flow ∧ row ∉ b.held ∧ b.waiting ≠ some row := by
  rw [unused, Bool.and_eq_true, Bool.and_eq_true, Bool.not_eq_true', Bool.not_eq_true',
    Bool.not_eq_true'] at h
  refine ⟨hiddenFrom_eq_false h.1.1 hu hne, heldByOther_eq_false h.1.2 hu hne, ?_⟩
  have hall := List.any_eq_false.mp h.2 (u, b) (mem_others.mpr ⟨hu, hne⟩)
  simpa using hall

/-- What a step makes of the transaction that takes it: rows that it newly holds are free and
visible, rows that it newly waits for are visible, rows that it newly draws are unused. -/
structure Fits (F : Flows κ ρ) (sys : System κ ρ) (t : ℕ) (a : Running κ ρ) : Prop where
  held : ∀ row ∈ a.held, ∀ u b, sys.find u = some b → u ≠ t →
    row ∉ b.held ∧ row ∉ F.drawn b.flow
  waiting : ∀ row, a.waiting = some row → ∀ u b, sys.find u = some b → u ≠ t →
    row ∉ F.drawn b.flow
  drawn : ∀ row ∈ F.drawn a.flow, ∀ u b, sys.find u = some b → u ≠ t →
    row ∉ F.drawn b.flow ∧ row ∉ b.held ∧ b.waiting ≠ some row

/-- No two transactions hold one row, and uncommitted rows are invisible. -/
def Separate (F : Flows κ ρ) (sys : System κ ρ) : Prop :=
  ∀ t a, sys.find t = some a → Fits F sys t a

/-- A step replaces or removes one transaction. -/
theorem step_cases (h : step F sys action = some sys') :
    (∃ flow, action = .start action.transaction flow ∧ sys.find action.transaction = none ∧
      (∀ row ∈ F.drawn flow, unused F sys action.transaction row = true) ∧
      sys.insert action.transaction (start F flow) = some sys') ∨
    (action = .finish action.transaction ∧ sys' = sys.erase action.transaction) ∨
    (∃ a a', sys.find action.transaction = some a ∧
      advance F sys action.transaction a action = some a' ∧
      sys' = sys.set action.transaction a') := by
  cases action with
  | start t flow =>
      simp only [step] at h
      split_ifs at h with hdrawn
      exact .inl ⟨flow, rfl, Table.insert_fresh h, List.all_eq_true.mp hdrawn, h⟩
  | finish t =>
      obtain ⟨_, _, rfl⟩ := Option.map_eq_some_iff.mp h
      exact .inr (.inl ⟨rfl, rfl⟩)
  | execute t chosen | lock t | pass t | block t | wake t =>
      obtain ⟨a, ha, h⟩ := Option.bind_eq_some_iff.mp h
      obtain ⟨a', ha', h⟩ := Option.bind_eq_some_iff.mp h
      exact .inr (.inr ⟨a, a', ha, ha', (Option.some.inj h).symm⟩)

omit [DecidableEq ρ] in
theorem Separate.replaced (h : Separate F sys)
    (hself : ∀ a', sys'.find t = some a' → Fits F sys t a')
    (hothers : ∀ u, u ≠ t → sys'.find u = sys.find u) : Separate F sys' := by
  intro v c hv
  by_cases hvt : v = t
  · subst hvt
    have hfits := hself c hv
    refine ⟨fun row hrow u b hu hne => ?_, fun row hrow u b hu hne => ?_,
      fun row hrow u b hu hne => ?_⟩ <;> rw [hothers u hne] at hu
    · exact hfits.held row hrow u b hu hne
    · exact hfits.waiting row hrow u b hu hne
    · exact hfits.drawn row hrow u b hu hne
  · have hold := hothers v hvt ▸ hv
    have hfits := h v c hold
    -- What the replaced transaction respects in the others, they respect in it.
    refine ⟨fun row hrow u b hu hne => ?_, fun row hrow u b hu hne => ?_,
      fun row hrow u b hu hne => ?_⟩ <;> by_cases hut : u = t
    · subst hut
      have hnew := hself b hu
      exact ⟨fun hb => (hnew.held row hb v c hold hvt).1 hrow,
        fun hb => (hnew.drawn row hb v c hold hvt).2.1 hrow⟩
    · exact hfits.held row hrow u b (hothers u hut ▸ hu) hne
    · subst hut
      exact fun hb => ((hself b hu).drawn row hb v c hold hvt).2.2 hrow
    · exact hfits.waiting row hrow u b (hothers u hut ▸ hu) hne
    · subst hut
      have hnew := hself b hu
      exact ⟨fun hb => (hnew.drawn row hb v c hold hvt).1 hrow,
        fun hb => (hnew.held row hb v c hold hvt).2 hrow,
        fun hb => hnew.waiting row hb v c hold hvt hrow⟩
    · exact hfits.drawn row hrow u b (hothers u hut ▸ hu) hne

theorem advance_flow (h : advance F sys t a action = some a') : a'.flow = a.flow := by
  cases action with
  | start | finish => cases h
  | execute | lock | pass | block | wake =>
      simp only [advance] at h
      split at h <;> try split at h
      all_goals first
        | (obtain rfl := Option.some.inj h; rfl)
        | cases h

/-- The rows of the new state that the old state did not hold, want or draw are free. -/
theorem advance_fits (hfits : Fits F sys t a) (h : advance F sys t a action = some a') :
    Fits F sys t a' := by
  have hdrawn : ∀ row ∈ F.drawn a'.flow, ∀ u b, sys.find u = some b → u ≠ t →
      row ∉ F.drawn b.flow ∧ row ∉ b.held ∧ b.waiting ≠ some row := by
    rw [advance_flow h]
    exact hfits.drawn
  cases action with
  | start | finish => cases h
  | execute _ chosen =>
      simp only [advance] at h
      split at h
      · split_ifs at h
        obtain rfl := Option.some.inj h
        exact ⟨hfits.held, hfits.waiting, hdrawn⟩
      · cases h
  | lock =>
      simp only [advance] at h
      split at h
      · rename_i row rows hwaiting hrows
        split_ifs at h with hfree
        obtain rfl := Option.some.inj h
        rw [Bool.or_eq_true, not_or, Bool.not_eq_true, Bool.not_eq_true] at hfree
        refine ⟨fun r hr u b hu hne => ?_, hfits.waiting, hdrawn⟩
        obtain hold | rfl := mem_lockRow.mp hr
        · exact hfits.held r hold u b hu hne
        · exact ⟨heldByOther_eq_false hfree.1 hu hne, hiddenFrom_eq_false hfree.2 hu hne⟩
      · cases h
  | pass =>
      simp only [advance] at h
      split at h
      · obtain rfl := Option.some.inj h
        exact ⟨hfits.held, hfits.waiting, hdrawn⟩
      · cases h
  | block =>
      simp only [advance] at h
      split at h
      · rename_i row rows hwaiting hrows
        split_ifs at h with hblocked
        obtain rfl := Option.some.inj h
        rw [Bool.and_eq_true, Bool.not_eq_true'] at hblocked
        refine ⟨hfits.held, fun r hr u b hu hne => ?_, hdrawn⟩
        obtain rfl := Option.some.inj hr
        exact hiddenFrom_eq_false hblocked.2 hu hne
      · cases h
  | wake =>
      simp only [advance] at h
      split at h
      · rename_i row _ rows hwaiting hrows
        split_ifs at h with hfree
        obtain rfl := Option.some.inj h
        rw [Bool.not_eq_true] at hfree
        refine ⟨fun r hr u b hu hne => ?_, fun r hr => (by cases hr), hdrawn⟩
        obtain hold | rfl := mem_lockRow.mp hr
        · exact hfits.held r hold u b hu hne
        · exact ⟨heldByOther_eq_false hfree hu hne, hfits.waiting r hwaiting u b hu hne⟩
      · cases h

variable {admits : κ → Rule ρ} {keeps : κ → List ρ → Prop}

/-- One transaction obeys its script, and what its locks keep true of the held rows is true. -/
structure Obeys (admits : κ → Rule ρ) (keeps : κ → List ρ → Prop) (a : Running κ ρ) : Prop where
  locks : Locks (admits a.flow) a.skipLocked a.required (Disciplined (admits a.flow) a.script)
    a.held a.rows
  waits : ∀ row, a.waiting = some row →
    row ∉ a.held ∧ a.skipLocked = false ∧ ∃ rest, a.rows = row :: rest
  keeps : keeps a.flow a.held

theorem Obeys.admits_waiting (h : Obeys admits keeps a) (hrow : a.waiting = some row) :
    row ∉ a.held ∧ admits a.flow false a.held row := by
  obtain ⟨hnot, hskip, rest, hrows⟩ := h.waits row hrow
  have hlocks := h.locks
  rw [hrows, hskip] at hlocks
  exact ⟨hnot, hlocks.1.resolve_left hnot⟩

theorem advance_obeys
    (hkeeps : ∀ flow skipLocked held row, keeps flow held →
      row ∈ held ∨ admits flow skipLocked held row → keeps flow (lockRow held row))
    (ha : Obeys admits keeps a) (h : advance F sys t a action = some a')
    (hfits : Fits F sys t a) : Obeys admits keeps a' := by
  cases action with
  | start | finish => cases h
  | execute _ chosen =>
      simp only [advance] at h
      split at h
      · rename_i statement script hscript hrows
        split_ifs at h with hchosen
        obtain rfl := Option.some.inj h
        have hlocks := ha.locks
        rw [hscript, hrows] at hlocks
        refine ⟨hlocks chosen hchosen, fun row hrow => ?_, ha.keeps⟩
        obtain ⟨-, -, rest, hrest⟩ := ha.waits row hrow
        rw [hrows] at hrest
        cases hrest
      · cases h
  | lock =>
      simp only [advance] at h
      split at h
      · rename_i row rows hwaiting hrows
        split_ifs at h
        obtain rfl := Option.some.inj h
        have hlocks := ha.locks
        rw [hrows] at hlocks
        refine ⟨hlocks.2.1, fun r hr => ?_, hkeeps _ _ _ _ ha.keeps hlocks.1⟩
        rw [hwaiting] at hr
        cases hr
      · cases h
  | pass =>
      simp only [advance] at h
      split at h
      · rename_i row rows hwaiting hrows
        obtain rfl := Option.some.inj h
        have hlocks := ha.locks
        rw [hrows] at hlocks
        refine ⟨?_, fun r hr => ?_, ha.keeps⟩
        · have hrest := hlocks.2.2
          cases hrequired : a.required with
          | true => rw [hrequired] at hrest; exact hrest
          | false => rw [hrequired] at hrest; exact hrest
        · rw [hwaiting] at hr
          cases hr
      · cases h
  | block =>
      simp only [advance] at h
      split at h
      · rename_i row rows hwaiting hrows
        split_ifs at h with hblocked
        obtain rfl := Option.some.inj h
        refine ⟨ha.locks, fun r hr => ?_, ha.keeps⟩
        obtain rfl := Option.some.inj hr
        rw [Bool.and_eq_true, Bool.and_eq_true, Bool.not_eq_true'] at hblocked
        refine ⟨fun hheld => ?_, hblocked.1.1, rows, hrows⟩
        -- The row is held by another transaction, so not by this one.
        obtain ⟨⟨u, b⟩, hmem, hrow⟩ := List.any_eq_true.mp hblocked.1.2
        obtain ⟨hu, hne⟩ := mem_others.mp hmem
        exact (hfits.held _ hheld u b hu hne).1 (of_decide_eq_true hrow)
      · cases h
  | wake =>
      simp only [advance] at h
      split at h
      · rename_i row _ rows hwaiting hrows
        split_ifs at h
        obtain rfl := Option.some.inj h
        obtain ⟨-, -, rest, hrest⟩ := ha.waits row hwaiting
        rw [hrows] at hrest
        obtain ⟨rfl, rfl⟩ := List.cons.inj hrest
        have hlocks := ha.locks
        rw [hrows] at hlocks
        exact ⟨hlocks.2.1, fun r hr => (by cases hr), hkeeps _ _ _ _ ha.keeps hlocks.1⟩
      · cases h

/-- The transactions of a system are separate and obey their scripts. -/
structure Sound (F : Flows κ ρ) (admits : κ → Rule ρ) (keeps : κ → List ρ → Prop)
    (sys : System κ ρ) : Prop where
  separate : Separate F sys
  obeys : ∀ t a, sys.find t = some a → Obeys admits keeps a

theorem Sound.empty : Sound F admits keeps (Table.empty : System κ ρ) :=
  ⟨fun _ _ h => (by cases h), fun _ _ h => (by cases h)⟩

theorem Sound.step (hscripts : ∀ flow, Disciplined (admits flow) (F.script flow) [])
    (hnil : ∀ flow, keeps flow [])
    (hkeeps : ∀ flow skipLocked held row, keeps flow held →
      row ∈ held ∨ admits flow skipLocked held row → keeps flow (lockRow held row))
    (h : Sound F admits keeps sys) (hstep : step F sys action = some sys') :
    Sound F admits keeps sys' := by
  obtain ⟨flow, -, hfresh, hdrawn, hinsert⟩ | ⟨-, rfl⟩ | ⟨a, a', ha, ha', rfl⟩ := step_cases hstep
  · have hfind := Table.find_insert hinsert
    refine ⟨h.separate.replaced (t := action.transaction) (fun a' ha' => ?_) fun u hu => ?_,
      fun u b hu => ?_⟩
    · rw [hfind, if_pos rfl] at ha'
      obtain rfl := Option.some.inj ha'
      exact ⟨fun _ hr => (by cases hr), fun _ hr => (by cases hr),
        fun row hr u b hu hne => unused_spec (hdrawn row hr) hu hne⟩
    · rw [hfind, if_neg hu]
    · rw [hfind] at hu
      split_ifs at hu
      · obtain rfl := Option.some.inj hu
        exact ⟨hscripts flow, fun _ hr => (by cases hr), hnil flow⟩
      · exact h.obeys u b hu
  · have hfind := Table.find_erase sys action.transaction
    refine ⟨h.separate.replaced (t := action.transaction) (fun a' ha' => ?_) fun u hu => ?_,
      fun u b hu => ?_⟩
    · rw [hfind, if_pos rfl] at ha'
      cases ha'
    · rw [hfind, if_neg hu]
    · rw [hfind] at hu
      split_ifs at hu
      exact h.obeys u b hu
  · have hfind := Table.find_set sys action.transaction a'
    have hfits := h.separate _ a ha
    refine ⟨h.separate.replaced (t := action.transaction) (fun b hb => ?_) fun u hu => ?_,
      fun u b hu => ?_⟩
    · rw [hfind, if_pos rfl] at hb
      obtain rfl := Option.some.inj hb
      exact advance_fits hfits ha'
    · rw [hfind, if_neg hu]
    · rw [hfind] at hu
      split_ifs at hu
      · obtain rfl := Option.some.inj hu
        exact advance_obeys hkeeps (h.obeys _ a ha) ha' hfits
      · exact h.obeys u b hu

/-! ## Runs -/

variable (F) in
/-- A run in which no transaction blocks on a row while it holds rows that are not calm. -/
def runCalm (calm : κ → List ρ → Bool) (actions : List (Action κ ρ)) (sys : System κ ρ) :
    Option (System κ ρ) :=
  actions.foldlM (fun sys action =>
    match action with
    | .block t =>
        if (sys.find t).all fun a => calm a.flow a.held then Locking.step F sys action else none
    | _ => Locking.step F sys action) sys

/-- Waiting transactions hold calm rows only. -/
def Calm (calm : κ → List ρ → Bool) (sys : System κ ρ) : Prop :=
  ∀ t a, sys.find t = some a → a.waiting.isSome → calm a.flow a.held = true

theorem advance_waiting (h : advance F sys t a action = some a') (hwaits : a'.waiting.isSome) :
    a'.held = a.held ∧ (a.waiting.isSome ∨ action = .block action.transaction) := by
  cases action with
  | start | finish => cases h
  | execute =>
      simp only [advance] at h
      split at h
      · split_ifs at h
        obtain rfl := Option.some.inj h
        exact ⟨rfl, .inl hwaits⟩
      · cases h
  | lock =>
      simp only [advance] at h
      split at h
      · rename_i hwaiting hrows
        split_ifs at h
        obtain rfl := Option.some.inj h
        exact absurd hwaits (by simp [hwaiting])
      · cases h
  | pass =>
      simp only [advance] at h
      split at h
      · obtain rfl := Option.some.inj h
        exact ⟨rfl, .inl hwaits⟩
      · cases h
  | block =>
      simp only [advance] at h
      split at h
      · split_ifs at h
        obtain rfl := Option.some.inj h
        exact ⟨rfl, .inr rfl⟩
      · cases h
  | wake =>
      simp only [advance] at h
      split at h
      · split_ifs at h
        obtain rfl := Option.some.inj h
        cases hwaits
      · cases h

theorem Calm.step {calm : κ → List ρ → Bool} (h : Calm calm sys)
    (hstep : step F sys action = some sys')
    (hblock : action = .block action.transaction →
      ∀ a, sys.find action.transaction = some a → calm a.flow a.held = true) : Calm calm sys' := by
  intro u b hu hwaits
  obtain ⟨flow, -, hfresh, -, hinsert⟩ | ⟨-, rfl⟩ | ⟨a, a', ha, ha', rfl⟩ := step_cases hstep
  · rw [Table.find_insert hinsert] at hu
    split_ifs at hu
    · obtain rfl := Option.some.inj hu
      cases hwaits
    · exact h u b hu hwaits
  · rw [Table.find_erase] at hu
    split_ifs at hu
    exact h u b hu hwaits
  · rw [Table.find_set] at hu
    split_ifs at hu
    · obtain rfl := Option.some.inj hu
      obtain ⟨hheld, hbefore | hnow⟩ := advance_waiting ha' hwaits
      · rw [hheld, advance_flow ha']
        exact h _ a ha hbefore
      · rw [hheld, advance_flow ha']
        exact hblock hnow a ha
    · exact h u b hu hwaits

/-- Every system that a calm run reaches is sound and calm. -/
theorem runCalm_sound {calm : κ → List ρ → Bool}
    (hscripts : ∀ flow, Disciplined (admits flow) (F.script flow) [])
    (hnil : ∀ flow, keeps flow [])
    (hkeeps : ∀ flow skipLocked held row, keeps flow held →
      row ∈ held ∨ admits flow skipLocked held row → keeps flow (lockRow held row))
    {actions : List (Action κ ρ)} (h : Sound F admits keeps sys) (hcalm : Calm calm sys)
    (hrun : runCalm F calm actions sys = some sys') :
    Sound F admits keeps sys' ∧ Calm calm sys' := by
  induction actions generalizing sys with
  | nil =>
      obtain rfl := Option.some.inj hrun
      exact ⟨h, hcalm⟩
  | cons action actions ih =>
      obtain ⟨mid, hmid, hrest⟩ := Option.bind_eq_some_iff.mp hrun
      have hstep : Locking.step F sys action = some mid ∧ (action = .block action.transaction →
          ∀ a, sys.find action.transaction = some a → calm a.flow a.held = true) := by
        cases action with
        | block t =>
            simp only at hmid
            split_ifs at hmid with hall
            refine ⟨hmid, fun _ a ha => ?_⟩
            have hself : sys.find t = some a := ha
            rw [hself] at hall
            exact hall
        | start | execute | lock | pass | wake | finish => exact ⟨hmid, fun hblock => by cases hblock⟩
      exact ih (h.step hscripts hnil hkeeps hstep.1) (hcalm.step hstep.1 hstep.2) hrest

end Invariants

end Systems
end Locking
