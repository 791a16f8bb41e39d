import Mathlib.Algebra.BigOperators.Group.List.Basic
import Mathlib.Data.List.Basic
import Mathlib.Tactic

/-!
# Threads that take turns

A program is a partial step function on states; its threads are numbered in the order in which
they start, and a step replaces the state of one of them. A measure that every internal step
lowers brings each run to a state where no internal step is left.
-/

namespace Threads

section Runs

variable {σ ε : Type} {step : σ → ε → Option σ}

def run (step : σ → ε → Option σ) (events : List ε) (s : σ) : Option σ := events.foldlM step s

theorem run_cons (event : ε) (events : List ε) (s : σ) :
    run step (event :: events) s = (step s event).bind (run step events) := by
  unfold run
  rw [List.foldlM_cons]
  rfl

theorem run_append (events later : List ε) (s : σ) :
    run step (events ++ later) s = (run step events s).bind (run step later) := by
  unfold run
  rw [List.foldlM_append]
  rfl

/-- What every step preserves, every run preserves. -/
theorem run_invariant {I : σ → Prop}
    (hstep : ∀ s event t, I s → step s event = some t → I t) {events : List ε} {s t : σ}
    (hs : I s) (h : run step events s = some t) : I t := by
  induction events generalizing s with
  | nil =>
      cases h
      exact hs
  | cons event events ih =>
      rw [run_cons] at h
      obtain ⟨next, hnext, hrest⟩ := Option.bind_eq_some_iff.mp h
      exact ih (hstep s event next hs hnext) hrest

/-- No internal step is left. -/
def Quiet (step : σ → ε → Option σ) (internal : ε → Prop) (s : σ) : Prop :=
  ∀ event, internal event → step s event = none

variable {I : σ → Prop} {internal : ε → Prop} {measure : σ → ℕ}

/-- The measure bounds how many of the steps that lower it a run takes, if no step raises it. -/
theorem run_counted {allowed lowers : ε → Prop} [DecidablePred lowers]
    (hstep : ∀ s event t, I s → step s event = some t → I t)
    (hless : ∀ s event t, I s → lowers event → step s event = some t → measure t < measure s)
    (hle : ∀ s event t, I s → allowed event → step s event = some t → measure t ≤ measure s)
    {events : List ε} {s t : σ} (hs : I s) (hallowed : ∀ event ∈ events, allowed event)
    (h : run step events s = some t) :
    (events.countP fun event => decide (lowers event)) + measure t ≤ measure s := by
  induction events generalizing s with
  | nil =>
      cases h
      simp
  | cons event events ih =>
      rw [run_cons] at h
      obtain ⟨next, hnext, hrest⟩ := Option.bind_eq_some_iff.mp h
      rw [List.forall_mem_cons] at hallowed
      have hlater := ih (hstep s event next hs hnext) hallowed.2 hrest
      have hfirst := hle s event next hs hallowed.1 hnext
      rw [List.countP_cons]
      by_cases hlowers : lowers event
      · have hlower := hless s event next hs hlowers hnext
        rw [if_pos (decide_eq_true hlowers)]
        omega
      · rw [if_neg (by simpa using hlowers)]
        omega

/-- A run of internal steps is no longer than the measure allows. -/
theorem run_bounded (hstep : ∀ s event t, I s → step s event = some t → I t)
    (hless : ∀ s event t, I s → internal event → step s event = some t → measure t < measure s)
    {events : List ε} {s t : σ} (hs : I s) (hinternal : ∀ event ∈ events, internal event)
    (h : run step events s = some t) : events.length + measure t ≤ measure s := by
  classical
  have hcount := run_counted hstep hless
    (fun s event t hs hevent ht => (hless s event t hs hevent ht).le) hs hinternal h
  have hall : (events.countP fun event => decide (internal event)) = events.length :=
    List.countP_eq_length.mpr fun event hmem => decide_eq_true (hinternal event hmem)
  rwa [hall] at hcount

/-- Internal steps can go on until none is left. -/
theorem exists_quiet (hstep : ∀ s event t, I s → step s event = some t → I t)
    (hless : ∀ s event t, I s → internal event → step s event = some t → measure t < measure s)
    {s : σ} (hs : I s) : ∃ events t, (∀ event ∈ events, internal event) ∧
      run step events s = some t ∧ Quiet step internal t := by
  generalize hbound : measure s = bound
  induction bound using Nat.strong_induction_on generalizing s with
  | _ bound ih =>
    by_cases hquiet : Quiet step internal s
    · exact ⟨[], s, fun _ h => absurd h List.not_mem_nil, rfl, hquiet⟩
    · unfold Quiet at hquiet
      push Not at hquiet
      obtain ⟨event, hevent, hsome⟩ := hquiet
      obtain ⟨next, hnext⟩ := Option.ne_none_iff_exists'.mp hsome
      have hlower := hless s event next hs hevent hnext
      obtain ⟨events, t, hevents, hrun, ht⟩ :=
        ih (measure next) (hbound ▸ hlower) (hstep s event next hs hnext) rfl
      refine ⟨event :: events, t, ?_, ?_, ht⟩
      · rw [List.forall_mem_cons]
        exact ⟨hevent, hevents⟩
      · rw [run_cons, hnext]
        exact hrun

/-- Every step of a run meets a condition on the state before it. -/
def Through (step : σ → ε → Option σ) (meets : σ → ε → Prop) : List ε → σ → Prop
  | [], _ => True
  | event :: events, s =>
      meets s event ∧ ∀ t, step s event = some t → Through step meets events t

/-- What holds as long as every step meets the condition, and is lost for good by a step that
does not. -/
theorem through_iff {meets : σ → ε → Prop} {Good Lost : σ → Prop}
    (hstep : ∀ s event t, I s → step s event = some t → I t)
    (hgood : ∀ s event t, I s → Good s → meets s event → step s event = some t → Good t)
    (hlost : ∀ s event t, ¬ meets s event → step s event = some t → Lost t)
    (hstays : ∀ s event t, Lost s → step s event = some t → Lost t)
    (hbad : ∀ s, Lost s → ¬ Good s) {events : List ε} {s t : σ} (hs : I s) (hfirst : Good s)
    (h : run step events s = some t) : Good t ↔ Through step meets events s := by
  induction events generalizing s with
  | nil =>
      cases h
      exact iff_of_true hfirst trivial
  | cons event events ih =>
      rw [run_cons] at h
      obtain ⟨next, hnext, hrest⟩ := Option.bind_eq_some_iff.mp h
      by_cases hmeets : meets s event
      · have hlater := ih (hstep s event next hs hnext)
          (hgood s event next hs hfirst hmeets hnext) hrest
        rw [hlater]
        constructor
        · intro hthrough
          refine ⟨hmeets, fun other hother => ?_⟩
          rw [hnext, Option.some.injEq] at hother
          exact hother ▸ hthrough
        · exact fun hthrough => hthrough.2 next hnext
      · have hgone : Lost t :=
          run_invariant hstays (hlost s event next hmeets hnext) hrest
        exact iff_of_false (hbad t hgone) fun hthrough => hmeets hthrough.1

section Guarded

variable {meets : σ → ε → Prop} [∀ s, DecidablePred (meets s)]

/-- The steps that meet the condition. -/
def guarded (step : σ → ε → Option σ) (meets : σ → ε → Prop) [∀ s, DecidablePred (meets s)]
    (s : σ) (event : ε) : Option σ :=
  if meets s event then step s event else none

theorem guarded_eq_some {s t : σ} {event : ε} :
    guarded step meets s event = some t ↔ meets s event ∧ step s event = some t := by
  unfold guarded
  split_ifs with hmeets
  · exact ⟨fun h => ⟨hmeets, h⟩, fun h => h.2⟩
  · exact ⟨nofun, fun h => absurd h.1 hmeets⟩

/-- The runs all of whose steps meet the condition are those of the steps that meet it. -/
theorem run_guarded {events : List ε} {s t : σ} :
    run (guarded step meets) events s = some t ↔
      run step events s = some t ∧ Through step meets events s := by
  induction events generalizing s with
  | nil => exact ⟨fun h => ⟨h, trivial⟩, fun h => h.1⟩
  | cons event events ih =>
      rw [run_cons, run_cons, Option.bind_eq_some_iff, Option.bind_eq_some_iff]
      constructor
      · rintro ⟨next, hnext, hrest⟩
        obtain ⟨hmeets, hstep⟩ := guarded_eq_some.mp hnext
        obtain ⟨hrun, hthrough⟩ := ih.mp hrest
        refine ⟨⟨next, hstep, hrun⟩, hmeets, fun other hother => ?_⟩
        rw [hstep, Option.some.injEq] at hother
        exact hother ▸ hthrough
      · rintro ⟨⟨next, hstep, hrun⟩, hmeets, hthrough⟩
        exact ⟨next, guarded_eq_some.mpr ⟨hmeets, hstep⟩, ih.mpr ⟨hrun, hthrough next hstep⟩⟩

end Guarded

end Runs

section Lists

variable {τ : Type} {threads : List τ} {i j : ℕ} {old new other : τ}

/-- After a step of thread `i`, a thread is the new one, or another one that stayed. -/
theorem getElem?_set_cases (h : (threads.set i new)[j]? = some other) :
    (j = i ∧ other = new) ∨ (j ≠ i ∧ threads[j]? = some other) := by
  rw [List.getElem?_set] at h
  split_ifs at h with heq hlength
  · cases h
    exact Or.inl ⟨heq.symm, rfl⟩
  · exact Or.inr ⟨fun hji => heq hji.symm, h⟩

theorem getElem?_set_self (h : threads[i]? = some old) (new : τ) :
    (threads.set i new)[i]? = some new := by
  have hlength := (List.getElem?_eq_some_iff.mp h).1
  rw [List.getElem?_set, if_pos rfl, if_pos hlength]

theorem getElem?_set_of_ne (h : j ≠ i) (new : τ) : (threads.set i new)[j]? = threads[j]? := by
  rw [List.getElem?_set, if_neg (Ne.symm h)]

theorem getElem?_append_cases (h : (threads ++ [new])[j]? = some other) :
    (j = threads.length ∧ other = new) ∨ threads[j]? = some other := by
  rw [List.getElem?_append] at h
  split_ifs at h with hlength
  · exact Or.inr h
  · rw [List.getElem?_singleton] at h
    split_ifs at h with hzero
    cases h
    exact Or.inl ⟨by omega, rfl⟩

theorem getElem?_append_of_some (h : threads[j]? = some other) (new : τ) :
    (threads ++ [new])[j]? = some other := by
  rw [List.getElem?_append_left (List.getElem?_eq_some_iff.mp h).1]
  exact h

theorem sum_map_set (weight : τ → ℕ) (h : threads[i]? = some old) (new : τ) :
    ((threads.set i new).map weight).sum + weight old = (threads.map weight).sum + weight new := by
  induction threads generalizing i with
  | nil => cases h
  | cons first threads ih =>
      cases i with
      | zero =>
          cases h
          simp only [List.set_cons_zero, List.map_cons, List.sum_cons]
          omega
      | succ i =>
          have hrest := ih h
          simp only [List.set_cons_succ, List.map_cons, List.sum_cons]
          omega

theorem countP_set (p : τ → Bool) (h : threads[i]? = some old) (new : τ) :
    (threads.set i new).countP p + (if p old then 1 else 0) =
      threads.countP p + (if p new then 1 else 0) := by
  obtain ⟨hlength, hold⟩ := List.getElem?_eq_some_iff.mp h
  have hle := List.boole_getElem_le_countP (p := p) hlength
  rw [List.countP_set hlength, hold]
  rw [hold] at hle
  omega

/-- There is one place for what a list has at most once. -/
theorem eq_of_countP_le_one {p : τ → Bool} (hcount : threads.countP p ≤ 1)
    (hi : threads[i]? = some old) (hj : threads[j]? = some other) (hold : p old = true)
    (hother : p other = true) : i = j := by
  induction threads generalizing i j with
  | nil => cases hi
  | cons first threads ih =>
      rw [List.countP_cons] at hcount
      have hrest : ∀ {k : ℕ} {thread : τ}, threads[k]? = some thread → p thread = true →
          p first = false := by
        intro k thread hk hthread
        have hpos : 0 < threads.countP p :=
          List.countP_pos_iff.mpr ⟨thread, List.mem_of_getElem? hk, hthread⟩
        by_contra hfirst
        rw [if_pos (by simpa using hfirst)] at hcount
        omega
      cases i with
      | zero =>
          cases hi
          cases j with
          | zero => rfl
          | succ j => exact absurd hold (by rw [hrest hj hother]; exact Bool.false_ne_true)
      | succ i =>
          cases j with
          | zero =>
              cases hj
              exact absurd hother (by rw [hrest hi hold]; exact Bool.false_ne_true)
          | succ j => exact congrArg Nat.succ (ih (by omega) hi hj)

theorem findIdx?_of_countP {p : τ → Bool} (hcount : threads.countP p ≤ 1)
    (hi : threads[i]? = some old) (hold : p old = true) : threads.findIdx? p = some i := by
  cases hfound : threads.findIdx? p with
  | none =>
      rw [List.findIdx?_eq_none_iff] at hfound
      rw [hfound old (List.mem_of_getElem? hi)] at hold
      cases hold
  | some j =>
      obtain ⟨hlength, hj, -⟩ := List.findIdx?_eq_some_iff_getElem.mp hfound
      exact congrArg some
        (eq_of_countP_le_one hcount (List.getElem?_eq_getElem hlength) hi hj hold)

variable [DecidableEq τ]

theorem count_set (h : threads[i]? = some old) (new other : τ) :
    (threads.set i new).count other + (if old = other then 1 else 0) =
      threads.count other + (if new = other then 1 else 0) := by
  have hcount : (threads.set i new).countP (· == other) + (if old == other then 1 else 0) =
      threads.countP (· == other) + (if new == other then 1 else 0) := countP_set _ h new
  simpa [List.count] using hcount

end Lists
end Threads
