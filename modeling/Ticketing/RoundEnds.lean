import Ticketing.ReconciliationRounds

/-!
# How a round ends

Callbacks whose accesses nothing comes between keep the counter right, and the last of them calls
the completion. From there on the round has nothing left to do.
-/

namespace Ticketing

open Threads

namespace ClaimPhase

/-- Rows that are claimed and not started yet. -/
def rows : ClaimPhase → ℕ
  | startingPayments rows => rows
  | startingRefunds rows => rows.length
  | _ => 0

/-- All claims have been answered. -/
def answered : ClaimPhase → Bool
  | startingRefunds _ => true
  | checking => true
  | done => true
  | _ => false

end ClaimPhase

namespace RunState

/-- The counter counts the items that have not ended and the rows that have not started. Once the
completion has been called nothing is left; before that, the last end calls it. -/
structure Sound (s : RunState) : Prop where
  fresh : s.claims = .inbox ∨ s.claims = .payments → s.items = []
  counted : s.pending = s.items.countP ReconciliationItem.unfinished + s.claims.rows
  told : s.completion = true → s.claimsComplete = s.claims.answered
  called : s.completions.length = if s.completion then 0 else 1
  last : s.completion = false → s.pending = 0 ∧ s.claims.answered = true
  due : s.completion = true → s.claims = .done → s.pending ≠ 0

section Invariant

variable {s s' : RunState} {next : RunState × List Access}

theorem start_sound (batchSize : ℕ) : Sound (start batchSize) where
  fresh _ := rfl
  counted := rfl
  told _ := rfl
  called := rfl
  last h := by cases h
  due _ h := by cases h

theorem alone_finishOne (s : RunState) :
    alone finishOne s =
      if s.claimsComplete = false ∨ s.pending - 1 ≠ 0 ∨ s.completion = false then
        { s with pending := s.pending - 1 }
      else
        { s with
          pending := s.pending - 1
          completion := false
          completions := s.completions ++ [s.summary] } := by
  have hlowered : (if 0 < s.pending then { s with pending := s.pending - 1 } else s) =
      { s with pending := s.pending - 1 } := by
    split_ifs with hpending
    · rfl
    · have hzero : s.pending - 1 = s.pending := by omega
      rw [hzero]
  simp only [finishOne, alone, hlowered]
  cases hclaims : s.claimsComplete with
  | false => simp
  | true =>
      by_cases hpending : s.pending - 1 = 0
      · cases hcompletion : s.completion <;> simp [hpending, call]
      · simp [hpending]

/-- The end of an item, or of the claims: the counter is corrected, and the completion is called
if that was the last end. -/
theorem finishOne_sound (hfresh : s.claims = .inbox ∨ s.claims = .payments → s.items = [])
    (hcounted : s.pending - 1 = s.items.countP ReconciliationItem.unfinished + s.claims.rows)
    (htold : s.completion = true → s.claimsComplete = s.claims.answered)
    (hcalled : s.completions.length = if s.completion then 0 else 1)
    (hlast : s.completion = false → s.pending - 1 = 0 ∧ s.claims.answered = true) :
    Sound (alone finishOne s) := by
  rw [alone_finishOne]
  split_ifs with hopen
  · refine ⟨hfresh, hcounted, htold, hcalled, hlast, fun hcompletion hdone => ?_⟩
    have hanswered : s.claimsComplete = true := by
      rw [htold hcompletion, show s.claims = .done from hdone]
      rfl
    rcases hopen with hclaims | hpending | hgone
    · rw [hclaims] at hanswered
      cases hanswered
    · exact hpending
    · rw [show s.completion = true from hcompletion] at hgone
      cases hgone
  · simp only [not_or, Bool.not_eq_false, ne_eq, not_not] at hopen
    obtain ⟨hclaims, hpending, hcompletion⟩ := hopen
    refine ⟨hfresh, hcounted, nofun, ?_, fun _ => ⟨hpending, ?_⟩, nofun⟩
    · rw [hcompletion, if_pos rfl] at hcalled
      simp only [List.length_append, List.length_singleton, hcalled]
      rfl
    · have hanswered : s.claims.answered = true := by
        rw [← htold hcompletion]
        exact hclaims
      exact hanswered

/-- The completion has not been called while claims or items go on. -/
theorem Sound.uncalled (h : Sound s) (hopen : s.claims.answered = false ∨ s.pending ≠ 0) :
    s.completion = true := by
  by_contra hcompletion
  obtain ⟨hpending, hanswered⟩ := h.last (by simpa using hcompletion)
  rcases hopen with hclaims | hleft
  · rw [hanswered] at hclaims
    cases hclaims
  · exact hleft hpending

/-- While claims go on, the completion has not been called. -/
theorem Sound.running (h : Sound s) {phase : ClaimPhase} (hclaims : s.claims = phase)
    (hopen : phase.answered = false) : s.completion = true := by
  refine h.uncalled (Or.inl ?_)
  rw [hclaims]
  exact hopen

theorem Sound.told_at (h : Sound s) {phase : ClaimPhase} (hcompletion : s.completion = true)
    (hclaims : s.claims = phase) : s.claimsComplete = phase.answered := by
  rw [h.told hcompletion, hclaims]

/-- An item that has not ended is counted. -/
theorem Sound.pending_pos (h : Sound s) {i : ℕ} {item : ReconciliationItem}
    (hitem : s.items[i]? = some item) (hunfinished : item.unfinished = true) : s.pending ≠ 0 := by
  have hpos : 0 < s.items.countP ReconciliationItem.unfinished :=
    List.countP_pos_iff.mpr ⟨item, List.mem_of_getElem? hitem, hunfinished⟩
  have hcounted := h.counted
  omega

theorem set_summary (s : RunState) (value : ℕ) {counter : Counter} (hcounter : counter ≠ .pending) :
    ∃ summary, s.set value counter = { s with summary := summary } := by
  cases counter with
  | pending => exact absurd rfl hcounter
  | _ => exact ⟨_, rfl⟩

/-- What is counted on the way to the end of an item is only reported. -/
theorem alone_counted (s : RunState) (counter : Option Counter) (rest : List Access)
    (hcounter : counter ≠ some .pending) :
    ∃ summary, alone (counter.toList.map (Access.add · 1) ++ rest) s =
      alone rest { s with summary := summary } := by
  cases counter with
  | none => exact ⟨s.summary, rfl⟩
  | some counter =>
      obtain ⟨summary, hsummary⟩ := s.set_summary (s.get counter + 1)
        (fun hpending => hcounter (congrArg some hpending))
      refine ⟨summary, ?_⟩
      rw [← hsummary]
      rfl

/-- An item goes on without ending. -/
theorem Sound.moved (h : Sound s) {i : ℕ} {item : ReconciliationItem} {phase : ItemPhase}
    (summary : PaymentReconciliationSummary) (hitem : s.items[i]? = some item)
    (hitemOpen : item.phase ≠ .finished) (hphase : phase ≠ .finished) :
    Sound { s.setItem i item phase with summary := summary } := by
  have hcount := countP_set ReconciliationItem.unfinished hitem { item with phase := phase }
  have hbefore : item.unfinished = true := decide_eq_true hitemOpen
  have hafter : ({ item with phase := phase } : ReconciliationItem).unfinished = true :=
    decide_eq_true hphase
  rw [if_pos hbefore, if_pos hafter] at hcount
  refine ⟨fun hearly => ?_, ?_, h.told, h.called, h.last, h.due⟩
  · rw [h.fresh hearly] at hitem
    cases hitem
  · have hcounted := h.counted
    simp only [setItem]
    omega

theorem Sound.ended (h : Sound s) {i : ℕ} {item : ReconciliationItem} {counter : Option Counter}
    (hcounter : counter ≠ some .pending) (hitem : s.items[i]? = some item)
    (hitemOpen : item.phase ≠ .finished) :
    Sound (alone (s.endItem i item counter).2 (s.endItem i item counter).1) := by
  have hunfinished : item.unfinished = true := decide_eq_true hitemOpen
  have hpending := h.pending_pos hitem hunfinished
  have hcompletion := h.uncalled (Or.inr hpending)
  have hcount := countP_set ReconciliationItem.unfinished hitem { item with phase := .finished }
  have hafter : ({ item with phase := .finished } : ReconciliationItem).unfinished = false := rfl
  rw [if_pos hunfinished, hafter] at hcount
  simp only [Bool.false_eq_true, if_false] at hcount
  obtain ⟨summary, hsummary⟩ := alone_counted (s.setItem i item .finished) counter finishOne hcounter
  rw [show alone (s.endItem i item counter).2 (s.endItem i item counter).1 =
    alone finishOne { s.setItem i item .finished with summary := summary } from hsummary]
  apply finishOne_sound
  · intro hearly
    rw [h.fresh hearly] at hitem
    cases hitem
  · have hcounted := h.counted
    simp only [setItem]
    omega
  · exact h.told
  · exact h.called
  · intro hgone
    rw [show s.completion = false from hgone] at hcompletion
    cases hcompletion

/-- A claim goes on, and the completion has not been called yet. -/
theorem Sound.claimed (h : Sound s) (hcompletion : s.completion = true)
    (hsame : s'.completion = s.completion) (hcompletions : s'.completions = s.completions)
    (hfresh : s'.claims = .inbox ∨ s'.claims = .payments → s'.items = [])
    (hcounted : s'.pending = s'.items.countP ReconciliationItem.unfinished + s'.claims.rows)
    (htold : s'.claimsComplete = s'.claims.answered) (hopen : s'.claims ≠ .done) : Sound s' where
  fresh := hfresh
  counted := hcounted
  told _ := htold
  called := by
    rw [hcompletions, hsame]
    exact h.called
  last hgone := by
    rw [hsame, hcompletion] at hgone
    cases hgone
  due _ hdone := absurd hdone hopen

theorem inboxProcessed_sound {succeeds : Bool} (h : Sound s)
    (hstep : s.inboxProcessed succeeds = some next) : Sound (alone next.2 next.1) := by
  unfold inboxProcessed at hstep
  split at hstep
  case h_2 => cases hstep
  rename_i hclaims
  have hitems := h.fresh (Or.inl hclaims)
  have hcompletion : s.completion = true := h.running hclaims rfl
  have hcounted := h.counted
  rw [hitems, hclaims] at hcounted
  cases succeeds with
  | true =>
      cases hstep
      refine h.claimed hcompletion rfl rfl (fun _ => hitems) ?_ ?_ (by simp [alone])
      · simp only [alone, hitems]
        exact hcounted
      · simp only [alone, h.told hcompletion, hclaims]
        rfl
  | false =>
      cases hstep
      have hcalled := h.called
      rw [hcompletion, if_pos rfl] at hcalled
      simp only [alone, call, set, hcompletion, if_true]
      refine ⟨by simp, ?_, by simp, ?_, fun _ => ⟨hcounted, rfl⟩, by simp⟩
      · rw [hitems]
        exact hcounted
      · simp only [List.length_append, List.length_singleton, hcalled]
        rfl

theorem paymentsClaimed_sound {rows : Option ℕ} (h : Sound s)
    (hstep : s.paymentsClaimed rows = some next) : Sound (alone next.2 next.1) := by
  unfold paymentsClaimed at hstep
  have hcounted := h.counted
  split at hstep
  · rename_i rows hclaims
    split_ifs at hstep
    cases hstep
    have hcompletion : s.completion = true := h.running hclaims rfl
    rw [hclaims] at hcounted
    simp only [alone, set, get]
    refine h.claimed hcompletion rfl rfl (by simp) ?_ ?_ (by simp)
    · simp only [ClaimPhase.rows] at hcounted ⊢
      omega
    · exact (h.told_at hcompletion hclaims).trans rfl
  · rename_i hclaims
    cases hstep
    have hcompletion : s.completion = true := h.running hclaims rfl
    have hitems := h.fresh (Or.inr hclaims)
    rw [hclaims, hitems] at hcounted
    simp only [alone, set, get]
    refine finishOne_sound (by simp) ?_ (fun _ => rfl) h.called fun hgone => ?_
    · simp only [hitems, hcounted]
      rfl
    · exact absurd (hcompletion.symm.trans hgone) (by simp)
  · cases hstep

theorem refundsClaimed_sound {rows : Option (List Bool)} (h : Sound s)
    (hstep : s.refundsClaimed rows = some next) : Sound (alone next.2 next.1) := by
  unfold refundsClaimed at hstep
  have hcounted := h.counted
  split at hstep
  · rename_i rows hclaims
    split_ifs at hstep
    cases hstep
    have hcompletion : s.completion = true := h.running hclaims rfl
    rw [hclaims] at hcounted
    simp only [alone, set, get]
    refine h.claimed hcompletion rfl rfl (by simp) ?_ rfl (by simp)
    simp only [ClaimPhase.rows] at hcounted ⊢
    omega
  · rename_i hclaims
    cases hstep
    have hcompletion : s.completion = true := h.running hclaims rfl
    rw [hclaims] at hcounted
    simp only [alone, set, get]
    exact h.claimed hcompletion rfl rfl (by simp) hcounted rfl (by simp)
  · cases hstep

theorem countP_started (items : List ReconciliationItem) (kind : ReconciliationKind) :
    (items ++ [ReconciliationItem.mk kind .calling]).countP ReconciliationItem.unfinished =
      items.countP ReconciliationItem.unfinished + 1 := by
  rw [List.countP_append]
  rfl

theorem countP_skipped (items : List ReconciliationItem) (kind : ReconciliationKind) :
    (items ++ [ReconciliationItem.mk kind .finished]).countP ReconciliationItem.unfinished =
      items.countP ReconciliationItem.unfinished := by
  rw [List.countP_append]
  rfl

theorem startNext_sound (h : Sound s) (hstep : s.startNext = some next) :
    Sound (alone next.2 next.1) := by
  unfold startNext at hstep
  have hcounted := h.counted
  split at hstep
  · rename_i hclaims
    cases hstep
    have hcompletion : s.completion = true := h.running hclaims rfl
    rw [hclaims] at hcounted
    simp only [alone]
    refine h.claimed hcompletion rfl rfl (by simp) hcounted ?_ (by simp)
    exact (h.told_at hcompletion hclaims).trans rfl
  · rename_i rows hclaims
    cases hstep
    have hcompletion : s.completion = true := h.running hclaims rfl
    rw [hclaims] at hcounted
    simp only [alone]
    refine h.claimed hcompletion rfl rfl (by simp) ?_ ?_ (by simp)
    · simp only [countP_started, ClaimPhase.rows] at hcounted ⊢
      omega
    · exact (h.told_at hcompletion hclaims).trans rfl
  · rename_i hclaims
    cases hstep
    rw [hclaims] at hcounted
    simp only [alone]
    refine ⟨by simp, hcounted, fun hcompletion => ?_, h.called, fun hgone => ?_, by simp⟩
    · exact (h.told_at hcompletion hclaims).trans rfl
    · exact ⟨(h.last hgone).1, rfl⟩
  · rename_i rows hclaims
    cases hstep
    rw [hclaims, ClaimPhase.rows, List.length_cons] at hcounted
    have hcompletion : s.completion = true := h.uncalled (Or.inr (by omega))
    simp only [alone]
    refine h.claimed hcompletion rfl rfl (by simp) ?_ ?_ (by simp)
    · simp only [countP_started, ClaimPhase.rows]
      omega
    · exact (h.told_at hcompletion hclaims).trans rfl
  · rename_i rows hclaims
    cases hstep
    rw [hclaims, ClaimPhase.rows, List.length_cons] at hcounted
    have hcompletion : s.completion = true := h.uncalled (Or.inr (by omega))
    simp only [alone, set, get]
    refine finishOne_sound (by simp) ?_ (fun _ => ?_) h.called fun hgone => ?_
    · simp only [countP_skipped, ClaimPhase.rows]
      omega
    · exact (h.told_at hcompletion hclaims).trans rfl
    · exact absurd (hcompletion.symm.trans hgone) (by simp)
  · cases hstep

theorem check_sound (h : Sound s) (hstep : s.check = some next) : Sound (alone next.2 next.1) := by
  unfold check at hstep
  split at hstep
  case h_2 => cases hstep
  rename_i hclaims
  have hcounted := h.counted
  rw [hclaims] at hcounted
  have htold : s.completion = true → s.claimsComplete = true := by
    intro hcompletion
    exact (h.told_at hcompletion hclaims).trans rfl
  cases hstep
  by_cases hpending : s.pending = 0
  · have hzero : s.pending - 1 = 0 := by rw [hpending]
    rw [alone, if_pos hpending]
    refine finishOne_sound (by simp) ?_ htold h.called fun _ => ⟨hzero, rfl⟩
    simp only [ClaimPhase.rows] at hcounted ⊢
    omega
  · rw [alone, if_neg hpending]
    exact ⟨by simp, hcounted, htold, h.called, fun hgone => ⟨(h.last hgone).1, rfl⟩,
      fun _ _ => hpending⟩

theorem updateCounter_ne (item : ReconciliationItem) (updated : Option ℕ) :
    updateCounter item updated ≠ some .pending := by
  unfold updateCounter
  split
  · simp
  · simp
  · split_ifs <;> simp
  · simp

/-- The answer to an update ends an item that goes on. -/
theorem updateAnswered_ends {i : ℕ} {updated : Option ℕ}
    (hstep : s.updateAnswered i updated = some next) : ∃ item counter,
      s.items[i]? = some item ∧ item.phase ≠ .finished ∧ counter ≠ some .pending ∧
        next = s.endItem i item counter := by
  unfold updateAnswered at hstep
  split at hstep
  case h_2 => cases hstep
  rename_i item hitem
  split_ifs at hstep with hphase
  cases hstep
  refine ⟨item, _, hitem, ?_, updateCounter_ne item updated, rfl⟩
  rcases hphase with hphase | hphase <;> rw [hphase] <;> simp

theorem lifecycleAnswered_ends {i : ℕ} {failed : Bool}
    (hstep : s.lifecycleAnswered i failed = some next) : ∃ item counter,
      s.items[i]? = some item ∧ item.phase ≠ .finished ∧ counter ≠ some .pending ∧
        next = s.endItem i item counter := by
  unfold lifecycleAnswered at hstep
  split at hstep
  case h_2 => cases hstep
  rename_i item hitem
  by_cases hphase : item.phase = .completing
  · rw [if_pos hphase] at hstep
    cases hstep
    refine ⟨item, _, hitem, ?_, ?_, rfl⟩
    · rw [hphase]
      simp
    · cases failed <;> simp
  · rw [if_neg hphase] at hstep
    cases hstep

/-- A callback that nothing comes between keeps the counter right. -/
theorem Sound.called_back (h : Sound s) {event : RoundEvent}
    (hstep : s.callback event = some next) : Sound (alone next.2 next.1) := by
  cases event with
  | inboxProcessed succeeds => exact inboxProcessed_sound h hstep
  | paymentsClaimed rows => exact paymentsClaimed_sound h hstep
  | refundsClaimed rows => exact refundsClaimed_sound h hstep
  | startNext => exact startNext_sound h hstep
  | check => exact check_sound h hstep
  | providerAnswered i answer =>
      simp only [callback, providerAnswered] at hstep
      split at hstep
      case h_2 => cases hstep
      rename_i kind hitem
      cases answer with
      | failed =>
          cases hstep
          cases kind with
          | payment =>
              exact h.moved { s.summary with retried := s.summary.retried + 1 } hitem (by simp)
                (by simp)
          | refund => exact h.moved s.summary hitem (by simp) (by simp)
      | terminal =>
          cases hstep
          exact h.moved s.summary hitem (by simp) (by simp)
      | processing =>
          cases hstep
          exact h.moved s.summary hitem (by simp) (by simp)
  | updateAnswered i updated =>
      obtain ⟨item, counter, hitem, hitemOpen, hcounter, rfl⟩ := updateAnswered_ends hstep
      exact h.ended hcounter hitem hitemOpen
  | lifecycleAnswered i failed =>
      obtain ⟨item, counter, hitem, hitemOpen, hcounter, rfl⟩ := lifecycleAnswered_ends hstep
      exact h.ended hcounter hitem hitemOpen

end Invariant

end RunState

def ItemPhase.weight : ItemPhase → ℕ
  | .calling => 2
  | .finished => 0
  | _ => 1

theorem ItemPhase.weight_pos (phase : ItemPhase) (hopen : phase ≠ .finished) :
    0 < phase.weight := by
  cases phase with
  | calling => exact Nat.two_pos
  | finished => exact absurd rfl hopen
  | _ => exact Nat.one_pos

/-- A bound on the callbacks of the claims, and of the items they start, that are still to come. -/
def ClaimPhase.weight (batchSize : ℕ) : ClaimPhase → ℕ
  | .inbox => 6 * batchSize + 6
  | .payments => 6 * batchSize + 5
  | .startingPayments rows => 3 * rows + 3 * batchSize + 4
  | .refunds => 3 * batchSize + 3
  | .startingRefunds rows => 3 * rows.length + 2
  | .checking => 1
  | .done => 0

/-- A bound on the accesses that come of one. -/
def Access.weight : Access → ℕ
  | .add _ _ => 2
  | .whenPending => 3
  | .lower => 2
  | .take => 3
  | _ => 1

namespace RunState

def remaining (s : RunState) : ℕ :=
  s.claims.weight s.batchSize + (s.items.map fun item => item.phase.weight).sum

def cost (accesses : List Access) : ℕ := (accesses.map Access.weight).sum

section Bounds

variable {s s' : RunState} {next : RunState × List Access}

@[simp] theorem cost_nil : cost [] = 0 := rfl

@[simp] theorem cost_cons (access : Access) (rest : List Access) :
    cost (access :: rest) = access.weight + cost rest := rfl

theorem cost_perform (s : RunState) (rest : List Access) (access : Access) :
    cost (s.perform rest access).2 < cost (access :: rest) := by
  cases access <;> simp only [perform] <;> try split_ifs
  all_goals simp only [cost_cons, cost_nil, Access.weight]
  all_goals omega

theorem Extends.remaining (h : s.Extends s') : s'.remaining = s.remaining := by
  unfold RunState.remaining
  rw [h.batchSize, h.claims, h.items]

theorem remaining_setItem {i : ℕ} {item : ReconciliationItem} (hitem : s.items[i]? = some item)
    (phase : ItemPhase) :
    (s.setItem i item phase).remaining + item.phase.weight = s.remaining + phase.weight := by
  have hsum := sum_map_set (fun item : ReconciliationItem => item.phase.weight) hitem
    { item with phase := phase }
  unfold remaining setItem
  simp only at hsum ⊢
  omega

/-- A callback is one of those to come, with a bounded number of accesses, and calls nothing
before the first of them. -/
structure Begun (s : RunState) (next : RunState × List Access) : Prop where
  remaining : next.1.remaining < s.remaining
  cost : cost next.2 ≤ 12
  completions : next.1.completions = s.completions

theorem begun_endItem {i : ℕ} {item : ReconciliationItem} (hitem : s.items[i]? = some item)
    (hopen : 0 < item.phase.weight) (counter : Option Counter) :
    s.Begun (s.endItem i item counter) := by
  refine ⟨?_, ?_, rfl⟩
  · have hset := remaining_setItem hitem .finished
    simp only [ItemPhase.weight] at hset hopen
    show (s.setItem i item .finished).remaining < s.remaining
    omega
  · cases counter <;> simp [endItem, finishOne, cost, Access.weight]

theorem begun_callback {event : RoundEvent} (hstep : s.callback event = some next) :
    s.Begun next := by
  cases event with
  | inboxProcessed succeeds =>
      simp only [callback, inboxProcessed] at hstep
      split at hstep
      case h_2 => cases hstep
      rename_i hclaims
      split_ifs at hstep <;> cases hstep <;> refine ⟨?_, by simp [Access.weight], rfl⟩ <;>
        simp only [remaining, hclaims, ClaimPhase.weight] <;> omega
  | paymentsClaimed rows =>
      simp only [callback, paymentsClaimed] at hstep
      split at hstep
      · rename_i rows hclaims
        split_ifs at hstep with hlimit
        cases hstep
        refine ⟨?_, by simp [Access.weight], rfl⟩
        simp only [remaining, hclaims, ClaimPhase.weight]
        omega
      · rename_i hclaims
        cases hstep
        refine ⟨?_, by simp [finishOne, Access.weight], rfl⟩
        simp only [remaining, hclaims, ClaimPhase.weight]
        omega
      · cases hstep
  | refundsClaimed rows =>
      simp only [callback, refundsClaimed] at hstep
      split at hstep
      · rename_i rows hclaims
        split_ifs at hstep with hlimit
        cases hstep
        refine ⟨?_, by simp [Access.weight], rfl⟩
        simp only [remaining, hclaims, ClaimPhase.weight]
        omega
      · rename_i hclaims
        cases hstep
        refine ⟨?_, by simp [Access.weight], rfl⟩
        simp only [remaining, hclaims, ClaimPhase.weight]
        omega
      · cases hstep
  | startNext =>
      simp only [callback, startNext] at hstep
      split at hstep
      case h_6 => cases hstep
      all_goals
        rename_i hclaims
        cases hstep
        refine ⟨?_, by simp [finishOne, Access.weight], rfl⟩
        simp only [remaining, hclaims, ClaimPhase.weight, ItemPhase.weight, List.map_append,
          List.sum_append, List.map_cons, List.map_nil, List.sum_singleton, List.length_cons,
          List.length_nil]
        omega
  | check =>
      simp only [callback, check] at hstep
      split at hstep
      case h_2 => cases hstep
      rename_i hclaims
      cases hstep
      refine ⟨?_, by simp [finishOne, Access.weight], rfl⟩
      simp only [remaining, hclaims, ClaimPhase.weight]
      omega
  | providerAnswered i answer =>
      simp only [callback, providerAnswered] at hstep
      split at hstep
      case h_2 => cases hstep
      rename_i kind hitem
      cases answer with
      | failed =>
          cases hstep
          have hset := remaining_setItem hitem .releasing
          simp only [ItemPhase.weight] at hset
          refine ⟨by simp only; omega, ?_, rfl⟩
          simp only
          split_ifs <;> simp [Access.weight]
      | terminal =>
          cases hstep
          have hset := remaining_setItem hitem .completing
          simp only [ItemPhase.weight] at hset
          exact ⟨by simp only; omega, Nat.zero_le _, rfl⟩
      | processing =>
          cases hstep
          have hset := remaining_setItem hitem .recording
          simp only [ItemPhase.weight] at hset
          exact ⟨by simp only; omega, Nat.zero_le _, rfl⟩
  | updateAnswered i updated =>
      obtain ⟨item, counter, hitem, hitemOpen, -, rfl⟩ := updateAnswered_ends hstep
      exact begun_endItem hitem (item.phase.weight_pos hitemOpen) counter
  | lifecycleAnswered i failed =>
      obtain ⟨item, counter, hitem, hitemOpen, -, rfl⟩ := lifecycleAnswered_ends hstep
      exact begun_endItem hitem (item.phase.weight_pos hitemOpen) counter

/-- When no callback is left the completion has been called. -/
theorem Sound.completes (h : Sound s) (hquiet : ∀ event, s.callback event = none) :
    s.completions.length = 1 := by
  have hdone : s.claims = .done := by
    cases hclaims : s.claims with
    | inbox =>
        have hstuck := hquiet (.inboxProcessed true)
        simp [callback, inboxProcessed, hclaims] at hstuck
    | payments =>
        have hstuck := hquiet (.paymentsClaimed none)
        simp [callback, paymentsClaimed, hclaims] at hstuck
    | startingPayments rows =>
        have hstuck := hquiet .startNext
        cases rows <;> simp [callback, startNext, hclaims] at hstuck
    | refunds =>
        have hstuck := hquiet (.refundsClaimed none)
        simp [callback, refundsClaimed, hclaims] at hstuck
    | startingRefunds rows =>
        have hstuck := hquiet .startNext
        rcases rows with - | ⟨_ | _, rows⟩ <;> simp [callback, startNext, hclaims] at hstuck
    | checking =>
        have hstuck := hquiet .check
        simp [callback, check, hclaims] at hstuck
    | done => rfl
  have hitems : s.items.countP ReconciliationItem.unfinished = 0 := by
    rw [List.countP_eq_zero]
    intro item hmem hunfinished
    obtain ⟨i, hitem⟩ := List.mem_iff_getElem?.mp hmem
    obtain ⟨kind, phase⟩ := item
    cases phase with
    | calling =>
        have hstuck := hquiet (.providerAnswered i .terminal)
        simp [callback, providerAnswered, hitem] at hstuck
    | releasing =>
        have hstuck := hquiet (.updateAnswered i none)
        simp [callback, updateAnswered, hitem] at hstuck
    | completing =>
        have hstuck := hquiet (.lifecycleAnswered i true)
        simp [callback, lifecycleAnswered, hitem] at hstuck
    | recording =>
        have hstuck := hquiet (.updateAnswered i none)
        simp [callback, updateAnswered, hitem] at hstuck
    | finished => cases hunfinished
  have hpending : s.pending = 0 := by
    rw [h.counted, hitems, hdone]
    rfl
  have hcompletion : s.completion = false := by
    by_contra hopen
    exact h.due (by simpa using hopen) hdone hpending
  rw [h.called, hcompletion]
  rfl

end Bounds

end RunState

namespace Round

open RunState

/-- The state once the open callbacks have made their accesses. -/
def settled (round : Round) : RunState :=
  round.opened.foldl (fun s callback => alone callback.accesses s) round.state

def remaining (round : Round) : ℕ :=
  13 * round.state.remaining + (round.opened.map fun callback => cost callback.accesses).sum

/-- One callback at most is in the middle of its accesses, and without it all is right. -/
structure Sound (round : Round) : Prop where
  single : round.opened.length ≤ 1
  busy : ∀ callback ∈ round.opened, callback.accesses ≠ []
  settled : round.settled.Sound

section Rounds

variable {round next : Round}

theorem start_sound (batchSize : ℕ) : (start batchSize).Sound where
  single := Nat.zero_le 1
  busy _ h := absurd h List.not_mem_nil
  settled := RunState.start_sound batchSize

theorem extends_settled (round : Round) : round.state.Extends round.settled := by
  have hfold : ∀ (opened : List OpenCallback) (s : RunState),
      s.Extends (opened.foldl (fun s callback => alone callback.accesses s) s) := by
    intro opened
    induction opened with
    | nil => exact Extends.refl
    | cons callback opened ih => exact fun s => (extends_alone callback.accesses s).trans (ih _)
  exact hfold round.opened round.state

theorem sum_remains (owner : Option ℕ) (accesses : List Access) :
    ((remains owner accesses).map fun callback => cost callback.accesses).sum = cost accesses := by
  cases accesses <;> simp [remains]

theorem remains_sound (s : RunState) (owner : Option ℕ) {accesses : List Access}
    (h : (alone accesses s).Sound) : Sound { state := s, opened := remains owner accesses } := by
  cases accesses with
  | nil => exact ⟨Nat.zero_le 1, fun _ hmem => absurd hmem List.not_mem_nil, h⟩
  | cons access rest =>
      refine ⟨le_rfl, fun callback hmem => ?_, h⟩
      rw [List.mem_singleton.mp hmem]
      exact List.cons_ne_nil _ _

/-- Each access, and each callback that begins apart from the others, keeps the round right. -/
theorem Sound.stepped (h : Sound round) {event : RoundStep} (hapart : round.Apart event)
    (hstep : round.step event = some next) : Sound next := by
  cases event with
  | begin event =>
      have hopened : round.opened = [] := hapart
      have hsettled : round.settled = round.state := by
        unfold Round.settled
        rw [hopened]
        rfl
      simp only [step, hopened, List.any_nil, Bool.false_eq_true, if_false, List.nil_append] at hstep
      obtain ⟨begun, hbegun, rfl⟩ := Option.map_eq_some_iff.mp hstep
      exact remains_sound begun.1 event.owner ((hsettled ▸ h.settled).called_back hbegun)
  | access index =>
      simp only [step] at hstep
      split at hstep
      case h_2 => cases hstep
      rename_i owner access rest hopened
      have hsingle := h.single
      obtain ⟨hindex, -⟩ := List.getElem?_eq_some_iff.mp hopened
      have hzero : index = 0 := by omega
      subst hzero
      have hone : round.opened = [⟨owner, access :: rest⟩] := by
        cases hlist : round.opened with
        | nil =>
            rw [hlist] at hopened
            cases hopened
        | cons first others =>
            rw [hlist] at hopened hsingle
            cases hopened
            cases others with
            | nil => rfl
            | cons second others => exact absurd hsingle (by simp)
      have hsettled : round.settled = alone (access :: rest) round.state := by
        unfold Round.settled
        rw [hone]
        rfl
      have hsound := h.settled
      rw [hsettled, ← alone_perform] at hsound
      cases hstep
      simp only [hone, List.take_zero, List.nil_append, zero_add, List.drop_succ_cons,
        List.drop_zero, List.append_nil]
      exact remains_sound _ owner hsound

theorem completions_step {event : RoundStep} (hstep : round.step event = some next) :
    round.state.completions <+: next.state.completions := by
  cases event with
  | begin event =>
      simp only [step] at hstep
      split_ifs at hstep
      obtain ⟨begun, hbegun, rfl⟩ := Option.map_eq_some_iff.mp hstep
      simp only [(begun_callback hbegun).completions]
      exact List.prefix_refl _
  | access index =>
      simp only [step] at hstep
      split at hstep
      case h_2 => cases hstep
      cases hstep
      exact (extends_perform _ _ _).completions

/-- Every callback and every access brings the round closer to its end. -/
theorem remaining_lt {event : RoundStep} (hstep : round.step event = some next) :
    next.remaining < round.remaining := by
  cases event with
  | begin event =>
      simp only [step] at hstep
      split_ifs at hstep
      obtain ⟨begun, hbegun, rfl⟩ := Option.map_eq_some_iff.mp hstep
      obtain ⟨hremaining, hcost, -⟩ := begun_callback hbegun
      simp only [remaining, List.map_append, List.sum_append, sum_remains]
      omega
  | access index =>
      simp only [step] at hstep
      split at hstep
      case h_2 => cases hstep
      rename_i owner access rest hopened
      cases hstep
      obtain ⟨hindex, hget⟩ := List.getElem?_eq_some_iff.mp hopened
      have hcost := cost_perform round.state rest access
      have hsame := (extends_perform round.state rest access).remaining
      have hsplit := congrArg (fun opened : List OpenCallback =>
        (opened.map fun callback => cost callback.accesses).sum)
        (List.take_append_drop index round.opened)
      rw [List.drop_eq_getElem_cons hindex, hget] at hsplit
      simp only [List.map_append, List.map_cons, List.sum_append, List.sum_cons] at hsplit
      simp only [remaining, List.map_append, List.sum_append, sum_remains, hsame]
      omega

/-- The completion of the round is called once at most, and when it is, all claims are answered
and every claimed item has ended. The round takes a bounded number of steps, and when its
callbacks stayed apart and none is left, the completion has been called. -/
structure EndsOnce (round : Round) : Prop where
  once : round.state.completions.length ≤ 1
  last : round.state.completions ≠ [] → round.state.claims.answered = true ∧
    round.state.claims.rows = 0 ∧ ∀ item ∈ round.state.items, item.phase = .finished
  ends : ∀ events t, run step events round = some t → Through step Apart events round →
    events.length ≤ round.remaining ∧
      (Quiet step (fun _ => True) t → t.state.completions.length = 1)

/-- No step that keeps the callbacks apart is left. -/
theorem Sound.completes (h : Sound round)
    (hquiet : Quiet (guarded step Apart) (fun _ => True) round) :
    round.state.completions.length = 1 := by
  have hopened : round.opened = [] := by
    cases hlist : round.opened with
    | nil => rfl
    | cons callback others =>
        have hstuck := hquiet (.access 0) trivial
        have hbusy := h.busy callback (hlist ▸ List.mem_cons_self)
        obtain ⟨owner, accesses⟩ := callback
        cases accesses with
        | nil => exact absurd rfl hbusy
        | cons access rest => simp [guarded, Apart, step, hlist] at hstuck
  have hsettled := h.settled
  rw [show round.settled = round.state by unfold Round.settled; rw [hopened]; rfl] at hsettled
  refine hsettled.completes fun event => ?_
  have hstuck := hquiet (.begin event) trivial
  simpa [guarded, Apart, step, hopened] using hstuck

theorem Sound.endsOnce (h : Sound round) : EndsOnce round := by
  have hextends := round.extends_settled
  have honce : round.settled.completions.length ≤ 1 := by
    rw [h.settled.called]
    split_ifs <;> omega
  refine ⟨hextends.completions.length_le.trans honce, fun hcalled => ?_,
    fun events t hrun hthrough => ⟨?_, ?_⟩⟩
  · have hsettledCalled : round.settled.completions ≠ [] := fun hnone =>
      hcalled (List.prefix_nil.mp (hnone ▸ hextends.completions))
    have hcompletion : round.settled.completion = false := by
      by_contra hopen
      have hcount := h.settled.called
      rw [if_pos (by simpa using hopen)] at hcount
      exact hsettledCalled (List.length_eq_zero_iff.mp hcount)
    obtain ⟨hpending, hanswered⟩ := h.settled.last hcompletion
    have hcounted := h.settled.counted
    have hitems : round.settled.items.countP ReconciliationItem.unfinished = 0 := by omega
    rw [hextends.claims] at hanswered hcounted
    rw [hextends.items] at hitems hcounted
    refine ⟨hanswered, by omega, fun item hmem => ?_⟩
    by_contra hphase
    exact List.countP_eq_zero.mp hitems item hmem (decide_eq_true hphase)
  · have hbound : events.length + t.remaining ≤ round.remaining :=
      @run_bounded Round RoundStep step (fun _ => True) (fun _ => True) remaining
        (fun _ _ _ _ _ => trivial) (fun _ _ _ _ _ hstep => remaining_lt hstep) events round t trivial
        (fun _ _ => trivial) hrun
    exact (Nat.le_add_right _ _).trans hbound
  · have hsound : Sound t := run_invariant
      (fun _ _ _ hs hstep => hs.stepped (guarded_eq_some.mp hstep).1 (guarded_eq_some.mp hstep).2) h
      (run_guarded.mpr ⟨hrun, hthrough⟩)
    refine fun hquiet => hsound.completes fun event _ => ?_
    unfold guarded
    split_ifs
    · exact hquiet event trivial
    · rfl

end Rounds

end Round

end Ticketing
