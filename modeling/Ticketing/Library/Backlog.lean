import Mathlib.Data.List.Sort
import Mathlib.Tactic
import Ticketing.Library.Trace

/-!
# A backlog worked off in bounded batches

A round takes the first pending items of a queue, up to a limit. Items that are
stuck never leave. Any other item leaves within as many rounds as the queue is
long, unless the stuck items before it fill the batch.
-/

namespace Backlog

open Transition

variable {α : Type}

/-- A stable sort of the items that qualify keeps the order of the sort of all items. -/
theorem filter_mergeSort (le : α → α → Bool) (trans : ∀ a b c, le a b → le b c → le a c)
    (total : ∀ a b, (le a b || le b a) = true) (p : α → Bool) (items : List α) :
    (items.mergeSort le).filter p = (items.filter p).mergeSort le := by
  induction items with
  | nil => simp
  | cons a items ih =>
      obtain ⟨before, after, hsort, hrest, hbefore⟩ := List.mergeSort_cons trans total a items
      have hafter : ∀ b ∈ after, le a b = true := by
        have hsorted := List.pairwise_mergeSort trans total (a :: items)
        rw [hsort, List.pairwise_append] at hsorted
        intro b hb
        exact (List.pairwise_cons.mp hsorted.2.1).1 b hb
      have hfilter : before.filter p ++ after.filter p = (items.filter p).mergeSort le := by
        rw [← ih, hrest, List.filter_append]
      by_cases hp : p a = true
      · obtain ⟨before', after', hsort', hrest', hbefore'⟩ :=
          List.mergeSort_cons trans total a (items.filter p)
        have hafter' : ∀ b ∈ after', le a b = true := by
          have hsorted := List.pairwise_mergeSort trans total (a :: items.filter p)
          rw [hsort', List.pairwise_append] at hsorted
          intro b hb
          exact (List.pairwise_cons.mp hsorted.2.1).1 b hb
        -- Both sorts split at the items that `a` does not precede.
        have hparts : before.filter p ++ after.filter p = before' ++ after' := by
          rw [hfilter, hrest']
        have hfront : before.filter p = before' := by
          have hleft : (before.filter p).filter (fun b => !le a b) = before.filter p :=
            List.filter_eq_self.mpr fun b hb => hbefore b (List.mem_filter.mp hb).1
          have hleft' : (after.filter p).filter (fun b => !le a b) = [] :=
            List.filter_eq_nil_iff.mpr fun b hb => by simp [hafter b (List.mem_filter.mp hb).1]
          have hright : before'.filter (fun b => !le a b) = before' :=
            List.filter_eq_self.mpr hbefore'
          have hright' : after'.filter (fun b => !le a b) = [] :=
            List.filter_eq_nil_iff.mpr fun b hb => by simp [hafter' b hb]
          have h := congrArg (List.filter fun b => !le a b) hparts
          rwa [List.filter_append, List.filter_append, hleft, hleft', hright, hright',
            List.append_nil, List.append_nil] at h
        have hback : after.filter p = after' := by
          rw [hfront] at hparts
          exact List.append_cancel_left hparts
        rw [List.filter_cons_of_pos hp, hsort, hsort', List.filter_append,
          List.filter_cons_of_pos hp, hfront, hback]
      · rw [List.filter_cons_of_neg hp, hsort, List.filter_append, List.filter_cons_of_neg hp,
          hfilter]

def batch (limit : ℕ) (pending : α → Bool) (queue : List α) : List α :=
  (queue.filter pending).take limit

/-- What one round on the queue may change. -/
structure Round (limit : ℕ) (stuck : α → Bool) (queue : List α) (pending pending' : α → Bool) :
    Prop where
  shrinks : ∀ a ∈ queue, pending' a = true → pending a = true
  waits : ∀ a ∈ queue, pending a = true → a ∉ batch limit pending queue → pending' a = true
  stays : ∀ a ∈ queue, stuck a = true → pending a = true → pending' a = true
  moves : ∀ a ∈ batch limit pending queue, stuck a = false →
    ∃ b ∈ batch limit pending queue, pending' b = false

/-- The number of stuck items before an item of the queue. -/
def crowd [DecidableEq α] (stuck : α → Bool) (queue : List α) (a : α) : ℕ :=
  (queue.takeWhile fun b => decide (b ≠ a)).countP stuck

variable {limit : ℕ} {stuck : α → Bool} {queue : List α} {pending pending' : α → Bool}

theorem Round.length_lt (h : Round limit stuck queue pending pending') {b : α} (hb : b ∈ queue)
    (hbefore : pending b = true) (hafter : pending' b = false) :
    (queue.filter pending').length < (queue.filter pending).length := by
  have hsub : (queue.filter pending').Sublist (queue.filter pending) := by
    rw [show queue.filter pending' = (queue.filter pending).filter pending' by
      rw [List.filter_filter]
      refine List.filter_congr fun a ha => ?_
      by_cases hp : pending' a = true
      · simp [hp, h.shrinks a ha hp]
      · simp [hp]]
    exact List.filter_sublist
  refine lt_of_le_of_ne hsub.length_le fun heq => ?_
  have hmem : b ∈ queue.filter pending' := by
    rw [hsub.eq_of_length heq]
    exact List.mem_filter.mpr ⟨hb, hbefore⟩
  rw [(List.mem_filter.mp hmem).2] at hafter
  cases hafter

section Crowd

variable [DecidableEq α]

theorem queue_split {a : α} (ha : a ∈ queue) :
    ∃ later, queue = (queue.takeWhile fun b => decide (b ≠ a)) ++ a :: later := by
  induction queue with
  | nil => cases ha
  | cons b queue ih =>
      by_cases hb : b = a
      · subst b
        exact ⟨queue, by simp⟩
      · obtain ⟨later, hlater⟩ := ih ((List.mem_cons.mp ha).resolve_left (Ne.symm hb))
        refine ⟨later, ?_⟩
        rw [List.takeWhile_cons_of_pos (by simpa using hb), List.cons_append]
        exact congrArg (b :: ·) hlater

/-- While an item waits that is neither stuck nor crowded out, the batch has an item that is not
stuck. -/
theorem exists_moving {a : α} (ha : a ∈ queue) (hp : pending a = true) (hstuck : stuck a = false)
    (hcrowd : crowd stuck queue a < limit) :
    ∃ b ∈ batch limit pending queue, stuck b = false := by
  obtain ⟨later, hqueue⟩ := queue_split ha
  unfold crowd at hcrowd
  generalize (queue.takeWhile fun b => decide (b ≠ a)) = before at hqueue hcrowd
  unfold batch
  rw [hqueue, List.filter_append, List.filter_cons_of_pos hp]
  by_cases hfirst : ∃ b ∈ (before.filter pending).take limit, stuck b = false
  · obtain ⟨b, hb, hmoves⟩ := hfirst
    exact ⟨b, by rw [List.take_append]; exact List.mem_append_left _ hb, hmoves⟩
  · have hall : ∀ b ∈ (before.filter pending).take limit, stuck b = true := by
      intro b hb
      by_contra hne
      exact hfirst ⟨b, hb, by simpa using hne⟩
    have hcount : ((before.filter pending).take limit).length ≤ before.countP stuck := by
      have hsub : ((before.filter pending).take limit).Sublist before :=
        (List.take_sublist _ _).trans List.filter_sublist
      rw [← List.countP_eq_length.mpr hall]
      exact hsub.countP_le
    have hshort : (before.filter pending).length < limit := by
      rw [List.length_take] at hcount
      omega
    refine ⟨a, ?_, hstuck⟩
    rw [List.take_append, List.take_of_length_le hshort.le]
    refine List.mem_append_right _ ?_
    obtain ⟨k, hk⟩ := Nat.exists_eq_add_of_lt hshort
    rw [show limit - (before.filter pending).length = k + 1 by omega, List.take_succ_cons]
    exact List.mem_cons_self

/-- A full crowd of stuck items keeps what is behind it out of the batch. -/
theorem Round.keeps (h : Round limit stuck queue pending pending') {a : α}
    (ha : a ∈ queue) (hcrowd : limit ≤ crowd stuck queue a)
    (hstuck : ∀ b ∈ queue, stuck b = true → pending b = true) (hp : pending a = true) :
    pending' a = true := by
  refine h.waits a ha hp fun hbatch => ?_
  obtain ⟨later, hqueue⟩ := queue_split ha
  have hbefore : a ∉ queue.takeWhile fun b => decide (b ≠ a) := by
    intro hmem
    have hne := List.all_eq_true.mp (List.all_takeWhile (p := fun b => decide (b ≠ a))) a hmem
    simp at hne
  unfold crowd at hcrowd
  generalize (queue.takeWhile fun b => decide (b ≠ a)) = before at hqueue hcrowd hbefore
  subst hqueue
  have hlong : limit ≤ (before.filter pending).length := by
    refine hcrowd.trans ?_
    rw [← List.countP_eq_length_filter]
    exact List.countP_mono_left fun b hb => hstuck b (List.mem_append_left _ hb)
  unfold batch at hbatch
  rw [List.filter_append, List.take_append_of_le_length hlong] at hbatch
  exact hbefore (List.mem_filter.mp (List.mem_of_mem_take hbatch)).1

variable {ℓ : Type} {rounds : List ℓ}

/-- An item that is neither stuck nor crowded out leaves within as many rounds as items wait. -/
theorem leaves (h : Trace (fun _ : ℓ => Round limit stuck queue) pending rounds pending') {a : α}
    (ha : a ∈ queue) (hstuck : stuck a = false) (hcrowd : crowd stuck queue a < limit)
    (hlong : (queue.filter pending).length ≤ rounds.length) : pending' a = false := by
  by_contra hstill
  have hpending' : pending' a = true := by simpa using hstill
  have hmeasure : pending a = true ∧
      (queue.filter pending').length + rounds.length ≤ (queue.filter pending).length := by
    clear hlong hstill
    induction h with
    | nil => exact ⟨hpending', le_rfl⟩
    | cons head _ ih =>
        obtain ⟨hp, hlen⟩ := ih hpending'
        have hp' := head.shrinks a ha hp
        obtain ⟨b, hb, hmoves⟩ := exists_moving ha hp' hstuck hcrowd
        obtain ⟨c, hc, hgone⟩ := head.moves b hb hmoves
        obtain ⟨hcq, hcp⟩ := List.mem_filter.mp (List.mem_of_mem_take hc)
        have hlt := head.length_lt hcq hcp hgone
        rw [List.length_cons]
        exact ⟨hp', by omega⟩
  have hpos : 0 < (queue.filter pending').length :=
    List.length_pos_of_mem (List.mem_filter.mpr ⟨ha, hpending'⟩)
  omega

/-- An item behind a full crowd of stuck items never leaves. -/
theorem never_leaves (h : Trace (fun _ : ℓ => Round limit stuck queue) pending rounds pending')
    {a : α} (ha : a ∈ queue) (hcrowd : limit ≤ crowd stuck queue a)
    (hstuck : ∀ b ∈ queue, stuck b = true → pending b = true) (hp : pending a = true) :
    pending' a = true := by
  induction h with
  | nil => exact hp
  | cons head _ ih =>
      apply ih
      · intro b hb hb'
        exact head.stays b hb hb' (hstuck b hb hb')
      · exact head.keeps ha hcrowd hstuck hp

end Crowd
end Backlog
