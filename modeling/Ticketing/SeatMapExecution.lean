import Ticketing.SeatMapExecutor

/-!
# Every accepted seat-map task is executed once

The tasks are counted from the queue to the end of their work. Workers exit from an empty queue
only, so a shutdown returns after the last task; and no worker sleeps through a task that waits.
-/

namespace Ticketing

open Threads

/-- The task of the call is in the queue, or was. -/
def SubmitPhase.accepts : SubmitPhase → Bool
  | .queued => true
  | .returned accepted => accepted
  | _ => false

namespace SeatMapComputeExecutor

def accepted (e : SeatMapComputeExecutor) (id : ℕ) : Bool :=
  (e.submissions[id]?).any SubmitPhase.accepts

/-- Every accepted task is in the queue or was started, once; a task that was started is being
worked on or has ended; one that has failed is being handled or was. -/
structure Accounted (e : SeatMapComputeExecutor) : Prop where
  bounded : e.queue.length ≤ e.capacity
  placed : ∀ id, e.queue.count id + e.started.count id = if e.accepted id then 1 else 0
  worked : ∀ id, e.workers.count (.working id) + e.completed.count id + e.failed.count id =
    e.started.count id
  handled : ∀ id, e.workers.count (.handling id) + e.handled.count id = e.failed.count id

section Accounts

variable {e e' : SeatMapComputeExecutor}

theorem accepted_set {submissions : List SubmitPhase} {call : ℕ} {old new : SubmitPhase}
    (found : submissions[call]? = some old) (id : ℕ) :
    ((submissions.set call new)[id]?).any SubmitPhase.accepts =
      if id = call then new.accepts else (submissions[id]?).any SubmitPhase.accepts := by
  split_ifs with hid
  · rw [hid, getElem?_set_self found new]
    rfl
  · rw [getElem?_set_of_ne hid new]

theorem accepted_of_set {call : ℕ} {old new : SubmitPhase}
    (found : e.submissions[call]? = some old) (hsame : new.accepts = old.accepts) (id : ℕ) :
    ((e.submissions.set call new)[id]?).any SubmitPhase.accepts = e.accepted id := by
  rw [accepted_set found]
  split_ifs with hid
  · unfold accepted
    rw [hid, found]
    exact hsame
  · rfl

/-- A call of `trySubmit` that goes on without the queue. -/
theorem Accounted.resubmitted {submissions : List SubmitPhase} (h : Accounted e)
    (hsame : ∀ id, (submissions[id]?).any SubmitPhase.accepts = e.accepted id) :
    Accounted { e with submissions := submissions } where
  bounded := h.bounded
  placed := by
    intro id
    unfold accepted
    rw [hsame]
    exact h.placed id
  worked := h.worked
  handled := h.handled

/-- A worker that goes on without a task. -/
theorem Accounted.moved {worker : ℕ} {old new : WorkerPhase} (h : Accounted e)
    (found : e.workers[worker]? = some old)
    (hold : ∀ item, old ≠ .working item ∧ old ≠ .handling item)
    (hnew : ∀ item, new ≠ .working item ∧ new ≠ .handling item) :
    Accounted (e.setWorker worker new) where
  bounded := h.bounded
  placed := h.placed
  worked := by
    intro id
    have hcount := count_set found new (.working id)
    rw [if_neg (hold id).1, if_neg (hnew id).1] at hcount
    have hsum := h.worked id
    simp only [setWorker]
    omega
  handled := by
    intro id
    have hcount := count_set found new (.handling id)
    rw [if_neg (hold id).2, if_neg (hnew id).2] at hcount
    have hsum := h.handled id
    simp only [setWorker]
    omega

theorem count_wakened {phase : WorkerPhase} (hwaiting : phase ≠ .waiting) (hready : phase ≠ .ready)
    (workers : List WorkerPhase) : (workers.map wakened).count phase = workers.count phase := by
  induction workers with
  | nil => rfl
  | cons first workers ih =>
      have hsame : wakened first = phase ↔ first = phase := by
        cases first <;> simp only [wakened]
        exact ⟨fun h => absurd h.symm hready, fun h => absurd h.symm hwaiting⟩
      rw [List.map_cons, List.count_cons, List.count_cons, ih]
      simp only [beq_iff_eq, hsame]

theorem Accounted.step {event : ExecutorEvent} (h : Accounted e) (heffect : Effect e event e') :
    Accounted e' := by
  cases heffect with
  | @submitted hasWork hasError phase first =>
      apply h.resubmitted
      intro id
      unfold accepted
      rw [List.getElem?_append]
      split_ifs with hid
      · rfl
      · rw [List.getElem?_eq_none (Nat.le_of_not_lt hid), List.getElem?_singleton]
        split_ifs
        · rcases first with rfl | rfl <;> rfl
        · rfl
  | @refused call found =>
      exact h.resubmitted (accepted_of_set found rfl)
  | @queued call found runs room =>
      have hnew : ∀ id, (({ e.setSubmission call .queued with
          queue := e.queue ++ [call] } : SeatMapComputeExecutor)).accepted id =
            if id = call then true else e.accepted id := fun id => accepted_set found id
      have hcall : e.accepted call = false := by
        unfold accepted
        rw [found]
        rfl
      refine ⟨?_, ?_, h.worked, h.handled⟩
      · simp only [setSubmission, List.length_append, List.length_singleton]
        omega
      · intro id
        rw [hnew]
        have hplaced := h.placed id
        simp only [setSubmission, List.count_append, List.count_singleton, beq_iff_eq]
        by_cases hid : id = call
        · rw [hid, hcall] at hplaced
          rw [if_pos hid, if_pos hid.symm, hid]
          simp only [Bool.false_eq_true, if_false] at hplaced
          simp only [if_true]
          omega
        · rw [if_neg hid, if_neg fun heq => hid heq.symm]
          omega
  | @unheard call found nobody =>
      exact h.resubmitted (accepted_of_set found rfl)
  | @notified call worker found waits =>
      have hcalled : Accounted (e.setSubmission call (.returned true)) :=
        h.resubmitted (accepted_of_set found rfl)
      exact hcalled.moved waits (by simp) (by simp)
  | slept found empty runs => exact h.moved found (by simp) (by simp)
  | exited found empty stops => exact h.moved found (by simp) (by simp)
  | @took worker item rest found head =>
      refine ⟨?_, ?_, ?_, ?_⟩
      · have hbounded := h.bounded
        rw [head, List.length_cons] at hbounded
        simp only [setWorker]
        omega
      · intro id
        have hplaced := h.placed id
        rw [head, List.count_cons] at hplaced
        have hsum : rest.count id + (e.started ++ [item]).count id =
            if e.accepted id then 1 else 0 := by
          rw [List.count_append, List.count_singleton]
          omega
        exact hsum
      · intro id
        have hworked := h.worked id
        have hcount := count_set found (.working item) (.working id)
        simp only [setWorker, List.count_append, List.count_singleton]
        simp only [WorkerPhase.working.injEq, reduceCtorEq, if_false] at hcount
        simp only [beq_iff_eq]
        omega
      · intro id
        have hhandled := h.handled id
        have hcount := count_set found (.working item) (.handling id)
        simp only [reduceCtorEq, if_false] at hcount
        simp only [setWorker]
        omega
  | woke found => exact h.moved found (by simp) (by simp)
  | @worked worker item found =>
      refine ⟨h.bounded, h.placed, ?_, ?_⟩
      · intro id
        have hworked := h.worked id
        have hcount := count_set found .leaving (.working id)
        simp only [WorkerPhase.working.injEq, reduceCtorEq, if_false] at hcount
        simp only [setWorker, List.count_append, List.count_singleton, beq_iff_eq]
        omega
      · intro id
        have hhandled := h.handled id
        have hcount := count_set found .leaving (.handling id)
        simp only [reduceCtorEq, if_false] at hcount
        simp only [setWorker]
        omega
  | @threw worker item found =>
      refine ⟨h.bounded, h.placed, ?_, ?_⟩
      · intro id
        have hworked := h.worked id
        have hcount := count_set found (.handling item) (.working id)
        simp only [WorkerPhase.working.injEq, reduceCtorEq, if_false] at hcount
        simp only [setWorker, List.count_append, List.count_singleton, beq_iff_eq]
        omega
      · intro id
        have hhandled := h.handled id
        have hcount := count_set found (.handling item) (.handling id)
        simp only [WorkerPhase.handling.injEq, reduceCtorEq, if_false] at hcount
        simp only [setWorker, List.count_append, List.count_singleton, beq_iff_eq]
        omega
  | @handled worker item throws found =>
      refine ⟨h.bounded, h.placed, ?_, ?_⟩
      · intro id
        have hworked := h.worked id
        have hcount := count_set found .leaving (.working id)
        simp only [reduceCtorEq, if_false] at hcount
        simp only [setWorker]
        omega
      · intro id
        have hhandled := h.handled id
        have hcount := count_set found .leaving (.handling id)
        simp only [WorkerPhase.handling.injEq, reduceCtorEq, if_false] at hcount
        simp only [setWorker, List.count_append, List.count_singleton, beq_iff_eq]
        omega
  | @left worker found =>
      have hmoved : Accounted (e.setWorker worker .ready) := h.moved found (by simp) (by simp)
      exact ⟨hmoved.bounded, hmoved.placed, hmoved.worked, hmoved.handled⟩
  | broadcast found =>
      refine ⟨h.bounded, h.placed, fun id => ?_, fun id => ?_⟩
      · simp only [setShutdown]
        rw [count_wakened (by simp) (by simp)]
        exact h.worked id
      · simp only [setShutdown]
        rw [count_wakened (by simp) (by simp)]
        exact h.handled id
  | _ => exact ⟨h.bounded, h.placed, h.worked, h.handled⟩

end Accounts

end SeatMapComputeExecutor

namespace ShutdownPhase

/-- The call has set the stop flag. -/
def stops : ShutdownPhase → Bool
  | .stopped => true
  | .joining _ => true
  | .returned => true
  | _ => false

/-- The call has notified the workers of it. -/
def rouses : ShutdownPhase → Bool
  | .joining _ => true
  | .returned => true
  | _ => false

/-- The call holds the mutex of the shutdown. -/
def holds : ShutdownPhase → Bool
  | .entered => true
  | .stopped => true
  | .joining _ => true
  | _ => false

end ShutdownPhase

namespace SeatMapComputeExecutor

/-- Workers exit only from an empty queue that takes nothing in any more, and a shutdown returns
when all of them have. -/
structure Stopping (e : SeatMapComputeExecutor) : Prop where
  staffed : e.workers ≠ []
  drained : WorkerPhase.exited ∈ e.workers → e.stopping = true ∧ e.queue = []
  stopped : ∀ (call : ℕ) (phase : ShutdownPhase), e.shutdowns[call]? = some phase →
    phase.stops = true → e.stopping = true
  roused : ∀ (call : ℕ) (phase : ShutdownPhase), e.shutdowns[call]? = some phase →
    phase.rouses = true → WorkerPhase.waiting ∉ e.workers
  joined : ∀ (call next : ℕ), e.shutdowns[call]? = some (.joining next) →
    ∀ j < next, e.workers[j]? = some .exited
  returned : ∀ call : ℕ, e.shutdowns[call]? = some .returned →
    ∀ phase ∈ e.workers, phase = .exited
  held : e.shutdownMutex = true →
    ∃ (call : ℕ) (phase : ShutdownPhase), e.shutdowns[call]? = some phase ∧ phase.holds = true

section Shutdowns

variable {e e' : SeatMapComputeExecutor}

/-- A worker that has not exited moves on. -/
theorem Stopping.moved {worker : ℕ} {old new : WorkerPhase} (h : Stopping e)
    (found : e.workers[worker]? = some old) (hold : old ≠ .exited)
    (hworkers : e'.workers = e.workers.set worker new) (hshutdowns : e'.shutdowns = e.shutdowns)
    (hmutex : e'.shutdownMutex = e.shutdownMutex) (hstopping : e'.stopping = e.stopping)
    (hexits : new = .exited → e.stopping = true ∧ e.queue = [])
    (hwaits : new = .waiting → e.stopping = false) (hqueue : e.queue = [] → e'.queue = []) :
    Stopping e' := by
  have hmem : old ∈ e.workers := List.mem_of_getElem? found
  refine ⟨?_, ?_, ?_, ?_, ?_, ?_, ?_⟩
  · intro hempty
    rw [hworkers, List.set_eq_nil_iff] at hempty
    exact h.staffed hempty
  · intro hexited
    rw [hworkers] at hexited
    rw [hstopping]
    rcases List.mem_or_eq_of_mem_set hexited with hbefore | hnew
    · obtain ⟨hstop, hempty⟩ := h.drained hbefore
      exact ⟨hstop, hqueue hempty⟩
    · obtain ⟨hstop, hempty⟩ := hexits hnew.symm
      exact ⟨hstop, hqueue hempty⟩
  · rw [hshutdowns, hstopping]
    exact h.stopped
  · intro call phase hcall hrouses hwaiting
    rw [hshutdowns] at hcall
    rw [hworkers] at hwaiting
    rcases List.mem_or_eq_of_mem_set hwaiting with hbefore | hnew
    · exact h.roused call phase hcall hrouses hbefore
    · have hstop : e.stopping = true := by
        apply h.stopped call phase hcall
        cases phase <;> first | rfl | cases hrouses
      rw [hwaits hnew.symm] at hstop
      cases hstop
  · intro call next hcall j hj
    rw [hshutdowns] at hcall
    have hgone := h.joined call next hcall j hj
    have hne : j ≠ worker := by
      rintro rfl
      rw [found] at hgone
      exact hold (Option.some.inj hgone)
    rw [hworkers, getElem?_set_of_ne hne]
    exact hgone
  · intro call hcall
    rw [hshutdowns] at hcall
    exact absurd (h.returned call hcall old hmem) hold
  · intro hlocked
    rw [hmutex] at hlocked
    rw [hshutdowns]
    exact h.held hlocked

/-- A call of `shutdown` moves on, and may wake workers. -/
theorem Stopping.advanced {call : ℕ} {old new : ShutdownPhase} {rouse : WorkerPhase → WorkerPhase}
    (h : Stopping e) (found : e.shutdowns[call]? = some old)
    (hworkers : e'.workers = e.workers.map rouse)
    (hexited : ∀ phase, rouse phase = .exited ↔ phase = .exited)
    (hwaiting : ∀ phase, rouse phase = .waiting → phase = .waiting)
    (hshutdowns : e'.shutdowns = e.shutdowns.set call new) (hqueue : e'.queue = e.queue)
    (hstopping : e'.stopping = (e.stopping || new.stops))
    (hrouses : new.rouses = true → .waiting ∉ e'.workers)
    (hjoins : ∀ next, new = .joining next → ∀ j < next, e.workers[j]? = some .exited)
    (hreturns : new = .returned → ∀ phase ∈ e.workers, phase = .exited)
    (hmutex : e'.shutdownMutex = true → new.holds = true) : Stopping e' := by
  refine ⟨?_, ?_, ?_, ?_, ?_, ?_, ?_⟩
  · intro hempty
    rw [hworkers, List.map_eq_nil_iff] at hempty
    exact h.staffed hempty
  · intro hgone
    rw [hworkers] at hgone
    obtain ⟨phase, hphase, hroused⟩ := List.mem_map.mp hgone
    rw [hexited] at hroused
    obtain ⟨hstop, hempty⟩ := h.drained (hroused ▸ hphase)
    rw [hstopping, hqueue, hstop]
    exact ⟨rfl, hempty⟩
  · intro other phase hother hphase
    rw [hshutdowns] at hother
    rw [hstopping]
    rcases getElem?_set_cases hother with ⟨-, rfl⟩ | ⟨-, hold⟩
    · rw [hphase, Bool.or_true]
    · rw [h.stopped other phase hold hphase]
      rfl
  · intro other phase hother hphase
    rw [hshutdowns] at hother
    rcases getElem?_set_cases hother with ⟨-, rfl⟩ | ⟨-, hold⟩
    · exact hrouses hphase
    · intro hmem
      rw [hworkers] at hmem
      obtain ⟨before, hbefore, hroused⟩ := List.mem_map.mp hmem
      exact h.roused other phase hold hphase (hwaiting before hroused ▸ hbefore)
  · intro other next hother j hj
    rw [hshutdowns] at hother
    have hgone : e.workers[j]? = some .exited := by
      rcases getElem?_set_cases hother with ⟨-, hnew⟩ | ⟨-, hold⟩
      · exact hjoins next hnew.symm j hj
      · exact h.joined other next hold j hj
    rw [hworkers, List.getElem?_map, hgone, Option.map_some, (hexited .exited).mpr rfl]
  · intro other hother phase hphase
    rw [hshutdowns] at hother
    rw [hworkers] at hphase
    obtain ⟨before, hbefore, rfl⟩ := List.mem_map.mp hphase
    rw [hexited]
    rcases getElem?_set_cases hother with ⟨-, hnew⟩ | ⟨-, hold⟩
    · exact hreturns hnew.symm before hbefore
    · exact h.returned other hold before hbefore
  · intro hlocked
    rw [hshutdowns]
    exact ⟨call, new, getElem?_set_self found new, hmutex hlocked⟩

/-- A call of `shutdown` that leaves the workers alone. -/
theorem Stopping.stepped {call : ℕ} {old new : ShutdownPhase} (h : Stopping e)
    (found : e.shutdowns[call]? = some old) (hworkers : e'.workers = e.workers)
    (hshutdowns : e'.shutdowns = e.shutdowns.set call new) (hqueue : e'.queue = e.queue)
    (hstopping : e'.stopping = (e.stopping || new.stops))
    (hrouses : new.rouses = true → old.rouses = true)
    (hjoins : ∀ next, new = .joining next → ∀ j < next, e.workers[j]? = some .exited)
    (hreturns : new = .returned → ∀ phase ∈ e.workers, phase = .exited)
    (hmutex : e'.shutdownMutex = true → new.holds = true) : Stopping e' := by
  have hmap : e'.workers = e.workers.map id := by rw [hworkers, List.map_id]
  refine h.advanced found hmap (fun _ => Iff.rfl) (fun _ => id) hshutdowns hqueue hstopping ?_
    hjoins hreturns hmutex
  intro hnew
  rw [hworkers]
  exact h.roused call old found (hrouses hnew)

theorem Stopping.step {event : ExecutorEvent} (h : Stopping e) (heffect : Effect e event e') :
    Stopping e' := by
  cases heffect with
  | queued found runs room =>
      refine ⟨h.staffed, ?_, h.stopped, h.roused, h.joined, h.returned, h.held⟩
      intro hexited
      have hstop := (h.drained hexited).1
      rw [runs] at hstop
      cases hstop
  | notified found waits =>
      exact h.moved waits (by simp) rfl rfl rfl rfl (by simp) (by simp) id
  | slept found empty runs =>
      exact h.moved found (by simp) rfl rfl rfl rfl (by simp) (fun _ => runs) id
  | exited found empty stops =>
      exact h.moved found (by simp) rfl rfl rfl rfl (fun _ => ⟨stops, empty⟩) (by simp) id
  | took found head =>
      refine h.moved found (by simp) rfl rfl rfl rfl (by simp) (by simp) fun hempty => ?_
      rw [head] at hempty
      cases hempty
  | woke found => exact h.moved found (by simp) rfl rfl rfl rfl (by simp) (by simp) id
  | worked found => exact h.moved found (by simp) rfl rfl rfl rfl (by simp) (by simp) id
  | threw found => exact h.moved found (by simp) rfl rfl rfl rfl (by simp) (by simp) id
  | handled found => exact h.moved found (by simp) rfl rfl rfl rfl (by simp) (by simp) id
  | left found => exact h.moved found (by simp) rfl rfl rfl rfl (by simp) (by simp) id
  | shut =>
      refine ⟨h.staffed, h.drained, ?_, ?_, ?_, ?_, ?_⟩
      · intro call phase hcall hphase
        rcases getElem?_append_cases hcall with ⟨-, rfl⟩ | hold
        · cases hphase
        · exact h.stopped call phase hold hphase
      · intro call phase hcall hphase
        rcases getElem?_append_cases hcall with ⟨-, rfl⟩ | hold
        · cases hphase
        · exact h.roused call phase hold hphase
      · intro call next hcall
        rcases getElem?_append_cases hcall with ⟨-, hnew⟩ | hold
        · cases hnew
        · exact h.joined call next hold
      · intro call hcall
        rcases getElem?_append_cases hcall with ⟨-, hnew⟩ | hold
        · cases hnew
        · exact h.returned call hold
      · intro hlocked
        obtain ⟨call, phase, hcall, hphase⟩ := h.held hlocked
        exact ⟨call, phase, getElem?_append_of_some hcall _, hphase⟩
  | locked found free =>
      exact h.stepped found rfl rfl rfl (Bool.or_false _).symm (by simp [ShutdownPhase.rouses])
        (by simp) (by simp) fun _ => rfl
  | stopped found =>
      exact h.stepped found rfl rfl rfl (Bool.or_true _).symm (by simp [ShutdownPhase.rouses])
        (by simp) (by simp) fun _ => rfl
  | broadcast found =>
      have hstop : e.stopping = true := h.stopped _ _ found rfl
      refine h.advanced found rfl ?_ ?_ rfl rfl ?_ ?_ ?_ (by simp) fun _ => rfl
      · intro phase
        cases phase <;> simp [wakened]
      · intro phase
        cases phase <;> simp [wakened]
      · simp only [setShutdown, hstop]
        rfl
      · intro _ hmem
        obtain ⟨before, -, hwakened⟩ := List.mem_map.mp hmem
        cases before <;> cases hwakened
      · intro next hnew j hj
        cases hnew
        exact absurd hj (Nat.not_lt_zero j)
  | @joined call next found gone =>
      have hstop : e.stopping = true := h.stopped _ _ found rfl
      refine h.stepped found rfl rfl rfl ?_ (fun _ => rfl) ?_ (by simp) fun _ => rfl
      · simp only [setShutdown, hstop]
        rfl
      · intro later hnew j hj
        cases hnew
        rcases Nat.lt_succ_iff_lt_or_eq.mp hj with hbefore | rfl
        · exact h.joined call next found j hbefore
        · exact gone
  | @ended call next found last =>
      have hstop : e.stopping = true := h.stopped _ _ found rfl
      refine h.stepped found rfl rfl rfl ?_ (fun _ => rfl) (by simp) ?_ (by simp)
      · simp only [setShutdown, hstop]
        rfl
      · intro _ phase hphase
        obtain ⟨j, hj⟩ := List.mem_iff_getElem?.mp hphase
        have hlength := (List.getElem?_eq_some_iff.mp hj).1
        rw [List.getElem?_eq_none_iff] at last
        have hgone := h.joined call next found j (hlength.trans_le last)
        rw [hj] at hgone
        exact Option.some.inj hgone
  | _ => exact ⟨h.staffed, h.drained, h.stopped, h.roused, h.joined, h.returned, h.held⟩

end Shutdowns

end SeatMapComputeExecutor

def WorkerPhase.awake : WorkerPhase → Bool
  | .waiting => false
  | .exited => false
  | _ => true

namespace SeatMapComputeExecutor

/-- No task waits while all workers sleep: a notification is on its way, or a worker will look
at the queue again. -/
def Heard (e : SeatMapComputeExecutor) : Prop :=
  e.queue ≠ [] → (∃ call : ℕ, e.submissions[call]? = some .queued) ∨
    ∃ phase ∈ e.workers, phase.awake = true

section Progress

variable {e e' : SeatMapComputeExecutor}

theorem awake_of_set {worker : ℕ} {old new : WorkerPhase} (found : e.workers[worker]? = some old)
    (hnew : new.awake = true) : ∃ phase ∈ e.workers.set worker new, phase.awake = true :=
  ⟨new, List.mem_of_getElem? (getElem?_set_self found new), hnew⟩

theorem Heard.step {event : ExecutorEvent} (h : Heard e) (hstopping : Stopping e)
    (heffect : Effect e event e') : Heard e' := by
  intro hqueue
  cases heffect with
  | submitted phase first =>
      rcases h hqueue with ⟨call, hcall⟩ | hawake
      · exact Or.inl ⟨call, getElem?_append_of_some hcall phase⟩
      · exact Or.inr hawake
  | @refused call found =>
      rcases h hqueue with ⟨other, hother⟩ | hawake
      · have hne : other ≠ call := by
          rintro rfl
          rw [found] at hother
          cases hother
        exact Or.inl ⟨other, (getElem?_set_of_ne hne _).trans hother⟩
      · exact Or.inr hawake
  | @queued call found runs room => exact Or.inl ⟨call, getElem?_set_self found .queued⟩
  | unheard found nobody =>
      -- no worker sleeps, and none exits while a task is left
      obtain ⟨phase, hphase⟩ := List.exists_mem_of_ne_nil e.workers hstopping.staffed
      refine Or.inr ⟨phase, hphase, ?_⟩
      cases phase with
      | waiting => exact absurd hphase nobody
      | exited => exact absurd (hstopping.drained hphase).2 hqueue
      | _ => rfl
  | notified found waits => exact Or.inr (awake_of_set waits rfl)
  | slept found empty runs => exact absurd empty hqueue
  | exited found empty stops => exact absurd empty hqueue
  | took found head => exact Or.inr (awake_of_set found rfl)
  | woke found => exact Or.inr (awake_of_set found rfl)
  | worked found => exact Or.inr (awake_of_set found rfl)
  | threw found => exact Or.inr (awake_of_set found rfl)
  | handled found => exact Or.inr (awake_of_set found rfl)
  | left found => exact Or.inr (awake_of_set found rfl)
  | broadcast found =>
      rcases h hqueue with hcall | ⟨phase, hphase, hawake⟩
      · exact Or.inl hcall
      · refine Or.inr ⟨wakened phase, List.mem_map_of_mem hphase, ?_⟩
        cases phase <;> first | rfl | exact hawake
  | _ => exact h hqueue

end Progress

end SeatMapComputeExecutor

/-- How many steps a worker may take before it looks at the queue in vain. -/
def WorkerPhase.weight : WorkerPhase → ℕ
  | .ready => 1
  | .waiting => 0
  | .working _ => 4
  | .handling _ => 3
  | .leaving => 2
  | .exited => 0

def SubmitPhase.weight : SubmitPhase → ℕ
  | .called => 7
  | .queued => 2
  | _ => 0

def ShutdownPhase.weight (workers : ℕ) : ShutdownPhase → ℕ
  | .called => 2 * workers + 4
  | .entered => 2 * workers + 3
  | .stopped => 2 * workers + 2
  | .joining next => workers - next + 1
  | .returned => 0

/-- The steps of calls and workers; new calls and workers that wake by themselves are none. -/
def ExecutorEvent.internal : ExecutorEvent → Prop
  | .trySubmit _ _ => False
  | .shutdown => False
  | .wake _ => False
  | _ => True

namespace SeatMapComputeExecutor

def remaining (e : SeatMapComputeExecutor) : ℕ :=
  4 * e.queue.length + (e.workers.map WorkerPhase.weight).sum +
    (e.submissions.map SubmitPhase.weight).sum +
    (e.shutdowns.map (ShutdownPhase.weight e.workers.length)).sum

section Progress

variable {e e' : SeatMapComputeExecutor}

theorem sum_wakened (workers : List WorkerPhase) :
    ((workers.map wakened).map WorkerPhase.weight).sum ≤
      (workers.map WorkerPhase.weight).sum + workers.length := by
  induction workers with
  | nil => exact le_rfl
  | cons first workers ih =>
      have hfirst : (wakened first).weight ≤ first.weight + 1 := by
        cases first <;> simp [wakened, WorkerPhase.weight]
      simp only [List.map_cons, List.sum_cons, List.length_cons]
      omega

theorem remaining_lt {event : ExecutorEvent} (hinternal : event.internal)
    (heffect : Effect e event e') : e'.remaining < e.remaining := by
  unfold remaining
  cases heffect with
  | submitted => cases hinternal
  | refused found =>
      have hcall := sum_map_set SubmitPhase.weight found (.returned false)
      simp only [setSubmission, SubmitPhase.weight] at hcall ⊢
      omega
  | queued found runs room =>
      have hcall := sum_map_set SubmitPhase.weight found .queued
      simp only [setSubmission, SubmitPhase.weight, List.length_append,
        List.length_singleton] at hcall ⊢
      omega
  | unheard found nobody =>
      have hcall := sum_map_set SubmitPhase.weight found (.returned true)
      simp only [setSubmission, SubmitPhase.weight] at hcall ⊢
      omega
  | notified found waits =>
      have hcall := sum_map_set SubmitPhase.weight found (.returned true)
      have hworker := sum_map_set WorkerPhase.weight waits .ready
      simp only [setSubmission, setWorker, SubmitPhase.weight, WorkerPhase.weight,
        List.length_set] at hcall hworker ⊢
      omega
  | slept found empty runs =>
      have hworker := sum_map_set WorkerPhase.weight found .waiting
      simp only [setWorker, WorkerPhase.weight, List.length_set] at hworker ⊢
      omega
  | exited found empty stops =>
      have hworker := sum_map_set WorkerPhase.weight found .exited
      simp only [setWorker, WorkerPhase.weight, List.length_set] at hworker ⊢
      omega
  | @took worker item rest found head =>
      have hworker := sum_map_set WorkerPhase.weight found (.working item)
      simp only [setWorker, WorkerPhase.weight, List.length_set, head,
        List.length_cons] at hworker ⊢
      omega
  | woke => cases hinternal
  | worked found =>
      have hworker := sum_map_set WorkerPhase.weight found .leaving
      simp only [setWorker, WorkerPhase.weight, List.length_set] at hworker ⊢
      omega
  | @threw worker item found =>
      have hworker := sum_map_set WorkerPhase.weight found (.handling item)
      simp only [setWorker, WorkerPhase.weight, List.length_set] at hworker ⊢
      omega
  | handled found =>
      have hworker := sum_map_set WorkerPhase.weight found .leaving
      simp only [setWorker, WorkerPhase.weight, List.length_set] at hworker ⊢
      omega
  | left found =>
      have hworker := sum_map_set WorkerPhase.weight found .ready
      simp only [setWorker, WorkerPhase.weight, List.length_set] at hworker ⊢
      omega
  | shut => cases hinternal
  | locked found free =>
      have hcall := sum_map_set (ShutdownPhase.weight e.workers.length) found .entered
      simp only [setShutdown, ShutdownPhase.weight] at hcall ⊢
      omega
  | stopped found =>
      have hcall := sum_map_set (ShutdownPhase.weight e.workers.length) found .stopped
      simp only [setShutdown, ShutdownPhase.weight] at hcall ⊢
      omega
  | broadcast found =>
      have hcall := sum_map_set (ShutdownPhase.weight e.workers.length) found (.joining 0)
      have hworkers := sum_wakened e.workers
      simp only [setShutdown, ShutdownPhase.weight, List.length_map] at hcall ⊢
      omega
  | @joined call next found gone =>
      have hcall := sum_map_set (ShutdownPhase.weight e.workers.length) found (.joining (next + 1))
      have hnext := (List.getElem?_eq_some_iff.mp gone).1
      simp only [setShutdown, ShutdownPhase.weight] at hcall ⊢
      omega
  | ended found last =>
      have hcall := sum_map_set (ShutdownPhase.weight e.workers.length) found .returned
      simp only [setShutdown, ShutdownPhase.weight] at hcall ⊢
      omega

end Progress

structure Sound (e : SeatMapComputeExecutor) : Prop where
  accounted : Accounted e
  stopping : Stopping e
  heard : Heard e

theorem Sound.stepped {e e' : SeatMapComputeExecutor} (event : ExecutorEvent) (h : Sound e)
    (hstep : e.step event = some e') : Sound e' where
  accounted := h.accounted.step (step_effect hstep)
  stopping := h.stopping.step (step_effect hstep)
  heard := h.heard.step h.stopping (step_effect hstep)

theorem create_sound {workers capacity : ℕ} {e : SeatMapComputeExecutor}
    (h : create workers capacity = some e) : Sound e := by
  unfold create at h
  split_ifs at h with hbounds
  cases h
  simp only [not_or] at hbounds
  refine ⟨⟨Nat.zero_le _, fun id => rfl, fun id => ?_, fun id => ?_⟩, ⟨?_, ?_, ?_, ?_, ?_, ?_, ?_⟩,
    fun hqueue => absurd rfl hqueue⟩
  all_goals simp [List.count_replicate, List.mem_replicate, List.replicate_eq_nil_iff, hbounds.1]

/-- Every accepted task was started once and has ended once, and its error completion ran as
often as it threw. -/
def Executed (e : SeatMapComputeExecutor) : Prop :=
  ∀ id, e.accepted id = true → e.started.count id = 1 ∧
    e.completed.count id + e.failed.count id = 1 ∧ e.handled.count id = e.failed.count id

/-- What holds at every moment. -/
structure Exact (e : SeatMapComputeExecutor) : Prop where
  bounded : e.queue.length ≤ e.capacity
  once : ∀ id, e.started.count id ≤ 1
  refused : ∀ id, e.accepted id = false → e.started.count id = 0 ∧ e.handled.count id = 0
  errors : ∀ id, e.handled.count id ≤ e.failed.count id ∧ e.failed.count id ≤ e.started.count id
  drained : ∀ call : ℕ, e.shutdowns[call]? = some .returned → e.Executed

/-- All calls have returned, and nothing is left to do. -/
structure Settled (e : SeatMapComputeExecutor) : Prop where
  submissions : ∀ phase ∈ e.submissions, phase = .threw ∨ ∃ accepted, phase = .returned accepted
  shutdowns : ∀ phase ∈ e.shutdowns, phase = .returned
  executed : e.Executed

section Outcomes

variable {e : SeatMapComputeExecutor}

theorem Accounted.executed (h : Accounted e) (hqueue : e.queue = [])
    (hidle : ∀ phase ∈ e.workers, phase.awake = false) : e.Executed := by
  intro id haccepted
  have hplaced := h.placed id
  have hworked := h.worked id
  have hhandled := h.handled id
  have hworking : e.workers.count (.working id) = 0 :=
    List.count_eq_zero_of_not_mem fun hmem => absurd (hidle _ hmem) (by simp [WorkerPhase.awake])
  have hhandling : e.workers.count (.handling id) = 0 :=
    List.count_eq_zero_of_not_mem fun hmem => absurd (hidle _ hmem) (by simp [WorkerPhase.awake])
  rw [hqueue, haccepted, List.count_nil, if_pos rfl] at hplaced
  omega

theorem Sound.exact (h : Sound e) : Exact e := by
  refine ⟨h.accounted.bounded, fun id => ?_, fun id hrefused => ?_, fun id => ?_,
    fun call hcall => ?_⟩
  · have hplaced := h.accounted.placed id
    split_ifs at hplaced <;> omega
  · have hplaced := h.accounted.placed id
    have hworked := h.accounted.worked id
    have hhandled := h.accounted.handled id
    rw [hrefused] at hplaced
    simp only [Bool.false_eq_true, if_false] at hplaced
    omega
  · have hworked := h.accounted.worked id
    have hhandled := h.accounted.handled id
    omega
  · have hexited := h.stopping.returned call hcall
    obtain ⟨phase, hphase⟩ := List.exists_mem_of_ne_nil e.workers h.stopping.staffed
    have hqueue := (h.stopping.drained (hexited phase hphase ▸ hphase)).2
    exact h.accounted.executed hqueue fun phase hphase => by rw [hexited phase hphase]; rfl

theorem Sound.settled (h : Sound e) (hquiet : Quiet step ExecutorEvent.internal e) : Settled e := by
  have hidle : ∀ phase ∈ e.workers, phase.awake = false := by
    intro phase hphase
    obtain ⟨worker, hworker⟩ := List.mem_iff_getElem?.mp hphase
    cases phase with
    | ready =>
        have hstuck := hquiet (.look worker) trivial
        simp only [step, look, hworker] at hstuck
        split at hstuck <;> cases hstuck
    | waiting => rfl
    | working item =>
        have hstuck := hquiet (.endWork worker false) trivial
        simp [step, endWork, hworker] at hstuck
    | handling item =>
        have hstuck := hquiet (.endError worker false) trivial
        simp [step, endError, hworker] at hstuck
    | leaving =>
        have hstuck := hquiet (.leave worker) trivial
        simp [step, leave, hworker] at hstuck
    | exited => rfl
  have hsubmissions : ∀ phase ∈ e.submissions,
      phase = .threw ∨ ∃ accepted, phase = .returned accepted := by
    intro phase hphase
    obtain ⟨call, hcall⟩ := List.mem_iff_getElem?.mp hphase
    cases phase with
    | called =>
        have hstuck := hquiet (.lockSubmit call) trivial
        simp only [step, lockSubmit, hcall] at hstuck
        split_ifs at hstuck
    | queued =>
        -- the notification goes to a waiting worker, if there is one
        by_cases hwaiting : .waiting ∈ e.workers
        · obtain ⟨worker, hworker⟩ := List.mem_iff_getElem?.mp hwaiting
          have hstuck := hquiet (.notifyOne call (some worker)) trivial
          simp [step, notifyOne, hcall, hworker] at hstuck
        · have hstuck := hquiet (.notifyOne call none) trivial
          simp [step, notifyOne, hcall, hwaiting] at hstuck
    | returned accepted => exact Or.inr ⟨accepted, rfl⟩
    | threw => exact Or.inl rfl
  have hholder : ∀ (call : ℕ) (phase : ShutdownPhase), e.shutdowns[call]? = some phase →
      phase.holds = false := by
    intro call phase hcall
    cases phase with
    | entered =>
        have hstuck := hquiet (.setStopping call) trivial
        simp [step, setStopping, hcall] at hstuck
    | stopped =>
        have hstuck := hquiet (.notifyAll call) trivial
        simp [step, notifyAll, hcall] at hstuck
    | joining next =>
        have hstuck := hquiet (.join call) trivial
        simp only [step, join, hcall] at hstuck
        split at hstuck
        · cases hstuck
        · cases hstuck
        · rename_i phase hexited hworker
          have hmem : phase ∈ e.workers := List.mem_of_getElem? hworker
          have hidlePhase := hidle phase hmem
          cases phase with
          | waiting => exact absurd hmem (h.stopping.roused call _ hcall rfl)
          | exited => exact absurd rfl hexited
          | _ => cases hidlePhase
    | _ => rfl
  refine ⟨hsubmissions, ?_, ?_⟩
  · intro phase hphase
    obtain ⟨call, hcall⟩ := List.mem_iff_getElem?.mp hphase
    have hholds := hholder call phase hcall
    cases phase with
    | called =>
        have hfree : e.shutdownMutex = false := by
          by_contra hlocked
          obtain ⟨other, held, hother, hheld⟩ := h.stopping.held (by simpa using hlocked)
          rw [hholder other held hother] at hheld
          cases hheld
        have hstuck := hquiet (.lockShutdown call) trivial
        simp [step, lockShutdown, hcall, hfree] at hstuck
    | returned => rfl
    | _ => cases hholds
  · have hqueue : e.queue = [] := by
      by_contra hne
      rcases h.heard hne with ⟨call, hcall⟩ | ⟨phase, hphase, hawake⟩
      · rcases hsubmissions .queued (List.mem_of_getElem? hcall) with hthrew | ⟨accepted, hreturned⟩
        · cases hthrew
        · cases hreturned
      · rw [hidle phase hphase] at hawake
        cases hawake
    exact h.accounted.executed hqueue hidle

end Outcomes

/-- Whatever the interleaving of submissions, workers and shutdowns, no task is lost or repeated;
and the calls and workers need only so many more steps until all calls have returned and every
accepted task has been executed. -/
theorem executes_accepted (workers capacity : ℕ) (events : List ExecutorEvent)
    (initial e : SeatMapComputeExecutor) (hcreate : create workers capacity = some initial)
    (hrun : run step events initial = some e) :
    Exact e ∧ ∀ later e', (∀ event ∈ later, event.internal) → run step later e = some e' →
      later.length ≤ e.remaining ∧ (Quiet step ExecutorEvent.internal e' → Settled e') := by
  have hsound : Sound e :=
    run_invariant (fun _ event _ hs hstep => hs.stepped event hstep) (create_sound hcreate) hrun
  refine ⟨hsound.exact, fun later e' hinternal hlater => ⟨?_, fun hquiet => ?_⟩⟩
  · have hbound : later.length + e'.remaining ≤ e.remaining :=
      run_bounded (fun _ event _ hs hstep => hs.stepped event hstep)
        (fun _ _ _ _ hevent hstep => remaining_lt hevent (step_effect hstep)) hsound hinternal hlater
    exact (Nat.le_add_right _ _).trans hbound
  · have hsound' : Sound e' :=
      run_invariant (fun _ event _ hs hstep => hs.stepped event hstep) hsound hlater
    exact hsound'.settled hquiet

/-- One worker and one slot: the first task throws, the second finds the queue full, and a
shutdown waits for the first. -/
def throwingTask : List ExecutorEvent :=
  [.trySubmit true true, .lockSubmit 0, .trySubmit true true, .lockSubmit 1, .shutdown,
    .lockShutdown 0, .setStopping 0, .notifyOne 0 none, .notifyAll 0, .look 0, .endWork 0 true,
    .endError 0 true, .leave 0, .look 0, .join 0, .join 0]

theorem throwingTask_executes : ∃ initial e, create 1 1 = some initial ∧
    run step throwingTask initial = some e ∧ e.shutdowns = [.returned] ∧
    e.submissions = [.returned true, .returned false] ∧ e.handled = [0] ∧ Exact e := by
  have hrun : ((create 1 1).bind (run step throwingTask)).map
      (fun e => (e.shutdowns, e.submissions, e.handled)) =
        some ([.returned], [.returned true, .returned false], [0]) := by
    decide
  obtain ⟨e, he, houtcome⟩ := Option.map_eq_some_iff.mp hrun
  obtain ⟨initial, hcreate, hevents⟩ := Option.bind_eq_some_iff.mp he
  simp only [Prod.mk.injEq] at houtcome
  exact ⟨initial, e, hcreate, hevents, houtcome.1, houtcome.2.1, houtcome.2.2,
    (executes_accepted 1 1 throwingTask initial e hcreate hevents).1⟩

end SeatMapComputeExecutor
end Ticketing
