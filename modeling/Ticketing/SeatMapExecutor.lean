import Ticketing.Library.Threads

/-!
# The executor of seat-map tasks

Threads submit tasks to a bounded queue, workers take them out and run them, and a shutdown
stops the executor and joins its workers. A step of the model is a critical section of the mutex,
a notification, or what a worker does between two critical sections.
-/

namespace Ticketing

open Threads

/-- Where a worker stands in `run`. -/
inductive WorkerPhase where
  | ready
  | waiting
  | working (item : ℕ)
  | handling (item : ℕ)
  | leaving
  | exited
  deriving DecidableEq, Repr

/-- A call of `trySubmit`; one that is queued has yet to notify a worker. -/
inductive SubmitPhase where
  | called
  | queued
  | returned (accepted : Bool)
  | threw
  deriving DecidableEq, Repr

/-- A call of `shutdown`; one that is joining waits for the next worker to exit. -/
inductive ShutdownPhase where
  | called
  | entered
  | stopped
  | joining (next : ℕ)
  | returned
  deriving DecidableEq, Repr

/-- An item of the queue is the number of the call that submitted it. The last four lists record
the calls of `work()`, how they ended, and the calls of `onError()` that ended. -/
structure SeatMapComputeExecutor where
  capacity : ℕ
  queue : List ℕ := []
  workers : List WorkerPhase
  active : ℕ := 0
  stopping : Bool := false
  shutdownMutex : Bool := false
  submissions : List SubmitPhase := []
  shutdowns : List ShutdownPhase := []
  started : List ℕ := []
  completed : List ℕ := []
  failed : List ℕ := []
  handled : List ℕ := []
  deriving Repr

/-- A call of `trySubmit` or `shutdown`, or a step of the call or the worker with that number. A
worker may wake by itself. -/
inductive ExecutorEvent where
  | trySubmit (hasWork hasError : Bool)
  | lockSubmit (call : ℕ)
  | notifyOne (call : ℕ) (woken : Option ℕ)
  | look (worker : ℕ)
  | wake (worker : ℕ)
  | endWork (worker : ℕ) (throws : Bool)
  | endError (worker : ℕ) (throws : Bool)
  | leave (worker : ℕ)
  | shutdown
  | lockShutdown (call : ℕ)
  | setStopping (call : ℕ)
  | notifyAll (call : ℕ)
  | join (call : ℕ)
  deriving DecidableEq, Repr

namespace SeatMapComputeExecutor

/-- The constructor refuses other numbers of workers and queue slots. -/
def create (workers capacity : ℕ) : Option SeatMapComputeExecutor :=
  if workers = 0 ∨ 4 < workers ∨ capacity = 0 ∨ 64 < capacity then none
  else some { capacity := capacity, workers := List.replicate workers .ready }

section Steps

variable (e : SeatMapComputeExecutor)

def setSubmission (call : ℕ) (phase : SubmitPhase) : SeatMapComputeExecutor :=
  { e with submissions := e.submissions.set call phase }

def setShutdown (call : ℕ) (phase : ShutdownPhase) : SeatMapComputeExecutor :=
  { e with shutdowns := e.shutdowns.set call phase }

def setWorker (worker : ℕ) (phase : WorkerPhase) : SeatMapComputeExecutor :=
  { e with workers := e.workers.set worker phase }

/-- A task or an error completion that is empty is refused with an exception. -/
def trySubmit (hasWork hasError : Bool) : SeatMapComputeExecutor :=
  { e with
    submissions := e.submissions ++ [if hasWork && hasError then .called else .threw] }

def lockSubmit (call : ℕ) : Option SeatMapComputeExecutor :=
  match e.submissions[call]? with
  | some .called =>
      if e.stopping ∨ e.capacity ≤ e.queue.length then
        some (e.setSubmission call (.returned false))
      else some { e.setSubmission call .queued with queue := e.queue ++ [call] }
  | _ => none

/-- One of the waiting workers wakes, if there is one. -/
def notifyOne (call : ℕ) (woken : Option ℕ) : Option SeatMapComputeExecutor :=
  match e.submissions[call]? with
  | some .queued =>
      match woken with
      | none =>
          if .waiting ∈ e.workers then none else some (e.setSubmission call (.returned true))
      | some worker =>
          if e.workers[worker]? = some .waiting then
            some ((e.setSubmission call (.returned true)).setWorker worker .ready)
          else none
  | _ => none

/-- The wait ends only when the executor stops or has work. -/
def look (worker : ℕ) : Option SeatMapComputeExecutor :=
  match e.workers[worker]? with
  | some .ready =>
      match e.queue with
      | [] => some (e.setWorker worker (if e.stopping then .exited else .waiting))
      | item :: rest =>
          some { e.setWorker worker (.working item) with
            queue := rest
            active := e.active + 1
            started := e.started ++ [item] }
  | _ => none

def wake (worker : ℕ) : Option SeatMapComputeExecutor :=
  match e.workers[worker]? with
  | some .waiting => some (e.setWorker worker .ready)
  | _ => none

def endWork (worker : ℕ) (throws : Bool) : Option SeatMapComputeExecutor :=
  match e.workers[worker]? with
  | some (.working item) =>
      if throws then
        some { e.setWorker worker (.handling item) with failed := e.failed ++ [item] }
      else some { e.setWorker worker .leaving with completed := e.completed ++ [item] }
  | _ => none

/-- An exception of the error completion is swallowed. -/
def endError (worker : ℕ) (_throws : Bool) : Option SeatMapComputeExecutor :=
  match e.workers[worker]? with
  | some (.handling item) =>
      some { e.setWorker worker .leaving with handled := e.handled ++ [item] }
  | _ => none

def leave (worker : ℕ) : Option SeatMapComputeExecutor :=
  match e.workers[worker]? with
  | some .leaving => some { e.setWorker worker .ready with active := e.active - 1 }
  | _ => none

def shutdown : SeatMapComputeExecutor := { e with shutdowns := e.shutdowns ++ [.called] }

def lockShutdown (call : ℕ) : Option SeatMapComputeExecutor :=
  match e.shutdowns[call]? with
  | some .called =>
      if e.shutdownMutex then none
      else some { e.setShutdown call .entered with shutdownMutex := true }
  | _ => none

def setStopping (call : ℕ) : Option SeatMapComputeExecutor :=
  match e.shutdowns[call]? with
  | some .entered => some { e.setShutdown call .stopped with stopping := true }
  | _ => none

def wakened : WorkerPhase → WorkerPhase
  | .waiting => .ready
  | phase => phase

def notifyAll (call : ℕ) : Option SeatMapComputeExecutor :=
  match e.shutdowns[call]? with
  | some .stopped =>
      some { e.setShutdown call (.joining 0) with workers := e.workers.map wakened }
  | _ => none

def join (call : ℕ) : Option SeatMapComputeExecutor :=
  match e.shutdowns[call]? with
  | some (.joining next) =>
      match e.workers[next]? with
      | none => some { e.setShutdown call .returned with shutdownMutex := false }
      | some .exited => some (e.setShutdown call (.joining (next + 1)))
      | some _ => none
  | _ => none

def step : ExecutorEvent → Option SeatMapComputeExecutor
  | .trySubmit hasWork hasError => some (e.trySubmit hasWork hasError)
  | .lockSubmit call => e.lockSubmit call
  | .notifyOne call woken => e.notifyOne call woken
  | .look worker => e.look worker
  | .wake worker => e.wake worker
  | .endWork worker throws => e.endWork worker throws
  | .endError worker throws => e.endError worker throws
  | .leave worker => e.leave worker
  | .shutdown => some e.shutdown
  | .lockShutdown call => e.lockShutdown call
  | .setStopping call => e.setStopping call
  | .notifyAll call => e.notifyAll call
  | .join call => e.join call

end Steps

/-- What a step does. -/
inductive Effect (e : SeatMapComputeExecutor) : ExecutorEvent → SeatMapComputeExecutor → Prop where
  | submitted {hasWork hasError : Bool} (phase : SubmitPhase)
      (first : phase = .called ∨ phase = .threw) :
      Effect e (.trySubmit hasWork hasError) { e with submissions := e.submissions ++ [phase] }
  | refused {call : ℕ} (found : e.submissions[call]? = some .called) :
      Effect e (.lockSubmit call) (e.setSubmission call (.returned false))
  | queued {call : ℕ} (found : e.submissions[call]? = some .called) (runs : e.stopping = false)
      (room : e.queue.length < e.capacity) :
      Effect e (.lockSubmit call)
        { e.setSubmission call .queued with queue := e.queue ++ [call] }
  | unheard {call : ℕ} (found : e.submissions[call]? = some .queued)
      (nobody : .waiting ∉ e.workers) :
      Effect e (.notifyOne call none) (e.setSubmission call (.returned true))
  | notified {call worker : ℕ} (found : e.submissions[call]? = some .queued)
      (waits : e.workers[worker]? = some .waiting) :
      Effect e (.notifyOne call (some worker))
        ((e.setSubmission call (.returned true)).setWorker worker .ready)
  | slept {worker : ℕ} (found : e.workers[worker]? = some .ready) (empty : e.queue = [])
      (runs : e.stopping = false) : Effect e (.look worker) (e.setWorker worker .waiting)
  | exited {worker : ℕ} (found : e.workers[worker]? = some .ready) (empty : e.queue = [])
      (stops : e.stopping = true) : Effect e (.look worker) (e.setWorker worker .exited)
  | took {worker item : ℕ} {rest : List ℕ} (found : e.workers[worker]? = some .ready)
      (head : e.queue = item :: rest) :
      Effect e (.look worker)
        { e.setWorker worker (.working item) with
          queue := rest
          active := e.active + 1
          started := e.started ++ [item] }
  | woke {worker : ℕ} (found : e.workers[worker]? = some .waiting) :
      Effect e (.wake worker) (e.setWorker worker .ready)
  | worked {worker item : ℕ} (found : e.workers[worker]? = some (.working item)) :
      Effect e (.endWork worker false)
        { e.setWorker worker .leaving with completed := e.completed ++ [item] }
  | threw {worker item : ℕ} (found : e.workers[worker]? = some (.working item)) :
      Effect e (.endWork worker true)
        { e.setWorker worker (.handling item) with failed := e.failed ++ [item] }
  | handled {worker item : ℕ} {throws : Bool}
      (found : e.workers[worker]? = some (.handling item)) :
      Effect e (.endError worker throws)
        { e.setWorker worker .leaving with handled := e.handled ++ [item] }
  | left {worker : ℕ} (found : e.workers[worker]? = some .leaving) :
      Effect e (.leave worker) { e.setWorker worker .ready with active := e.active - 1 }
  | shut : Effect e .shutdown { e with shutdowns := e.shutdowns ++ [.called] }
  | locked {call : ℕ} (found : e.shutdowns[call]? = some .called) (free : e.shutdownMutex = false) :
      Effect e (.lockShutdown call) { e.setShutdown call .entered with shutdownMutex := true }
  | stopped {call : ℕ} (found : e.shutdowns[call]? = some .entered) :
      Effect e (.setStopping call) { e.setShutdown call .stopped with stopping := true }
  | broadcast {call : ℕ} (found : e.shutdowns[call]? = some .stopped) :
      Effect e (.notifyAll call)
        { e.setShutdown call (.joining 0) with workers := e.workers.map wakened }
  | joined {call next : ℕ} (found : e.shutdowns[call]? = some (.joining next))
      (gone : e.workers[next]? = some .exited) :
      Effect e (.join call) (e.setShutdown call (.joining (next + 1)))
  | ended {call next : ℕ} (found : e.shutdowns[call]? = some (.joining next))
      (last : e.workers[next]? = none) :
      Effect e (.join call) { e.setShutdown call .returned with shutdownMutex := false }

theorem step_effect {e e' : SeatMapComputeExecutor} {event : ExecutorEvent}
    (h : e.step event = some e') : Effect e event e' := by
  cases event with
  | trySubmit hasWork hasError =>
      cases h
      apply Effect.submitted
      split_ifs
      · exact Or.inl rfl
      · exact Or.inr rfl
  | lockSubmit call =>
      simp only [step, lockSubmit] at h
      split at h
      case h_2 => cases h
      rename_i found
      split_ifs at h with hfull
      · cases h
        exact .refused found
      · cases h
        simp only [not_or, Bool.not_eq_true, not_le] at hfull
        exact .queued found hfull.1 hfull.2
  | notifyOne call woken =>
      simp only [step, notifyOne] at h
      split at h
      case h_2 => cases h
      rename_i found
      cases woken with
      | none =>
          simp only at h
          split_ifs at h with hnobody
          cases h
          exact .unheard found hnobody
      | some worker =>
          simp only at h
          split_ifs at h with hwaits
          cases h
          exact .notified found hwaits
  | look worker =>
      simp only [step, look] at h
      split at h
      case h_2 => cases h
      rename_i found
      split at h
      · rename_i hempty
        cases h
        split_ifs with hstop
        · exact .exited found hempty hstop
        · exact .slept found hempty (by simpa using hstop)
      · rename_i item rest hhead
        cases h
        exact .took found hhead
  | wake worker =>
      simp only [step, wake] at h
      split at h
      case h_2 => cases h
      rename_i found
      cases h
      exact .woke found
  | endWork worker throws =>
      simp only [step, endWork] at h
      split at h
      case h_2 => cases h
      rename_i item found
      cases throws with
      | false =>
          cases h
          exact .worked found
      | true =>
          cases h
          exact .threw found
  | endError worker throws =>
      simp only [step, endError] at h
      split at h
      case h_2 => cases h
      rename_i item found
      cases h
      exact .handled found
  | leave worker =>
      simp only [step, leave] at h
      split at h
      case h_2 => cases h
      rename_i found
      cases h
      exact .left found
  | shutdown =>
      cases h
      exact .shut
  | lockShutdown call =>
      simp only [step, lockShutdown] at h
      split at h
      case h_2 => cases h
      rename_i found
      split_ifs at h with hfree
      cases h
      exact .locked found (by simpa using hfree)
  | setStopping call =>
      simp only [step, setStopping] at h
      split at h
      case h_2 => cases h
      rename_i found
      cases h
      exact .stopped found
  | notifyAll call =>
      simp only [step, notifyAll] at h
      split at h
      case h_2 => cases h
      rename_i found
      cases h
      exact .broadcast found
  | join call =>
      simp only [step, join] at h
      split at h
      case h_2 => cases h
      rename_i next found
      split at h
      · rename_i hlast
        cases h
        exact .ended found hlast
      · rename_i hgone
        cases h
        exact .joined found hgone
      · cases h

end SeatMapComputeExecutor

end Ticketing
