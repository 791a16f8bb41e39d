import Ticketing.Library.Threads

/-!
# One read at a time

A call of `run` starts a flight, joins the one that is pending for its key, or waits until the
pending one has drained and runs again. Its parts run as microtasks, first in, first out; what
calls `run`, lets a caller become stale or settles a load does so between two of them.
-/

namespace Ticketing

inductive LoadResult where
  | resolved | rejected
  deriving DecidableEq, Repr

/-- A promise that `load()` gave, or an exception it threw. -/
structure Load where
  key : String
  flight : ℕ
  result : Option LoadResult
  deriving DecidableEq, Repr

/-- How the promise of a flight settles; a load that is skipped leaves `undefined`. -/
inductive FlightOutcome where
  | skipped
  | loaded (load : ℕ) (result : LoadResult)
  deriving DecidableEq, Repr

/-- The promise of a flight first launches its load, and takes over the promise of the load in two
more microtasks: one subscribes to it, one follows it when it has settled. -/
inductive FlightPhase where
  | launching
  | subscribing (load : ℕ)
  | loading (load : ℕ)
  | following (load : ℕ) (result : LoadResult)
  | settled (outcome : FlightOutcome)
  deriving DecidableEq, Repr

/-- `reactions` lists the calls that await the promise, in the order in which they came. -/
structure Flight where
  key : String
  starter : ℕ
  phase : FlightPhase
  reactions : List ℕ
  deriving DecidableEq, Repr

inductive RunResult where
  | undefined
  | value (load : ℕ)
  | error (load : ℕ)
  deriving DecidableEq, Repr

/-- What a call of `run` awaits, or its result and whether it was current when it got it. -/
inductive RunPhase where
  | starting (flight : ℕ)
  | joined (flight : ℕ)
  | waiting (flight : ℕ)
  | finished (result : RunResult) (current : Bool)
  deriving DecidableEq, Repr

/-- `current` is what `isCurrent()` answers. The promise of a call that runs again takes over that
of the inner call, which is not counted as another one. -/
structure RunCall where
  key : String
  current : Bool
  phase : RunPhase
  deriving DecidableEq, Repr

inductive Microtask where
  | launch (flight : ℕ)
  | subscribe (flight : ℕ)
  | follow (flight : ℕ)
  | resume (call : ℕ)
  deriving DecidableEq, Repr

structure SingleFlight where
  pending : Option ℕ := none
  flights : List Flight := []
  loads : List Load := []
  calls : List RunCall := []
  microtasks : List Microtask := []
  deriving Repr

/-- A microtask that launches a load is told whether `load()` throws. -/
inductive FlightEvent where
  | run (key : String) (current : Bool)
  | stale (call : ℕ)
  | settle (load : ℕ) (result : LoadResult)
  | tick (throws : Bool)
  deriving DecidableEq, Repr

namespace SingleFlight

/-- What a call that awaited a flight of its key returns. -/
def returned (current : Bool) : FlightOutcome → RunResult
  | .skipped => .undefined
  | .loaded load .resolved => if current then .value load else .undefined
  | .loaded load .rejected => .error load

section Steps

variable (s : SingleFlight)

def enqueue (task : Microtask) : SingleFlight :=
  { s with microtasks := s.microtasks ++ [task] }

def setCall (i : ℕ) (call : RunCall) (phase : RunPhase) : SingleFlight :=
  { s with calls := s.calls.set i { call with phase := phase } }

def setFlight (f : ℕ) (flight : Flight) (phase : FlightPhase) : SingleFlight :=
  { s with flights := s.flights.set f { flight with phase := phase } }

/-- A promise that has settled enqueues the continuation at once. -/
def await (f : ℕ) (flight : Flight) (call : ℕ) : SingleFlight :=
  match flight.phase with
  | .settled _ => s.enqueue (.resume call)
  | _ => { s with
      flights := s.flights.set f { flight with reactions := flight.reactions ++ [call] } }

/-- The body of `run` up to its first `await`, for a call that is current. -/
def enter (call : ℕ) (key : String) : Option (RunPhase × SingleFlight) :=
  match s.pending with
  | some f => (s.flights[f]?).map fun flight =>
      (if flight.key = key then .joined f else .waiting f, s.await f flight call)
  | none =>
      let f := s.flights.length
      some (.starting f, { s with
        pending := some f
        flights := s.flights ++ [⟨key, call, .launching, [call]⟩]
        microtasks := s.microtasks ++ [.launch f] })

def run (key : String) (current : Bool) : Option SingleFlight :=
  if current = false then
    some { s with calls := s.calls ++ [⟨key, false, .finished .undefined false⟩] }
  else (s.enter s.calls.length key).map fun entered =>
    { entered.2 with calls := s.calls ++ [⟨key, true, entered.1⟩] }

def stale (i : ℕ) : Option SingleFlight :=
  (s.calls[i]?).map fun call =>
    { s with calls := s.calls.set i { call with current := false } }

def settle (l : ℕ) (result : LoadResult) : Option SingleFlight :=
  match s.loads[l]? with
  | some ⟨key, f, none⟩ =>
      let s := { s with loads := s.loads.set l ⟨key, f, some result⟩ }
      match s.flights[f]? with
      | some flight =>
          if flight.phase = .loading l then
            some ((s.setFlight f flight (.following l result)).enqueue (.follow f))
          else some s
      | none => none
  | _ => none

/-- The promise of a flight settles, and its reactions are enqueued. -/
def settleFlight (f : ℕ) (flight : Flight) (outcome : FlightOutcome) : SingleFlight :=
  { s with
    flights := s.flights.set f { flight with phase := .settled outcome, reactions := [] }
    microtasks := s.microtasks ++ flight.reactions.map .resume }

def addLoad (key : String) (f : ℕ) (result : Option LoadResult) : SingleFlight :=
  { s with loads := s.loads ++ [⟨key, f, result⟩] }

def launch (f : ℕ) (throws : Bool) : Option SingleFlight := do
  let flight ← s.flights[f]?
  let starter ← s.calls[flight.starter]?
  if flight.phase ≠ .launching then none
  else if starter.current = false then some (s.settleFlight f flight .skipped)
  else if throws then
    some ((s.addLoad flight.key f (some .rejected)).settleFlight f flight
      (.loaded s.loads.length .rejected))
  else
    some (((s.addLoad flight.key f none).setFlight f flight
      (.subscribing s.loads.length)).enqueue (.subscribe f))

def subscribe (f : ℕ) : Option SingleFlight :=
  match s.flights[f]? with
  | some flight =>
      match flight.phase with
      | .subscribing l =>
          match s.loads[l]? with
          | some ⟨_, _, none⟩ => some (s.setFlight f flight (.loading l))
          | some ⟨_, _, some result⟩ =>
              some ((s.setFlight f flight (.following l result)).enqueue (.follow f))
          | none => none
      | _ => none
  | none => none

def follow (f : ℕ) : Option SingleFlight :=
  match s.flights[f]? with
  | some flight =>
      match flight.phase with
      | .following l result => some (s.settleFlight f flight (.loaded l result))
      | _ => none
  | none => none

def outcome (f : ℕ) : Option FlightOutcome :=
  match s.flights[f]? with
  | some ⟨_, _, .settled outcome, _⟩ => some outcome
  | _ => none

def finish (i : ℕ) (call : RunCall) (result : RunResult) : SingleFlight :=
  s.setCall i call (.finished result call.current)

/-- A call goes on after its `await`. The starter of a flight clears it. -/
def resume (i : ℕ) : Option SingleFlight := do
  let call ← s.calls[i]?
  match call.phase with
  | .starting f =>
      (s.outcome f).map fun outcome =>
        { s.finish i call (returned call.current outcome) with
          pending := if s.pending = some f then none else s.pending }
  | .joined f => (s.outcome f).map fun outcome => s.finish i call (returned call.current outcome)
  | .waiting _ =>
      if call.current then
        (s.enter i call.key).map fun entered => entered.2.setCall i call entered.1
      else some (s.finish i call .undefined)
  | .finished _ _ => none

/-- The first microtask runs. -/
def tick (throws : Bool) : Option SingleFlight :=
  match s.microtasks with
  | [] => none
  | task :: rest =>
      let s := { s with microtasks := rest }
      match task with
      | .launch f => s.launch f throws
      | .subscribe f => s.subscribe f
      | .follow f => s.follow f
      | .resume i => s.resume i

def step (s : SingleFlight) : FlightEvent → Option SingleFlight
  | .run key current => s.run key current
  | .stale call => s.stale call
  | .settle load result => s.settle load result
  | .tick throws => s.tick throws

end Steps

end SingleFlight
end Ticketing
