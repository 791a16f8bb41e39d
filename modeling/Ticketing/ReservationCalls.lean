import Ticketing.ReservationEffects

/-!
# Concurrent reservation calls

Each call runs its statements one at a time against the rows committed by then
and its own uncommitted writes. An insert waits for an open transaction that
has inserted the same unique key, and the seat locks wait for an open
transaction that has locked one of the seats. A transaction's writes reach the
database when it commits, and never otherwise.
-/

namespace Ticketing

open Relational

namespace ReservationFlow

/-- What a transaction knows once it has locked its seats. -/
structure Locked where
  eventId : String
  reservation : ReservationRow
  seats : List LockedSessionSeatRow
  totalAmount : ℕ
  deriving DecidableEq, Repr

/-- The statement a call sends next, with what it has read. -/
inductive Phase where
  | querying (required : Bool)
  | validatingUser
  | validatingSession
  | arbitrating (gate : SessionSalesGate)
  | locking (eventId : String) (reservation : ReservationRow)
  | checkingGate (locked : Locked)
  | holding (locked : Locked)
  | snapshotting (locked : Locked)
  | ordering (locked : Locked)
  | notifying (locked : Locked) (value : ReservationResult)
  | committing (locked : Locked) (value : ReservationResult)
  | answered (result : CreateReservationResult)
  deriving DecidableEq, Repr

namespace Phase

/-- The open transaction has inserted its reservation. -/
def inserted : Phase → Bool
  | locking _ _ | checkingGate _ | holding _ | snapshotting _ | ordering _ | notifying _ _
  | committing _ _ => true
  | _ => false

/-- The open transaction has locked its seats. -/
def locked : Phase → Bool
  | checkingGate _ | holding _ | snapshotting _ | ordering _ | notifying _ _
  | committing _ _ => true
  | _ => false

/-- The open transaction has inserted its order. -/
def ordered : Phase → Bool
  | notifying _ _ | committing _ _ => true
  | _ => false

end Phase

/-- The inventory as the transaction sees it after its insert of the reservation, and after each
further statement. -/
def inserted (state : FlowState) (inv : Inventory) : Option Inventory :=
  match ReservationRepository.insertReservation inv state.reservationId state.userId
      state.sessionId state.idempotencyKey state.draws.clock.transactionStart with
  | .inserted (_, inv') => some inv'
  | _ => none

def held (state : FlowState) (inv : Inventory) : Option Inventory := do
  let inv ← inserted state inv
  return (ReservationRepository.holdSessionSeats inv state.reservationId state.sessionId
    state.seatIds).2

def snapshotted (state : FlowState) (locked : Locked) (inv : Inventory) : Option Inventory := do
  let inv ← held state inv
  let result ← ReservationRepository.insertReservationSeats inv state.reservationId locked.seats
  return result.2

def ordered (state : FlowState) (locked : Locked) (inv : Inventory) : Option Inventory := do
  let inv ← snapshotted state locked inv
  let result ← ReservationRepository.insertOrder inv state.orderId state.reservationId
    locked.totalAmount
  return result.2

def insertNotification (state : FlowState) (db : Db) : ℕ × Table String NotificationRow :=
  NotificationRepository.insert db.notifications ("order-created:" ++ state.orderId)
    ⟨state.userId, state.orderId, .orderCreated⟩

/-- The database with all writes of the transaction. -/
def written (state : FlowState) (locked : Locked) (db : Db) : Option Db := do
  let inv ← ordered state locked db.inventory
  return { db with inventory := inv, notifications := (insertNotification state db).2 }

def refuse (outcome : CreateReservationOutcome) : Phase := .answered { outcome := outcome }

/-- The checks of `lockSeats` on the rows it has locked. -/
def examine (state : FlowState) (eventId : String) (reservation : ReservationRow)
    (seats : List LockedSessionSeatRow) : Phase :=
  if seats.length ≠ state.seatIds.length then refuse .invalidArgument
  else if seats.any fun seat => decide (seat.sessionId ≠ state.sessionId) then
    refuse .invalidArgument
  else match seats.foldlM addSeat 0 with
    | .error outcome => refuse outcome
    | .ok totalAmount => .checkingGate ⟨eventId, reservation, seats, totalAmount⟩

/-- One statement that is not blocked, on the committed database: what the call does next. -/
def advance (state : FlowState) (db : Db) : Phase → Option Phase
  | .querying required =>
      some <| match queryExisting state required db with
        | some result => .answered result
        | none => .validatingUser
  | .validatingUser =>
      some (if state.userId ∈ db.users then .validatingSession else refuse .invalidArgument)
  | .validatingSession =>
      some <| match SalesWindowRepository.readSessionGate db state.sessionId
          state.draws.clock.preliminaryGate with
        | none => refuse .sessionNotFound
        | some gate => .arbitrating gate
  | .arbitrating gate =>
      some <| match ReservationRepository.insertReservation db.inventory state.reservationId
          state.userId state.sessionId state.idempotencyKey
          state.draws.clock.transactionStart with
        | .error => refuse .internalError
        | .conflict => .querying true
        | .inserted (reservation, _) =>
            match gateRefusal gate with
            | some outcome => refuse outcome
            | none => .locking gate.eventId reservation
  | .locking eventId reservation =>
      (inserted state db.inventory).map fun inv =>
        examine state eventId reservation
          (ReservationRepository.lockSessionSeats inv state.seatIds)
  | .checkingGate locked =>
      some <| match SalesWindowRepository.readSessionGate db state.sessionId
          state.draws.clock.finalGate with
        | none => refuse .sessionNotFound
        | some gate =>
            match gateRefusal gate with
            | some outcome => refuse outcome
            | none => .holding locked
  | .holding locked =>
      (inserted state db.inventory).map fun inv =>
        if (ReservationRepository.holdSessionSeats inv state.reservationId state.sessionId
            state.seatIds).1 ≠ state.seatIds.length then refuse .seatConflict
        else .snapshotting locked
  | .snapshotting locked =>
      (held state db.inventory).map fun inv =>
        match ReservationRepository.insertReservationSeats inv state.reservationId
            locked.seats with
        | none => refuse .internalError
        | some (count, _) =>
            if count ≠ state.seatIds.length then refuse .internalError else .ordering locked
  | .ordering locked =>
      (snapshotted state locked db.inventory).map fun inv =>
        match ReservationRepository.insertOrder inv state.orderId state.reservationId
            locked.totalAmount with
        | none => refuse .internalError
        | some (order, _) =>
            if locked.reservation.expiresAt ≠ order.expiresAt ∨
                locked.reservation.createdAt ≠ order.createdAt then refuse .internalError
            else .notifying locked
              { reservationId := state.reservationId
                reservation := locked.reservation
                orderId := state.orderId
                order := order
                eventId := locked.eventId
                seatIds := state.seatIds }
  | .notifying locked value =>
      some (if (insertNotification state db).1 ≠ 1 then refuse .internalError
        else .committing locked value)
  | .committing _ value => some (.answered { outcome := .created, value := some value })
  | .answered _ => none

end ReservationFlow

open ReservationFlow (FlowState Draws Phase)

structure ReservationCall where
  input : CreateReservationInput
  draws : Draws
  state : FlowState
  phase : Phase

structure ReservationSystem where
  db : Db
  calls : Table ℕ ReservationCall

namespace ReservationSystem

/-- The row locks and unique entries another open transaction holds do not block the call. -/
def unblocked (call other : ReservationCall) : Bool :=
  match call.phase with
  | .arbitrating _ =>
      !(other.phase.inserted &&
        ((decide (other.state.userId = call.state.userId) &&
            decide (other.state.idempotencyKey = call.state.idempotencyKey)) ||
          decide (other.state.reservationId = call.state.reservationId)))
  | .locking _ _ =>
      !(other.phase.locked && other.state.seatIds.any fun s => decide (s ∈ call.state.seatIds))
  | .ordering _ => !(other.phase.ordered && decide (other.state.orderId = call.state.orderId))
  | _ => true

def proceeds (sys : ReservationSystem) (id : ℕ) (call : ReservationCall) : Bool :=
  sys.calls.rows.all fun other => decide (other.1 = id) || unblocked call other.2

def withPhase (sys : ReservationSystem) (id : ℕ) (phase : Phase) : ReservationSystem :=
  { sys with
    calls := (sys.calls.updateRow id (fun _ => true) fun call => { call with phase := phase }).2 }

/-- A commit makes the writes of the transaction visible; every other statement leaves the
committed rows alone. -/
def commitOf (call : ReservationCall) (db : Db) : Option Db :=
  match call.phase with
  | .committing locked _ => ReservationFlow.written call.state locked db
  | _ => some db

end ReservationSystem

/-- A call arrives, a call's statement runs, or a statement, the commit or the connection of an
open call fails and rolls it back. As the driver promises, a commit that is reported as failed has
not taken place: one that is applied while its answer is lost is no event here. -/
inductive ReservationEvent where
  | submit (id : ℕ) (input : CreateReservationInput) (draws : Draws)
  | statement (id : ℕ)
  | failure (id : ℕ)

namespace ReservationSystem

def submit (id : ℕ) (input : CreateReservationInput) (draws : Draws) (sys : ReservationSystem) :
    Option ReservationSystem :=
  match ReservationFlow.start input draws with
  | none => some sys
  | some state =>
      (sys.calls.insert id ⟨input, draws, state, .querying false⟩).map fun calls =>
        { sys with calls := calls }

def statement (id : ℕ) (sys : ReservationSystem) : Option ReservationSystem := do
  let call ← sys.calls.find id
  if sys.proceeds id call then
    let phase ← ReservationFlow.advance call.state sys.db call.phase
    let db ← commitOf call sys.db
    return { sys.withPhase id phase with db := db }
  else none

def failure (id : ℕ) (sys : ReservationSystem) : Option ReservationSystem := do
  let call ← sys.calls.find id
  match call.phase with
  | .answered _ => none
  | _ => some (sys.withPhase id (ReservationFlow.refuse .internalError))

def step (sys : ReservationSystem) : ReservationEvent → Option ReservationSystem
  | .submit id input draws => sys.submit id input draws
  | .statement id => sys.statement id
  | .failure id => sys.failure id

/-- The state after events that are all possible in turn. -/
def run (events : List ReservationEvent) (sys : ReservationSystem) : Option ReservationSystem :=
  events.foldlM step sys

end ReservationSystem
end Ticketing
