import Ticketing.Library.JsonValue
import Ticketing.Repositories

/-!
# Creating a reservation

The request is validated, an existing reservation of the idempotency key is
replayed, and otherwise one transaction arbitrates the key, locks the seats,
passes the sales gate, holds the seats and writes reservation and order.
-/

namespace Ticketing

open Relational JsonCpp

structure CreateReservationInput where
  userId : String
  idempotencyKey : String
  body : Value
  admissionBypass : Bool := false

inductive CreateReservationOutcome where
  | created | replayed | invalidArgument | sessionNotFound | sessionNotAvailable
  | salesNotStarted | salesEnded | seatConflict | idempotencyConflict | internalError
  deriving DecidableEq, Repr

structure CreateReservationResult where
  outcome : CreateReservationOutcome
  value : Option ReservationResult := none
  deriving DecidableEq, Repr

namespace ReservationFlow

/-- A seat id of the request: a string that is not empty. -/
def seatIdOf : Value → Option String
  | .string s => if s = "" then none else some s
  | _ => none

def validateAndNormalize (input : CreateReservationInput) : Option (String × List String) :=
  if input.userId = "" ∨ input.idempotencyKey = "" ∨ 128 < input.idempotencyKey.utf8ByteSize ∨
      input.body.isObject = false then none
  else match input.body.get "sessionId", input.body.get "seatIds" with
    | .ok (.string session), .ok (.array seats) =>
        if session = "" ∨ seats.length < 1 ∨ 6 < seats.length then none
        else match seats.mapM seatIdOf with
          | none => none
          | some seatIds =>
              if seatIds.Nodup then some (session, seatIds.insertionSort (· ≤ ·)) else none
    | _, _ => none

structure Clock where
  transactionStart : Time
  preliminaryGate : Time
  finalGate : Time
  deriving DecidableEq, Repr

/-- The identifiers drawn from `getUuid` and the clock readings of one flow. -/
structure Draws where
  reservationUuid : String
  orderUuid : String
  clock : Clock
  deriving DecidableEq, Repr

structure FlowState where
  userId : String
  idempotencyKey : String
  sessionId : String
  seatIds : List String
  draws : Draws
  deriving DecidableEq, Repr

def FlowState.reservationId (state : FlowState) : String := "RSV-" ++ state.draws.reservationUuid

def FlowState.orderId (state : FlowState) : String := "TKT-" ++ state.draws.orderUuid

/-- `none` is the lost arbitration: the flow then reads the existing reservation. -/
abbrev Result := TransactionResult (Option CreateReservationResult)

def fail (outcome : CreateReservationOutcome) : Result := .rollback (some { outcome := outcome })

def sameRequest (existing : ReservationResult) (sessionId : String) (seatIds : List String) :
    Bool :=
  decide (existing.reservation.sessionId = sessionId) && decide (existing.seatIds = seatIds)

/-- The finished result, or `none` when the flow goes on to its transaction. -/
def queryExisting (state : FlowState) (required : Bool) (db : Db) :
    Option CreateReservationResult :=
  match ReservationRepository.findCompleteByIdempotency db state.userId
      state.idempotencyKey with
  | none => if required then some { outcome := .internalError } else none
  | some existing =>
      if sameRequest existing state.sessionId state.seatIds then
        some { outcome := .replayed, value := some existing }
      else some { outcome := .idempotencyConflict }

def commit (value : ReservationResult) (db : Db) : Result :=
  .commit (some { outcome := .created, value := some value }) db

def createOrderNotification (state : FlowState) (value : ReservationResult) (db : Db) : Result :=
  let inserted := NotificationRepository.insert db.notifications
    ("order-created:" ++ state.orderId) ⟨state.userId, state.orderId, .orderCreated⟩
  if inserted.1 ≠ 1 then fail .internalError
  else commit value { db with notifications := inserted.2 }

def createOrder (state : FlowState) (eventId : String) (reservation : ReservationRow)
    (totalAmount : ℕ) (db : Db) : Result :=
  match ReservationRepository.insertOrder db.inventory state.orderId state.reservationId
      totalAmount with
  | none => fail .internalError
  | some (order, inventory) =>
      if reservation.expiresAt ≠ order.expiresAt ∨ reservation.createdAt ≠ order.createdAt then
        fail .internalError
      else createOrderNotification state
        { reservationId := state.reservationId
          reservation := reservation
          orderId := state.orderId
          order := order
          eventId := eventId
          seatIds := state.seatIds } { db with inventory := inventory }

def insertSeatSnapshots (state : FlowState) (eventId : String) (reservation : ReservationRow)
    (lockedSeats : List LockedSessionSeatRow) (totalAmount : ℕ) (db : Db) : Result :=
  match ReservationRepository.insertReservationSeats db.inventory state.reservationId
      lockedSeats with
  | none => fail .internalError
  | some (inserted, inventory) =>
      if inserted ≠ state.seatIds.length then fail .internalError
      else createOrder state eventId reservation totalAmount { db with inventory := inventory }

def holdSeats (state : FlowState) (eventId : String) (reservation : ReservationRow)
    (lockedSeats : List LockedSessionSeatRow) (totalAmount : ℕ) (db : Db) : Result :=
  let held := ReservationRepository.holdSessionSeats db.inventory state.reservationId
    state.sessionId state.seatIds
  if held.1 ≠ state.seatIds.length then fail .seatConflict
  else insertSeatSnapshots state eventId reservation lockedSeats totalAmount
    { db with inventory := held.2 }

/-- The refusal of a gate that is not open. -/
def gateRefusal (gate : SessionSalesGate) : Option CreateReservationOutcome :=
  if gate.staticallyAvailable = false then some .sessionNotAvailable
  else match gate.state with
    | .notStarted => some .salesNotStarted
    | .ended => some .salesEnded
    | .opened => none

def checkFinalGate (state : FlowState) (eventId : String) (reservation : ReservationRow)
    (lockedSeats : List LockedSessionSeatRow) (totalAmount : ℕ) (db : Db) : Result :=
  match SalesWindowRepository.readSessionGate db state.sessionId state.draws.clock.finalGate with
  | none => fail .sessionNotFound
  | some gate =>
      match gateRefusal gate with
      | some outcome => fail outcome
      | none => holdSeats state eventId reservation lockedSeats totalAmount db

/-- Status and price of the locked seats, one after the other, with the running total. -/
def addSeat (total : ℕ) (seat : LockedSessionSeatRow) : Except CreateReservationOutcome ℕ :=
  if seat.status ≠ .available then .error .seatConflict
  else if maxInt64 - total < seat.price then .error .internalError
  else .ok (total + seat.price)

def lockSeats (state : FlowState) (eventId : String) (reservation : ReservationRow) (db : Db) :
    Result :=
  let seats := ReservationRepository.lockSessionSeats db.inventory state.seatIds
  if seats.length ≠ state.seatIds.length then fail .invalidArgument
  else if seats.any fun seat => decide (seat.sessionId ≠ state.sessionId) then
    fail .invalidArgument
  else match seats.foldlM addSeat 0 with
    | .error outcome => fail outcome
    | .ok totalAmount => checkFinalGate state eventId reservation seats totalAmount db

def arbitrateIdempotency (state : FlowState) (gate : SessionSalesGate) (db : Db) : Result :=
  match ReservationRepository.insertReservation db.inventory state.reservationId state.userId
      state.sessionId state.idempotencyKey state.draws.clock.transactionStart with
  | .error => fail .internalError
  | .conflict => .rollback none
  | .inserted (reservation, inventory) =>
      match gateRefusal gate with
      | some outcome => fail outcome
      | none => lockSeats state gate.eventId reservation { db with inventory := inventory }

def validateSession (state : FlowState) (db : Db) : Result :=
  match SalesWindowRepository.readSessionGate db state.sessionId
      state.draws.clock.preliminaryGate with
  | none => fail .sessionNotFound
  | some gate => arbitrateIdempotency state gate db

def validateUser (state : FlowState) (db : Db) : Result :=
  if state.userId ∈ db.users then validateSession state db else fail .invalidArgument

def startTransaction (state : FlowState) (db : Db) : Result := validateUser state db

/-- The state a request starts with, or its refusal. -/
def start (input : CreateReservationInput) (draws : Draws) : Option FlowState :=
  (validateAndNormalize input).map fun normalized =>
    { userId := input.userId
      idempotencyKey := input.idempotencyKey
      sessionId := normalized.1
      seatIds := normalized.2
      draws := draws }

/-- The committed part of `createReservation`: nothing unless the request is valid and
no reservation of its key can be read. -/
def createReservation (input : CreateReservationInput) (draws : Draws) (db : Db) : Result :=
  match start input draws with
  | none => fail .invalidArgument
  | some state =>
      match queryExisting state false db with
      | some result => .rollback (some result)
      | none => startTransaction state db

def checkoutInput (userId idempotencyKey sessionId : String) (seatIds : List String) :
    CreateReservationInput where
  userId := userId
  idempotencyKey := idempotencyKey
  body := .object [("sessionId", .string sessionId), ("seatIds", .array (seatIds.map .string))]
  admissionBypass := true

end ReservationFlow
end Ticketing
