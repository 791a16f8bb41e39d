import Ticketing.Library.LockPrograms
import Ticketing.SeatOrder

/-!
# The row locks of the order, payment and refund transactions

Every flow is the sequence of its locking statements. What a statement finds decides how a flow goes
on, so a statement without an order may find any of its rows, and a flow may end after each. The
columns that relate rows never change; the catalogue gives them for every id.
-/

namespace Ticketing.Locks

open Locking Relational

inductive NotificationKind where
  | orderCreated | paymentSucceeded | orderCancelled | orderExpired | refundTerminal
  | autoRefund | autoRefundFailed
  deriving DecidableEq

/-- Rows and unique keys. A notification key is the prefix of its kind and an id, and the key of a
change of availability is the seat and its next version. -/
inductive Row where
  | reservationKey (userId idempotencyKey : String)
  | reservation (id : String)
  | reservationSeat (reservationId sessionSeatId : String)
  | sessionSeat (id : String)
  | availabilityChange (sessionSeatId : String)
  | order (id : String)
  | orderReservationKey (reservationId : String)
  | attempt (id : String)
  | processingKey (orderId : String)
  | refund (id : String)
  | refundAttemptKey (attemptId : String)
  | buyerRefundKey (orderId : String)
  | notificationKey (kind : NotificationKind) (id : String)
  | providerEvent (id : String)
  deriving DecidableEq

inductive ObjectKind where
  | payment | refund
  deriving DecidableEq

structure Catalogue where
  reservationOfOrder : String → String
  orderOfReservation : String → String
  orderOfReservation_of : ∀ order, orderOfReservation (reservationOfOrder order) = order
  seatsOfReservation : String → List String
  orderOfAttempt : String → String
  attemptOfRefund : String → String
  objectKind : String → ObjectKind
  localReferenceId : String → Option String

namespace Catalogue

variable (cat : Catalogue)

/-- A refund and its attempt belong to one order. -/
def orderOfRefund (refundId : String) : String := cat.orderOfAttempt (cat.attemptOfRefund refundId)

/-- The row that a provider event wakes. -/
def wakes (eventId : String) : Option Row :=
  (cat.localReferenceId eventId).map fun id =>
    match cat.objectKind eventId with
    | .payment => .attempt id
    | .refund => .refund id

def isAttemptOf (orderId : String) : Row → Bool
  | .attempt id => decide (cat.orderOfAttempt id = orderId)
  | _ => false

end Catalogue

/-! ## Statements -/

section Statements

variable (c : Collation) (cat : Catalogue)

/-- Each seat once, in the order of the ids. -/
def seatRows (seatIds : List String) : List Row := (c.orderBy seatIds.dedup).map Row.sessionSeat

/-- An update of seats and the rows that its trigger inserts. -/
def isSeatChange (seatIds : List String) : Row → Bool
  | .sessionSeat id | .availabilityChange id => decide (id ∈ seatIds)
  | _ => false

def lockOrder (orderId : String) : LockStatement Row := .forUpdate [.order orderId]

def lockOrderForExpiry (orderId : String) : LockStatement Row :=
  .forUpdateSkipLocked [.order orderId]

def lockProcessingForOrder (orderId : String) : LockStatement Row :=
  .anyOrder fun _ => cat.isAttemptOf orderId

def lockAttempt (attemptId : String) : LockStatement Row := .forUpdate [.attempt attemptId]

def lockRefund (refundId : String) : LockStatement Row := .forUpdate [.refund refundId]

def lockReservation (reservationId : String) : LockStatement Row :=
  .forUpdate [.reservation reservationId]

def lockSessionSeats (seatIds : List String) : LockStatement Row := .forUpdate (seatRows c seatIds)

/-- An update of one row by its id. -/
def updateRow (row : Row) : LockStatement Row := .anyOrder fun _ r => decide (r = row)

/-- The attempt of the order that an earlier statement found. -/
def markTimedOut (orderId : String) : LockStatement Row :=
  .anyOrder fun held row => decide (row ∈ held) && cat.isAttemptOf orderId row

def updateSessionSeats (seatIds : List String) : LockStatement Row :=
  .anyOrder fun _ => isSeatChange seatIds

def insertNotification (kind : NotificationKind) (id : String) : LockStatement Row :=
  .insertOrIgnore [.notificationKey kind id]

end Statements

/-! ## Flows -/

inductive Flow where
  | createReservation (userId idempotencyKey reservationId orderId : String)
      (seatIds : List String)
  | cancel (orderId : String) (expired : Bool)
  | expire (orderId : String)
  | startPayment (orderId attemptId : String)
  | paymentCallback (orderId attemptId refundId : String) (accepted : Bool)
  | requestRefund (orderId attemptId refundId : String)
  | completeRefund (refundId : String) (buyer succeeded : Bool)
  | processInbox
  | claimPayments
  | claimRefunds
  deriving DecidableEq

section Scripts

variable (c : Collation) (cat : Catalogue)

/-- The ids that a flow draws. -/
def Flow.drawn : Flow → List Row
  | .createReservation _ _ reservationId orderId _ => [.reservation reservationId, .order orderId]
  | .startPayment _ attemptId => [.attempt attemptId]
  | .paymentCallback _ _ refundId _ | .requestRefund _ _ refundId => [.refund refundId]
  | _ => []

def createReservation (userId idempotencyKey reservationId orderId : String)
    (seatIds : List String) : List (LockStatement Row) :=
  [.insert [.reservation reservationId, .reservationKey userId idempotencyKey],
    lockSessionSeats c seatIds, updateSessionSeats seatIds,
    .insert (seatIds.map (Row.reservationSeat reservationId)),
    .insert [.order orderId, .orderReservationKey reservationId],
    insertNotification .orderCreated orderId]

/-- From the lock of the reservation to the notification. -/
def terminalTransition (orderId : String) (marks : List (LockStatement Row))
    (kind : NotificationKind) : List (LockStatement Row) :=
  let reservationId := cat.reservationOfOrder orderId
  let seatIds := cat.seatsOfReservation reservationId
  [lockReservation reservationId, lockSessionSeats c seatIds] ++ marks ++
    [updateSessionSeats seatIds, updateRow (.reservation reservationId), updateRow (.order orderId),
      insertNotification kind orderId]

/-- An order past its expiry without a valid attempt ends as expired. -/
def cancel (orderId : String) (expired : Bool) : List (LockStatement Row) :=
  [lockOrder orderId, lockProcessingForOrder cat orderId, markTimedOut cat orderId] ++
    terminalTransition c cat orderId [] (if expired then .orderExpired else .orderCancelled)

def expire (orderId : String) : List (LockStatement Row) :=
  [lockOrderForExpiry orderId, lockProcessingForOrder cat orderId, markTimedOut cat orderId] ++
    terminalTransition c cat orderId [] .orderExpired

def startPayment (orderId attemptId : String) : List (LockStatement Row) :=
  [lockOrder orderId, lockProcessingForOrder cat orderId, markTimedOut cat orderId,
    .insert [.attempt attemptId, .processingKey orderId]]

/-- An attempt of another order is not found. -/
def paymentCallback (orderId attemptId refundId : String) (accepted : Bool) :
    List (LockStatement Row) :=
  if cat.orderOfAttempt attemptId = orderId then
    let record := [updateRow (.attempt attemptId), updateRow (.attempt attemptId)]
    if accepted then
      [lockOrder orderId, lockAttempt attemptId] ++
        terminalTransition c cat orderId record .paymentSucceeded
    else
      [lockOrder orderId, lockAttempt attemptId] ++ record ++
        [.insertOrIgnore [.refund refundId, .refundAttemptKey attemptId],
          lockProcessingForOrder cat orderId, markTimedOut cat orderId] ++
        terminalTransition c cat orderId [] .orderExpired
  else [lockOrder orderId]

def requestRefund (orderId attemptId refundId : String) : List (LockStatement Row) :=
  if cat.orderOfAttempt attemptId = orderId then
    [lockOrder orderId,
      .insertOrIgnore [.refund refundId, .refundAttemptKey attemptId, .buyerRefundKey orderId]]
  else [lockOrder orderId]

/-- The worker passes the order of the refund that it claimed. -/
def completeRefund (refundId : String) (buyer succeeded : Bool) : List (LockStatement Row) :=
  let orderId := cat.orderOfRefund refundId
  let reservationId := cat.reservationOfOrder orderId
  let seatIds := cat.seatsOfReservation reservationId
  if buyer then
    if succeeded then
      [lockOrder orderId, lockRefund refundId, lockReservation reservationId,
        lockSessionSeats c seatIds, updateRow (.refund refundId), updateRow (.order orderId),
        updateRow (.reservation reservationId), updateSessionSeats seatIds,
        insertNotification .refundTerminal refundId]
    else
      [lockOrder orderId, lockRefund refundId, updateRow (.refund refundId),
        insertNotification .refundTerminal refundId]
  else
    [lockOrder orderId, lockRefund refundId, updateRow (.refund refundId),
      insertNotification (if succeeded then .autoRefund else .autoRefundFailed)
        (cat.attemptOfRefund refundId)]

def isEvent : Row → Bool
  | .providerEvent _ => true
  | _ => false

def isAttempt : Row → Bool
  | .attempt _ => true
  | _ => false

def isRefund : Row → Bool
  | .refund _ => true
  | _ => false

/-- The attempts and refunds that the claimed events refer to. -/
def isWoken (held : List Row) (row : Row) : Bool :=
  held.any fun event =>
    match event with
    | .providerEvent id => decide (cat.wakes id = some row)
    | _ => false

/-- The two updates that wake rows run in one statement, and neither has an order. -/
def processInbox : List (LockStatement Row) :=
  [.claim isEvent, .anyOrder (isWoken cat),
    .anyOrder fun held row => decide (row ∈ held) && isEvent row]

def claimPayments : List (LockStatement Row) :=
  [.claim isAttempt, .anyOrder fun held row => decide (row ∈ held)]

def claimRefunds : List (LockStatement Row) :=
  [.claim isRefund, .anyOrder fun held row => decide (row ∈ held)]

def Flow.script : Flow → List (LockStatement Row)
  | .createReservation userId idempotencyKey reservationId orderId seatIds =>
      Locks.createReservation c userId idempotencyKey reservationId orderId seatIds
  | .cancel orderId expired => Locks.cancel c cat orderId expired
  | .expire orderId => Locks.expire c cat orderId
  | .startPayment orderId attemptId => Locks.startPayment cat orderId attemptId
  | .paymentCallback orderId attemptId refundId accepted =>
      Locks.paymentCallback c cat orderId attemptId refundId accepted
  | .requestRefund orderId attemptId refundId => Locks.requestRefund cat orderId attemptId refundId
  | .completeRefund refundId buyer succeeded => Locks.completeRefund c cat refundId buyer succeeded
  | .processInbox => Locks.processInbox cat
  | .claimPayments => Locks.claimPayments
  | .claimRefunds => Locks.claimRefunds

def flows : Flows Flow Row := ⟨Flow.drawn, Flow.script c cat⟩

end Scripts
end Ticketing.Locks
