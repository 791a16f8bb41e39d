import Ticketing.Library.Table

/-!
# Rows and tables of the ticketing database

The columns the transactions read or write, with the status texts of the CHECK
constraints as enumerations. Primary keys are the keys of the tables; times are
microseconds, prices and amounts are natural numbers (both CHECKed
non-negative). Inventory is kept apart from the payment ledger, so that a
statement on one visibly leaves the other alone.
-/

namespace Ticketing

open Relational

abbrev Time := ℕ

inductive SeatStatus where
  | available | held | sold
  deriving DecidableEq, Repr

inductive ReservationStatus where
  | active | confirmed | cancelled | expired
  deriving DecidableEq, Repr

inductive OrderStatus where
  | pendingPayment | paid | cancelled | expired
  deriving DecidableEq, Repr

inductive AttemptStatus where
  | processing | succeeded | failed | timedOut
  deriving DecidableEq, Repr

inductive RefundSource where
  | system | buyer
  deriving DecidableEq, Repr

inductive RefundStatus where
  | processing | succeeded | failed
  deriving DecidableEq, Repr

inductive RefundReason where
  | orderCancelledBeforePaymentConfirmation
  | orderExpiredBeforePaymentConfirmation
  | duplicateLatePayment
  | paymentNotAccepted
  | buyerRequested
  deriving DecidableEq, Repr

inductive NotificationType where
  | orderCreated | paymentSucceeded | orderCancelled | orderExpired
  | autoRefundCompleted | autoRefundFailed | refundCompleted | refundFailed
  deriving DecidableEq, Repr

structure EventRow where
  onSale : Bool
  salesStartsAt : Time
  salesEndsAt : Time
  deriving DecidableEq, Repr

structure SessionRow where
  eventId : String
  onSale : Bool
  startTime : Time
  deriving DecidableEq, Repr

structure SessionSeatRow where
  sessionId : String
  zone : String
  status : SeatStatus
  price : ℕ
  currentReservationId : Option String
  formalVersion : ℕ
  deriving DecidableEq, Repr

/-- `seat_availability_outbox`, keyed by its BIGSERIAL id. -/
structure OutboxRow where
  sessionId : String
  sessionSeatId : String
  formalStatus : SeatStatus
  formalVersion : ℕ
  leaseToken : Option String
  leaseUntil : Option Time
  deriving DecidableEq, Repr

structure ReservationRow where
  userId : String
  sessionId : String
  status : ReservationStatus
  expiresAt : Time
  createdAt : Time
  idempotencyKey : Option String
  deriving DecidableEq, Repr

structure OrderRow where
  userId : String
  reservationId : String
  status : OrderStatus
  totalAmount : ℕ
  expiresAt : Time
  createdAt : Time
  paidAt : Option Time
  refundedAt : Option Time
  deriving DecidableEq, Repr

structure AttemptRow where
  orderId : String
  status : AttemptStatus
  startedAt : Time
  processingDeadline : Time
  scheduledCompleteAt : Option Time
  completedAt : Option Time
  timedOutAt : Option Time
  acceptedAt : Option Time
  failureReason : Option String
  provider : String
  providerPaymentId : Option String
  providerStatus : Option String
  currency : String
  providerLastSyncAt : Option Time
  providerTerminalAt : Option Time
  providerRetryCount : ℕ
  nextReconcileAt : Option Time
  leaseUntil : Option Time
  leaseToken : Option String
  deriving DecidableEq, Repr

structure RefundRow where
  paymentAttemptId : String
  orderId : String
  amount : ℕ
  currency : String
  provider : String
  source : RefundSource
  reason : RefundReason
  status : RefundStatus
  providerRefundId : Option String
  providerStatus : Option String
  refundedAt : Option Time
  failedAt : Option Time
  failureReason : Option String
  providerLastSyncAt : Option Time
  providerTerminalAt : Option Time
  providerRetryCount : ℕ
  nextReconcileAt : Option Time
  leaseUntil : Option Time
  leaseToken : Option String
  deriving DecidableEq, Repr

structure NotificationRow where
  userId : String
  orderId : String
  type : NotificationType
  deriving DecidableEq, Repr

inductive ObjectKind where
  | payment | refund
  deriving DecidableEq, Repr

inductive ProviderEventStatus where
  | pending | processed | failed
  deriving DecidableEq, Repr

/-- `payment_provider_events`, the webhook inbox. -/
structure ProviderEventRow where
  provider : String
  providerEventId : String
  objectKind : ObjectKind
  providerObjectId : Option String
  localReferenceId : Option String
  status : ProviderEventStatus
  receivedAt : Time
  processedAt : Option Time
  nextRetryAt : Time
  deriving DecidableEq, Repr

/-- Session seats and the outbox their status triggers write. -/
structure SeatStore where
  seats : Table String SessionSeatRow
  outbox : Serial OutboxRow

/-- `items` is `reservation_session_seats` under its composite primary key, with
the reserved price. -/
structure Inventory extends SeatStore where
  reservations : Table String ReservationRow
  items : Table (String × String) ℕ
  orders : Table String OrderRow

structure Ledger where
  attempts : Table String AttemptRow
  refunds : Table String RefundRow

structure Db where
  users : List String
  events : Table String EventRow
  sessions : Table String SessionRow
  inventory : Inventory
  ledger : Ledger
  notifications : Table String NotificationRow
  providerEvents : Table String ProviderEventRow

/-- How a transaction ends: a new committed state, or a rollback. -/
inductive TransactionResult (ω : Type) where
  | commit (outcome : ω) (db : Db)
  | rollback (outcome : ω)

namespace TransactionResult

variable {ω : Type}

def outcome : TransactionResult ω → ω
  | commit out _ => out
  | rollback out => out

/-- The committed state after the transaction ran on `before`. -/
def after (before : Db) : TransactionResult ω → Db
  | commit _ db => db
  | rollback _ => before

@[simp] theorem after_commit (before db : Db) (out : ω) :
    (commit out db).after before = db := rfl

end TransactionResult

namespace Inventory

/-- The seats of a reservation, as `reservation_session_seats` lists them. -/
def seatIdsOf (inv : Inventory) (reservationId : String) : List String :=
  (inv.items.select fun key _ => decide (key.1 = reservationId)).map fun row => row.1.2

theorem mem_seatIdsOf (inv : Inventory) (reservationId seatId : String) :
    seatId ∈ inv.seatIdsOf reservationId ↔ (inv.items.find (reservationId, seatId)).isSome :=
  inv.items.mem_seconds reservationId seatId

theorem seatIdsOf_nodup (inv : Inventory) (reservationId : String) :
    (inv.seatIdsOf reservationId).Nodup := inv.items.seconds_nodup reservationId

end Inventory
end Ticketing
