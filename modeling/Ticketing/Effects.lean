import Ticketing.Library.Trace
import Ticketing.RepositoryFacts

/-!
# Business effects of the transactions

What a committed transaction can do to inventory and ledger, described by what
later lookups return. Every invariant is proved once per effect; that the
transactions do nothing else is proved separately.
-/

namespace Ticketing

open Relational

/-- The ways the rights of an order are confirmed or end. -/
inductive Settlement where
  | paid | cancelled | expired | refunded
  deriving DecidableEq, Repr

namespace Settlement

def seatBefore : Settlement → SeatStatus
  | refunded => .sold
  | _ => .held

def holderBefore (reservationId : String) : Settlement → Option String
  | refunded => none
  | _ => some reservationId

def seatAfter : Settlement → SeatStatus
  | paid => .sold
  | _ => .available

def reservationBefore : Settlement → ReservationStatus
  | refunded => .confirmed
  | _ => .active

def reservationAfter : Settlement → ReservationStatus
  | paid => .confirmed
  | cancelled => .cancelled
  | expired => .expired
  | refunded => .cancelled

def orderBefore : Settlement → OrderStatus
  | refunded => .paid
  | _ => .pendingPayment

def orderAfter : Settlement → OrderStatus
  | paid => .paid
  | cancelled => .cancelled
  | expired => .expired
  | refunded => .cancelled

end Settlement

open OrderRepository (listed)

/-- A new reservation with its order holds seats that were available. -/
structure Reserves (reservationId : String) (reservation : ReservationRow) (orderId : String)
    (order : OrderRow) (seatIds : List String) (inv inv' : Inventory) : Prop where
  reservations : inv.reservations.Inserted reservationId reservation inv'.reservations
  active : reservation.status = .active
  freshKey : ∀ r row, inv.reservations.find r = some row →
    ¬ (row.userId = reservation.userId ∧ row.idempotencyKey = reservation.idempotencyKey)
  orders : inv.orders.Inserted orderId order inv'.orders
  pending : order.status = .pendingPayment
  refundedAt : order.refundedAt = none
  belongs : order.reservationId = reservationId
  unreferenced : ∀ o row, inv.orders.find o = some row → row.reservationId ≠ reservationId
  nonempty : seatIds ≠ []
  available : ∀ s ∈ seatIds, ∃ row, inv.seats.find s = some row ∧ row.status = .available
  seats : ∀ s, inv'.seats.find s = (inv.seats.find s).map fun row =>
    if s ∈ seatIds then row.assign .held (some reservationId) else row
  items : ∀ r s, listed inv' r s = true ↔
    listed inv r s = true ∨ (r = reservationId ∧ s ∈ seatIds)

/-- An order, its reservation and the seats it lists move on together. -/
structure Settles (kind : Settlement) (orderId : String) (order order' : OrderRow)
    (inv inv' : Inventory) : Prop where
  orders : inv.orders.Replaced orderId order order' inv'.orders
  before : order.status = kind.orderBefore
  after : order'.status = kind.orderAfter
  continues : order.Continues order'
  refundedAt : if kind = .refunded then order'.refundedAt.isSome
    else order'.refundedAt = order.refundedAt
  reservations : ∃ reservation, reservation.status = kind.reservationBefore ∧
    inv.reservations.Replaced order.reservationId reservation
      { reservation with status := kind.reservationAfter } inv'.reservations
  held : ∀ s row, listed inv order.reservationId s = true → inv.seats.find s = some row →
    row.status = kind.seatBefore ∧
      row.currentReservationId = kind.holderBefore order.reservationId
  seats : ∀ s, inv'.seats.find s = (inv.seats.find s).map fun row =>
    if listed inv order.reservationId s = true then row.assign kind.seatAfter none else row
  items : inv'.items = inv.items

/-- A refund of an attempt is written unless one exists. -/
structure RefundsSystem (attemptId orderId : String) (amount : ℕ)
    (refunds refunds' : Table String RefundRow) : Prop where
  result : (∃ refundId refund, refund.source = .system ∧
      refund.paymentAttemptId = attemptId ∧ refund.orderId = orderId ∧ refund.amount = amount ∧
      (∀ k row, refunds.find k = some row → row.paymentAttemptId ≠ attemptId) ∧
      refunds.Inserted refundId refund refunds') ∨
    (refunds' = refunds ∧ ∃ k row, refunds.find k = some row ∧ row.paymentAttemptId = attemptId)

/-- Two states of a table with the same keys whose rows are related. -/
def RowsRelate {ρ : Type} (R : ρ → ρ → Prop) (t t' : Table String ρ) : Prop :=
  ∀ k, (t.find k = none ∧ t'.find k = none) ∨
    ∃ row row', t.find k = some row ∧ t'.find k = some row' ∧ R row row'

/-- The labels of the effects; a time is the reading a time-out was decided on. -/
inductive Action where
  | reserve (reservationId : String)
  | start (attemptId orderId : String)
  | timeOut (attemptId orderId : String) (now : Time)
  | accept (attemptId orderId : String)
  | decline (attemptId orderId : String)
  | capture (attemptId orderId : String)
  | close (orderId : String) (kind : Settlement)
  | requestRefund (refundId : String)
  | settleRefund (refundId : String)
  | revoke (orderId : String)
  | sync
  deriving DecidableEq, Repr

inductive Effect : Action → Db → Db → Prop where
  | reserve {db db' : Db} {reservationId orderId : String} {reservation : ReservationRow}
      {order : OrderRow} {seatIds : List String}
      (inventory : Reserves reservationId reservation orderId order seatIds db.inventory
        db'.inventory)
      (ledger : db'.ledger = db.ledger) : Effect (.reserve reservationId) db db'
  | start {db db' : Db} {attemptId : String} {row : AttemptRow} {order : OrderRow}
      (inventory : db'.inventory = db.inventory)
      (refunds : db'.ledger.refunds = db.ledger.refunds)
      (order_found : db.inventory.orders.find row.orderId = some order)
      (pending : order.status = .pendingPayment)
      (alone : ∀ k other, db.ledger.attempts.find k = some other → other.orderId = row.orderId →
        other.status ≠ .processing)
      (processing : row.status = .processing)
      (unaccepted : row.acceptedAt = none)
      (attempts : db.ledger.attempts.Inserted attemptId row db'.ledger.attempts) :
      Effect (.start attemptId row.orderId) db db'
  | timeOut {db db' : Db} {attemptId : String} {row row' : AttemptRow} {order : OrderRow}
      {now : Time}
      (inventory : db'.inventory = db.inventory)
      (refunds : db'.ledger.refunds = db.ledger.refunds)
      (order_found : db.inventory.orders.find row.orderId = some order)
      (stale : row.processingDeadline ≤ now ∨ order.expiresAt ≤ row.startedAt)
      (processing : row.status = .processing)
      (timedOut : row'.status = .timedOut)
      (unaccepted : row'.acceptedAt = row.acceptedAt)
      (continues : row.Continues row')
      (attempts : db.ledger.attempts.Replaced attemptId row row' db'.ledger.attempts) :
      Effect (.timeOut attemptId row.orderId now) db db'
  | accept {db db' : Db} {attemptId : String} {row row' : AttemptRow} {order order' : OrderRow}
      (inventory : Settles .paid row.orderId order order' db.inventory db'.inventory)
      (refunds : db'.ledger.refunds = db.ledger.refunds)
      (unsettled : row.Unsettled)
      (succeeded : row'.status = .succeeded)
      (accepted : row'.acceptedAt.isSome)
      (continues : row.Continues row')
      (attempts : db.ledger.attempts.Replaced attemptId row row' db'.ledger.attempts) :
      Effect (.accept attemptId row.orderId) db db'
  | decline {db db' : Db} {attemptId : String} {row row' : AttemptRow}
      (inventory : db'.inventory = db.inventory)
      (refunds : db'.ledger.refunds = db.ledger.refunds)
      (unsettled : row.Unsettled)
      (failed : row'.status = .failed)
      (unaccepted : row'.acceptedAt = none)
      (continues : row.Continues row')
      (attempts : db.ledger.attempts.Replaced attemptId row row' db'.ledger.attempts) :
      Effect (.decline attemptId row.orderId) db db'
  | capture {db db' : Db} {attemptId : String} {row row' : AttemptRow} {order : OrderRow}
      (inventory : db'.inventory = db.inventory)
      (order_found : db.inventory.orders.find row.orderId = some order)
      (refunds : RefundsSystem attemptId row.orderId order.totalAmount db.ledger.refunds
        db'.ledger.refunds)
      (unsettled : row.Unsettled)
      (succeeded : row'.status = .succeeded)
      (unaccepted : row'.acceptedAt = none)
      (continues : row.Continues row')
      (attempts : db.ledger.attempts.Replaced attemptId row row' db'.ledger.attempts) :
      Effect (.capture attemptId row.orderId) db db'
  | close {db db' : Db} {orderId : String} {kind : Settlement} {order order' : OrderRow}
      (closing : kind = .cancelled ∨ kind = .expired)
      (inventory : Settles kind orderId order order' db.inventory db'.inventory)
      (ledger : db'.ledger = db.ledger)
      (settled : kind = .expired → ∀ k row, db.ledger.attempts.find k = some row →
        row.orderId = orderId → row.status ≠ .processing) :
      Effect (.close orderId kind) db db'
  | requestRefund {db db' : Db} {refundId : String} {refund : RefundRow} {attempt : AttemptRow}
      {order : OrderRow}
      (inventory : db'.inventory = db.inventory)
      (attempts : db'.ledger.attempts = db.ledger.attempts)
      (attempt_found : db.ledger.attempts.find refund.paymentAttemptId = some attempt)
      (accepted : attempt.acceptedAt.isSome)
      (order_found : db.inventory.orders.find refund.orderId = some order)
      (amount : refund.amount = order.totalAmount)
      (buyer : refund.source = .buyer)
      (single : ∀ k row, db.ledger.refunds.find k = some row →
        row.paymentAttemptId ≠ refund.paymentAttemptId)
      (refunds : db.ledger.refunds.Inserted refundId refund db'.ledger.refunds) :
      Effect (.requestRefund refundId) db db'
  | settleRefund {db db' : Db} {refundId : String} {row row' : RefundRow}
      (inventory : db'.inventory = db.inventory)
      (attempts : db'.ledger.attempts = db.ledger.attempts)
      (processing : row.status = .processing)
      (continues : row.Continues row')
      (refunds : db.ledger.refunds.Replaced refundId row row' db'.ledger.refunds) :
      Effect (.settleRefund refundId) db db'
  | revoke {db db' : Db} {refundId : String} {row row' : RefundRow} {order order' : OrderRow}
      (inventory : Settles .refunded row.orderId order order' db.inventory db'.inventory)
      (attempts : db'.ledger.attempts = db.ledger.attempts)
      (buyer : row.source = .buyer)
      (processing : row.status = .processing)
      (succeeded : row'.status = .succeeded)
      (continues : row.Continues row')
      (refunds : db.ledger.refunds.Replaced refundId row row' db'.ledger.refunds) :
      Effect (.revoke row.orderId) db db'
  | sync {db db' : Db}
      (inventory : db'.inventory = db.inventory)
      (attempts : RowsRelate AttemptRow.Synced db.ledger.attempts db'.ledger.attempts)
      (refunds : RowsRelate RefundRow.Synced db.ledger.refunds db'.ledger.refunds) :
      Effect .sync db db'

abbrev Effects := Transition.Trace Effect

end Ticketing
