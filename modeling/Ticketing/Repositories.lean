import Mathlib.Data.List.Sort
import Ticketing.Schema

/-!
# Statements of the repositories

One definition per SQL statement, under the name of the repository method that
sends it. A statement that changes rows returns the number of rows it returned
together with the changed tables; `none` stands for a database error, which
rolls the transaction back. The reading of `clock_timestamp()` is an argument.
-/

namespace Ticketing

open Relational

namespace SessionSeatRow

/-- `UPDATE session_seats SET status, current_reservation_id`; the BEFORE trigger
advances the version of a row whose status is distinct from the new one. -/
def assign (row : SessionSeatRow) (status : SeatStatus) (holder : Option String) :
    SessionSeatRow :=
  { row with
    status := status
    currentReservationId := holder
    formalVersion := if row.status = status then row.formalVersion else row.formalVersion + 1 }

/-- The row the AFTER trigger writes to the outbox. -/
def availabilityChange (id : String) (row : SessionSeatRow) : OutboxRow where
  sessionId := row.sessionId
  sessionSeatId := id
  formalStatus := row.status
  formalVersion := row.formalVersion
  leaseToken := none
  leaseUntil := none

end SessionSeatRow

namespace SeatStore

/-- An UPDATE of the status of all seats under a condition, with both triggers. -/
def updateSeats (store : SeatStore) (p : String → SessionSeatRow → Bool) (status : SeatStatus)
    (holder : Option String) : ℕ × SeatStore :=
  (store.seats.count p,
    { seats := store.seats.update p fun _ row => row.assign status holder
      outbox := store.outbox.pushAll
        ((store.seats.select fun id row => p id row && decide (row.status ≠ status)).map
          fun entry => (entry.2.assign status holder).availabilityChange entry.1) })

theorem find_updateSeats (store : SeatStore) (p : String → SessionSeatRow → Bool)
    (status : SeatStatus) (holder : Option String) (id : String) :
    (store.updateSeats p status holder).2.seats.find id =
      (store.seats.find id).map fun row => if p id row then row.assign status holder else row := by
  unfold updateSeats
  rw [Table.find_update]

end SeatStore

structure ExpirableOrderRow where
  id : String
  userId : String
  reservationId : String
  status : OrderStatus
  totalAmount : ℕ
  expired : Bool
  deriving DecidableEq, Repr

structure ExpirySessionSeatRow where
  id : String
  status : SeatStatus
  currentReservationId : Option String
  deriving DecidableEq, Repr

namespace OrderRepository

def expirable (orderId : String) (row : OrderRow) (now : Time) : ExpirableOrderRow where
  id := orderId
  userId := row.userId
  reservationId := row.reservationId
  status := row.status
  totalAmount := row.totalAmount
  expired := decide (row.expiresAt ≤ now)

def lockOrderForPayment (inv : Inventory) (orderId : String) (now : Time) :
    Option ExpirableOrderRow :=
  (inv.orders.find orderId).map fun row => expirable orderId row now

def lockOrderForUser (inv : Inventory) (orderId userId : String) (now : Time) :
    Option ExpirableOrderRow :=
  ((inv.orders.find orderId).filter fun row => decide (row.userId = userId)).map
    fun row => expirable orderId row now

/-- `FOR UPDATE SKIP LOCKED`: a row another transaction has locked is not returned. -/
def lockOrderForExpiry (inv : Inventory) (orderId : String) (locked : Bool) (now : Time) :
    Option ExpirableOrderRow :=
  if locked then none else (inv.orders.find orderId).map fun row => expirable orderId row now

def lockReservationForExpiry (inv : Inventory) (reservationId : String) :
    Option ReservationStatus :=
  (inv.reservations.find reservationId).map ReservationRow.status

/-- A seat that `reservation_session_seats` lists under the reservation. -/
def listed (inv : Inventory) (reservationId seatId : String) : Bool :=
  (inv.items.find (reservationId, seatId)).isSome

def lockReservationSeatsForExpiry (inv : Inventory) (reservationId : String) :
    List ExpirySessionSeatRow :=
  ((inv.seats.select fun id _ => listed inv reservationId id).map
    fun entry => ⟨entry.1, entry.2.status, entry.2.currentReservationId⟩).insertionSort
      fun a b => a.id ≤ b.id

def ownedHold (inv : Inventory) (reservationId seatId : String) (row : SessionSeatRow) : Bool :=
  listed inv reservationId seatId && decide (row.status = .held) &&
    decide (row.currentReservationId = some reservationId)

def releaseReservationSeats (inv : Inventory) (reservationId : String) : ℕ × Inventory :=
  let updated := inv.toSeatStore.updateSeats (ownedHold inv reservationId) .available none
  (updated.1, { inv with toSeatStore := updated.2 })

def sellReservationSeats (inv : Inventory) (reservationId : String) : ℕ × Inventory :=
  let updated := inv.toSeatStore.updateSeats (ownedHold inv reservationId) .sold none
  (updated.1, { inv with toSeatStore := updated.2 })

def transitionReservation (inv : Inventory) (reservationId : String)
    (targetStatus : ReservationStatus) : ℕ × Inventory :=
  let updated := inv.reservations.updateRow reservationId
    (fun row => decide (row.status = .active)) fun row => { row with status := targetStatus }
  (updated.1, { inv with reservations := updated.2 })

def transitionOrder (inv : Inventory) (orderId : String) (targetStatus : OrderStatus) :
    ℕ × Inventory :=
  let updated := inv.orders.updateRow orderId
    (fun row => decide (row.status = .pendingPayment)) fun row => { row with status := targetStatus }
  (updated.1, { inv with orders := updated.2 })

def payOrder (inv : Inventory) (orderId : String) (now : Time) : ℕ × Inventory :=
  let updated := inv.orders.updateRow orderId
    (fun row => decide (row.status = .pendingPayment))
    fun row => { row with status := .paid, paidAt := some now }
  (updated.1, { inv with orders := updated.2 })

def releaseSoldSeatsForBuyerRefund (inv : Inventory) (reservationId : String) :
    ℕ × Inventory :=
  let updated := inv.toSeatStore.updateSeats
    (fun id row => listed inv reservationId id && decide (row.status = .sold) &&
      decide (row.currentReservationId = none)) .available none
  (updated.1, { inv with toSeatStore := updated.2 })

def cancelConfirmedReservationForBuyerRefund (inv : Inventory) (reservationId : String) :
    ℕ × Inventory :=
  let updated := inv.reservations.updateRow reservationId
    (fun row => decide (row.status = .confirmed)) fun row => { row with status := .cancelled }
  (updated.1, { inv with reservations := updated.2 })

/-- The CHECK `refunded_at >= paid_at` refuses a moment before the payment. -/
def cancelPaidOrderForBuyerRefund (inv : Inventory) (orderId : String) (moment : Time) :
    Option (ℕ × Inventory) :=
  let guard := fun row : OrderRow => decide (row.status = .paid) && row.refundedAt.isNone
  if (inv.orders.find orderId).any (fun row =>
      guard row && row.paidAt.any fun paid => decide (moment < paid)) then none
  else
    let updated := inv.orders.updateRow orderId guard
      fun row => { row with status := .cancelled, refundedAt := some moment }
    some (updated.1, { inv with orders := updated.2 })

end OrderRepository

structure LockedPaymentAttempt where
  id : String
  value : AttemptRow
  deadlinePassed : Bool
  startedBeforeOrderExpiry : Bool
  leaseToken : Option String
  deriving DecidableEq, Repr

structure PaymentTerminalSnapshot where
  provider : String
  providerPaymentId : String
  providerStatus : String
  amount : ℤ
  succeeded : Bool
  failureReason : String
  leaseToken : String
  deriving DecidableEq, Repr

namespace PaymentRepository

def lockedRow (order : OrderRow) (id : String) (row : AttemptRow) (now : Time) :
    LockedPaymentAttempt where
  id := id
  value := row
  deadlinePassed := decide (row.processingDeadline ≤ now)
  startedBeforeOrderExpiry := decide (row.startedAt < order.expiresAt)
  leaseToken := row.leaseToken

def lockProcessingForOrder (db : Db) (orderId : String) (now : Time) :
    Option LockedPaymentAttempt := do
  let order ← db.inventory.orders.find orderId
  let entry ← (db.ledger.attempts.select fun _ row =>
    decide (row.orderId = orderId) && decide (row.status = .processing)).head?
  return lockedRow order entry.1 entry.2 now

def lockByIdForOrder (db : Db) (attemptId orderId : String) (now : Time) :
    Option LockedPaymentAttempt := do
  let order ← db.inventory.orders.find orderId
  let row ← (db.ledger.attempts.find attemptId).filter fun row => decide (row.orderId = orderId)
  return lockedRow order attemptId row now

/-- The unique index on `(provider, provider_payment_id)`: another row has the pair. -/
def providerPaymentTaken (attempts : Table String AttemptRow) (attemptId provider : String)
    (providerPaymentId : Option String) : Bool :=
  providerPaymentId.isSome && attempts.rows.any fun entry =>
    decide (entry.1 ≠ attemptId) && decide (entry.2.provider = provider) &&
      decide (entry.2.providerPaymentId = providerPaymentId)

/-- Refused by the primary key, by the index of one PROCESSING attempt per order
and by the CHECK that the deadline is after the start. -/
def createAttempt (attempts : Table String AttemptRow) (attemptId orderId : String)
    (delay grace : Time) (provider currency : String) (now : Time) :
    Option (Table String AttemptRow) :=
  let simulation := decide (provider = "simulation")
  if grace = 0 ∨ attempts.count (fun _ row =>
      decide (row.orderId = orderId) && decide (row.status = .processing)) ≠ 0 then none
  else attempts.insert attemptId
    { orderId := orderId
      status := .processing
      startedAt := now
      processingDeadline := now + grace
      scheduledCompleteAt := if simulation then some (now + delay) else none
      completedAt := none
      timedOutAt := none
      acceptedAt := none
      failureReason := none
      provider := provider
      providerPaymentId := none
      providerStatus := none
      currency := currency
      providerLastSyncAt := none
      providerTerminalAt := none
      providerRetryCount := 0
      nextReconcileAt := if simulation then none else some now
      leaseUntil := none
      leaseToken := none }

def unsettled (row : AttemptRow) : Bool :=
  decide (row.status = .processing) || decide (row.status = .timedOut)

def markTimedOut (attempts : Table String AttemptRow) (attemptId : String) (now : Time) :
    ℕ × Table String AttemptRow :=
  attempts.updateRow attemptId (fun row => decide (row.status = .processing))
    fun row => { row with status := .timedOut, timedOutAt := some now }

def markFailed (attempts : Table String AttemptRow) (attemptId reason : String) (now : Time) :
    ℕ × Table String AttemptRow :=
  attempts.updateRow attemptId unsettled fun row =>
    { row with
      status := .failed
      completedAt := some now
      acceptedAt := none
      failureReason := some reason
      providerTerminalAt := row.providerTerminalAt <|> some now
      nextReconcileAt := none
      leaseUntil := none
      leaseToken := none }

def markSucceeded (attempts : Table String AttemptRow) (attemptId : String) (accepted : Bool)
    (now : Time) : ℕ × Table String AttemptRow :=
  attempts.updateRow attemptId unsettled fun row =>
    { row with
      status := .succeeded
      completedAt := some now
      acceptedAt := if accepted then some now else none
      failureReason := none
      providerTerminalAt := row.providerTerminalAt <|> some now
      nextReconcileAt := none
      leaseUntil := none
      leaseToken := none }

def recordTerminalSnapshot (attempts : Table String AttemptRow) (attemptId : String)
    (snapshot : PaymentTerminalSnapshot) (now : Time) : Option (ℕ × Table String AttemptRow) :=
  if providerPaymentTaken attempts attemptId snapshot.provider (some snapshot.providerPaymentId)
  then none
  else some <| attempts.updateRow attemptId
    (fun row => decide (row.provider = snapshot.provider) &&
      (decide (row.status = .succeeded) || decide (row.status = .failed)) &&
      (row.providerPaymentId.isNone ||
        decide (row.providerPaymentId = some snapshot.providerPaymentId)))
    fun row =>
      { row with
        providerPaymentId := row.providerPaymentId <|> some snapshot.providerPaymentId
        providerStatus := some snapshot.providerStatus
        providerLastSyncAt := some now
        providerTerminalAt := row.providerTerminalAt <|> some now
        nextReconcileAt := none
        leaseUntil := none
        leaseToken := none }

/-- Microseconds of a number of seconds. -/
def seconds (n : ℕ) : Time := n * 1000000

/-- The condition of `recordProviderPayment`; an empty lease token matches every row. -/
def recordable (providerPaymentId leaseToken : String) (row : AttemptRow) : Bool :=
  unsettled row && (decide (leaseToken = "") || decide (row.leaseToken = some leaseToken)) &&
    (row.providerPaymentId.isNone || decide (row.providerPaymentId = some providerPaymentId))

/-- An empty lease token keeps the lease. -/
def recorded (providerPaymentId providerStatus leaseToken : String) (now : Time)
    (row : AttemptRow) : AttemptRow :=
  { row with
    providerPaymentId := row.providerPaymentId <|> some providerPaymentId
    providerStatus := some providerStatus
    providerLastSyncAt := some now
    nextReconcileAt := if row.provider = "simulation" then none else some (now + seconds 2)
    leaseUntil := if leaseToken = "" then row.leaseUntil else none
    leaseToken := if leaseToken = "" then row.leaseToken else none }

def recordProviderPayment (attempts : Table String AttemptRow)
    (attemptId providerPaymentId providerStatus leaseToken : String) (now : Time) :
    Option (ℕ × Table String AttemptRow) :=
  if (attempts.find attemptId).any (fun row => recordable providerPaymentId leaseToken row &&
      providerPaymentTaken attempts attemptId row.provider (some providerPaymentId)) then none
  else some (attempts.updateRow attemptId (recordable providerPaymentId leaseToken)
    (recorded providerPaymentId providerStatus leaseToken now))

def schedulePaymentRetry (attempts : Table String AttemptRow) (attemptId : String)
    (now : Time) : Table String AttemptRow :=
  (attempts.updateRow attemptId unsettled fun row =>
    { row with
      providerRetryCount := row.providerRetryCount + 1
      nextReconcileAt :=
        some (now + seconds (min 60 (2 ^ min row.providerRetryCount 5))) }).2

/-- `INSERT ... SELECT ... ON CONFLICT (payment_attempt_id) DO NOTHING`: a zero amount
fails its CHECK, a second refund of the attempt is skipped, a taken id is an error. -/
def insertRefund (ledger : Ledger) (refundId attemptId orderId : String) (amount : ℕ)
    (reason : RefundReason) (provider : String) (now : Time) : Option Ledger :=
  match ledger.attempts.find attemptId with
  | none => some ledger
  | some attempt =>
      if amount = 0 then none
      else if ledger.refunds.rows.any (fun entry => decide (entry.2.paymentAttemptId = attemptId))
      then some ledger
      else (ledger.refunds.insert refundId
        { paymentAttemptId := attemptId
          orderId := orderId
          amount := amount
          currency := attempt.currency
          provider := provider
          source := .system
          reason := reason
          status := .processing
          providerRefundId := none
          providerStatus := none
          refundedAt := none
          failedAt := none
          failureReason := none
          providerLastSyncAt := none
          providerTerminalAt := none
          providerRetryCount := 0
          nextReconcileAt := some now
          leaseUntil := none
          leaseToken := none }).map fun refunds => { ledger with refunds := refunds }

end PaymentRepository

namespace NotificationRepository

/-- `ON CONFLICT (dedupe_key) DO NOTHING RETURNING id`. -/
def insert (notifications : Table String NotificationRow) (dedupeKey : String)
    (row : NotificationRow) : ℕ × Table String NotificationRow :=
  match notifications.insert dedupeKey row with
  | some inserted => (1, inserted)
  | none => (0, notifications)

end NotificationRepository

namespace RefundRepository

def buyerForOrder (refunds : Table String RefundRow) (orderId : String) :
    List (String × RefundRow) :=
  refunds.select fun _ row => decide (row.orderId = orderId) && decide (row.source = .buyer)

def accepted (attempts : Table String AttemptRow) (orderId : String) :
    List (String × AttemptRow) :=
  attempts.select fun _ row => decide (row.orderId = orderId) &&
    decide (row.status = .succeeded) && row.acceptedAt.isSome

/-- The refund row of `INSERT ... SELECT`, or `none` when any unique constraint has
it already. -/
def create (db : Db) (refundId orderId attemptId : String) (now : Time) :
    Option (RefundRow × Table String RefundRow) := do
  let order ← db.inventory.orders.find orderId
  let attempt ← (db.ledger.attempts.find attemptId).filter fun row =>
    decide (row.orderId = orderId) && decide (row.status = .succeeded) && row.acceptedAt.isSome
  if db.ledger.refunds.rows.any (fun entry => decide (entry.2.paymentAttemptId = attemptId) ||
      (decide (entry.2.orderId = orderId) && decide (entry.2.source = .buyer))) then none
  else
    let row : RefundRow :=
      { paymentAttemptId := attemptId
        orderId := orderId
        amount := order.totalAmount
        currency := attempt.currency
        provider := attempt.provider
        source := .buyer
        reason := .buyerRequested
        status := .processing
        providerRefundId := none
        providerStatus := none
        refundedAt := none
        failedAt := none
        failureReason := none
        providerLastSyncAt := none
        providerTerminalAt := none
        providerRetryCount := 0
        nextReconcileAt := some now
        leaseUntil := none
        leaseToken := none }
    let refunds ← db.ledger.refunds.insert refundId row
    return (row, refunds)

/-- The refund joined with its attempt on both keys. -/
def lock (ledger : Ledger) (refundId : String) : Option (RefundRow × AttemptRow) := do
  let refund ← ledger.refunds.find refundId
  let attempt ← (ledger.attempts.find refund.paymentAttemptId).filter fun row =>
    decide (row.orderId = refund.orderId)
  return (refund, attempt)

end RefundRepository

inductive SalesWindowState where
  | notStarted | opened | ended
  deriving DecidableEq, Repr

structure SessionSalesGate where
  eventId : String
  eventOnSale : Bool
  sessionOnSale : Bool
  state : SalesWindowState
  remainingMilliseconds : ℕ
  deriving DecidableEq, Repr

def SessionSalesGate.staticallyAvailable (gate : SessionSalesGate) : Bool :=
  gate.eventOnSale && gate.sessionOnSale

namespace SalesWindowRepository

def readSessionGate (db : Db) (sessionId : String) (now : Time) : Option SessionSalesGate := do
  let session ← db.sessions.find sessionId
  let event ← db.events.find session.eventId
  let closesAt := min event.salesEndsAt session.startTime
  return {
    eventId := session.eventId
    eventOnSale := event.onSale
    sessionOnSale := session.onSale
    state :=
      if closesAt ≤ event.salesStartsAt then .ended
      else if now < event.salesStartsAt then .notStarted
      else if closesAt ≤ now then .ended
      else .opened
    remainingMilliseconds := (closesAt - now) / 1000 }

end SalesWindowRepository

structure LockedSessionSeatRow where
  id : String
  sessionId : String
  status : SeatStatus
  price : ℕ
  deriving DecidableEq, Repr

/-- `ON CONFLICT (user_id, idempotency_key) DO NOTHING`. -/
inductive InsertResult (α : Type) where
  | inserted (value : α)
  | conflict
  | error

structure ReservationResult where
  reservationId : String
  reservation : ReservationRow
  orderId : String
  order : OrderRow
  eventId : String
  seatIds : List String
  deriving DecidableEq, Repr

namespace ReservationRepository

/-- The complete reservation of a key: order, session and at least one seat joined,
seat ids ascending. -/
def findCompleteByIdempotency (db : Db) (userId idempotencyKey : String) :
    Option ReservationResult := do
  let reservation ← (db.inventory.reservations.select fun _ row =>
    decide (row.userId = userId) && decide (row.idempotencyKey = some idempotencyKey)).head?
  let order ← (db.inventory.orders.select fun _ row =>
    decide (row.reservationId = reservation.1)).head?
  let session ← db.sessions.find reservation.2.sessionId
  let seatIds := (db.inventory.seatIdsOf reservation.1).insertionSort (· ≤ ·)
  if seatIds = [] then none
  else return {
    reservationId := reservation.1
    reservation := reservation.2
    orderId := order.1
    order := order.2
    eventId := session.eventId
    seatIds := seatIds }

/-- The holding time of a new reservation. -/
def holdingTime : Time := PaymentRepository.seconds 900

def insertReservation (inv : Inventory) (reservationId userId sessionId idempotencyKey : String)
    (now : Time) : InsertResult (ReservationRow × Inventory) :=
  if inv.reservations.rows.any (fun entry => decide (entry.2.userId = userId) &&
      decide (entry.2.idempotencyKey = some idempotencyKey)) then .conflict
  else
    let row : ReservationRow :=
      { userId := userId
        sessionId := sessionId
        status := .active
        expiresAt := now + holdingTime
        createdAt := now
        idempotencyKey := some idempotencyKey }
    match inv.reservations.insert reservationId row with
    | some reservations => .inserted (row, { inv with reservations := reservations })
    | none => .error

def lockSessionSeats (inv : Inventory) (seatIds : List String) : List LockedSessionSeatRow :=
  ((inv.seats.select fun id _ => decide (id ∈ seatIds)).map
    fun entry => ⟨entry.1, entry.2.sessionId, entry.2.status, entry.2.price⟩).insertionSort
      fun a b => a.id ≤ b.id

def holdSessionSeats (inv : Inventory) (reservationId sessionId : String)
    (seatIds : List String) : ℕ × Inventory :=
  let updated := inv.toSeatStore.updateSeats
    (fun id row => decide (row.sessionId = sessionId) && decide (row.status = .available) &&
      decide (id ∈ seatIds)) .held (some reservationId)
  (updated.1, { inv with toSeatStore := updated.2 })

def insertReservationSeats (inv : Inventory) (reservationId : String)
    (seats : List LockedSessionSeatRow) : Option (ℕ × Inventory) := do
  let items ← seats.foldlM (fun items seat => items.insert (reservationId, seat.id) seat.price)
    inv.items
  return (seats.length, { inv with items := items })

/-- Refused by the primary key and by the unique reservation. -/
def insertOrder (inv : Inventory) (orderId reservationId : String) (totalAmount : ℕ) :
    Option (OrderRow × Inventory) := do
  let reservation ← inv.reservations.find reservationId
  if inv.orders.rows.any (fun entry => decide (entry.2.reservationId = reservationId)) then none
  else
    let row : OrderRow :=
      { userId := reservation.userId
        reservationId := reservationId
        status := .pendingPayment
        totalAmount := totalAmount
        expiresAt := reservation.expiresAt
        createdAt := reservation.createdAt
        paidAt := none
        refundedAt := none }
    let orders ← inv.orders.insert orderId row
    return (row, { inv with orders := orders })

end ReservationRepository
end Ticketing
