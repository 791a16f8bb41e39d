import Ticketing.OrderLifecycle

/-!
# Buyer refunds

The request transaction writes one PROCESSING refund of an accepted payment. The
completion transaction records the provider's verdict and, for a buyer refund
that succeeded, takes the rights back: order, reservation and seats.
-/

namespace Ticketing

open Relational

inductive ProviderRefundState where
  | processing | actionRequired | succeeded | failed
  deriving DecidableEq, Repr

structure ProviderRefund where
  provider : String
  providerRefundId : String
  providerStatus : String
  mappedState : ProviderRefundState := .processing
  terminal : Bool := false
  failureCode : Option String := none
  providerPaymentId : String
  localRefundId : String
  orderId : String
  currency : String
  amount : ℤ
  deriving DecidableEq, Repr

structure RefundTerminalSnapshot where
  orderId : String
  paymentAttemptId : String
  refund : ProviderRefund
  leaseToken : String
  deriving DecidableEq, Repr

inductive RefundLifecycleOutcome where
  | completed | fenced | failed
  deriving DecidableEq, Repr

namespace RefundLifecycle

structure Clock where
  lockOrder : Time
  moment : Time
  deriving DecidableEq, Repr

structure State where
  id : String
  snapshot : RefundTerminalSnapshot
  order : ExpirableOrderRow
  source : RefundSource
  count : ℕ := 0
  clock : Clock
  deriving DecidableEq, Repr

def snapshotSucceeded (snapshot : RefundTerminalSnapshot) : Bool :=
  decide (snapshot.refund.mappedState = .succeeded)

def State.succeeded (state : State) : Bool := snapshotSucceeded state.snapshot

abbrev Result := TransactionResult RefundLifecycleOutcome

def finish (outcome : RefundLifecycleOutcome) : Result := .rollback outcome

def notificationType : RefundSource → Bool → NotificationType
  | .buyer, true => .refundCompleted
  | .buyer, false => .refundFailed
  | .system, true => .autoRefundCompleted
  | .system, false => .autoRefundFailed

def dedupeKey (state : State) : String :=
  match state.source with
  | .buyer => "refund-terminal:" ++ state.id
  | .system =>
      (if state.succeeded then "auto-refund:" else "auto-refund-failed:") ++
        state.snapshot.paymentAttemptId

def notify (state : State) (db : Db) : Result :=
  .commit .completed { db with
    notifications := (NotificationRepository.insert db.notifications (dedupeKey state)
      ⟨state.order.userId, state.order.id, notificationType state.source state.succeeded⟩).2 }

def releaseRights (state : State) (db : Db) : Result :=
  let released := OrderRepository.releaseSoldSeatsForBuyerRefund db.inventory
    state.order.reservationId
  if released.1 ≠ state.count then finish .failed
  else notify state { db with inventory := released.2 }

def cancelReservation (state : State) (db : Db) : Result :=
  let cancelled := OrderRepository.cancelConfirmedReservationForBuyerRefund db.inventory
    state.order.reservationId
  if cancelled.1 ≠ 1 then finish .failed
  else releaseRights state { db with inventory := cancelled.2 }

def cancelRights (state : State) (db : Db) : Result :=
  match OrderRepository.cancelPaidOrderForBuyerRefund db.inventory state.order.id
      state.clock.moment with
  | none => finish .failed
  | some cancelled =>
      if cancelled.1 ≠ 1 then finish .failed
      else cancelReservation state { db with inventory := cancelled.2 }

/-- `UPDATE refunds` of the terminal step, fenced by status, lease and provider id. -/
def settle (refunds : Table String RefundRow) (state : State) : ℕ × Table String RefundRow :=
  let providerRefundId := state.snapshot.refund.providerRefundId
  refunds.updateRow state.id
    (fun row => decide (row.status = .processing) &&
      decide (row.leaseToken = some state.snapshot.leaseToken) &&
      (row.providerRefundId.isNone || decide (row.providerRefundId = some providerRefundId)))
    fun row =>
      { row with
        providerRefundId := some providerRefundId
        providerStatus := some state.snapshot.refund.providerStatus
        status := if state.succeeded then .succeeded else .failed
        refundedAt := if state.succeeded then some state.clock.moment else none
        failedAt := if state.succeeded then none else some state.clock.moment
        failureReason := if state.succeeded then none else some "PROVIDER_REFUND_FAILED"
        providerTerminalAt := some state.clock.moment
        providerLastSyncAt := some state.clock.moment
        nextReconcileAt := none
        leaseToken := none
        leaseUntil := none }

/-- The unique index on `(provider, provider_refund_id)`: another row has the pair. -/
def providerRefundTaken (refunds : Table String RefundRow) (state : State) : Bool :=
  (refunds.find state.id).any fun row => refunds.rows.any fun entry =>
    decide (entry.1 ≠ state.id) && decide (entry.2.provider = row.provider) &&
      decide (entry.2.providerRefundId = some state.snapshot.refund.providerRefundId)

def terminal (state : State) (db : Db) : Result :=
  if providerRefundTaken db.ledger.refunds state then finish .failed
  else
    let updated := settle db.ledger.refunds state
    if updated.1 ≠ 1 then finish .fenced
    else
      let db := { db with ledger := { db.ledger with refunds := updated.2 } }
      if state.source = .buyer ∧ state.succeeded = true then cancelRights state db
      else notify state db

/-- Confirmed reservations of a seat whose PAID order belongs to the same user, with the
order ids: the groups of the ownership query. -/
def owners (inv : Inventory) (seatId : String) : List (String × String) :=
  (inv.orders.select fun _ order => OrderRepository.listed inv order.reservationId seatId &&
    decide (order.status = .paid) && (inv.reservations.find order.reservationId).any
      fun reservation => decide (reservation.status = .confirmed) &&
        decide (reservation.userId = order.userId)).map
    fun entry => (entry.2.reservationId, entry.1)

def ownership (state : State) (db : Db) : Result :=
  let seatIds := db.inventory.seatIdsOf state.order.reservationId
  if seatIds.length ≠ state.count then finish .failed
  else if seatIds.any fun seatId =>
      decide ((owners db.inventory seatId).length ≠ 1) ||
      decide ((owners db.inventory seatId).count
        (state.order.reservationId, state.order.id) ≠ 1) then finish .failed
  else terminal state db

def lockSeats (state : State) (db : Db) : Result :=
  let seats := OrderRepository.lockReservationSeatsForExpiry db.inventory
    state.order.reservationId
  if seats.length ≠ state.count then finish .failed
  else if seats.any fun seat => decide (seat.status ≠ .sold) ||
      seat.currentReservationId.isSome then finish .failed
  else ownership state db

def lockReservation (state : State) (db : Db) : Result :=
  match db.inventory.reservations.find state.order.reservationId with
  | none => finish .failed
  | some reservation =>
      if reservation.status ≠ .confirmed ∨ reservation.userId ≠ state.order.userId then
        finish .failed
      else
        let items := db.inventory.seatIdsOf state.order.reservationId
        if items = [] ∨ ¬ items.Nodup then finish .failed
        else lockSeats { state with count := items.length } db

/-- The locked refund, its attempt and the snapshot are not about the same refund. -/
def identityMismatch (id : String) (snapshot : RefundTerminalSnapshot) (row : RefundRow)
    (attempt : AttemptRow) : Bool :=
  let refund := snapshot.refund
  decide (row.orderId ≠ snapshot.orderId) || decide (refund.orderId ≠ snapshot.orderId) ||
    decide (refund.localRefundId ≠ id) ||
    decide (row.paymentAttemptId ≠ snapshot.paymentAttemptId) ||
    decide (row.provider ≠ refund.provider) || decide (attempt.provider ≠ refund.provider) ||
    decide ((row.amount : ℤ) ≠ refund.amount) || decide (row.currency ≠ refund.currency) ||
    decide (attempt.currency ≠ refund.currency) ||
    decide (attempt.providerPaymentId ≠ some refund.providerPaymentId) ||
    decide (refund.providerRefundId = "") ||
    row.providerRefundId.any fun known => decide (known ≠ refund.providerRefundId)

def lockRefund (id : String) (snapshot : RefundTerminalSnapshot) (order : ExpirableOrderRow)
    (clock : Clock) (db : Db) : Result :=
  match RefundRepository.lock db.ledger id with
  | none => finish .fenced
  | some (row, attempt) =>
      if row.status ≠ .processing ∨ row.leaseToken ≠ some snapshot.leaseToken then
        finish .fenced
      else if identityMismatch id snapshot row attempt then finish .failed
      else
        let state : State :=
          { id := id, snapshot := snapshot, order := order, source := row.source, clock := clock }
        match row.source with
        | .buyer =>
            if order.status ≠ .paid ∨ (order.totalAmount : ℤ) ≠ snapshot.refund.amount ∨
                attempt.acceptedAt = none ∨ attempt.status ≠ .succeeded then finish .failed
            else if state.succeeded then lockReservation state db
            else terminal state db
        | .system =>
            if attempt.acceptedAt ≠ none then finish .failed else terminal state db

/-- A snapshot that is not a terminal verdict under a lease never opens a transaction. -/
def wellFormed (snapshot : RefundTerminalSnapshot) : Bool :=
  let refund := snapshot.refund
  refund.terminal &&
    (decide (refund.mappedState = .succeeded) || decide (refund.mappedState = .failed)) &&
    (if snapshotSucceeded snapshot then decide (refund.providerStatus = "succeeded")
      else decide (refund.providerStatus = "failed") ||
        decide (refund.providerStatus = "canceled")) &&
    decide (snapshot.leaseToken ≠ "")

def complete (id : String) (snapshot : RefundTerminalSnapshot) (clock : Clock) (db : Db) :
    Result :=
  if wellFormed snapshot = false then finish .failed
  else match OrderRepository.lockOrderForPayment db.inventory snapshot.orderId
      clock.lockOrder with
    | none => finish .failed
    | some order => lockRefund id snapshot order clock db

end RefundLifecycle

namespace RefundService

inductive Disposition where
  | created | reusedProcessing | reusedTerminal
  deriving DecidableEq, Repr

structure RefundResponse where
  status : ℕ := 500
  code : String := "INTERNAL_ERROR"
  refund : Option (String × RefundRow) := none
  disposition : Option Disposition := none
  deriving DecidableEq, Repr

structure Clock where
  lockOrder : Time
  eligibility : Time
  create : Time
  deriving DecidableEq, Repr

structure State where
  order : String
  user : String
  refundUuid : String
  clock : Clock
  deriving DecidableEq, Repr

abbrev Result := TransactionResult RefundResponse

def finish (response : RefundResponse) : Result := .rollback response

def reuse (id : String) (row : RefundRow) (db : Db) : Result :=
  if row.status = .processing then
    .commit ⟨202, "", some (id, row), some .reusedProcessing⟩ db
  else .commit ⟨200, "", some (id, row), some .reusedTerminal⟩ db

/-- The read after a creation that met a conflict. -/
def existingRaced (state : State) (db : Db) : Result :=
  match RefundRepository.buyerForOrder db.ledger.refunds state.order with
  | (id, row) :: _ => reuse id row db
  | [] => finish {}

def create (state : State) (attemptId : String) (db : Db) : Result :=
  let id := "RFD-" ++ state.refundUuid
  match RefundRepository.create db id state.order attemptId state.clock.create with
  | none => existingRaced state db
  | some (row, refunds) => .commit ⟨202, "", some (id, row), some .created⟩
      { db with ledger := { db.ledger with refunds := refunds } }

def acceptedPayment (state : State) (locked : ExpirableOrderRow) (db : Db) : Result :=
  match RefundRepository.accepted db.ledger.attempts state.order with
  | [(attemptId, attempt)] =>
      if attempt.providerPaymentId = none ∨ locked.totalAmount = 0 then finish {}
      else create state attemptId db
  | _ => finish {}

def sessionStart (inv : Inventory) (sessions : Table String SessionRow) (orderId : String) :
    Option Time := do
  let order ← inv.orders.find orderId
  let reservation ← inv.reservations.find order.reservationId
  let session ← sessions.find reservation.sessionId
  return session.startTime

def eligibility (state : State) (locked : ExpirableOrderRow) (db : Db) : Result :=
  if locked.status ≠ .paid then finish { status := 409, code := "ORDER_NOT_REFUNDABLE" }
  else match sessionStart db.inventory db.sessions state.order with
    | none => finish {}
    | some startTime =>
        if startTime ≤ state.clock.eligibility then
          finish { status := 409, code := "REFUND_WINDOW_CLOSED" }
        else acceptedPayment state locked db

def existing (state : State) (locked : ExpirableOrderRow) (db : Db) : Result :=
  match RefundRepository.buyerForOrder db.ledger.refunds state.order with
  | (id, row) :: _ => reuse id row db
  | [] => eligibility state locked db

def request (state : State) (db : Db) : Result :=
  match OrderRepository.lockOrderForPayment db.inventory state.order state.clock.lockOrder with
  | none => finish { status := 404, code := "ORDER_NOT_FOUND" }
  | some order =>
      if order.userId ≠ state.user then finish { status := 404, code := "ORDER_NOT_FOUND" }
      else existing state order db

end RefundService
end Ticketing
