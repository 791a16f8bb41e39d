import Ticketing.Repositories

/-!
# The order lifecycle transaction

User cancel, expiry by the worker and the payment callback share one chain of
steps. Each definition is one member function of the service; the flow state is
passed on and a step ends by committing the tables it changed or by rolling
back. Every step before the commit works on the transaction's own view.
-/

namespace Ticketing

open Relational

inductive OrderLifecycleOutcome where
  | cancelled | expired | alreadyCancelled | orderExpired | notFound | notCancellable
  | skipped | paymentCompleted | failed
  deriving DecidableEq, Repr

namespace OrderLifecycle

inductive Mode where
  | cancel | expire | paymentCallback
  deriving DecidableEq, Repr

/-- What `clock_timestamp()` returns in the statements of one transaction. -/
structure Clock where
  lockOrder : Time
  lockAttempt : Time
  markAttempt : Time
  recordSnapshot : Time
  insertRefund : Time
  checkOther : Time
  markOther : Time
  payOrder : Time
  deriving DecidableEq, Repr

structure FlowState where
  mode : Mode
  orderId : String
  userId : String := ""
  paymentAttemptId : String := ""
  order : ExpirableOrderRow := ⟨"", "", "", .pendingPayment, 0, false⟩
  attempt : Option LockedPaymentAttempt := none
  targetStatus : Option OrderStatus := none
  expectedSeatCount : ℕ := 0
  successOutcome : OrderLifecycleOutcome := .failed
  paymentSucceeded : Bool := false
  refundRequired : Bool := false
  paymentResultRecorded : Bool := false
  terminalSnapshot : Option PaymentTerminalSnapshot := none
  clock : Clock
  refundUuid : String := ""
  deriving DecidableEq, Repr

abbrev Result := TransactionResult OrderLifecycleOutcome

def finish (outcome : OrderLifecycleOutcome) : Result := .rollback outcome

def failInvariant : Result := finish .failed

def commit (state : FlowState) (db : Db) : Result := .commit state.successOutcome db

def notification (state : FlowState) : String × NotificationRow :=
  match state.targetStatus with
  | some .paid =>
      ("payment-succeeded:" ++ state.orderId,
        ⟨state.order.userId, state.orderId, .paymentSucceeded⟩)
  | some .cancelled =>
      ("order-cancelled:" ++ state.orderId,
        ⟨state.order.userId, state.orderId, .orderCancelled⟩)
  | _ =>
      ("order-expired:" ++ state.orderId,
        ⟨state.order.userId, state.orderId, .orderExpired⟩)

def insertNotification (state : FlowState) (db : Db) : Result :=
  let entry := notification state
  commit state { db with
    notifications := (NotificationRepository.insert db.notifications entry.1 entry.2).2 }

/-- Write the order part of the inventory back and go on if one row changed. -/
def continueIfOne (updated : ℕ × Inventory) (db : Db) (next : Db → Result) : Result :=
  if updated.1 ≠ 1 then failInvariant else next { db with inventory := updated.2 }

def transitionOrder (state : FlowState) (target : OrderStatus) (db : Db) : Result :=
  let updated :=
    if target = .paid then
      OrderRepository.payOrder db.inventory state.orderId state.clock.payOrder
    else OrderRepository.transitionOrder db.inventory state.orderId target
  continueIfOne updated db (insertNotification state)

/-- The reservation status that goes with the target of the order. -/
def reservationTarget : OrderStatus → ReservationStatus
  | .paid => .confirmed
  | .cancelled => .cancelled
  | .expired => .expired
  | .pendingPayment => .active

def transitionReservation (state : FlowState) (target : OrderStatus) (db : Db) : Result :=
  continueIfOne (OrderRepository.transitionReservation db.inventory state.order.reservationId
    (reservationTarget target)) db (transitionOrder state target)

def continueTerminalTransition (state : FlowState) (target : OrderStatus) (db : Db) : Result :=
  let moved :=
    if target = .paid then
      OrderRepository.sellReservationSeats db.inventory state.order.reservationId
    else OrderRepository.releaseReservationSeats db.inventory state.order.reservationId
  if moved.1 ≠ state.expectedSeatCount then failInvariant
  else transitionReservation state target { db with inventory := moved.2 }

/-- A first visit of a callback records the payment result; `recordResult` is that
continuation, and a later visit goes on to the terminal transition. -/
def lockSeats (recordResult : FlowState → Db → Result) (state : FlowState)
    (target : OrderStatus) (db : Db) : Result :=
  let seats := OrderRepository.lockReservationSeatsForExpiry db.inventory
    state.order.reservationId
  if seats = [] then failInvariant
  else if seats.any (fun seat => decide (seat.status ≠ .held) ||
      decide (seat.currentReservationId ≠ some state.order.reservationId)) then failInvariant
  else
    let state := { state with expectedSeatCount := seats.length }
    if state.mode = .paymentCallback ∧ state.paymentResultRecorded = false then
      recordResult state db
    else continueTerminalTransition state target db

def lockReservation (recordResult : FlowState → Db → Result) (state : FlowState)
    (target : OrderStatus) (db : Db) : Result :=
  match OrderRepository.lockReservationForExpiry db.inventory state.order.reservationId with
  | some .active => lockSeats recordResult state target db
  | _ => failInvariant

/-- Once the payment result is recorded `lockSeats` never records it again. -/
def recordedTwice (_state : FlowState) (_db : Db) : Result := failInvariant

def inspectOtherProcessingBeforeExpiry (state : FlowState) (target : OrderStatus)
    (attempt : Option LockedPaymentAttempt) (db : Db) : Result :=
  match attempt with
  | some other =>
      if other.deadlinePassed = false ∧ other.startedBeforeOrderExpiry = true then
        commit { state with targetStatus := none } db
      else
        let updated := PaymentRepository.markTimedOut db.ledger.attempts other.id
          state.clock.markOther
        if updated.1 ≠ 1 then failInvariant
        else lockReservation recordedTwice state target
          { db with ledger := { db.ledger with attempts := updated.2 } }
  | none => lockReservation recordedTwice state target db

def checkOtherProcessingBeforeExpiry (state : FlowState) (target : OrderStatus) (db : Db) :
    Result :=
  inspectOtherProcessingBeforeExpiry state target
    (PaymentRepository.lockProcessingForOrder db state.orderId state.clock.checkOther) db

def refundReason : OrderStatus → RefundReason
  | .cancelled => .orderCancelledBeforePaymentConfirmation
  | .expired => .orderExpiredBeforePaymentConfirmation
  | .paid => .duplicateLatePayment
  | .pendingPayment => .paymentNotAccepted

def insertRefund (state : FlowState) (db : Db) : Result :=
  match PaymentRepository.insertRefund db.ledger ("RFD-" ++ state.refundUuid)
      state.paymentAttemptId state.orderId state.order.totalAmount
      (refundReason state.order.status)
      ((state.attempt.map fun attempt => attempt.value.provider).getD "")
      state.clock.insertRefund with
  | none => finish .failed
  | some ledger =>
      let db := { db with ledger := ledger }
      match state.targetStatus with
      | some target => checkOtherProcessingBeforeExpiry state target db
      | none => commit state db

def afterPaymentResult (state : FlowState) (db : Db) : Result :=
  if state.refundRequired then insertRefund state db
  else match state.targetStatus with
    | some target =>
        if target = .expired then checkOtherProcessingBeforeExpiry state target db
        else continueTerminalTransition state target db
    | none => commit state db

def recordTerminalSnapshot (state : FlowState) (db : Db) : Result :=
  match state.terminalSnapshot with
  | none => afterPaymentResult state db
  | some snapshot =>
      match PaymentRepository.recordTerminalSnapshot db.ledger.attempts state.paymentAttemptId
          snapshot state.clock.recordSnapshot with
      | none => finish .failed
      | some recorded =>
          if recorded.1 ≠ 1 then failInvariant
          else afterPaymentResult state
            { db with ledger := { db.ledger with attempts := recorded.2 } }

def failureReason (state : FlowState) : String :=
  match state.terminalSnapshot with
  | some snapshot => snapshot.failureReason
  | none => "SIMULATED_PAYMENT_FAILURE"

def mutatePaymentResult (state : FlowState) (db : Db) : Result :=
  let updated :=
    if state.paymentSucceeded then
      PaymentRepository.markSucceeded db.ledger.attempts state.paymentAttemptId
        (decide (state.targetStatus = some .paid)) state.clock.markAttempt
    else
      PaymentRepository.markFailed db.ledger.attempts state.paymentAttemptId
        (failureReason state) state.clock.markAttempt
  if updated.1 ≠ 1 then failInvariant
  else recordTerminalSnapshot { state with paymentResultRecorded := true }
    { db with ledger := { db.ledger with attempts := updated.2 } }

def chooseTerminalTransition (state : FlowState) (hasValidProcessing : Bool) (db : Db) :
    Result :=
  if state.mode = .expire ∧ hasValidProcessing = true then finish .skipped
  else if state.mode = .cancel ∧ (state.order.expired = false ∨ hasValidProcessing = true) then
    lockReservation mutatePaymentResult
      { state with targetStatus := some .cancelled, successOutcome := .cancelled } .cancelled db
  else
    lockReservation mutatePaymentResult
      { state with
        targetStatus := some .expired
        successOutcome := if state.mode = .cancel then .orderExpired else .expired } .expired db

def markAttemptTimedOut (state : FlowState) (attempt : LockedPaymentAttempt) (db : Db) :
    Result :=
  let updated := PaymentRepository.markTimedOut db.ledger.attempts attempt.id
    state.clock.markAttempt
  if updated.1 ≠ 1 then failInvariant
  else chooseTerminalTransition state false
    { db with ledger := { db.ledger with attempts := updated.2 } }

def inspectAttempt (state : FlowState) (attempt : Option LockedPaymentAttempt) (db : Db) :
    Result :=
  let state := { state with attempt := attempt }
  match attempt with
  | some locked =>
      if locked.deadlinePassed = false ∧ locked.startedBeforeOrderExpiry = true then
        chooseTerminalTransition state true db
      else markAttemptTimedOut state locked db
  | none => chooseTerminalTransition state false db

def lockAttempt (state : FlowState) (db : Db) : Result :=
  inspectAttempt state
    (PaymentRepository.lockProcessingForOrder db state.orderId state.clock.lockAttempt) db

/-- The snapshot is of another payment than the attempt's. -/
def identityMismatch (state : FlowState) (attempt : LockedPaymentAttempt)
    (snapshot : PaymentTerminalSnapshot) : Bool :=
  decide (snapshot.provider ≠ attempt.value.provider) ||
    decide (snapshot.amount ≠ state.order.totalAmount) ||
    decide (snapshot.providerPaymentId = "") ||
    attempt.value.providerPaymentId.any fun known => decide (known ≠ snapshot.providerPaymentId)

/-- The worker that sent the snapshot has lost its lease on an open attempt. -/
def leaseLost (attempt : LockedPaymentAttempt) (snapshot : PaymentTerminalSnapshot) : Bool :=
  decide (snapshot.leaseToken ≠ "") &&
    decide (attempt.leaseToken ≠ some snapshot.leaseToken) &&
    decide (attempt.value.status ≠ .succeeded) && decide (attempt.value.status ≠ .failed)

def completeOpenAttempt (state : FlowState) (attempt : LockedPaymentAttempt) (db : Db) :
    Result :=
  if state.paymentSucceeded then
    if state.order.status = .pendingPayment ∧ attempt.deadlinePassed = false ∧
        attempt.startedBeforeOrderExpiry = true then
      lockReservation mutatePaymentResult { state with targetStatus := some .paid } .paid db
    else if state.order.status = .pendingPayment ∧ state.order.expired = true then
      mutatePaymentResult
        { state with refundRequired := true, targetStatus := some .expired } db
    else mutatePaymentResult { state with refundRequired := true } db
  else if state.order.status = .pendingPayment ∧ state.order.expired = true then
    mutatePaymentResult { state with targetStatus := some .expired } db
  else mutatePaymentResult state db

def inspectCallbackAttempt (state : FlowState) (attempt : Option LockedPaymentAttempt)
    (db : Db) : Result :=
  match attempt with
  | none => failInvariant
  | some locked =>
      let state := { state with attempt := some locked }
      if state.terminalSnapshot.any (identityMismatch state locked) then failInvariant
      else if state.terminalSnapshot.any (leaseLost locked) then finish .skipped
      else match locked.value.status with
        | .succeeded => finish .paymentCompleted
        | .failed => finish .paymentCompleted
        | .processing => completeOpenAttempt state locked db
        | .timedOut => completeOpenAttempt state locked db

def lockCallbackAttempt (state : FlowState) (db : Db) : Result :=
  inspectCallbackAttempt state
    (PaymentRepository.lockByIdForOrder db state.paymentAttemptId state.orderId
      state.clock.lockAttempt) db

def inspectOrder (state : FlowState) (order : Option ExpirableOrderRow) (db : Db) : Result :=
  match order with
  | none => finish (if state.mode = .cancel then .notFound else .skipped)
  | some row =>
      let state := { state with order := row }
      match state.mode with
      | .paymentCallback => lockCallbackAttempt state db
      | .cancel =>
          match row.status with
          | .cancelled => finish .alreadyCancelled
          | .expired => finish .orderExpired
          | .paid => finish .notCancellable
          | .pendingPayment => lockAttempt state db
      | .expire =>
          if row.status ≠ .pendingPayment ∨ row.expired = false then finish .skipped
          else lockAttempt state db

/-- `locked` tells whether another transaction holds the row the expiry would skip. -/
def lockOrder (state : FlowState) (locked : Bool) (db : Db) : Result :=
  match state.mode with
  | .cancel => inspectOrder state (OrderRepository.lockOrderForUser db.inventory state.orderId
      state.userId state.clock.lockOrder) db
  | .paymentCallback => inspectOrder state (OrderRepository.lockOrderForPayment db.inventory
      state.orderId state.clock.lockOrder) db
  | .expire => inspectOrder state (OrderRepository.lockOrderForExpiry db.inventory state.orderId
      locked state.clock.lockOrder) db

def cancel (orderId userId : String) (clock : Clock) (db : Db) : Result :=
  lockOrder { mode := .cancel, orderId := orderId, userId := userId, clock := clock } false db

def expireForWorker (orderId : String) (locked : Bool) (clock : Clock) (db : Db) : Result :=
  lockOrder { mode := .expire, orderId := orderId, clock := clock } locked db

def completePayment (orderId paymentAttemptId : String) (succeeded : Bool) (clock : Clock)
    (refundUuid : String) (db : Db) : Result :=
  lockOrder
    { mode := .paymentCallback
      orderId := orderId
      paymentAttemptId := paymentAttemptId
      paymentSucceeded := succeeded
      successOutcome := .paymentCompleted
      clock := clock
      refundUuid := refundUuid } false db

def completeProviderPayment (orderId paymentAttemptId : String)
    (snapshot : PaymentTerminalSnapshot) (clock : Clock) (refundUuid : String) (db : Db) :
    Result :=
  lockOrder
    { mode := .paymentCallback
      orderId := orderId
      paymentAttemptId := paymentAttemptId
      paymentSucceeded := snapshot.succeeded
      terminalSnapshot := some snapshot
      successOutcome := .paymentCompleted
      clock := clock
      refundUuid := refundUuid } false db

end OrderLifecycle
end Ticketing
