import Ticketing.OrderLifecycle

/-!
# Starting a payment

The transaction of `startPayment`: it reuses a live attempt, times a stale one
out and creates the next one. What follows the transaction is its outcome.
-/

namespace Ticketing

open Relational

inductive StartPaymentOutcome where
  | startedNew | reusedProcessing | alreadyPaid | invalidArgument | notFound
  | orderExpired | notPayable | internalError
  deriving DecidableEq, Repr

namespace PaymentFlow

/-- How the flow goes on after its transaction has ended. -/
inductive Continuation where
  | finished (outcome : StartPaymentOutcome)
  | loadAcceptedAttempt
  | startProvider (attemptId : String) (outcome : StartPaymentOutcome)
  | expireOnline
  deriving DecidableEq, Repr

structure Clock where
  lockOrder : Time
  lockAttempt : Time
  markTimedOut : Time
  createAttempt : Time
  deriving DecidableEq, Repr

/-- The configured provider as the transaction reads it. -/
structure Provider where
  name : String
  currency : String
  scheduledDelay : Time
  processingGrace : Time
  deriving DecidableEq, Repr

structure StartState where
  orderId : String
  userId : String
  provider : Provider
  attemptUuid : String
  clock : Clock
  deriving DecidableEq, Repr

abbrev Result := TransactionResult Continuation

def finish (outcome : StartPaymentOutcome) : Result := .rollback (.finished outcome)

def createAttempt (state : StartState) (db : Db) : Result :=
  let attemptId := "PAY-" ++ state.attemptUuid
  match PaymentRepository.createAttempt db.ledger.attempts attemptId state.orderId
      state.provider.scheduledDelay state.provider.processingGrace state.provider.name
      state.provider.currency state.clock.createAttempt with
  | none => finish .internalError
  | some attempts => .commit (.startProvider attemptId .startedNew)
      { db with ledger := { db.ledger with attempts := attempts } }

def timeOutAttempt (state : StartState) (order : ExpirableOrderRow)
    (attempt : LockedPaymentAttempt) (db : Db) : Result :=
  let updated := PaymentRepository.markTimedOut db.ledger.attempts attempt.id
    state.clock.markTimedOut
  if updated.1 ≠ 1 then finish .internalError
  else
    let db := { db with ledger := { db.ledger with attempts := updated.2 } }
    if order.expired then .commit .expireOnline db else createAttempt state db

def inspectProcessingAttempt (state : StartState) (order : ExpirableOrderRow)
    (attempt : Option LockedPaymentAttempt) (db : Db) : Result :=
  match attempt with
  | some locked =>
      if locked.deadlinePassed = false ∧ locked.startedBeforeOrderExpiry = true then
        .rollback (.startProvider locked.id .reusedProcessing)
      else timeOutAttempt state order locked db
  | none => if order.expired then .rollback .expireOnline else createAttempt state db

def lockProcessingAttempt (state : StartState) (order : ExpirableOrderRow) (db : Db) : Result :=
  inspectProcessingAttempt state order
    (PaymentRepository.lockProcessingForOrder db state.orderId state.clock.lockAttempt) db

def inspectOrder (state : StartState) (order : Option ExpirableOrderRow) (db : Db) : Result :=
  match order with
  | none => finish .notFound
  | some row =>
      match row.status with
      | .paid => .rollback .loadAcceptedAttempt
      | .expired => finish .orderExpired
      | .cancelled => finish .notPayable
      | .pendingPayment => lockProcessingAttempt state row db

def lockOrder (state : StartState) (db : Db) : Result :=
  inspectOrder state (OrderRepository.lockOrderForUser db.inventory state.orderId state.userId
    state.clock.lockOrder) db

def startPayment (state : StartState) (db : Db) : Result :=
  if state.orderId = "" ∨ state.userId = "" then finish .invalidArgument else lockOrder state db

end PaymentFlow
end Ticketing
