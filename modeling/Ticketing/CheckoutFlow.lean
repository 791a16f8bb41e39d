import Ticketing.CheckoutSessions
import Ticketing.Transactions

/-!
# Requests on a checkout session

Creating, changing and abandoning a checkout is one transaction each. A confirm
spans several: between two of them a flow is described by what its continuation
has captured, and one step of it is one transaction or one read.
-/

namespace Ticketing

open Relational JsonCpp

inductive SeatHoldOutcome where
  | applied | conflict | unavailable
  deriving DecidableEq, Repr

inductive CheckoutSessionOutcome where
  | created | found | updated | confirmed | abandoned | invalidArgument | sessionNotFound
  | sessionNotAvailable | salesNotStarted | salesEnded | notFound | notModifiable
  | versionConflict | notConfirmable | notAbandonable | seatConflict | temporarySeatConflict
  | internalError
  deriving DecidableEq, Repr

inductive Disposition where
  | confirmedNow | reusedConfirmation | alreadyConfirmed
  deriving DecidableEq, Repr

/-- `refused` stands for the response of the admission guard. -/
structure CheckoutSessionResult where
  outcome : CheckoutSessionOutcome := .internalError
  value : Option CheckoutSessionRecord := none
  disposition : Option Disposition := none
  refused : Bool := false
  deriving DecidableEq, Repr

/-- What one step draws or is told from outside: a failing statement or commit, a fresh uuid,
the clock, the admission guard, the seat-hold scripts and the draws of a reservation. -/
structure Signals where
  fault : Bool := false
  uuid : String
  now : Time
  admitted : Bool := true
  holds : SeatHoldOutcome := .applied
  draws : ReservationFlow.Draws
  deriving DecidableEq, Repr

structure ConfirmState where
  checkoutSessionId : String
  userId : String
  idempotencyKey : String := ""
  record : Option CheckoutSessionRecord := none
  disposition : Option Disposition := none
  deriving DecidableEq, Repr

structure ResolveState where
  record : CheckoutSessionRecord
  successOutcome : CheckoutSessionOutcome
  disposition : Option Disposition
  deriving DecidableEq, Repr

/-- The transaction or read a confirm is about to run. -/
inductive ConfirmPhase where
  | prepare
  | queryExisting (required : Bool)
  | reservation
  | finalize (formalResult : ReservationResult)
  | reset (businessFailure : CheckoutSessionOutcome)
  | close (businessFailure : CheckoutSessionOutcome)
  deriving DecidableEq, Repr

inductive Flow where
  | confirm (state : ConfirmState) (phase : ConfirmPhase)
  | get (checkoutSessionId userId : String)
  | resolve (state : ResolveState)
  | reconcile (state : ResolveState) (formalResult : ReservationResult)
  | finished (result : CheckoutSessionResult)
  deriving DecidableEq, Repr

namespace CheckoutSessionService

open CheckoutSessionRepository

def salesFailure (gate : SessionSalesGate) : Option CheckoutSessionOutcome :=
  if gate.staticallyAvailable = false then some .sessionNotAvailable
  else if gate.state = .notStarted then some .salesNotStarted
  else if gate.state = .ended ∨ gate.remainingMilliseconds = 0 then some .salesEnded
  else none

def salesWindowFailure (outcome : CheckoutSessionOutcome) : Bool :=
  decide (outcome = .salesNotStarted) || decide (outcome = .salesEnded)

def normalizeSeatIds (seats : Value) (minimum : ℕ) : Option (List String) :=
  match seats with
  | .array items =>
      if items.length < minimum ∨ 6 < items.length then none
      else match items.mapM ReservationFlow.seatIdOf with
        | none => none
        | some seatIds =>
            if seatIds.Nodup then some (seatIds.insertionSort (· ≤ ·)) else none
  | _ => none

def checkoutBusinessFailure : CreateReservationOutcome → Option CheckoutSessionOutcome
  | .invalidArgument => some .invalidArgument
  | .sessionNotFound => some .sessionNotFound
  | .sessionNotAvailable => some .sessionNotAvailable
  | .salesNotStarted => some .salesNotStarted
  | .salesEnded => some .salesEnded
  | .seatConflict => some .seatConflict
  | .created | .replayed | .idempotencyConflict | .internalError => none

/-- The committed store and the answer of a request that is one transaction. -/
abbrev Reply := CheckoutStore × CheckoutSessionResult

def fail (store : CheckoutStore) (outcome : CheckoutSessionOutcome) : Reply :=
  (store, { outcome := outcome })

def admissionFailure : CheckoutSessionResult := { refused := true }

def createInsert (checkoutSessionId userId sessionId : String) (seatIds : List String)
    (signals : Signals) (store : CheckoutStore) : Reply :=
  match insertCheckoutSession store checkoutSessionId userId sessionId signals.now with
  | none => fail store .internalError
  | some (row, opened) =>
      match insertSeats opened checkoutSessionId sessionId seatIds with
      | none => fail store .internalError
      | some (_, filled) =>
          (filled, { outcome := .created, value := some ⟨checkoutSessionId, row, seatIds, none⟩ })

def createValidateSession (checkoutSessionId userId sessionId : String) (seatIds : List String)
    (signals : Signals) (store : CheckoutStore) : Reply :=
  match SalesWindowRepository.readSessionGate store.db sessionId signals.now with
  | none => fail store .sessionNotFound
  | some gate =>
      match salesFailure gate with
      | some failure => fail store failure
      | none =>
          if findSessionSeatIds store sessionId seatIds ≠ seatIds then fail store .invalidArgument
          else if signals.holds = .conflict then fail store .temporarySeatConflict
          else createInsert checkoutSessionId userId sessionId seatIds signals store

def create (userId : String) (body : Value) (signals : Signals) (store : CheckoutStore) : Reply :=
  match body.get "sessionId", body.get "seatIds" with
  | .ok (.string sessionId), .ok seats =>
      if userId = "" ∨ body.isObject = false ∨ sessionId = "" then fail store .invalidArgument
      else match normalizeSeatIds seats 1 with
        | none => fail store .invalidArgument
        | some seatIds =>
            if signals.admitted = false then (store, admissionFailure)
            else if signals.fault then fail store .internalError
            else if userId ∉ store.db.users then fail store .invalidArgument
            else createValidateSession ("CHK-" ++ signals.uuid) userId sessionId seatIds signals
              store
  | _, _ => fail store .invalidArgument

structure ReplaceState where
  checkoutSessionId : String
  userId : String
  seatIds : List String
  row : CheckoutRow
  oldSeatIds : List String

namespace ReplaceState

def addedSeatIds (state : ReplaceState) : List String :=
  state.seatIds.filter fun seatId => decide (seatId ∉ state.oldSeatIds)

def retainedSeatIds (state : ReplaceState) : List String :=
  state.seatIds.filter fun seatId => decide (seatId ∈ state.oldSeatIds)

end ReplaceState

def replaceTouch (state : ReplaceState) (signals : Signals) (before store : CheckoutStore) :
    Reply :=
  let touched := advanceSeatRevision store state.checkoutSessionId signals.now
  if touched.1 ≠ 1 then fail before .internalError
  else (touched.2,
    { outcome := .updated
      value := findByIdForUser touched.2 state.checkoutSessionId state.userId })

def replaceDeleteSeats (state : ReplaceState) (signals : Signals) (store : CheckoutStore) :
    Reply :=
  let cleared := deleteSeats store state.checkoutSessionId
  if state.seatIds = [] then replaceTouch state signals store cleared
  else match insertSeats cleared state.checkoutSessionId state.row.sessionId state.seatIds with
    | none => fail store .internalError
    | some (_, filled) => replaceTouch state signals store filled

def replacePrepareHolds (state : ReplaceState) (signals : Signals) (store : CheckoutStore) :
    Reply :=
  if state.addedSeatIds = [] ∧ state.retainedSeatIds = [] then
    replaceDeleteSeats state signals store
  else match SalesWindowRepository.readSessionGate store.db state.row.sessionId signals.now with
    | none => fail store .sessionNotFound
    | some gate =>
        match salesFailure gate with
        | some failure => fail store failure
        | none =>
            if signals.holds = .conflict then fail store .temporarySeatConflict
            else replaceDeleteSeats state signals store

def replaceValidateSeats (state : ReplaceState) (signals : Signals) (store : CheckoutStore) :
    Reply :=
  if state.seatIds ≠ [] ∧
      findSessionSeatIds store state.row.sessionId state.seatIds ≠ state.seatIds then
    fail store .invalidArgument
  else replacePrepareHolds state signals store

def replaceLock (checkoutSessionId userId : String) (seatIds : List String)
    (expectedRevision : ℤ) (signals : Signals) (store : CheckoutStore) : Reply :=
  match lockByIdForUser store checkoutSessionId userId with
  | none => fail store .notFound
  | some row =>
      if row.state ≠ .selecting then fail store .notModifiable
      else if (row.revision : ℤ) ≠ expectedRevision then fail store .versionConflict
      else
        let state : ReplaceState :=
          ⟨checkoutSessionId, userId, seatIds, row, loadSeatIds store checkoutSessionId⟩
        if state.addedSeatIds ≠ [] ∧ signals.admitted = false then (store, admissionFailure)
        else replaceValidateSeats state signals store

def replaceSeats (checkoutSessionId userId : String) (body : Value) (signals : Signals)
    (store : CheckoutStore) : Reply :=
  match body.get "seatIds", body.get "expectedRevision" with
  | .ok seats, .ok revision =>
      match normalizeSeatIds seats 0, revision.asInt64 with
      | some seatIds, .ok expectedRevision =>
          if checkoutSessionId = "" ∨ userId = "" ∨ body.isObject = false ∨
              revision.isInt64 = false ∨ expectedRevision < 0 ∨
              JsonCpp.maxInt64 ≤ expectedRevision then
            fail store .invalidArgument
          else if signals.fault then fail store .internalError
          else replaceLock checkoutSessionId userId seatIds expectedRevision signals store
      | _, _ => fail store .invalidArgument
  | _, _ => fail store .invalidArgument

def abandon (checkoutSessionId userId : String) (signals : Signals) (store : CheckoutStore) :
    Reply :=
  if checkoutSessionId = "" ∨ userId = "" then fail store .invalidArgument
  else if signals.fault then fail store .internalError
  else match lockByIdForUser store checkoutSessionId userId with
    | none => fail store .notFound
    | some row =>
        match row.state with
        | .abandoned =>
            (store, { outcome := .abandoned, value := some { id := checkoutSessionId, row := row } })
        | .selecting =>
            let abandoned := setAbandoned store checkoutSessionId signals.now
            if abandoned.1 ≠ 1 then fail store .internalError
            else (abandoned.2,
              { outcome := .abandoned
                value := findByIdForUser abandoned.2 checkoutSessionId userId })
        | _ => fail store .notAbandonable

/-- What a flow leaves: the committed store and the continuation. -/
abbrev Next := CheckoutStore × Flow

def finish (outcome : CheckoutSessionOutcome) : Flow := .finished { outcome := outcome }

/-- A record without a confirm key is answered as it is; the others need their formal result. -/
def resolveRecord (state : ResolveState) : Flow :=
  match state.record.row.state.activeConfirmIdempotencyKey with
  | none => .finished
      { outcome := state.successOutcome
        value := some state.record
        disposition := state.disposition }
  | some _ => .resolve state

def finishResolved (state : ResolveState) (record : CheckoutSessionRecord) : Flow :=
  .finished
    { outcome := state.successOutcome, value := some record, disposition := state.disposition }

def failResolve (state : ResolveState) : Flow :=
  .finished { outcome := .internalError, disposition := state.disposition }

def resolveFormalResult (state : ResolveState) (store : CheckoutStore) : Flow :=
  match state.record.row.state.activeConfirmIdempotencyKey with
  | none => failResolve state
  | some key =>
      match ReservationRepository.findCompleteByIdempotency store.db state.record.row.userId key,
          state.record.row.state with
      | none, .submitting _ => finishResolved state state.record
      | none, _ => failResolve state
      | some formal, .reserved _ reservationId =>
          if reservationId ≠ formal.reservationId then failResolve state
          else finishResolved state { state.record with formalResult := some formal }
      | some formal, _ => .reconcile state formal

def reservedRecord (record : CheckoutSessionRecord) (row : CheckoutRow)
    (formal : ReservationResult) : CheckoutSessionRecord :=
  { record with row := row, formalResult := some formal }

def reconcileRecordLocked (state : ResolveState) (formal : ReservationResult) (signals : Signals)
    (store : CheckoutStore) : Next :=
  match lockByIdForUser store state.record.id state.record.row.userId,
      state.record.row.state.activeConfirmIdempotencyKey with
  | some current, some key =>
      if current.state.reservationId = some formal.reservationId then
        (store, finishResolved state (reservedRecord state.record current formal))
      else if current.state ≠ .submitting key then (store, failResolve state)
      else match setReserved store state.record.id key formal.reservationId signals.now with
        | some (1, reserved) =>
            (reserved, finishResolved state (reservedRecord state.record
              { current with state := .reserved key formal.reservationId, updatedAt := signals.now }
              formal))
        | _ => (store, failResolve state)
  | _, _ => (store, failResolve state)

def closeSelectingAfterSalesWindow (state : ConfirmState) (failure : CheckoutSessionOutcome)
    (signals : Signals) (store : CheckoutStore) : Next :=
  let abandoned := setAbandoned store state.checkoutSessionId signals.now
  if abandoned.1 ≠ 1 then (store, finish .internalError) else (abandoned.2, finish failure)

def freezeConfirm (state : ConfirmState) (signals : Signals) (store : CheckoutStore) : Next :=
  match setSubmitting store state.checkoutSessionId state.idempotencyKey signals.now with
  | some (1, frozen) => (frozen, .confirm state (.queryExisting false))
  | _ => (store, finish .internalError)

def confirmEnsureHolds (state : ConfirmState) (sessionId : String) (signals : Signals)
    (store : CheckoutStore) : Next :=
  match SalesWindowRepository.readSessionGate store.db sessionId signals.now with
  | none => (store, finish .sessionNotFound)
  | some gate =>
      match salesFailure gate with
      | some failure =>
          if salesWindowFailure failure then
            closeSelectingAfterSalesWindow state failure signals store
          else (store, finish failure)
      | none =>
          if signals.holds = .conflict then (store, finish .temporarySeatConflict)
          else freezeConfirm state signals store

def confirmKey (uuid : String) : String := "CHK-CONFIRM-" ++ uuid

def confirmLoadSeats (state : ConfirmState) (row : CheckoutRow) (signals : Signals)
    (store : CheckoutStore) : Next :=
  let seatIds := loadSeatIds store state.checkoutSessionId
  let record : CheckoutSessionRecord := ⟨state.checkoutSessionId, row, seatIds, none⟩
  match row.state with
  | .reserved _ _ => (store, resolveRecord ⟨record, .confirmed, some .alreadyConfirmed⟩)
  | .abandoned => (store, finish .notConfirmable)
  | .submitting key =>
      if seatIds = [] ∨ 6 < seatIds.length then (store, finish .internalError)
      else (store, .confirm
        { state with
          idempotencyKey := key
          record := some record
          disposition := some .reusedConfirmation } (.queryExisting false))
  | .selecting =>
      if seatIds = [] ∨ 6 < seatIds.length then (store, finish .invalidArgument)
      else if signals.admitted = false then (store, .finished admissionFailure)
      else confirmEnsureHolds
        { state with
          idempotencyKey := confirmKey signals.uuid
          record := some record
          disposition := some .confirmedNow } row.sessionId signals store

def prepareConfirm (state : ConfirmState) (signals : Signals) (store : CheckoutStore) : Next :=
  if state.checkoutSessionId = "" ∨ state.userId = "" then (store, finish .invalidArgument)
  else match lockByIdForUser store state.checkoutSessionId state.userId with
    | none => (store, finish .notFound)
    | some row => confirmLoadSeats state row signals store

/-- The request `createReservationForCheckout` makes of the frozen record. -/
def formalRequest (state : ConfirmState) (draws : ReservationFlow.Draws) :
    Option ReservationFlow.FlowState :=
  state.record.bind fun record => ReservationFlow.start
    (ReservationFlow.checkoutInput state.userId state.idempotencyKey record.row.sessionId
      record.seatIds) draws

/-- The continuation on the result of the formal reservation. -/
def formalFinished (state : ConfirmState) (result : CreateReservationResult) : Flow :=
  match result.outcome, result.value with
  | .created, some formal => .confirm state (.finalize formal)
  | .replayed, some formal => .confirm state (.finalize formal)
  | outcome, _ =>
      match checkoutBusinessFailure outcome with
      | some failure =>
          if salesWindowFailure failure then .confirm state (.close failure)
          else .confirm state (.reset failure)
      | none => finish .internalError

def queryExisting (state : ConfirmState) (required : Bool) (signals : Signals)
    (store : CheckoutStore) : Flow :=
  match formalRequest state signals.draws with
  | none => formalFinished state { outcome := .invalidArgument }
  | some request =>
      match ReservationFlow.queryExisting request required store.db with
      | some result => formalFinished state result
      | none => .confirm state .reservation

/-- The reservation transaction; a lost arbitration reads the existing reservation again. -/
def runFormalReservation (state : ConfirmState) (signals : Signals) (store : CheckoutStore) :
    Next :=
  match formalRequest state signals.draws with
  | none => (store, formalFinished state { outcome := .invalidArgument })
  | some request =>
      let result := ReservationFlow.startTransaction request store.db
      ({ store with db := result.after store.db },
        match result.outcome with
        | some finished => formalFinished state finished
        | none => .confirm state (.queryExisting true))

def finalizeReservedLocked (state : ConfirmState) (formal : ReservationResult)
    (signals : Signals) (store : CheckoutStore) : Next :=
  let confirmed (row : CheckoutRow) : Flow := .finished
    { outcome := .confirmed
      value := state.record.map fun record => reservedRecord record row formal
      disposition := state.disposition }
  match lockByIdForUser store state.checkoutSessionId state.userId with
  | none => (store, finish .internalError)
  | some current =>
      if current.state.reservationId = some formal.reservationId then (store, confirmed current)
      else if current.state ≠ .submitting state.idempotencyKey then (store, finish .internalError)
      else match setReserved store state.checkoutSessionId state.idempotencyKey
          formal.reservationId signals.now with
        | some (1, reserved) =>
            (reserved, confirmed
              { current with
                state := .reserved state.idempotencyKey formal.reservationId
                updatedAt := signals.now })
        | _ => (store, finish .internalError)

def resetAfterBusinessFailureLocked (state : ConfirmState) (failure : CheckoutSessionOutcome)
    (signals : Signals) (store : CheckoutStore) : Next :=
  match lockByIdForUser store state.checkoutSessionId state.userId with
  | none => (store, finish .internalError)
  | some current =>
      if current.state = .selecting then (store, finish failure)
      else if current.state ≠ .submitting state.idempotencyKey then (store, finish .internalError)
      else
        let reopened := resetSelecting store state.checkoutSessionId state.idempotencyKey
          signals.now
        if reopened.1 ≠ 1 then (store, finish .internalError) else (reopened.2, finish failure)

def closeSubmittingAfterSalesWindow (state : ConfirmState) (failure : CheckoutSessionOutcome)
    (signals : Signals) (store : CheckoutStore) : Next :=
  match lockByIdForUser store state.checkoutSessionId state.userId with
  | none => (store, finish .internalError)
  | some current =>
      match current.state with
      | .reserved _ _ =>
          (store, resolveRecord ⟨⟨state.checkoutSessionId, current, [], none⟩, .confirmed,
            some .alreadyConfirmed⟩)
      | .abandoned => (store, finish failure)
      | .selecting => (store, finish .internalError)
      | .submitting key =>
          if key ≠ state.idempotencyKey then (store, finish .internalError)
          else
            let closed := abandonSubmitting store state.checkoutSessionId state.idempotencyKey
              signals.now
            if closed.1 ≠ 1 then (store, finish .internalError) else (closed.2, finish failure)

def getRecord (checkoutSessionId userId : String) (store : CheckoutStore) : Flow :=
  if checkoutSessionId = "" ∨ userId = "" then finish .invalidArgument
  else match findByIdForUser store checkoutSessionId userId with
    | none => finish .notFound
    | some record => resolveRecord ⟨record, .found, none⟩

/-- One transaction or read of a flow that meets no fault. -/
def advance (signals : Signals) (store : CheckoutStore) : Flow → Next
  | .confirm state .prepare => prepareConfirm state signals store
  | .confirm state (.queryExisting required) =>
      (store, queryExisting state required signals store)
  | .confirm state .reservation => runFormalReservation state signals store
  | .confirm state (.finalize formal) => finalizeReservedLocked state formal signals store
  | .confirm state (.reset failure) =>
      resetAfterBusinessFailureLocked state failure signals store
  | .confirm state (.close failure) =>
      closeSubmittingAfterSalesWindow state failure signals store
  | .get checkoutSessionId userId => (store, getRecord checkoutSessionId userId store)
  | .resolve state => (store, resolveFormalResult state store)
  | .reconcile state formal => reconcileRecordLocked state formal signals store
  | .finished result => (store, .finished result)

/-- A fault rolls the transaction back and ends the flow. -/
def failFlow : Flow → Flow
  | .resolve state => failResolve state
  | .reconcile state _ => failResolve state
  | .finished result => .finished result
  | .confirm _ _ => finish .internalError
  | .get _ _ => finish .internalError

def run (signals : Signals) (store : CheckoutStore) (flow : Flow) : Next :=
  if signals.fault then (store, failFlow flow) else advance signals store flow

end CheckoutSessionService

/-- The checkouts, the requests under way, and the history of confirm keys: every pair of a
checkout and a key it has been SUBMITTING under so far. -/
structure CheckoutSystem where
  store : CheckoutStore
  flows : Table ℕ Flow
  confirmKeys : List (String × String)

namespace CheckoutSystem

/-- A key built from a uuid that `getUuid` has not returned before. -/
def unused (system : CheckoutSystem) (key : String) : Bool :=
  system.confirmKeys.all (fun entry => decide (entry.2 ≠ key)) &&
    system.store.db.inventory.reservations.rows.all fun entry =>
      decide (entry.2.idempotencyKey ≠ some key)

def submittingKey (entry : String × CheckoutRow) : Option (String × String) :=
  entry.2.state.submittingKey.map fun key => (entry.1, key)

/-- A new state of the store, with the keys its checkouts are now SUBMITTING under. -/
def commit (system : CheckoutSystem) (store : CheckoutStore) (flows : Table ℕ Flow) :
    CheckoutSystem where
  store := store
  flows := flows
  confirmKeys := store.checkouts.rows.filterMap submittingKey ++ system.confirmKeys

end CheckoutSystem

inductive CheckoutStep where
  | create (userId : String) (body : Value) (signals : Signals)
  | replaceSeats (checkoutSessionId userId : String) (body : Value) (signals : Signals)
  | abandon (checkoutSessionId userId : String) (signals : Signals)
  | confirm (flow : ℕ) (checkoutSessionId userId : String)
  | get (flow : ℕ) (checkoutSessionId userId : String)
  | advance (flow : ℕ) (signals : Signals)
  | crash (flow : ℕ)
  | reconcileSubmitting (batchSize : ℕ) (now : Time)
  | transact (tx : Transaction)

namespace CheckoutStep

open CheckoutSessionService

/-- One atomic step; `none` where it cannot be taken: a number of a flow that is in use or that
is not, or a uuid that was drawn before. -/
def apply (system : CheckoutSystem) : CheckoutStep → Option CheckoutSystem
  | create userId body signals =>
      some (system.commit (CheckoutSessionService.create userId body signals system.store).1
        system.flows)
  | replaceSeats checkoutSessionId userId body signals =>
      some (system.commit (CheckoutSessionService.replaceSeats checkoutSessionId userId body signals
        system.store).1 system.flows)
  | abandon checkoutSessionId userId signals =>
      some (system.commit (CheckoutSessionService.abandon checkoutSessionId userId signals
        system.store).1 system.flows)
  | confirm flow checkoutSessionId userId =>
      (system.flows.insert flow (.confirm ⟨checkoutSessionId, userId, "", none, none⟩
        .prepare)).map (system.commit system.store)
  | get flow checkoutSessionId userId =>
      (system.flows.insert flow (.get checkoutSessionId userId)).map (system.commit system.store)
  | advance number signals =>
      match system.flows.find number with
      | none => none
      | some flow =>
          if system.unused (confirmKey signals.uuid) then
            let next := run signals system.store flow
            some (system.commit next.1 (system.flows.updateRow number (fun _ => true)
              fun _ => next.2).2)
          else none
  | crash flow =>
      some (system.commit system.store (system.flows.retain fun number _ => decide (number ≠ flow)))
  | reconcileSubmitting batchSize now =>
      (CheckoutSessionRepository.reconcileSubmitting system.store batchSize now).map fun repaired =>
        system.commit repaired.2 system.flows
  | transact tx =>
      some (system.commit { system.store with db := tx.apply system.store.db } system.flows)

/-- The state after a sequence of steps that can all be taken. -/
def applyAll (system : CheckoutSystem) (steps : List CheckoutStep) : Option CheckoutSystem :=
  steps.foldlM apply system

end CheckoutStep
end Ticketing
