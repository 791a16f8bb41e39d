import Ticketing.CheckoutFlow
import Ticketing.Library.ReadCommitted
import Ticketing.SeatOrder

/-!
# Requests on one checkout, statement by statement

The transactions of the requests on a checkout run beside each other. Each of them locks the row of
the checkout before its first statement. Between two transactions a request is described by what its
continuation has captured; it may fail at every statement and at every commit. A commit that the
callback reports as failed has not been applied. Redis takes part with the outcomes of its scripts.
-/

namespace Ticketing.Selection

open ReadCommitted JsonCpp MergeSets
open CheckoutSessionService
  (normalizeSeatIds salesFailure salesWindowFailure checkoutBusinessFailure)

/-! ## The row and its seats -/

/-- The row of a checkout and the rows of its seats. -/
structure Checkout where
  state : CheckoutState
  revision : ℕ
  seatIds : List String
  deriving DecidableEq, Repr

inductive Write where
  | deleteSeats
  | insertSeats (seatIds : List String)
  | advanceSeatRevision
  | setState (state : CheckoutState)
  deriving DecidableEq, Repr

def Write.apply : Write → Checkout → Checkout
  | deleteSeats, s => { s with seatIds := [] }
  | insertSeats seatIds, s => { s with seatIds := s.seatIds ++ seatIds }
  | advanceSeatRevision, s => { s with revision := s.revision + 1 }
  | setState state, s => { s with state := state }

/-- The row is there from the beginning, and nobody deletes it. -/
def store : Store Checkout Write Unit where
  apply := Write.apply
  present _ _ := true

/-! ## Requests -/

structure ReplaceRequest where
  userId : String
  seatIds : List String
  expectedRevision : ℕ
  deriving DecidableEq, Repr

/-- The body of a PUT; the revision is less than the greatest one there is. -/
def replaceRequest (userId : String) (body : Value) : Option ReplaceRequest :=
  match body.get "seatIds", body.get "expectedRevision" with
  | .ok seats, .ok revision =>
      match normalizeSeatIds seats 0, revision.asInt64 with
      | some seatIds, .ok expectedRevision =>
          if userId = "" ∨ body.isObject = false ∨ revision.isInt64 = false ∨
              expectedRevision < 0 ∨ maxInt64 ≤ expectedRevision then none
          else some ⟨userId, seatIds, expectedRevision.toNat⟩
      | _, _ => none
  | _, _ => none

/-- What a confirm has captured once its first transaction is committed. -/
structure Confirm where
  userId : String
  idempotencyKey : String
  seatIds : List String
  deriving DecidableEq, Repr

/-- What a request does next; it has ended with an answer or with the response of the admission
guard. -/
inductive Flow where
  | replace (request : ReplaceRequest)
  | prepareConfirm (userId : String)
  | formal (confirm : Confirm)
  | finalizeReserved (confirm : Confirm) (reservationId : String)
  | resetAfterBusinessFailure (confirm : Confirm) (failure : CheckoutSessionOutcome)
  | closeSubmitting (confirm : Confirm) (failure : CheckoutSessionOutcome)
  | abandon (userId : String)
  | get (userId : String)
  | resolve (userId : String) (state : CheckoutState) (successOutcome : CheckoutSessionOutcome)
  | reconcile (userId idempotencyKey reservationId : String)
      (successOutcome : CheckoutSessionOutcome)
  | repair (idempotencyKey reservationId : String)
  | answered (outcome : CheckoutSessionOutcome)
  | refused
  deriving DecidableEq, Repr

/-- How a transaction that is rolled back goes on. -/
inductive Ending where
  | answer (outcome : CheckoutSessionOutcome)
  | refuse
  | resolve (userId : String) (state : CheckoutState) (successOutcome : CheckoutSessionOutcome)
  deriving DecidableEq, Repr

def Ending.flow : Ending → Flow
  | answer outcome => .answered outcome
  | refuse => .refused
  | resolve userId state successOutcome => .resolve userId state successOutcome

/-- What a transaction is told from outside: by the admission guard, by the seats of the session, by
the sales gate, and by the seat-hold script. -/
structure Signals where
  admitted : Bool := true
  found : Bool := true
  gate : Option SessionSalesGate
  holds : SeatHoldOutcome := .applied
  deriving DecidableEq, Repr

/-- Why the session takes no checkout at the moment. -/
def Signals.failure (signals : Signals) : Option CheckoutSessionOutcome :=
  match signals.gate with
  | none => some .sessionNotFound
  | some gate => salesFailure gate

abbrev DB := Prog Checkout Write Unit Ending

/-! ## Statements -/

/-- The row of another user is neither found nor locked. -/
def lockByIdForUser (owner userId : String) (missing : Ending) (rest : Checkout → DB Flow) :
    DB Flow :=
  if userId = owner then .lock () missing ((Prog.query id).bind rest)
  else .rollback missing

def loadSeatIds (collation : Collation) : DB (List String) :=
  .query fun row => collation.orderBy row.seatIds

def deleteSeats : DB Unit := .exec (fun _ => [.deleteSeats]) fun _ => ()

/-- Refused by the primary key where a seat would be there twice. -/
def insertSeats (seatIds : List String) : DB Unit := do
  let present ← .query Checkout.seatIds
  .require (decide (present ++ seatIds).Nodup) (.answer .internalError)
  .exec (fun _ => [.insertSeats seatIds]) fun _ => ()

def advanceSeatRevision : DB Unit := .exec (fun _ => [.advanceSeatRevision]) fun _ => ()

/-- An UPDATE under a condition on the state; no row is an error where the source says so. -/
def updateState (expected state : CheckoutState) : DB Unit := do
  let matched ← .exec (fun s => if s.state = expected then [.setState state] else [])
    fun s => decide (s.state = expected)
  .require matched (.answer .internalError)

def setSubmitting (idempotencyKey : String) : DB Unit :=
  updateState .selecting (.submitting idempotencyKey)

def setReserved (idempotencyKey reservationId : String) : DB Unit :=
  updateState (.submitting idempotencyKey) (.reserved idempotencyKey reservationId)

def resetSelecting (idempotencyKey : String) : DB Unit :=
  updateState (.submitting idempotencyKey) .selecting

def abandonSubmitting (idempotencyKey : String) : DB Unit :=
  updateState (.submitting idempotencyKey) .abandoned

def setAbandoned : DB Unit := updateState .selecting .abandoned

/-! ## Changing the seats -/

def replaceTouch : DB Flow := do
  advanceSeatRevision
  pure (.answered .updated)

def replaceInsertSeats (request : ReplaceRequest) : DB Flow := do
  insertSeats request.seatIds
  replaceTouch

def replaceDeleteSeats (request : ReplaceRequest) : DB Flow := do
  deleteSeats
  if request.seatIds = [] then replaceTouch else replaceInsertSeats request

/-- A prepare that Redis does not answer lets the request go on. -/
def replacePrepareHolds (request : ReplaceRequest) (addedSeatIds retainedSeatIds : List String)
    (signals : Signals) : DB Flow :=
  if addedSeatIds = [] ∧ retainedSeatIds = [] then replaceDeleteSeats request
  else
    match signals.failure with
    | some failure => .rollback (.answer failure)
    | none => do
        .require (decide (signals.holds ≠ .conflict)) (.answer .temporarySeatConflict)
        replaceDeleteSeats request

def replaceValidateSeats (request : ReplaceRequest) (addedSeatIds retainedSeatIds : List String)
    (signals : Signals) : DB Flow :=
  if request.seatIds = [] then replacePrepareHolds request addedSeatIds retainedSeatIds signals
  else do
    .require signals.found (.answer .invalidArgument)
    replacePrepareHolds request addedSeatIds retainedSeatIds signals

def replaceSeats (collation : Collation) (owner : String) (request : ReplaceRequest)
    (signals : Signals) : DB Flow :=
  lockByIdForUser owner request.userId (.answer .notFound) fun row => do
    .require (decide (row.state = .selecting)) (.answer .notModifiable)
    .require (decide (row.revision = request.expectedRevision)) (.answer .versionConflict)
    let oldSeatIds ← loadSeatIds collation
    let addedSeatIds := setDifference request.seatIds oldSeatIds
    let retainedSeatIds := setIntersection request.seatIds oldSeatIds
    .require (decide (addedSeatIds = []) || signals.admitted) .refuse
    replaceValidateSeats request addedSeatIds retainedSeatIds signals

/-! ## Confirming -/

def freezeConfirm (confirm : Confirm) : DB Flow := do
  setSubmitting confirm.idempotencyKey
  pure (.formal confirm)

def closeSelectingAfterSalesWindow (failure : CheckoutSessionOutcome) : DB Flow := do
  setAbandoned
  pure (.answered failure)

def confirmEnsureHolds (confirm : Confirm) (signals : Signals) : DB Flow :=
  match signals.failure with
  | some failure =>
      if salesWindowFailure failure then closeSelectingAfterSalesWindow failure
      else .rollback (.answer failure)
  | none => do
      .require (decide (signals.holds ≠ .conflict)) (.answer .temporarySeatConflict)
      freezeConfirm confirm

def confirmLoadSeats (collation : Collation) (row : Checkout) (userId newKey : String)
    (signals : Signals) : DB Flow := do
  let seatIds ← loadSeatIds collation
  match row.state with
  | .reserved key reservationId =>
      .rollback (.resolve userId (.reserved key reservationId) .confirmed)
  | .abandoned => .rollback (.answer .notConfirmable)
  | .submitting key => do
      .require (decide (seatIds ≠ [] ∧ seatIds.length ≤ 6)) (.answer .internalError)
      pure (.formal ⟨userId, key, seatIds⟩)
  | .selecting => do
      .require (decide (seatIds ≠ [] ∧ seatIds.length ≤ 6)) (.answer .invalidArgument)
      .require signals.admitted .refuse
      confirmEnsureHolds ⟨userId, newKey, seatIds⟩ signals

def prepareConfirm (collation : Collation) (owner userId newKey : String) (signals : Signals) :
    DB Flow :=
  lockByIdForUser owner userId (.answer .notFound) fun row =>
    confirmLoadSeats collation row userId newKey signals

def finalizeReserved (owner : String) (confirm : Confirm) (reservationId : String) : DB Flow :=
  lockByIdForUser owner confirm.userId (.answer .internalError) fun row => do
    .require (decide (row.state.reservationId ≠ some reservationId)) (.answer .confirmed)
    .require (decide (row.state = .submitting confirm.idempotencyKey)) (.answer .internalError)
    setReserved confirm.idempotencyKey reservationId
    pure (.answered .confirmed)

/-- The holds are released before the state is reset, whatever Redis answers. -/
def resetAfterBusinessFailure (owner : String) (confirm : Confirm)
    (failure : CheckoutSessionOutcome) : DB Flow :=
  lockByIdForUser owner confirm.userId (.answer .internalError) fun row => do
    .require (decide (row.state ≠ .selecting)) (.answer failure)
    .require (decide (row.state = .submitting confirm.idempotencyKey)) (.answer .internalError)
    resetSelecting confirm.idempotencyKey
    pure (.answered failure)

def closeSubmittingAfterSalesWindow (owner : String) (confirm : Confirm)
    (failure : CheckoutSessionOutcome) : DB Flow :=
  lockByIdForUser owner confirm.userId (.answer .internalError) fun row =>
    match row.state with
    | .reserved key reservationId =>
        .rollback (.resolve confirm.userId (.reserved key reservationId) .confirmed)
    | .abandoned => .rollback (.answer failure)
    | .selecting => .rollback (.answer .internalError)
    | .submitting key => do
        .require (decide (key = confirm.idempotencyKey)) (.answer .internalError)
        abandonSubmitting confirm.idempotencyKey
        pure (.answered failure)

/-! ## Abandoning and repairing -/

def abandon (collation : Collation) (owner userId : String) : DB Flow :=
  lockByIdForUser owner userId (.answer .notFound) fun row => do
    .require (decide (row.state ≠ .abandoned)) (.answer .abandoned)
    .require (decide (row.state = .selecting)) (.answer .notAbandonable)
    let _ ← loadSeatIds collation
    setAbandoned
    pure (.answered .abandoned)

def reconcileRecord (owner userId idempotencyKey reservationId : String)
    (successOutcome : CheckoutSessionOutcome) : DB Flow :=
  lockByIdForUser owner userId (.answer .internalError) fun row => do
    .require (decide (row.state.reservationId ≠ some reservationId)) (.answer successOutcome)
    .require (decide (row.state = .submitting idempotencyKey)) (.answer .internalError)
    setReserved idempotencyKey reservationId
    pure (.answered successOutcome)

/-- The UPDATE of the batch finds the checkout as it is once the row is locked. -/
def repair (idempotencyKey reservationId : String) : DB Flow :=
  .lock () (.answer .internalError) do
    setReserved idempotencyKey reservationId
    pure (.answered .found)

/-! ## Transactions of the requests -/

/-- A transaction of the request with this number. -/
structure Job where
  number : ℕ
  flow : Flow
  signals : Signals
  deriving DecidableEq, Repr

/-- The order of the database, the user of the checkout, and the key that a confirm draws. -/
structure Setting where
  collation : Collation
  owner : String
  confirmKey : ℕ → String

def Setting.program (setting : Setting) (job : Job) : DB Flow :=
  match job.flow with
  | .replace request => replaceSeats setting.collation setting.owner request job.signals
  | .prepareConfirm userId =>
      Selection.prepareConfirm setting.collation setting.owner userId
        (setting.confirmKey job.number) job.signals
  | .finalizeReserved confirm reservationId =>
      Selection.finalizeReserved setting.owner confirm reservationId
  | .resetAfterBusinessFailure confirm failure =>
      Selection.resetAfterBusinessFailure setting.owner confirm failure
  | .closeSubmitting confirm failure =>
      closeSubmittingAfterSalesWindow setting.owner confirm failure
  | .abandon userId => Selection.abandon setting.collation setting.owner userId
  | .reconcile userId idempotencyKey reservationId successOutcome =>
      reconcileRecord setting.owner userId idempotencyKey reservationId successOutcome
  | .repair idempotencyKey reservationId => Selection.repair idempotencyKey reservationId
  | _ => .rollback (.answer .internalError)

/-- The ids of the seats and keys are not drawn by the transactions themselves. -/
def Setting.workload (setting : Setting) : Workload Checkout Write Unit Ending Flow Job Unit where
  program := setting.program
  ids _ := []
  births _ := []
  occurs _ _ := false

/-! ## The requests beside each other -/

/-- A committed reservation of the user under a confirm key. -/
structure Reservation where
  id : String
  idempotencyKey : String
  seatIds : List String
  deriving DecidableEq, Repr

inductive Activity where
  | waiting (flow : Flow)
  | running (transaction : ℕ)
  deriving DecidableEq, Repr

/-- The checkout with its open transactions, what each request is about, the reservations under its
keys, and the committed changes of the seats in the order of their commits. -/
structure Updates where
  sys : Sys Checkout Write Unit Ending Flow Job
  requests : ℕ → Option Activity
  reservations : List Reservation
  replaced : List (ℕ × ReplaceRequest)

inductive Move where
  | put (number : ℕ) (userId : String) (body : Value)
  | confirm (number : ℕ) (userId : String)
  | abandon (number : ℕ) (userId : String)
  | get (number : ℕ) (userId : String)
  | refuse (number : ℕ)
  | begin (number : ℕ) (signals : Signals)
  | advance (transaction : ℕ)
  | commit (transaction : ℕ)
  | abort (transaction : ℕ)
  | reserve (number : ℕ) (outcome : CreateReservationOutcome) (reservationId : String)
  | read (number : ℕ)
  | repair (number : ℕ)

def Flow.isTransaction : Flow → Bool
  | formal _ | get _ | resolve _ _ _ | answered _ | refused => false
  | _ => true

namespace Updates

/-- The committed checkout. -/
def checkout (m : Updates) : Checkout := m.sys.committed

def goOn (m : Updates) (number : ℕ) (flow : Flow) : Updates :=
  { m with requests := Function.update m.requests number (some (.waiting flow)) }

/-- A request under a number that no other one has. -/
def receive (m : Updates) (number : ℕ) (flow : Flow) : Option Updates :=
  if m.requests number = none then some (m.goOn number flow) else none

def findReservation (m : Updates) (idempotencyKey : String) : Option Reservation :=
  m.reservations.find? fun reservation => decide (reservation.idempotencyKey = idempotencyKey)

def record (m : Updates) (job : Job) : Updates :=
  { m with
    replaced := match job.flow with
      | .replace request => m.replaced ++ [(job.number, request)]
      | _ => m.replaced }

/-- A business failure ends the confirm, and any other one leaves the checkout SUBMITTING. -/
def failFormalReservation (m : Updates) (number : ℕ) (confirm : Confirm)
    (outcome : CreateReservationOutcome) : Updates :=
  match checkoutBusinessFailure outcome with
  | some failure =>
      if salesWindowFailure failure then m.goOn number (.closeSubmitting confirm failure)
      else m.goOn number (.resetAfterBusinessFailure confirm failure)
  | none => m.goOn number (.answered .internalError)

/-- The result of the formal reservation: it is committed, it is found under the key with the same
seats, or it fails. -/
def runFormalReservation (m : Updates) (number : ℕ) (confirm : Confirm)
    (outcome : CreateReservationOutcome) (reservationId : String) : Option Updates :=
  match outcome, m.findReservation confirm.idempotencyKey with
  | .created, none =>
      if m.reservations.all fun reservation => decide (reservation.id ≠ reservationId) then
        some (goOn { m with reservations := m.reservations ++
            [⟨reservationId, confirm.idempotencyKey, confirm.seatIds⟩] } number
          (.finalizeReserved confirm reservationId))
      else none
  | .created, some _ => none
  | .replayed, some reservation =>
      if reservation.seatIds = confirm.seatIds then
        some (m.goOn number (.finalizeReserved confirm reservation.id))
      else none
  | .replayed, none => none
  | outcome, _ => some (m.failFormalReservation number confirm outcome)

def resolveRecord (m : Updates) (userId : String) (state : CheckoutState)
    (successOutcome : CheckoutSessionOutcome) : Flow :=
  match state with
  | .submitting key =>
      match m.findReservation key with
      | some reservation => .reconcile userId key reservation.id successOutcome
      | none => .answered successOutcome
  | .reserved key reservationId =>
      if (m.findReservation key).map Reservation.id = some reservationId then
        .answered successOutcome
      else .answered .internalError
  | _ => .answered successOutcome

/-- A read outside a transaction. -/
def readRecord (setting : Setting) (m : Updates) : Flow → Option Flow
  | .get userId =>
      some (if userId = setting.owner then .resolve userId m.checkout.state .found
        else .answered .notFound)
  | .resolve userId state successOutcome => some (m.resolveRecord userId state successOutcome)
  | _ => none

def step (setting : Setting) (m : Updates) : Move → Option Updates
  | .put number userId body =>
      m.receive number <| match replaceRequest userId body with
        | some request => .replace request
        | none => .answered .invalidArgument
  | .confirm number userId => m.receive number (.prepareConfirm userId)
  | .abandon number userId => m.receive number (.abandon userId)
  | .get number userId => m.receive number (.get userId)
  -- by the traffic control, before the transaction
  | .refuse number =>
      match m.requests number with
      | some (.waiting flow) => if flow.isTransaction then some (m.goOn number .refused) else none
      | _ => none
  | .begin number signals =>
      match m.requests number with
      | some (.waiting flow) =>
          if flow.isTransaction then
            (m.sys.step store setting.workload (.begin ⟨number, flow, signals⟩)).map fun sys =>
              { m with
                sys := sys
                requests := Function.update m.requests number
                  (some (.running m.sys.txs.length)) }
          else none
      | _ => none
  | .advance i => (m.sys.step store setting.workload (.advance i)).map fun sys =>
      { m with sys := sys }
  | .commit i =>
      match m.sys.open? i with
      | some ⟨job, _, _, .commit flow⟩ =>
          (m.sys.step store setting.workload (.commit i)).map fun sys =>
            (record { m with sys := sys } job).goOn job.number flow
      | _ => none
  | .abort i =>
      match m.sys.open? i with
      | some ⟨job, _, _, .rollback ending⟩ =>
          (m.sys.step store setting.workload (.abort i)).map fun sys =>
            goOn { m with sys := sys } job.number ending.flow
      | some ⟨job, _, _, _⟩ =>
          (m.sys.step store setting.workload (.abort i)).map fun sys =>
            goOn { m with sys := sys } job.number (.answered .internalError)
      | none => none
  | .reserve number outcome reservationId =>
      match m.requests number with
      | some (.waiting (.formal confirm)) =>
          m.runFormalReservation number confirm outcome reservationId
      | _ => none
  | .read number =>
      match m.requests number with
      | some (.waiting flow) => (m.readRecord setting flow).map fun next => m.goOn number next
      | _ => none
  | .repair number =>
      match m.requests number, m.checkout.state with
      | none, .submitting key => (m.findReservation key).map fun reservation =>
          m.goOn number (.repair key reservation.id)
      | _, _ => none

/-- The checkout before the first request on it. -/
def start (checkout : Checkout) : Updates where
  sys := ⟨checkout, []⟩
  requests _ := none
  reservations := []
  replaced := []

def run (setting : Setting) (m : Updates) (moves : List Move) : Option Updates :=
  moves.foldlM (step setting) m

end Updates
end Ticketing.Selection
