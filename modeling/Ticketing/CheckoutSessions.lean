import Ticketing.ReservationFlow

/-!
# Checkout sessions

The checkout rows beside the ticketing database and the statements on them.
The state-shape CHECK of `checkout_sessions` leaves four shapes of status,
confirm key and reservation id; they are the constructors of `CheckoutState`.
-/

namespace Ticketing

open Relational JsonCpp

inductive CheckoutState where
  | selecting
  | submitting (activeConfirmIdempotencyKey : String)
  | reserved (activeConfirmIdempotencyKey reservationId : String)
  | abandoned
  deriving DecidableEq, Repr

namespace CheckoutState

def activeConfirmIdempotencyKey : CheckoutState → Option String
  | submitting key => some key
  | reserved key _ => some key
  | _ => none

/-- The key of a checkout whose status is SUBMITTING. -/
def submittingKey : CheckoutState → Option String
  | submitting key => some key
  | _ => none

def reservationId : CheckoutState → Option String
  | reserved _ reservationId => some reservationId
  | _ => none

end CheckoutState

structure CheckoutRow where
  userId : String
  sessionId : String
  state : CheckoutState
  revision : ℕ
  updatedAt : Time
  deriving DecidableEq, Repr

/-- `checkout_session_seats` maps a checkout and a seat to their common session. -/
structure CheckoutStore where
  db : Db
  checkouts : Table String CheckoutRow
  seats : Table (String × String) String

structure CheckoutSessionRecord where
  id : String
  row : CheckoutRow
  seatIds : List String := []
  formalResult : Option ReservationResult := none
  deriving DecidableEq, Repr

namespace CheckoutSessionRepository

def findSessionSeatIds (store : CheckoutStore) (sessionId : String) (seatIds : List String) :
    List String :=
  ((store.db.inventory.seats.select fun id row =>
    decide (row.sessionId = sessionId) && decide (id ∈ seatIds)).map Prod.fst).insertionSort (· ≤ ·)

/-- Refused by the primary key and by the references to user and session. -/
def insertCheckoutSession (store : CheckoutStore) (checkoutSessionId userId sessionId : String)
    (now : Time) : Option (CheckoutRow × CheckoutStore) :=
  let row : CheckoutRow := ⟨userId, sessionId, .selecting, 0, now⟩
  if userId ∉ store.db.users ∨ store.db.sessions.find sessionId = none then none
  else (store.checkouts.insert checkoutSessionId row).map fun checkouts =>
    (row, { store with checkouts := checkouts })

def insertSeats (store : CheckoutStore) (checkoutSessionId sessionId : String)
    (seatIds : List String) : Option (ℕ × CheckoutStore) :=
  if seatIds.any fun seatId => decide
      ((store.db.inventory.seats.find seatId).map SessionSeatRow.sessionId ≠ some sessionId) then none
  else (seatIds.foldlM (fun (seats : Table (String × String) String) seatId =>
    seats.insert (checkoutSessionId, seatId) sessionId) store.seats).map fun seats =>
      (seatIds.length, { store with seats := seats })

/-- Lock and read of the row, if it belongs to the user. -/
def lockByIdForUser (store : CheckoutStore) (checkoutSessionId userId : String) :
    Option CheckoutRow :=
  (store.checkouts.find checkoutSessionId).filter fun row => decide (row.userId = userId)

def loadSeatIds (store : CheckoutStore) (checkoutSessionId : String) : List String :=
  ((store.seats.select fun key _ => decide (key.1 = checkoutSessionId)).map
    fun row => row.1.2).insertionSort (· ≤ ·)

def deleteSeats (store : CheckoutStore) (checkoutSessionId : String) : CheckoutStore :=
  { store with seats := store.seats.retain fun key _ => decide (key.1 ≠ checkoutSessionId) }

def updateRow (store : CheckoutStore) (checkoutSessionId : String) (guard : CheckoutRow → Bool)
    (f : CheckoutRow → CheckoutRow) : ℕ × CheckoutStore :=
  let updated := store.checkouts.updateRow checkoutSessionId guard f
  (updated.1, { store with checkouts := updated.2 })

def advanceSeatRevision (store : CheckoutStore) (checkoutSessionId : String) (now : Time) :
    ℕ × CheckoutStore :=
  updateRow store checkoutSessionId (fun _ => true) fun row =>
    { row with revision := row.revision + 1, updatedAt := now }

/-- Refused by the length CHECK on the confirm key. -/
def setSubmitting (store : CheckoutStore) (checkoutSessionId idempotencyKey : String)
    (now : Time) : Option (ℕ × CheckoutStore) :=
  if idempotencyKey.length < 1 ∨ 128 < idempotencyKey.length then none
  else some (updateRow store checkoutSessionId (fun row => decide (row.state = .selecting))
    fun row => { row with state := .submitting idempotencyKey, updatedAt := now })

/-- What the UNIQUE reservation id and its references to user and session demand. -/
def references (store : CheckoutStore) (checkoutSessionId reservationId : String) : Bool :=
  match store.checkouts.find checkoutSessionId,
      store.db.inventory.reservations.find reservationId with
  | some row, some reservation =>
      decide (reservation.userId = row.userId) && decide (reservation.sessionId = row.sessionId) &&
        !(store.checkouts.rows.any fun entry => decide (entry.1 ≠ checkoutSessionId) &&
          decide (entry.2.state.reservationId = some reservationId))
  | _, _ => false

def setReserved (store : CheckoutStore) (checkoutSessionId idempotencyKey reservationId : String)
    (now : Time) : Option (ℕ × CheckoutStore) :=
  let updated := updateRow store checkoutSessionId
    (fun row => decide (row.state = .submitting idempotencyKey))
    fun row => { row with state := .reserved idempotencyKey reservationId, updatedAt := now }
  if updated.1 = 1 ∧ references store checkoutSessionId reservationId = false then none
  else some updated

def resetSelecting (store : CheckoutStore) (checkoutSessionId idempotencyKey : String)
    (now : Time) : ℕ × CheckoutStore :=
  updateRow store checkoutSessionId (fun row => decide (row.state = .submitting idempotencyKey))
    fun row => { row with state := .selecting, updatedAt := now }

def abandonSubmitting (store : CheckoutStore) (checkoutSessionId idempotencyKey : String)
    (now : Time) : ℕ × CheckoutStore :=
  updateRow store checkoutSessionId (fun row => decide (row.state = .submitting idempotencyKey))
    fun row => { row with state := .abandoned, updatedAt := now }

def setAbandoned (store : CheckoutStore) (checkoutSessionId : String) (now : Time) :
    ℕ × CheckoutStore :=
  updateRow store checkoutSessionId (fun row => decide (row.state = .selecting))
    fun row => { row with state := .abandoned, updatedAt := now }

def findByIdForUser (store : CheckoutStore) (checkoutSessionId userId : String) :
    Option CheckoutSessionRecord :=
  (lockByIdForUser store checkoutSessionId userId).map fun row =>
    { id := checkoutSessionId, row := row, seatIds := loadSeatIds store checkoutSessionId }

structure Repairable where
  id : String
  activeConfirmIdempotencyKey : String
  reservationId : String
  updatedAt : Time
  deriving DecidableEq, Repr

/-- The joined row of a SUBMITTING checkout: a reservation of its user under its key that has
an order. -/
def repairableOf (db : Db) (entry : String × CheckoutRow) : Option Repairable := do
  let key ← entry.2.state.submittingKey
  let reservation ← (db.inventory.reservations.select fun _ row =>
    decide (row.userId = entry.2.userId) && decide (row.idempotencyKey = some key)).head?
  if db.inventory.orders.rows.any fun order =>
      decide (order.2.reservationId = reservation.1) then
    return ⟨entry.1, key, reservation.1, entry.2.updatedAt⟩
  else none

/-- The first rows by last update and id. -/
def repairable (store : CheckoutStore) (batchSize : ℕ) : List Repairable :=
  ((store.checkouts.rows.filterMap (repairableOf store.db)).insertionSort fun a b =>
    a.updatedAt < b.updatedAt ∨ (a.updatedAt = b.updatedAt ∧ a.id ≤ b.id)).take batchSize

/-- The repaired row of a checkout, if the batch lists it. -/
def repairOf (batch : List Repairable) (id : String) (row : CheckoutRow) : Option Repairable :=
  batch.find? fun repair => decide (repair.id = id) &&
    decide (row.state = .submitting repair.activeConfirmIdempotencyKey)

/-- One statement for the whole batch; a violated reference refuses all of it. -/
def reconcileSubmitting (store : CheckoutStore) (batchSize : ℕ) (now : Time) :
    Option (ℕ × CheckoutStore) :=
  let batch := repairable store batchSize
  if (batch.any fun repair => references store repair.id repair.reservationId = false) ∨
      ¬ (batch.map Repairable.reservationId).Nodup then none
  else some (store.checkouts.count fun id row => (repairOf batch id row).isSome,
    { store with
      checkouts := store.checkouts.update (fun id row => (repairOf batch id row).isSome)
        fun id row => match repairOf batch id row with
          | some repair =>
              { row with
                state := .reserved repair.activeConfirmIdempotencyKey repair.reservationId
                updatedAt := now }
          | none => row })

end CheckoutSessionRepository
end Ticketing
