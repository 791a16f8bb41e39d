import Ticketing.SeatOrder
import Ticketing.Library.LengthPrefix
import Ticketing.Library.TransitionTables
import Ticketing.Library.Trace

/-!
# Seat layouts and their revisions

The layout of a session joins its inventory with the seats and the zones of the venue. Triggers on
the four tables raise the revision of every session whose layout a statement may change, and the
validator of the layout covers the revision.
-/

namespace Ticketing.Layout

open Relational

inductive EventStatus where
  | draft | onSale | comingSoon
  deriving DecidableEq

inductive SessionStatus where
  | draft | onSale | soldOut
  deriving DecidableEq

/-- Instants are microseconds since the epoch. -/
structure EventRow where
  id : String
  status : EventStatus
  publishedAt : Option ℤ
  deriving DecidableEq

structure SessionRow where
  id : String
  eventId : String
  venueId : String
  status : SessionStatus
  createdAt : ℤ
  deriving DecidableEq

structure SessionSeatRow where
  id : String
  sessionId : String
  seatId : String
  venueId : String
  price : ℤ
  status : String
  currentReservationId : Option String
  deriving DecidableEq

structure SeatRow where
  id : String
  venueId : String
  zoneId : String
  rowNo : String
  seatNo : ℤ
  seatLabel : String
  deriving DecidableEq

structure VenueZoneRow where
  id : String
  venueId : String
  code : String
  name : String
  sortOrder : ℤ
  deriving DecidableEq

structure Tables where
  events : List EventRow
  sessions : List SessionRow
  sessionSeats : List SessionSeatRow
  seats : List SeatRow
  venueZones : List VenueZoneRow
  deriving DecidableEq

/-- The primary keys and the foreign keys between the tables. -/
def Tables.Constraints (tables : Tables) : Prop :=
  (tables.events.map EventRow.id).Nodup ∧ (tables.sessions.map SessionRow.id).Nodup ∧
  (tables.sessionSeats.map SessionSeatRow.id).Nodup ∧ (tables.seats.map SeatRow.id).Nodup ∧
  (tables.venueZones.map VenueZoneRow.id).Nodup ∧
  (∀ session ∈ tables.sessions, ∃ event ∈ tables.events, event.id = session.eventId) ∧
  (∀ inventory ∈ tables.sessionSeats, ∃ session ∈ tables.sessions,
    session.id = inventory.sessionId ∧ session.venueId = inventory.venueId) ∧
  (∀ inventory ∈ tables.sessionSeats, ∃ seat ∈ tables.seats,
    seat.id = inventory.seatId ∧ seat.venueId = inventory.venueId) ∧
  (∀ seat ∈ tables.seats, ∃ zone ∈ tables.venueZones,
    zone.id = seat.zoneId ∧ zone.venueId = seat.venueId)

instance (tables : Tables) : Decidable tables.Constraints := by
  unfold Tables.Constraints
  infer_instance

/-- The rows of `session_layout_revisions`, none of which is ever deleted. -/
abbrev Revisions := String → Option ℕ

structure LayoutDb where
  tables : Tables
  revisions : Revisions

/-- The backfill of the migration that creates the revisions. -/
def install (tables : Tables) : LayoutDb where
  tables := tables
  revisions id := if id ∈ tables.sessions.map SessionRow.id then some 1 else none

/-! ## Triggers -/

def bumpSessionLayoutRevisions (affected : List String) (revisions : Revisions) : Revisions :=
  fun id => if id ∈ affected then (revisions id).map (· + 1) else revisions id

/-- `INSERT … ON CONFLICT(session_id) DO UPDATE SET revision=revision+1`. -/
def insertOrBump (ids : List String) (revisions : Revisions) : Revisions :=
  fun id => if id ∈ ids then some ((revisions id).elim 1 (· + 1)) else revisions id

def maintainSessionLayoutIdentity (c : Change SessionRow) (sessions : List SessionRow)
    (revisions : Revisions) : Revisions :=
  match c with
  | .insert newRows => insertOrBump (newRows.map SessionRow.id) revisions
  | .update set =>
      let newRows := (Change.update set).newRows sessions
      let oldRows := (Change.update set).oldRows sessions
      let fresh := newRows.filter fun n => !oldRows.any fun o => decide (o.id = n.id)
      -- No hall, time or status invalidation: these are not in the layout.
      let moved := newRows.filter fun n => oldRows.any fun o => decide (o.id = n.id ∧
        (n.venueId, n.eventId, n.createdAt) ≠ (o.venueId, o.eventId, o.createdAt))
      bumpSessionLayoutRevisions (moved.map SessionRow.id)
        (insertOrBump (fresh.map SessionRow.id) revisions)
  | .delete hit => bumpSessionLayoutRevisions ((sessions.filter hit).map SessionRow.id) revisions

/-- The `changed` rows of the trigger functions, one branch for each operation. -/
def changedRows {ρ σ : Type} [DecidableEq σ] (projection : ρ → σ) (c : Change ρ) (rows : List ρ) :
    List σ :=
  match c with
  | .update set =>
      let newRows := ((Change.update set).newRows rows).map projection
      let oldRows := ((Change.update set).oldRows rows).map projection
      Change.except newRows oldRows ++ Change.except oldRows newRows
  | .insert newRows => newRows.map projection
  | .delete hit => (rows.filter hit).map projection

structure SessionSeatColumns where
  id : String
  sessionId : String
  seatId : String
  venueId : String
  price : ℤ
  deriving DecidableEq

structure SeatColumns where
  id : String
  venueId : String
  zoneId : String
  seatLabel : String
  rowNo : String
  seatNo : ℤ
  deriving DecidableEq

structure VenueZoneColumns where
  id : String
  venueId : String
  name : String
  sortOrder : ℤ
  deriving DecidableEq

def SessionSeatRow.columns (row : SessionSeatRow) : SessionSeatColumns :=
  ⟨row.id, row.sessionId, row.seatId, row.venueId, row.price⟩

def SeatRow.columns (row : SeatRow) : SeatColumns :=
  ⟨row.id, row.venueId, row.zoneId, row.seatLabel, row.rowNo, row.seatNo⟩

def VenueZoneRow.columns (row : VenueZoneRow) : VenueZoneColumns :=
  ⟨row.id, row.venueId, row.name, row.sortOrder⟩

def maintainLayoutSessionSeats (c : Change SessionSeatRow) (sessionSeats : List SessionSeatRow)
    (revisions : Revisions) : Revisions :=
  bumpSessionLayoutRevisions
    ((changedRows SessionSeatRow.columns c sessionSeats).map SessionSeatColumns.sessionId) revisions

/-- The inventory is the one after the statement. -/
def maintainLayoutSeats (c : Change SeatRow) (seats : List SeatRow)
    (sessionSeats : List SessionSeatRow) (revisions : Revisions) : Revisions :=
  let changed := changedRows SeatRow.columns c seats
  bumpSessionLayoutRevisions
    ((sessionSeats.filter fun i => changed.any fun c => decide (c.id = i.seatId)).map
      SessionSeatRow.sessionId) revisions

def maintainLayoutVenueZones (c : Change VenueZoneRow) (venueZones : List VenueZoneRow)
    (seats : List SeatRow) (sessionSeats : List SessionSeatRow) (revisions : Revisions) :
    Revisions :=
  let changed := changedRows VenueZoneRow.columns c venueZones
  bumpSessionLayoutRevisions
    ((sessionSeats.filter fun i => seats.any fun s => decide (s.id = i.seatId) &&
      changed.any fun c => decide (c.id = s.zoneId) && decide (c.venueId = s.venueId)).map
        SessionSeatRow.sessionId) revisions

/-- A statement on one of the tables; no trigger watches the events. -/
inductive Statement where
  | events (c : Change EventRow)
  | sessions (c : Change SessionRow)
  | sessionSeats (c : Change SessionSeatRow)
  | seats (c : Change SeatRow)
  | venueZones (c : Change VenueZoneRow)

def fire (db : LayoutDb) : Statement → LayoutDb
  | .events c => { db with tables := { db.tables with events := c.apply db.tables.events } }
  | .sessions c =>
      { tables := { db.tables with sessions := c.apply db.tables.sessions }
        revisions := maintainSessionLayoutIdentity c db.tables.sessions db.revisions }
  | .sessionSeats c =>
      { tables := { db.tables with sessionSeats := c.apply db.tables.sessionSeats }
        revisions := maintainLayoutSessionSeats c db.tables.sessionSeats db.revisions }
  | .seats c =>
      { tables := { db.tables with seats := c.apply db.tables.seats }
        revisions := maintainLayoutSeats c db.tables.seats db.tables.sessionSeats db.revisions }
  | .venueZones c =>
      { tables := { db.tables with venueZones := c.apply db.tables.venueZones }
        revisions := maintainLayoutVenueZones c db.tables.venueZones db.tables.seats
          db.tables.sessionSeats db.revisions }

/-- A statement that breaks a constraint fails and leaves no trace. -/
def execute (db : LayoutDb) (statement : Statement) : Option LayoutDb :=
  if (fire db statement).tables.Constraints then some (fire db statement) else none

def Executes (statement : Statement) (db db' : LayoutDb) : Prop :=
  execute db statement = some db'

/-! ## Layouts -/

/-- The columns of the identity row, as the texts that the database returns. -/
structure LayoutIdentity where
  layoutSessionId : String
  venueId : String
  created : String
  published : String
  layoutRevision : String
  deriving DecidableEq

def LayoutIdentity.text (row : LayoutIdentity) : String :=
  [row.layoutSessionId, row.venueId, row.created, row.published, row.layoutRevision].foldl
    (fun identity value => identity ++ LengthPrefix.field value) "seat-layout-v2"

def layoutTag (sha256Hex : String → String) (row : LayoutIdentity) : String :=
  "W/\"seat-layout-v2-" ++ sha256Hex row.text ++ "\""

/-- The identity row of a session that is not a draft, in an event that is not a draft. -/
def layoutIdentity (db : LayoutDb) (sessionId : String) : Option LayoutIdentity := do
  let session ← db.tables.sessions.find? fun s => decide (s.id = sessionId)
  let event ← db.tables.events.find? fun e => decide (e.id = session.eventId)
  let revision ← db.revisions session.id
  if session.status ≠ .draft ∧ event.status ≠ .draft then
    some { layoutSessionId := session.id, venueId := session.venueId
           created := toString session.createdAt, published := toString (event.publishedAt.getD 0)
           layoutRevision := toString revision }
  else none

def publicLayoutIdentity (sha256Hex : String → String) (db : LayoutDb) (sessionId : String) :
    Option String :=
  (layoutIdentity db sessionId).map (layoutTag sha256Hex)

structure LayoutRow where
  id : String
  seatLabel : String
  rowNo : String
  seatNo : ℤ
  zone : String
  price : ℤ
  sortOrder : ℤ
  deriving DecidableEq

def layoutRow (inventory : SessionSeatColumns) (seat : SeatColumns) (zone : VenueZoneColumns) :
    LayoutRow where
  id := inventory.id
  seatLabel := seat.seatLabel
  rowNo := seat.rowNo
  seatNo := seat.seatNo
  zone := zone.name
  price := inventory.price
  sortOrder := zone.sortOrder

def zonesOf (tables : Tables) (seat : SeatRow) : List VenueZoneRow :=
  tables.venueZones.filter fun zone =>
    decide (zone.id = seat.zoneId) && decide (zone.venueId = seat.venueId)

def seatsOf (tables : Tables) (inventory : SessionSeatRow) : List SeatRow :=
  tables.seats.filter fun seat => decide (seat.id = inventory.seatId)

def joinedRows (tables : Tables) (inventory : SessionSeatRow) : List LayoutRow :=
  (seatsOf tables inventory).flatMap fun seat => (zonesOf tables seat).map fun zone =>
    layoutRow inventory.columns seat.columns zone.columns

def layoutRows (tables : Tables) (sessionId : String) : List LayoutRow :=
  (tables.sessionSeats.filter fun i => decide (i.sessionId = sessionId)).flatMap (joinedRows tables)

/-- The columns of the `ORDER BY`, the texts under the collation of the database. -/
def Before (c : Collation) (a b : LayoutRow) : Prop :=
  a.sortOrder < b.sortOrder ∨ a.sortOrder = b.sortOrder ∧
    (c.Before a.rowNo b.rowNo ∨ a.rowNo = b.rowNo ∧
      (a.seatNo < b.seatNo ∨ a.seatNo = b.seatNo ∧ c.le a.id b.id))

instance (c : Collation) : DecidableRel (Before c) := fun a b => by
  unfold Before Collation.Before
  infer_instance

structure SeatLayoutRow where
  id : String
  label : String
  row : String
  number : ℤ
  zone : String
  price : ℤ
  deriving DecidableEq

def LayoutRow.toSeat (row : LayoutRow) : SeatLayoutRow :=
  ⟨row.id, row.seatLabel, row.rowNo, row.seatNo, row.zone, row.price⟩

structure SeatLayoutSnapshot where
  etag : String
  seats : List SeatLayoutRow
  deriving DecidableEq

/-- The seats of the body, in its order. -/
def layoutSeats (c : Collation) (db : LayoutDb) (sessionId : String) : List SeatLayoutRow :=
  ((layoutRows db.tables sessionId).insertionSort (Before c)).map LayoutRow.toSeat

/-- One statement reads the identity and the rows. -/
def listLayoutBySessionId (c : Collation) (sha256Hex : String → String) (db : LayoutDb)
    (sessionId : String) : Option SeatLayoutSnapshot :=
  (layoutIdentity db sessionId).map fun row =>
    { etag := layoutTag sha256Hex row, seats := layoutSeats c db row.layoutSessionId }

end Ticketing.Layout
