import Ticketing.AdminTables

/-!
# Administrators' transactions

Saving a venue plan, and what an administrator does to an event: create it, edit it, its sessions
and their zone prices, and publish it. Request bodies come as the outcomes of decoding their
members; ids are drawn from `uuid` and the clock is read once by each statement that asks for
it. The `detail` that most replies repeat is a further read and is left out.
-/

namespace Ticketing.Admin

open GuardedRows ReadCommitted

structure Failure where
  status : ℕ
  code : String
  deriving DecidableEq, Repr

abbrev DB := Prog Catalog Write Lock Failure

def invalidArgument : Failure := ⟨400, "INVALID_ARGUMENT"⟩
def internalError : Failure := ⟨500, "INTERNAL_ERROR"⟩

/-! ## Reading a venue and an event -/

def lockVenue (id : String) : DB Unit := .lock (.venue id) ⟨404, "VENUE_NOT_FOUND"⟩ (.commit ())

structure VenueView where
  id : String
  name : String
  city : String
  totalSeats : ℕ
  frozen : Bool
  zones : List VenueZone
  deriving DecidableEq, Repr

def venueSeats (s : Catalog) (venueId : String) : List Seat :=
  s.seats.filter fun r => r.venueId = venueId

def venueZones (s : Catalog) (venueId : String) : List VenueZone :=
  s.zones.filter fun z => z.venueId = venueId

def frozen (s : Catalog) (venueId : String) : Bool :=
  !(s.inventory.filter fun r => r.venueId = venueId).isEmpty

def venueView (s : Catalog) (id : String) : Option VenueView :=
  (s.venues.filter fun v => v.id = id).head?.map fun v =>
    { id := v.id, name := v.name, city := v.city, totalSeats := (venueSeats s id).length,
      frozen := frozen s id, zones := venueZones s id }

def venue (id : String) : DB VenueView := do
  let rows ← .query fun s => venueView s id
  .expect ⟨404, "VENUE_NOT_FOUND"⟩ rows

structure Display where
  name : String
  description : String
  category : String
  coverUrl : String
  deriving DecidableEq, Repr

/-- A session of an event with its prices by zone, as the aggregate of `event` lists it. -/
structure SessionView where
  id : String
  status : SessionStatus
  venueId : String
  startTime : Time
  prices : List (String × ℤ)
  deriving DecidableEq, Repr

structure EventView where
  id : String
  display : Display
  venueId : String
  status : EventStatus
  sessions : List SessionView
  deriving DecidableEq, Repr

def eventSessions (s : Catalog) (eventId : String) : List Session :=
  s.sessions.filter fun x => x.eventId = eventId

/-- The prices of a session whose zone exists. -/
def zonePrices (s : Catalog) (sessionId : String) : List (String × ℤ) :=
  (s.prices.filter fun p => p.sessionId = sessionId && s.zones.any fun z => z.id = p.zoneId).map
    fun p => (p.zoneId, p.price)

def sessionView (s : Catalog) (x : Session) : SessionView :=
  { id := x.id, status := x.status, venueId := x.venueId, startTime := x.startTime,
    prices := zonePrices s x.id }

def eventRow (s : Catalog) (id : String) : Option Event :=
  (s.events.filter fun e => e.id = id).head?

def eventView (s : Catalog) (id : String) : Option EventView :=
  (eventRow s id).map fun e =>
    { id := e.id, display := ⟨e.name, e.description, e.category, e.coverUrl⟩,
      venueId := e.primaryVenueId, status := e.status,
      sessions := (eventSessions s id).map (sessionView s) }

def event (id : String) : DB EventView := do
  let rows ← .query fun s => eventView s id
  .expect ⟨404, "EVENT_NOT_FOUND"⟩ rows

/-! ## Bodies and jobs -/

/-- The members of a display body, `none` where one is missing and `some none` where `text`
refuses it. -/
structure DisplayBody where
  name : Option (Option String)
  description : Option (Option String)
  category : Option (Option String)
  coverUrl : Option (Option String)

/-- `known` says whether `fields` accepts the member names. -/
structure EventBody where
  known : Bool
  display : DisplayBody
  venueId : Option String
  salesStartsAt : Option Time
  salesEndsAt : Option Time

structure SessionBody where
  known : Bool
  hallName : Option String
  startTime : Option Time
  gateTime : Option Time

/-- One member of `prices`: `rawZoneId` is the text as sent, `zoneId` the trimmed one. -/
structure PriceItem where
  known : Bool
  rawZoneId : String
  zoneId : Option String
  price : Option ℤ

structure PricesBody where
  known : Bool
  prices : List PriceItem

structure RowPlan where
  label : String
  seatCount : ℕ

structure ZonePlan where
  code : String
  name : String
  rows : List RowPlan

structure Plan where
  name : String
  city : String
  zones : List ZonePlan

inductive Action where
  | save (venueId : String) (plan : Plan)
  | create (body : EventBody)
  | display (eid : String) (known : Bool) (body : DisplayBody)
  | update (eid : String) (body : EventBody)
  | publish (eid : String)
  | sessionCreate (eid : String) (body : SessionBody)
  | sessionUpdate (eid sid : String) (body : SessionBody)
  | sessionDelete (eid sid : String)
  | prices (eid sid : String) (body : PricesBody)

structure Job where
  action : Action
  user : String
  uuid : ℕ → String
  clock : ℕ → Time

/-- `limits().sessions`, and the date of a time in Asia/Shanghai with its text. -/
structure Settings where
  sessions : ℕ
  date : Time → ℕ
  dateText : ℕ → String

/-! ## Publish preview -/

structure Issue where
  code : String
  sessionId : String
  zoneId : String
  deriving DecidableEq, Repr

structure SessionSummary where
  id : String
  startTime : Time
  configuredZones : ℕ
  requiredZones : ℕ
  deriving DecidableEq, Repr

structure Preview where
  eventId : String
  status : EventStatus
  venue : VenueView
  sessionCount : ℕ
  expectedSessionSeatCount : ℕ
  issues : List Issue
  sessions : List SessionSummary
  publishable : Bool
  deriving DecidableEq, Repr

structure SessionChecks where
  future : Bool
  gate : Bool
  windowOk : Bool
  deriving DecidableEq, Repr

/-- `sessions s JOIN events e ON e.id=s.event_id WHERE s.id=$1`. -/
def sessionChecks (now : Time) (s : Catalog) (sid : String) : Option SessionChecks :=
  ((s.sessions.filter fun x => x.id = sid).flatMap fun x =>
    (s.events.filter fun e => e.id = x.eventId).map fun e =>
      { future := decide (x.startTime > now), gate := decide (x.gateTime < x.startTime),
        windowOk := decide (min e.salesEndsAt x.startTime > e.salesStartsAt) }).head?

/-- One statement for each session, the first under clock reading `n`. -/
def checkSessions (clock : ℕ → Time) : ℕ → List SessionView → DB (List SessionChecks)
  | _, [] => pure []
  | n, x :: rest => do
      let rows ← .query fun s => sessionChecks (clock n) s x.id
      let checks ← .expect internalError rows
      let others ← checkSessions clock (n + 1) rest
      pure (checks :: others)

/-- The last price listed for a zone. -/
def priceOf (prices : List (String × ℤ)) (zoneId : String) : Option ℤ :=
  (prices.reverse.find? fun p => p.1 = zoneId).map Prod.snd

def zoneIssues (sid : String) (prices : List (String × ℤ)) (z : VenueZone) : List Issue :=
  match priceOf prices z.id with
  | none => [⟨"ZONE_PRICE_MISSING", sid, z.id⟩]
  | some price => if price ≤ 0 then [⟨"ZONE_PRICE_INVALID", sid, z.id⟩] else []

def raised (b : Bool) (code sid : String) : List Issue := if b then [⟨code, sid, ""⟩] else []

def sessionIssues (venueId : String) (zones : List VenueZone) (x : SessionView)
    (c : SessionChecks) : List Issue :=
  raised (!c.future) "SESSION_START_NOT_FUTURE" x.id ++ raised (!c.gate) "SESSION_GATE_INVALID" x.id ++
  raised (!c.windowOk) "SESSION_WINDOW_EMPTY" x.id ++
  raised (x.venueId != venueId) "SESSION_VENUE_MISMATCH" x.id ++
  zones.flatMap (zoneIssues x.id x.prices)

def assemble (e : EventView) (v : VenueView) (ended : Bool) (checks : List SessionChecks) :
    Preview :=
  let issues := raised e.sessions.isEmpty "NO_SESSIONS" "" ++
    raised (v.totalSeats == 0 || v.zones.isEmpty) "VENUE_EMPTY" "" ++
    raised ended "EVENT_WINDOW_ENDED" "" ++
    (e.sessions.zip checks).flatMap fun (x, c) => sessionIssues e.venueId v.zones x c
  { eventId := e.id, status := e.status, venue := v, sessionCount := e.sessions.length
    expectedSessionSeatCount := v.totalSeats * e.sessions.length, issues
    sessions := e.sessions.map fun x =>
      { id := x.id, startTime := x.startTime, configuredZones := (x.prices.map Prod.fst).dedup.length
        requiredZones := v.zones.length }
    publishable := e.status == .draft && issues.isEmpty }

def preview (clock : ℕ → Time) (e : EventView) : DB Preview := do
  let v ← venue e.venueId
  let rows ← .query fun s => (eventRow s e.id).map fun row => decide (row.salesEndsAt ≤ clock 0)
  let ended ← .expect internalError rows
  let checks ← checkSessions clock 1 e.sessions
  pure (assemble e v ended checks)

/-! ## Replies -/

inductive Reply where
  | plan (venue : VenueView) (pricingReset : Bool)
  | event (eid : String)
  | session (eid savedSessionId : String)
  | alreadyPublished (eid : String) (sessionCount seatCountPerSession sessionSeatCount : ℕ)
  | publishedNow (eid : String) (sessionCount seatCountPerSession sessionSeatCount : ℕ)
  deriving DecidableEq, Repr

/-! ## Saving a venue plan -/

def zoneId (uuid : ℕ → String) (i : ℕ) : String := "VZ-" ++ uuid (i + 1)

def planZones (uuid : ℕ → String) (plan : Plan) : List (String × ZonePlan) :=
  plan.zones.mapIdx fun i z => (zoneId uuid i, z)

def zoneRows (venueId : String) (zones : List (String × ZonePlan)) : List VenueZone :=
  zones.mapIdx fun i (id, z) =>
    { id := id, venueId := venueId, code := z.code, name := z.name, sortOrder := i }

/-- `lpad(n::text,3,'0')`, which also cuts a longer text. -/
def lpad3 (n : ℕ) : String :=
  let digits := (toString n).toList
  String.ofList (List.replicate (3 - digits.length) '0' ++ digits.take 3)

def seatId (zone : String) (row n : ℕ) : String :=
  zone ++ "-" ++ toString row ++ "-" ++ toString n

def rowSeats (venueId zone : String) (i : ℕ) (r : RowPlan) : List Seat :=
  (List.range r.seatCount).map fun k =>
    { id := seatId zone (i + 1) (k + 1), venueId := venueId, zoneId := zone, rowNo := r.label,
      seatNo := k + 1, seatLabel := r.label ++ lpad3 (k + 1) }

def seatRows (venueId : String) (zones : List (String × ZonePlan)) : List Seat :=
  zones.flatMap fun (id, z) => (z.rows.mapIdx fun i r => rowSeats venueId id i r).flatten

def expectedSeats (plan : Plan) : ℕ :=
  (plan.zones.map fun z => (z.rows.map RowPlan.seatCount).sum).sum

/-- `session_zone_prices p USING sessions s WHERE p.session_id=s.id AND s.venue_id=$1 AND
s.status='DRAFT'`. -/
def draftPrices (s : Catalog) (venueId : String) : List SessionZonePrice :=
  s.prices.filter fun p => s.sessions.any fun x =>
    x.id = p.sessionId && x.venueId = venueId && x.status = .draft

def insertVenue (id : String) (plan : Plan) : DB Unit :=
  .exec (fun _ => [.venues (.insert [⟨id, plan.name, plan.city⟩])]) fun _ => ()

def updateVenue (id : String) (plan : Plan) : DB Unit :=
  .exec (fun s => [.venues (.set (s.venues.filter fun v => v.id = id)
    (fun v => { v with name := plan.name, city := plan.city }) fun _ => rfl)]) fun _ => ()

def deleteDraftPrices (venueId : String) : DB Bool :=
  .exec (fun s => [.prices (.delete (draftPrices s venueId))])
    fun s => decide ((draftPrices s venueId).length > 0)

def deleteSeats (venueId : String) : DB Unit :=
  .exec (fun s => [.seats (.delete (venueSeats s venueId))]) fun _ => ()

/-- The prices that `ON DELETE CASCADE` takes with the zones of a venue. -/
def cascadedPrices (s : Catalog) (venueId : String) : List SessionZonePrice :=
  s.prices.filter fun p => (venueZones s venueId).any fun z =>
    z.id = p.zoneId && z.venueId = p.venueId

def deleteZones (venueId : String) : DB Unit :=
  .exec (fun s => [.zones (.delete (venueZones s venueId)),
    .prices (.delete (cascadedPrices s venueId))]) fun _ => ()

/-- An insertion that is refused if it breaks a unique key of the table. -/
def insertUnique {α : Type} (unique : Catalog → Bool) (write : Write) (result : α) : DB α :=
  .stmt (fun s => if unique s then [write] else [])
    fun s => if unique s then .commit result else .rollback internalError

/-- `UNIQUE (venue_id, code)`, `(venue_id, name)` and `(venue_id, sort_order)`, for the zones of one
venue. -/
def zonesUnique (rows : List VenueZone) : Bool :=
  decide (rows.map VenueZone.code).Nodup && decide (rows.map VenueZone.name).Nodup &&
    decide (rows.map VenueZone.sortOrder).Nodup

/-- `UNIQUE (venue_id, zone_id, row_no, seat_no)` and `(venue_id, zone_id, seat_label)`, for the
seats of one venue. -/
def seatsUnique (rows : List Seat) : Bool :=
  decide (rows.map fun r => (r.zoneId, r.rowNo, r.seatNo)).Nodup &&
    decide (rows.map fun r => (r.zoneId, r.seatLabel)).Nodup

def insertZones (venueId : String) (zones : List (String × ZonePlan)) : DB Unit :=
  insertUnique (fun s => zonesUnique (venueZones s venueId ++ zoneRows venueId zones))
    (.zones (.insert (zoneRows venueId zones))) ()

def insertSeats (venueId : String) (zones : List (String × ZonePlan)) : DB ℕ :=
  insertUnique (fun s => seatsUnique (venueSeats s venueId ++ seatRows venueId zones))
    (.seats (.insert (seatRows venueId zones))) (seatRows venueId zones).length

def savePlan (uuid : ℕ → String) (venueId : String) (plan : Plan) (reset : Bool) : DB Reply := do
  let zones := planZones uuid plan
  insertZones venueId zones
  let inserted ← insertSeats venueId zones
  .require (inserted == expectedSeats plan) internalError
  let result ← venue venueId
  pure (.plan result reset)

def newVenueId (uuid : ℕ → String) : String := "VEN-" ++ uuid 0

def save (uuid : ℕ → String) (venueId : String) (plan : Plan) : DB Reply :=
  if venueId.isEmpty then do
    insertVenue (newVenueId uuid) plan
    savePlan uuid (newVenueId uuid) plan false
  else do
    lockVenue venueId
    let isFrozen ← .query fun s => frozen s venueId
    .require (!isFrozen) ⟨409, "VENUE_SEAT_PLAN_FROZEN"⟩
    let reset ← deleteDraftPrices venueId
    deleteSeats venueId
    deleteZones venueId
    updateVenue venueId plan
    savePlan uuid venueId plan reset

/-! ## Events -/

def displayField (old : String) (patch : Bool) : Option (Option String) → DB String
  | none => if patch then pure old else .rollback invalidArgument
  | some value => .expect invalidArgument value

def displayFields (body : DisplayBody) (e : Display) (patch : Bool) : DB Display := do
  let name ← displayField e.name patch body.name
  let description ← displayField e.description patch body.description
  let category ← displayField e.category patch body.category
  let coverUrl ← displayField e.coverUrl patch body.coverUrl
  pure ⟨name, description, category, coverUrl⟩

/-- Replace the row of one event. -/
def setEvent (eid : String) (f : Catalog → Event → Event) (keeps : ∀ s e, (f s e).id = e.id) :
    DB Unit :=
  .exec (fun s => [.events (.set (s.events.filter fun e => e.id = eid) (f s)
    fun e => congrArg (fun id => [Lock.event id]) (keeps s e))]) fun _ => ()

def updateDisplay (eid : String) (d : Display) : DB Unit :=
  setEvent eid (fun _ e => { e with
    name := d.name, description := d.description, category := d.category, coverUrl := d.coverUrl })
    fun _ _ => rfl

def window (b : EventBody) : DB (Time × Time) := do
  let starts ← .expect invalidArgument b.salesStartsAt
  let ends ← .expect invalidArgument b.salesEndsAt
  .require (decide (starts < ends)) invalidArgument
  pure (starts, ends)

def newEventId (uuid : ℕ → String) : String := "EVT-" ++ uuid 0

def insertEvent (eid vid : String) (d : Display) (salesStartsAt salesEndsAt : Time) : DB Unit :=
  .exec (fun _ => [.events (.insert [{
    id := eid, primaryVenueId := vid, name := d.name, description := d.description,
    category := d.category, coverUrl := d.coverUrl, dateRange := "", status := .draft,
    salesStartsAt, salesEndsAt, publishedAt := none, publishedBy := none }])]) fun _ => ()

def create (uuid : ℕ → String) (body : EventBody) : DB Reply := do
  .require body.known invalidArgument
  let d ← displayFields body.display ⟨"", "", "", ""⟩ false
  let times ← window body
  let vid ← .expect invalidArgument body.venueId
  lockVenue vid
  let v ← venue vid
  .require (decide (v.totalSeats > 0) && !v.zones.isEmpty) invalidArgument
  insertEvent (newEventId uuid) vid d times.1 times.2
  pure (.event (newEventId uuid))

def display (eid : String) (known : Bool) (body : DisplayBody) (e : EventView) : DB Reply := do
  .require known invalidArgument
  let d ← displayFields body e.display true
  updateDisplay e.id d
  pure (.event eid)

def update (eid : String) (body : EventBody) (e : EventView) : DB Reply := do
  .require body.known invalidArgument
  let target ← .expect invalidArgument body.venueId
  .require (decide (target = e.venueId) || e.sessions.isEmpty) ⟨409, "EVENT_VENUE_LOCKED"⟩
  lockVenue target
  let v ← venue target
  .require (decide (v.totalSeats > 0) && !v.zones.isEmpty) invalidArgument
  let times ← window body
  let d ← displayFields body.display e.display false
  updateDisplay e.id d
  setEvent eid (fun _ row => { row with
    primaryVenueId := target, salesStartsAt := times.1, salesEndsAt := times.2 }) fun _ _ => rfl
  pure (.event eid)

/-! ## Publishing -/

/-- `session_seats i JOIN sessions s ON s.id=i.session_id WHERE s.event_id=$1`. -/
def inventoryCount (s : Catalog) (eid : String) : ℕ :=
  ((eventSessions s eid).map fun x => (s.inventory.filter fun r => r.sessionId = x.id).length).sum

def alreadyPublished (eid : String) (e : EventView) : DB Reply := do
  let count ← .query fun s => inventoryCount s eid
  let v ← venue e.venueId
  pure (.alreadyPublished eid e.sessions.length v.totalSeats count)

def inventoryRow (x : Session) (p : SessionZonePrice) (seat : Seat) : SessionSeat :=
  { id := "SS-" ++ x.id ++ "-" ++ seat.id, sessionId := x.id, seatId := seat.id,
    venueId := x.venueId, status := .available, price := p.price, currentReservationId := none }

/-- `sessions s JOIN session_zone_prices p ON p.session_id=s.id AND p.venue_id=s.venue_id
JOIN seats seat ON seat.zone_id=p.zone_id AND seat.venue_id=s.venue_id`, for the draft sessions
of the event. -/
def inventoryRows (s : Catalog) (eid : String) : List SessionSeat :=
  (s.sessions.filter fun x => x.eventId = eid && x.status = .draft).flatMap fun x =>
    (s.prices.filter fun p => p.sessionId = x.id && p.venueId = x.venueId).flatMap fun p =>
      (s.seats.filter fun r => r.zoneId = p.zoneId && r.venueId = x.venueId).map
        (inventoryRow x p)

def insertInventory (eid : String) : DB ℕ :=
  .exec (fun s => [.inventory (.insert (inventoryRows s eid))])
    fun s => (inventoryRows s eid).length

def sessionsOnSale (eid : String) : DB Unit :=
  .exec (fun s => [.sessions (.set (s.sessions.filter fun x => x.eventId = eid && x.status = .draft)
    (fun x => { x with status := .onSale }) fun _ => rfl)]) fun _ => ()

def dateRange (settings : Settings) (s : Catalog) (eid : String) : String :=
  let dates := (eventSessions s eid).map fun x => settings.date x.startTime
  match dates.min?, dates.max? with
  | some first, some last =>
      settings.dateText first ++ if first = last then "" else " — " ++ settings.dateText last
  | _, _ => ""

def eventOnSale (settings : Settings) (job : Job) (eid : String) (n : ℕ) : DB Unit :=
  setEvent eid (fun s e => { e with
    status := .onSale, publishedAt := some (job.clock n), publishedBy := some job.user
    dateRange := dateRange settings s eid }) fun _ _ => rfl

def publish (settings : Settings) (job : Job) (eid : String) (e : EventView) : DB Reply := do
  let p ← preview job.clock e
  .require p.publishable ⟨409, "EVENT_NOT_PUBLISHABLE"⟩
  .require (e.sessions.all fun x => x.status = .draft) ⟨409, "EVENT_NOT_PUBLISHABLE"⟩
  let count ← insertInventory eid
  .require (count == p.expectedSessionSeatCount) internalError
  sessionsOnSale eid
  eventOnSale settings job eid (e.sessions.length + 1)
  pure (.publishedNow eid e.sessions.length p.venue.totalSeats count)

/-! ## Sessions and prices -/

def newSessionId (uuid : ℕ → String) : String := "SES-" ++ uuid 0

def draftSession (eid sid : String) : DB Unit := do
  let rows ← .query fun s => ((s.sessions.filter fun x => x.id = sid && x.eventId = eid).head?).map
    Session.status
  let status ← .expect ⟨404, "SESSION_NOT_FOUND"⟩ rows
  .require (status == .draft) ⟨409, "SESSION_NOT_EDITABLE"⟩

/-- The decoded times with `gate < start` and a start after the start of sales. -/
def sessionTimes (eid : String) (body : SessionBody) : DB (String × Time × Time) := do
  .require body.known invalidArgument
  let hall ← .expect invalidArgument body.hallName
  let start ← .expect invalidArgument body.startTime
  let gate ← .expect invalidArgument body.gateTime
  let rows ← .query fun s => (eventRow s eid).map fun e =>
    decide (gate < start) && decide (start > e.salesStartsAt)
  let ok ← .expect internalError rows
  .require ok invalidArgument
  pure (hall, start, gate)

def insertSession (sid eid vid hall : String) (start gate : Time) : DB Unit :=
  .exec (fun _ => [.sessions (.insert [{
    id := sid, eventId := eid, venueId := vid, hallName := hall, startTime := start,
    gateTime := gate, status := .draft }])]) fun _ => ()

def updateSession (sid hall : String) (start gate : Time) : DB Unit :=
  .exec (fun s => [.sessions (.set (s.sessions.filter fun x => x.id = sid)
    (fun x => { x with hallName := hall, startTime := start, gateTime := gate })
    fun _ => rfl)]) fun _ => ()

/-- `DELETE FROM sessions WHERE id=$1 AND event_id=$2`, with the prices that go along. -/
def deleteSession (sid eid : String) : DB Unit :=
  .exec (fun s =>
    let rows := s.sessions.filter fun x => x.id = sid && x.eventId = eid
    [.sessions (.delete rows), .prices (.delete (s.prices.filter fun p => rows.any fun x =>
      x.id = p.sessionId && x.venueId = p.venueId))]) fun _ => ()

def sessionCreate (settings : Settings) (uuid : ℕ → String) (eid : String) (body : SessionBody)
    (e : EventView) (vid : String) : DB Reply := do
  .require (decide (e.sessions.length < settings.sessions)) invalidArgument
  let (hall, start, gate) ← sessionTimes eid body
  insertSession (newSessionId uuid) eid vid hall start gate
  pure (.session eid (newSessionId uuid))

def sessionUpdate (eid sid : String) (body : SessionBody) : DB Reply := do
  draftSession eid sid
  let (hall, start, gate) ← sessionTimes eid body
  updateSession sid hall start gate
  pure (.session eid sid)

def sessionDelete (eid sid : String) : DB Reply := do
  draftSession eid sid
  deleteSession sid eid
  pure (.session eid sid)

/-- Each zone is one of the venue's, none is named twice and every price is positive. -/
def checkPrices (allowed : List String) : List String → List PriceItem → DB (List (String × ℤ))
  | _, [] => pure []
  | seen, item :: rest => do
      .require item.known invalidArgument
      let zid ← .expect invalidArgument item.zoneId
      .require (allowed.contains zid && !seen.contains zid) invalidArgument
      let price ← .expect invalidArgument item.price
      .require (decide (price > 0)) invalidArgument
      let others ← checkPrices allowed (zid :: seen) rest
      pure ((item.rawZoneId, price) :: others)

def deletePrices (sid : String) : DB Unit :=
  .exec (fun s => [.prices (.delete (s.prices.filter fun p => p.sessionId = sid))]) fun _ => ()

/-- The foreign keys and the primary key of the rows that are inserted. -/
def pricesAllowed (s : Catalog) (sid vid : String) (prices : List (String × ℤ)) : Bool :=
  (s.sessions.any fun x => x.id = sid && x.venueId = vid) &&
  (prices.all fun p => s.zones.any fun z => z.id = p.1 && z.venueId = vid) &&
  decide (prices.map Prod.fst).Nodup

def priceRows (sid vid : String) (prices : List (String × ℤ)) : List SessionZonePrice :=
  prices.map fun p => { sessionId := sid, zoneId := p.1, venueId := vid, price := p.2 }

def insertPrices (sid vid : String) (prices : List (String × ℤ)) : DB Unit := do
  let ok ← .exec (fun _ => [.prices (.insert (priceRows sid vid prices))])
    fun s => prices.isEmpty || pricesAllowed s sid vid prices
  .require ok internalError

def setPrices (eid sid : String) (body : PricesBody) (vid : String) : DB Reply := do
  draftSession eid sid
  .require body.known invalidArgument
  let v ← venue vid
  let prices ← checkPrices (v.zones.map VenueZone.id) [] body.prices
  deletePrices sid
  insertPrices sid vid prices
  pure (.session eid sid)

/-! ## Requests -/

def lockEvent (eid : String) : DB Unit := .lock (.event eid) ⟨404, "EVENT_NOT_FOUND"⟩ (.commit ())

def onEvent (eid : String) (rest : EventView → DB Reply) : DB Reply := do
  lockEvent eid
  let e ← event eid
  rest e

/-- The event is read again once its venue is locked. -/
def underVenue (eid : String) (e : EventView) (rest : EventView → DB Reply) : DB Reply := do
  lockVenue e.venueId
  let e ← event eid
  rest e

def editing (eid : String) (rest : EventView → DB Reply) : DB Reply :=
  onEvent eid fun e => do
    .require (e.status == .draft) ⟨409, "EVENT_NOT_EDITABLE"⟩
    rest e

def execute (settings : Settings) (job : Job) : DB Reply :=
  match job.action with
  | .save venueId plan => save job.uuid venueId plan
  | .create body => create job.uuid body
  | .display eid known body => onEvent eid (display eid known body)
  | .publish eid => onEvent eid fun e =>
      if e.status = .onSale then alreadyPublished eid e
      else do
        .require (e.status == .draft) ⟨409, "EVENT_NOT_PUBLISHABLE"⟩
        underVenue eid e (publish settings job eid)
  | .update eid body => editing eid (update eid body)
  | .sessionCreate eid body => editing eid fun e =>
      underVenue eid e fun e' => sessionCreate settings job.uuid eid body e' e.venueId
  | .sessionUpdate eid sid body => editing eid fun e =>
      underVenue eid e fun _ => sessionUpdate eid sid body
  | .sessionDelete eid sid => editing eid fun e => underVenue eid e fun _ => sessionDelete eid sid
  | .prices eid sid body => editing eid fun e =>
      underVenue eid e fun _ => setPrices eid sid body e.venueId

/-! ## The jobs as a workload -/

/-- The ids a job draws. -/
def drawnIds (job : Job) : List String :=
  match job.action with
  | .save venueId plan =>
      (if venueId.isEmpty then [newVenueId job.uuid] else []) ++
        (planZones job.uuid plan).map Prod.fst
  | .create _ => [newEventId job.uuid]
  | .sessionCreate _ _ => [newSessionId job.uuid]
  | _ => []

/-- Those of its new rows that can be locked. -/
def births (job : Job) : List Lock :=
  match job.action with
  | .save venueId _ => if venueId.isEmpty then [.venue (newVenueId job.uuid)] else []
  | .create _ => [.event (newEventId job.uuid)]
  | _ => []

def occurs (id : String) (s : Catalog) : Bool :=
  (s.venues.any fun v => v.id = id) || (s.zones.any fun z => z.id = id) ||
  (s.events.any fun e => e.id = id) || (s.sessions.any fun x => x.id = id)

def workload (settings : Settings) :
    Workload Catalog Write Lock Failure Reply Job String where
  program := execute settings
  ids := drawnIds
  births := births
  occurs := occurs

end Ticketing.Admin
