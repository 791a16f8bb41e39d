import Ticketing.AvailabilityScripts

/-!
# Reading the availability of a zone

The read script answers with a flat list of texts: what was read, the counters of all zones, and the
seats with their formal states and owners. It is a snapshot of the zone, or the seats that changed
after a cursor of the same generation.
-/

namespace Ticketing.Availability

open Redis

section cursors

/-- An id as Redis prints it. -/
def streamText (id : ℕ) : String := toString (id / 2 ^ 64) ++ "-" ++ toString (id % 2 ^ 64)

/-- The digits before and after the hyphen. -/
def cursorParts (text : String) : Option (List Char × List Char) :=
  match text.toList.dropWhile Char.isDigit with
  | '-' :: back =>
      if text.toList.takeWhile Char.isDigit ≠ [] ∧ digits back then
        some (text.toList.takeWhile Char.isDigit, back)
      else none
  | _ => none

def cursorless (a b : String) : Script Key Bool :=
  match cursorParts a, cursorParts b with
  | some (ms, seq), some (ms', seq') =>
      if ms ≠ ms' then pure (greater (String.ofList ms') (String.ofList ms))
      else pure (greater (String.ofList seq') (String.ofList seq))
  | _, _ => Script.raise .nilValue

def streamId (text : String) : Option ℕ :=
  match cursorParts text with
  | some (ms, seq) =>
      if tonumber ms < 2 ^ 64 ∧ tonumber seq < 2 ^ 64 then some (firstId (tonumber ms) + tonumber seq)
      else none
  | none => none

/-- `XRANGE key (since + COUNT count`; there is nothing after the greatest id, which is refused. -/
def xrangeSince (key : Key) (since : String) (count : ℕ) : Script Key (List StreamEntry) :=
  match streamId since with
  | some id => if id + 1 < 2 ^ 128 then xrangeAfter key id count else Script.raise .notInteger
  | none => Script.raise .notInteger

end cursors

section delta

/-- The last field with this name. -/
def eventField (name : String) (fields : List (String × String)) : Option String :=
  fields.foldl (fun found field => if field.1 = name then some field.2 else found) none

/-- The seat of a change event. -/
def changedSeat (event : StreamEntry) : Option String :=
  if eventField "kind" event.fields = some "change" then eventField "seatId" event.fields else none

/-- Every changed seat once, in the order of the first event of each. -/
def changedSeats (seen : List String) : List StreamEntry → List String
  | [] => []
  | event :: events =>
      match changedSeat event with
      | some id =>
          if id ∈ seen then changedSeats seen events else id :: changedSeats (id :: seen) events
      | none => changedSeats seen events

/-- What is to be read of a zone. -/
structure Selection where
  mode : String
  cursor : String
  reset : String
  more : String
  reason : String
  ids : List String

def deltaSelection (since : String) (limit : ℕ) (events : List StreamEntry) : Selection where
  mode := "delta"
  cursor := ((events.take limit).getLast?.map fun event => streamText event.id).getD since
  reset := "0"
  more := if limit < events.length then "1" else "0"
  reason := ""
  ids := changedSeats [] (events.take limit)

def snapshotSelection (zone reset reason : String) : Script Key Selection := do
  let ids ← smembers (.zoneSeats zone)
  match ← xlast (.zoneChanges zone) with
  | some last =>
      pure ⟨"snapshot", streamText last.id, reset, "0", reason, ids.insertionSort (· ≤ ·)⟩
  | none => Script.raise .nilValue

/-- Nothing when the stream of the zone is empty. -/
def select (zone generation since : String) (limit : ℕ) (current : Option String) :
    Script Key (Option Selection) := do
  if generation = "" then some <$> snapshotSelection zone "0" ""
  else
    let first ← xrange (.zoneChanges zone) 1
    if current ≠ some generation then some <$> snapshotSelection zone "1" "generation"
    else
      match first with
      | [] => pure none
      | entry :: _ =>
          if ← cursorless since (streamText entry.id) then
            some <$> snapshotSelection zone "1" "trim"
          else
            let events ← xrangeSince (.zoneChanges zone) since (limit + 1)
            pure (some (deltaSelection since limit events))

end delta

section read

/-- The texts of a missing counter or generation make the reply unreadable for its caller. -/
def readable (text : Option String) : Script Key String :=
  match text with
  | some text => pure text
  | none => Script.raise .nilValue

def counterNames : List String := ["total", "available", "held", "sold"]

def counterTexts (zone : String) : List String → Script Key (List String)
  | [] => pure []
  | name :: names => do
      let text ← readable (← hget (.zoneSummary zone) name)
      let texts ← counterTexts zone names
      pure (text :: texts)

def summaryTexts : List String → Script Key (List String)
  | [] => pure []
  | zone :: zones => do
      let counters ← counterTexts zone counterNames
      let texts ← summaryTexts zones
      pure (zone :: counters ++ texts)

/-- The owner of a copy that has not expired. -/
def shownOwner (now : ℕ) (copy : Option Hold) : String :=
  ((copy.filter fun found => decide (now < found.expiry)).map Hold.owner).getD ""

/-- Nothing when a seat is not well formed or not in the zone. -/
def seatTexts (zone : String) (now : ℕ) : List String → Script Key (Option (List String))
  | [] => pure (some [])
  | id :: ids => do
      if ← validseat id then
        if (← hget .seatZone id) = some zone then
          let state ← hget .formal id
          let copy ← hget .holds id
          match state.bind formal with
          | none => Script.raise .nilValue
          | some found =>
              match ← seatTexts zone now ids with
              | none => pure none
              | some texts =>
                  pure (some (id :: statusName found.status ::
                    shownOwner now (copy.bind hold) :: texts))
        else pure none
      else pure none

def read (zone generation since : String) (limit : ℕ) : Script Key Reply := do
  if ← healthy then
    if limit = 0 then pure (.error "invalid delta limit")
    else if ← exist (.zoneSeats zone) then
      let current ← hget .modelMeta "generation"
      match ← select zone generation since limit current with
      | none => pure (.strings ["REBUILD"])
      | some selection =>
          let zones ← lrange .zones
          let summaries ← summaryTexts zones
          let now ← Script.now
          match ← seatTexts zone now selection.ids with
          | none => rebuild
          | some seats =>
              let generation ← readable current
              pure (.strings (["OK", selection.mode, generation, selection.cursor, selection.reset,
                selection.more, selection.reason, toString zones.length] ++ summaries ++
                  toString selection.ids.length :: seats))
    else pure (.strings ["ZONE_NOT_FOUND"])
  else rebuild

end read

section body

/-- What a browser is shown of a seat. -/
def displaySeatStatus (formalStatus : String) (temporaryHoldOwner : Option String)
    (ownCheckoutSessionId : String) : String :=
  if formalStatus ≠ "AVAILABLE" then formalStatus
  else if temporaryHoldOwner.any fun owner =>
      decide (ownCheckoutSessionId = "" ∨ owner ≠ ownCheckoutSessionId) then "HELD"
  else "AVAILABLE"

structure ZoneCounts where
  zone : String
  total : ℕ
  available : ℕ
  held : ℕ
  sold : ℕ
  deriving DecidableEq

structure SeatView where
  id : String
  status : String
  deriving DecidableEq

/-- The intervals that a browser is told to wait before the next read. -/
structure SeatReadConfig where
  maxAge : ℕ := 60
  staleWhileRevalidate : ℕ := 15
  snapshotMs : ℕ := 2000
  changedMs : ℕ := 2000
  emptyMs : ℕ := 5000
  degradedMs : ℕ := 10000
  deriving DecidableEq

/-- The body of an answer; the seats are under `seats` in a snapshot and under `changes` in a
delta. -/
structure SyncBody where
  sessionId : String
  zone : String
  mode : String
  generation : Option String
  cursor : Option String
  reset : Bool
  hasMore : Bool
  degraded : Bool
  zones : List ZoneCounts
  seats : List SeatView
  pollAfterMs : ℕ
  deriving DecidableEq

/-- `std::stoull` on the decimals that the scripts write. -/
def stoull (text : String) : Option ℕ := natural text.toList

def zonesOfTexts : ℕ → List String → Option (List ZoneCounts × List String)
  | 0, rest => some ([], rest)
  | n + 1, zone :: total :: available :: held :: sold :: rest => do
      let counts : ZoneCounts :=
        ⟨zone, ← stoull total, ← stoull available, ← stoull held, ← stoull sold⟩
      let (zones, rest) ← zonesOfTexts n rest
      pure (counts :: zones, rest)
  | _ + 1, _ => none

def seatsOfTexts (own : String) : ℕ → List String → Option (List SeatView)
  | 0, _ => some []
  | n + 1, id :: formal :: owner :: rest => do
      let seats ← seatsOfTexts own n rest
      pure (⟨id, displaySeatStatus formal (if owner = "" then none else some owner) own⟩ :: seats)
  | _ + 1, _ => none

def pollAfter (polling : SeatReadConfig) (hasMore : Bool) (mode : String) (count : ℕ) : ℕ :=
  if hasMore then 0
  else if mode = "snapshot" then polling.snapshotMs
  else if count ≠ 0 then polling.changedMs
  else polling.emptyMs

/-- The body that the service makes of the texts of a read; nothing when they are not complete. -/
def bodyOfTexts (polling : SeatReadConfig) (session zone own : String) :
    List String → Option SyncBody
  | _ :: mode :: generation :: cursor :: reset :: more :: _ :: zones :: rest => do
      let (counts, rest) ← zonesOfTexts (← stoull zones) rest
      match rest with
      | [] => none
      | count :: rest =>
          let count ← stoull count
          let seats ← seatsOfTexts own count rest
          let hasMore := decide (more = "1")
          pure {
            sessionId := session
            zone := zone
            mode := mode
            generation := some generation
            cursor := some cursor
            reset := decide (reset = "1")
            hasMore := hasMore
            degraded := false
            zones := counts
            seats := seats
            pollAfterMs := pollAfter polling hasMore mode count }
  | _ => none

end body

end Ticketing.Availability
