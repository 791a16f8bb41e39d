import Ticketing.HoldTexts

/-!
# The scripts on seat holds and on the availability of a session

The holds of a session's seats are plain keys with a time to live. Next to them stands a derived
model of the session: formal states, copies of the holds, counters and a change stream for every
zone. Every hold script runs wrapped: the derived model is checked before the original operation and
brought up to date after it.
-/

namespace Ticketing.Availability

open Redis

/-- The keys of one session. -/
inductive Key where
  | modelMeta
  | zones
  | seatZone
  | formal
  | holds
  | holdExpiry
  | initLock
  | zoneSeats (zone : String)
  | zoneSummary (zone : String)
  | zoneChanges (zone : String)
  | hold (seat : String)
  deriving DecidableEq

inductive Reply where
  | integer (n : ℕ)
  | strings (values : List String)
  | error (message : String)
  deriving DecidableEq

section common

def compatible (key : Key) (kind : Kind) : Script Key Bool := do
  let found ← typeOf key
  pure (decide (found = none ∨ found = some kind))

def ready : Script Key Bool := do
  if ← compatible .modelMeta .hash then
    let flag ← hget .modelMeta "ready"
    pure (decide (flag = some "1"))
  else pure false

def invalidate : Script Key Unit := do
  let _ ← del .modelMeta

/-- A counter is a short canonical decimal up to the number of seats. -/
def counter (count : ℕ) (text : Option String) : Option ℕ :=
  match text with
  | none => none
  | some text =>
      if decimal text = true ∧ text.length ≤ 10 ∧ tonumber text.toList ≤ count then
        some (tonumber text.toList)
      else none

def countersOk (count : ℕ) (total available held sold : Option String) : Bool :=
  match counter count total, counter count available, counter count held, counter count sold with
  | some total, some available, some held, some sold =>
      decide (total = count ∧ available + held + sold = count)
  | _, _, _, _ => false

def zoneHealthy (zone : String) : Script Key Bool := do
  let seats ← typeOf (.zoneSeats zone)
  let summary ← typeOf (.zoneSummary zone)
  let changes ← typeOf (.zoneChanges zone)
  if seats ≠ some .set ∨ summary ≠ some .hash ∨ changes ≠ some .stream then pure false
  else
    let count ← scard (.zoneSeats zone)
    let total ← hget (.zoneSummary zone) "total"
    let available ← hget (.zoneSummary zone) "available"
    let held ← hget (.zoneSummary zone) "held"
    let sold ← hget (.zoneSummary zone) "sold"
    pure (countersOk count total available held sold)

def derivedKinds : List (Key × Kind) :=
  [(.zones, .list), (.seatZone, .hash), (.formal, .hash), (.holds, .hash), (.holdExpiry, .zset)]

def requiredKinds : List (Key × Kind) := [(.zones, .list), (.seatZone, .hash), (.formal, .hash)]

def healthy : Script Key Bool := do
  if ← ready then
    if ← Script.allM (fun entry => compatible entry.1 entry.2) derivedKinds then
      if ← Script.allM (fun entry => do
          let kind ← typeOf entry.1
          pure (decide (kind = some entry.2))) requiredKinds then
        let zones ← lrange .zones
        Script.allM zoneHealthy zones
      else pure false
    else pure false
  else pure false

def validseat (seat : String) : Script Key Bool := do
  match ← hget .seatZone seat with
  | none => pure false
  | some zone =>
      let state ← hget .formal seat
      if (state.bind formal).isNone then pure false
      else
        let copy ← hget .holds seat
        if copy.isSome ∧ (copy.bind hold).isNone then pure false
        else sismember (.zoneSeats zone) seat

def publicstatus (status : Option SeatStatus) (held : Bool) : Option SeatStatus :=
  if status = some .available then some (if held then .held else .available) else status

def counterName : SeatStatus → String
  | .available => "available"
  | .held => "held"
  | .sold => "sold"

def increase (zone : Option String) (status : Option SeatStatus) (amount : ℤ) : Script Key Unit :=
  match zone, status with
  | some zone, some status => hincrby (.zoneSummary zone) (counterName status) amount
  | _, _ => Script.raise .nilValue

def summarychange (zone : Option String) (old new : Option SeatStatus) : Script Key Unit :=
  if old = new then pure ()
  else do
    increase zone old (-1)
    increase zone new 1

def change (zone : Option String) (seat : String) (maxlen : ℕ) : Script Key Unit :=
  match zone with
  | some zone => xadd (.zoneChanges zone) (some maxlen) [("kind", "change"), ("seatId", seat)]
  | none => Script.raise .nilValue

/-- The owner of a raw hold that still has time to live. -/
def liveOwner (raw : Option String) (ttl : ℤ) : Option String :=
  if ttl ≤ 0 then none else (raw.bind rawhold).map RawHold.owner

/-- Store the copy of a raw hold and its expiry, or take both away. -/
def copyHold (seat : String) (raw : Option String) (ttl : ℤ) : Script Key Unit :=
  match liveOwner raw ttl, raw with
  | some _, some raw => do
      let now ← Script.now
      let expiry := now + ttl.toNat
      hset .holds [(seat, formatDerived raw expiry)]
      zadd .holdExpiry expiry seat
  | _, _ => do
      hdel .holds seat
      zrem .holdExpiry seat

def synchold (seat : String) (maxlen : ℕ) : Script Key Unit := do
  let zone ← hget .seatZone seat
  let state ← hget .formal seat
  let status := (state.bind formal).map Formal.status
  let previous ← hget .holds seat
  let oldowner := (previous.bind hold).map Hold.owner
  let raw ← get (.hold seat)
  let ttl ← pttl (.hold seat)
  let owner := liveOwner raw ttl
  copyHold seat raw ttl
  summarychange zone (publicstatus status oldowner.isSome) (publicstatus status owner.isSome)
  if status = some .available ∧ oldowner ≠ owner then change zone seat maxlen else pure ()

end common

section holds

/-- The text before the first bar of a hold value. -/
def ownerText (value : String) : Option String :=
  (cut value.toList).map fun parts => String.ofList parts.1

/-- What stops an operation before its writes: a malformed hold, or the hold of another owner. -/
def refusal (owner : String) : List String → Script Key (Option Reply)
  | [] => pure none
  | seat :: seats => do
      match ← get (.hold seat) with
      | none => refusal owner seats
      | some value =>
          match ownerText value with
          | none => pure (some (.error "malformed seat hold"))
          | some current =>
              if current ≠ owner then pure (some (.integer 0)) else refusal owner seats

def takeSeat (owner : String) (revision ttl : ℕ) (seat : String) : Script Key Unit :=
  setPx (.hold seat) (formatHold owner (toString revision)) ttl

/-- Refresh the time to live of a hold, or write one with this revision. -/
def keepSeat (owner : String) (revision ttl : ℕ) (seat : String) : Script Key Unit := do
  let value ← get (.hold seat)
  if value.isSome then do
    let _ ← pexpire (.hold seat) ttl
  else setPx (.hold seat) (formatHold owner (toString revision)) ttl

/-- The added seats come first in the keys. -/
def prepare (owner : String) (base target ttl : ℕ) (added retained : List String) :
    Script Key Reply := do
  match ← refusal owner (added ++ retained) with
  | some reply => pure reply
  | none => do
      Script.forEach (takeSeat owner target ttl) added
      Script.forEach (keepSeat owner base ttl) retained
      pure (.integer 1)

def ensure (owner : String) (revision ttl : ℕ) (seats : List String) : Script Key Reply := do
  match ← refusal owner seats with
  | some reply => pure reply
  | none => do
      Script.forEach (keepSeat owner revision ttl) seats
      pure (.integer 1)

/-- Delete the holds whose value is judged so, counting them; a malformed value ends the walk. -/
def deleteHolds (judge : String → Except String Bool) (deleted : ℕ) :
    List String → Script Key Reply
  | [] => pure (.integer deleted)
  | seat :: seats => do
      match ← get (.hold seat) with
      | none => deleteHolds judge deleted seats
      | some value =>
          match judge value with
          | .error message => pure (.error message)
          | .ok false => deleteHolds judge deleted seats
          | .ok true => do
              let n ← del (.hold seat)
              deleteHolds judge (deleted + n) seats

def abortJudge (owner : String) (target : ℕ) (value : String) : Except String Bool :=
  .ok (decide (value = formatHold owner (toString target)))

def abort (owner : String) (target : ℕ) (seats : List String) : Script Key Reply :=
  deleteHolds (abortJudge owner target) 0 seats

def finalizeJudge (owner : String) (target : ℕ) (value : String) : Except String Bool :=
  match cut value.toList with
  | none => .error "malformed seat hold"
  | some (current, revision) =>
      if digits revision = false then .error "malformed seat hold revision"
      else .ok (decide (String.ofList current = owner ∧ tonumber revision ≤ target))

def finalize (owner : String) (target : ℕ) (seats : List String) : Script Key Reply :=
  deleteHolds (finalizeJudge owner target) 0 seats

def releaseJudge (owner : String) (value : String) : Except String Bool :=
  .ok (decide (ownerText value = some owner))

def release (owner : String) (seats : List String) : Script Key Reply :=
  deleteHolds (releaseJudge owner) 0 seats

/-- Types and revisions of the original keys are checked before any of them is written. -/
def preflight : List String → Script Key (Option String)
  | [] => pure none
  | seat :: seats => do
      if ← compatible (.hold seat) .string then
        let raw ← get (.hold seat)
        if raw.isSome ∧ (raw.bind rawhold).isNone then pure (some "malformed seat hold revision")
        else preflight seats
      else pure (some "invalid original hold type")

/-- Whether the derived model is there to be kept up to date for these seats; a broken one is
dropped. -/
def checkModel (seats : List String) : Script Key Bool := do
  if ← ready then
    if ← healthy then
      if ← Script.allM validseat seats then pure true
      else do
        invalidate
        pure false
    else do
      invalidate
      pure false
  else pure false

def wrapHold (maxlen : ℕ) (seats : List String) (original : Script Key Reply) :
    Script Key Reply := do
  let modelReady ← checkModel seats
  match ← preflight seats with
  | some message => pure (.error message)
  | none => do
      let result ← original
      if modelReady then do
        Script.forEach (fun seat => synchold seat maxlen) seats
        pure result
      else pure result

end holds

section cleanup

/-- A seat whose formal state, copy and raw hold are well formed. -/
def cleanable (seat : String) : Script Key Bool := do
  if ← validseat seat then
    if ← compatible (.hold seat) .string then
      let raw ← get (.hold seat)
      pure (decide (¬(raw.isSome ∧ (raw.bind rawhold).isNone)))
    else pure false
  else pure false

/-- Drop the hold of a seat whose copy has expired; a newer raw hold is copied instead. -/
def expireSeat (now maxlen : ℕ) (seat : String) : Script Key ℕ := do
  let copy ← hget .holds seat
  match copy.bind hold with
  | some found =>
      if found.expiry ≤ now then do
        let raw ← get (.hold seat)
        if raw = some (formatHold found.owner found.revision) then do
          let _ ← del (.hold seat)
          synchold seat maxlen
          pure 1
        else do
          synchold seat maxlen
          pure 1
      else do
        zadd .holdExpiry found.expiry seat
        pure 0
  | none => do
      zrem .holdExpiry seat
      pure 0

def expireSeats (now maxlen count : ℕ) : List String → Script Key ℕ
  | [] => pure count
  | seat :: seats => do
      let n ← expireSeat now maxlen seat
      expireSeats now maxlen (count + n) seats

def rebuild : Script Key Reply := do
  invalidate
  pure (.strings ["REBUILD"])

def expire (limit maxlen : ℕ) : Script Key Reply := do
  if ← healthy then
    if limit = 0 ∨ maxlen = 0 then pure (.error "invalid cleanup config")
    else do
      let now ← Script.now
      let seats ← zrangeByScore .holdExpiry now limit
      if ← Script.allM cleanable seats then
        let count ← expireSeats now maxlen 0 seats
        let left ← zcount .holdExpiry now
        pure (.strings ["OK", toString count, toString left])
      else rebuild
  else rebuild

end cleanup

section model

/-- A seat in the payload of an initialisation. -/
structure SeatRow where
  id : String
  status : String
  version : String
  zone : String

def SeatRow.formalText (row : SeatRow) : String := row.status ++ "|" ++ row.version

/-- The zones of the rows in the order of their first seat. -/
def zonesOf : List SeatRow → List String
  | [] => []
  | row :: rows => row.zone :: (zonesOf rows).filter fun zone => decide (zone ≠ row.zone)

def checkRow (row : SeatRow) : Script Key (Option String) := do
  if (formal row.formalText).isNone then pure (some "invalid init payload")
  else
    if ← compatible (.hold row.id) .string then
      let raw ← get (.hold row.id)
      if raw.isSome ∧ (raw.bind rawhold).isNone then pure (some "invalid original hold")
      else pure none
    else pure (some "invalid original hold type")

def checkRows (seen : List String) : List SeatRow → Script Key (Option String)
  | [] => pure none
  | row :: rows => do
      if row.id ∈ seen then pure (some "invalid init payload")
      else
        match ← checkRow row with
        | some message => pure (some message)
        | none => checkRows (row.id :: seen) rows

def deleteZone (zone : String) : Script Key Unit := do
  let _ ← del (.zoneSeats zone)
  let _ ← del (.zoneSummary zone)
  let _ ← del (.zoneChanges zone)

def derivedKeys : List Key := [.modelMeta, .zones, .seatZone, .formal, .holds, .holdExpiry]

def deleteKey (key : Key) : Script Key Unit := do
  let _ ← del key

def createZone (zone : String) : Script Key Unit := do
  deleteZone zone
  rpush .zones zone
  hset (.zoneSummary zone) [("total", "0"), ("available", "0"), ("held", "0"), ("sold", "0")]
  xadd (.zoneChanges zone) none [("kind", "baseline")]

def createSeat (row : SeatRow) : Script Key Unit := do
  hset .seatZone [(row.id, row.zone)]
  hset .formal [(row.id, row.formalText)]
  sadd (.zoneSeats row.zone) row.id
  let raw ← get (.hold row.id)
  let ttl ← pttl (.hold row.id)
  let live := raw.filter fun _ => decide (0 < ttl)
  match live with
  | some raw => do
      let now ← Script.now
      hset .holds [(row.id, formatDerived raw (now + ttl.toNat))]
      zadd .holdExpiry (now + ttl.toNat) row.id
  | none => pure ()
  hincrby (.zoneSummary row.zone) "total" 1
  increase (some row.zone) (publicstatus (statusOfName row.status) live.isSome) 1

def install (generation : String) (rows : List SeatRow) : Script Key Reply := do
  let old ← lrange .zones
  Script.forEach deleteZone old
  Script.forEach deleteKey derivedKeys
  Script.forEach createZone (zonesOf rows)
  Script.forEach createSeat rows
  hset .modelMeta [("generation", generation), ("ready", "1")]
  deleteKey .initLock
  pure (.strings ["READY", generation])

def init (token generation : String) (rows : List SeatRow) : Script Key Reply := do
  let lock ← get .initLock
  if lock ≠ some token then pure (.strings ["STALE_INIT"])
  else
    match ← checkRows [] rows with
    | some message => pure (.error message)
    | none => do
        if ← compatible .zones .list then install generation rows
        else pure (.error "invalid old zones")

def apply (seat status version : String) (maxlen : ℕ) : Script Key Reply := do
  if ← ready then
    match formal (status ++ "|" ++ version) with
    | none => pure (.error "invalid projection")
    | some next =>
        if maxlen = 0 then pure (.error "invalid projection")
        else do
          if ← healthy then
            if ← validseat seat then
              let state ← hget .formal seat
              match state.bind formal with
              | none => Script.raise .nilValue
              | some old =>
                  if greater version old.version = false then
                    pure (.strings ["STALE_OR_DUPLICATE"])
                  else do
                    let zone ← hget .seatZone seat
                    let copy ← hget .holds seat
                    summarychange zone (publicstatus (some old.status) copy.isSome)
                      (publicstatus (some next.status) copy.isSome)
                    hset .formal [(seat, status ++ "|" ++ version)]
                    change zone seat maxlen
                    pure (.strings ["APPLIED"])
            else do
              invalidate
              pure (.strings ["ERROR"])
          else do
            invalidate
            pure (.strings ["ERROR"])
  else do
    if ← exist .initLock then pure (.strings ["INITIALIZING"])
    else pure (.strings ["NO_MODEL"])

def acquire (token : String) (lockMs : ℕ) : Script Key Reply := do
  let kind ← typeOf .modelMeta
  if kind = some .hash then
    let flag ← hget .modelMeta "ready"
    if flag = some "1" then pure (.strings ["READY"])
    else do
      let won ← setNxPx .initLock token lockMs
      pure (.strings [if won then "WINNER" else "WAIT"])
  else do
    invalidate
    let won ← setNxPx .initLock token lockMs
    pure (.strings [if won then "WINNER" else "WAIT"])

def unlock (token : String) : Script Key Reply := do
  let lock ← get .initLock
  if lock = some token then do
    deleteKey .initLock
    pure (.strings ["OK"])
  else pure (.strings ["OK"])

end model

end Ticketing.Availability
