import Ticketing.Library.Table

/-!
# Authentication, its cache, and logout

A call reads the cache, validates or loads the session in the database, and
writes the cache again. The stores run a statement when they get to it, and the
service handles the reply later; writes to the cache are sent without waiting
for them. Read-only calls trust a fresh cache entry, and their misses are
coalesced into one strict call for each token of a process.
-/

namespace Ticketing

open Relational

/-- Microseconds of the database clock; the service reads whole seconds. -/
abbrev Instant := ℕ

def nowEpoch (now : Instant) : ℤ := (now / 1000000 : ℕ)

def secondsAfter (now : Instant) (seconds : ℕ) : Instant := now + seconds * 1000000

/-- `user_sessions`, keyed by id. -/
structure UserSessionRow where
  userId : String
  tokenHash : String
  createdAt : Instant
  lastSeenAt : Instant
  idleExpiresAt : Instant
  absoluteExpiresAt : Instant
  revokedAt : Option Instant
  deriving DecidableEq, Repr

/-- `app_users`, keyed by id. -/
structure AppUserRow where
  username : String
  displayName : String
  role : String
  active : Bool
  deriving DecidableEq, Repr

structure AuthDb where
  sessions : Table String UserSessionRow
  users : Table String AppUserRow

structure AuthSessionRecord where
  sessionId : String
  userId : String
  username : String
  displayName : String
  role : String
  createdAtEpoch : ℤ
  lastSeenAtEpoch : ℤ
  idleExpiresAtEpoch : ℤ
  absoluteExpiresAtEpoch : ℤ
  deriving DecidableEq, Repr

/-- The time limits of the configuration, in seconds. -/
structure AuthConfig where
  idleTimeoutSeconds : ℕ
  absoluteTimeoutSeconds : ℕ
  sessionCacheTtlSeconds : ℕ
  lastSeenWriteIntervalSeconds : ℕ

namespace UserSessionRepository

def mapSession (sessionId : String) (row : UserSessionRow) (user : AppUserRow) :
    AuthSessionRecord where
  sessionId := sessionId
  userId := row.userId
  username := user.username
  displayName := user.displayName
  role := user.role
  createdAtEpoch := nowEpoch row.createdAt
  lastSeenAtEpoch := nowEpoch row.lastSeenAt
  idleExpiresAtEpoch := nowEpoch row.idleExpiresAt
  absoluteExpiresAtEpoch := nowEpoch row.absoluteExpiresAt

/-- The session is neither revoked nor expired. -/
def unexpired (row : UserSessionRow) (now : Instant) : Bool :=
  row.revokedAt.isNone && decide (now < row.idleExpiresAt) && decide (now < row.absoluteExpiresAt)

def findActiveByTokenHash (db : AuthDb) (tokenHash : String) (now : Instant) :
    Option AuthSessionRecord := do
  let session ← (db.sessions.select fun _ row =>
    decide (row.tokenHash = tokenHash) && unexpired row now).head?
  let user ← (db.users.find session.2.userId).filter AppUserRow.active
  return mapSession session.1 session.2 user

def isActive (db : AuthDb) (sessionId tokenHash : String) (now : Instant) : Option String := do
  let row ← (db.sessions.find sessionId).filter fun row =>
    decide (row.tokenHash = tokenHash) && unexpired row now
  let user ← (db.users.find row.userId).filter AppUserRow.active
  return user.role

def touched (idleTimeoutSeconds : ℕ) (seen later : Instant) (row : UserSessionRow) :
    UserSessionRow :=
  { row with
    lastSeenAt := seen
    idleExpiresAt := min (secondsAfter later idleTimeoutSeconds) row.absoluteExpiresAt }

/-- `clock_timestamp()` goes on while the statement runs: the new expiry is computed from a
reading that comes `lag` after the one for `last_seen_at`. -/
def touch (db : AuthDb) (sessionId : String) (idleTimeoutSeconds : ℕ) (now : Instant) (lag : ℕ) :
    Option AuthSessionRecord × AuthDb :=
  match (db.sessions.find sessionId).filter fun row => unexpired row now with
  | none => (none, db)
  | some row =>
      ((db.users.find row.userId).map
          (mapSession sessionId (touched idleTimeoutSeconds now (now + lag) row)),
        { db with
          sessions := (db.sessions.updateRow sessionId (fun row => unexpired row now)
            (touched idleTimeoutSeconds now (now + lag))).2 })

/-- `COALESCE` keeps the first revocation. -/
def revoke (db : AuthDb) (sessionId : String) (now : Instant) : Bool × AuthDb :=
  let updated := db.sessions.updateRow sessionId (fun _ => true) fun row =>
    { row with revokedAt := row.revokedAt <|> some now }
  (decide (updated.1 ≠ 0), { db with sessions := updated.2 })

end UserSessionRepository

structure CachedRecord where
  record : AuthSessionRecord
  deadline : Instant

inductive SessionCacheResult where
  | hit (record : AuthSessionRecord)
  | miss
  | unavailable
  deriving DecidableEq, Repr

/-- A command to the cache that is on its way. -/
inductive CacheWrite where
  | put (tokenHash : String) (record : AuthSessionRecord) (ttl : ℕ)
  | remove (tokenHash : String)

namespace AuthSessionCache

/-- A stored record is read back only if all its fields pass the checks of the reader. -/
def readable (record : AuthSessionRecord) : Bool :=
  (decide (record.role = "CUSTOMER") || decide (record.role = "ADMIN")) &&
    [record.sessionId, record.userId, record.username, record.displayName].all
      (fun text => decide (text ≠ "")) &&
    [record.createdAtEpoch, record.lastSeenAtEpoch, record.idleExpiresAtEpoch,
      record.absoluteExpiresAtEpoch].all fun epoch => decide (0 < epoch)

def get (cache : Table String CachedRecord) (tokenHash : String) (now : Instant) :
    SessionCacheResult :=
  match (cache.find tokenHash).filter fun entry => decide (now ≤ entry.deadline) with
  | none => .miss
  | some entry => if readable entry.record then .hit entry.record else .miss

def hexDigit (c : Char) : ℕ :=
  if c.isDigit then c.toNat - '0'.toNat else c.toLower.toNat - 'a'.toNat + 10

/-- `stoul` of the first eight hexadecimal digits, modulo a fifth of the time to live. -/
def jitter (config : AuthConfig) (tokenHash : String) : ℕ :=
  ((tokenHash.toList.take 8).foldl (fun value c => value * 16 + hexDigit c) 0) %
    (config.sessionCacheTtlSeconds / 5 + 1)

/-- The write a put sends, if the record has time left. -/
def put (config : AuthConfig) (tokenHash : String) (record : AuthSessionRecord) (now : Instant) :
    List CacheWrite :=
  let remaining := min (record.idleExpiresAtEpoch - nowEpoch now)
    (record.absoluteExpiresAtEpoch - nowEpoch now)
  let ttl := min ((config.sessionCacheTtlSeconds : ℤ) - jitter config tokenHash) remaining
  if ttl ≤ 0 then [] else [.put tokenHash record ttl.toNat]

/-- The cache runs a command. -/
def apply (cache : Table String CachedRecord) (now : Instant) :
    CacheWrite → Table String CachedRecord
  | .put tokenHash record ttl => cache.set tokenHash ⟨record, secondsAfter now ttl⟩
  | .remove tokenHash => cache.erase tokenHash

end AuthSessionCache

inductive AuthenticateOutcome where
  | authenticated | unauthenticated | unavailable | overloaded
  deriving DecidableEq, Repr

structure AuthenticateResult where
  outcome : AuthenticateOutcome
  session : Option AuthSessionRecord := none
  deriving DecidableEq, Repr

/-- What a call waits for, or its answer. The second form of each wait holds the reply of the
store, which the service has not handled yet. -/
inductive AuthPhase where
  | reading
  | read (result : SessionCacheResult)
  | waiting
  | validating (record : AuthSessionRecord)
  | validated (record : AuthSessionRecord) (role : Option String)
  | loading
  | loaded (record : Option AuthSessionRecord)
  | touching (sessionId : String)
  | touched (record : Option AuthSessionRecord)
  | answered (result : AuthenticateResult)
  deriving DecidableEq, Repr

/-- `leads` marks the strict call that a group of read-only calls of one process waits for. -/
structure AuthCall where
  process : ℕ
  tokenHash : String
  readOnly : Bool
  leads : Bool := false
  phase : AuthPhase

inductive LogoutPhase where
  | revoking
  | revoked (found : Bool)
  | completed (found : Bool)
  | deleted (found : Bool)
  | failed
  deriving DecidableEq, Repr

structure Logout where
  sessionId : String
  tokenHash : String
  phase : LogoutPhase

structure AuthSystem where
  db : AuthDb
  cache : Table String CachedRecord
  writes : List CacheWrite
  calls : Table ℕ AuthCall
  pending : Table (ℕ × String) (List ℕ)
  logouts : Table ℕ Logout

/-- A call arrives, a store runs a statement of it or fails, the service handles a reply (with a
permit for the database or without), a write reaches the cache or is lost, and the same for the
revocation and the delete of a logout. -/
inductive AuthEvent where
  | authenticate (id process : ℕ) (rawToken : String)
  | authenticateReadOnly (id process : ℕ) (rawToken : String)
  | serve (id : ℕ) (now : Instant) (lag : ℕ := 0)
  | failure (id : ℕ)
  | handle (id : ℕ) (now : Instant) (permit : Bool)
  | write (index : ℕ) (now : Instant)
  | lose (index : ℕ)
  | logout (id call : ℕ)
  | revoke (id : ℕ) (now : Instant)
  | revokeFailure (id : ℕ)
  | handleRevoked (id : ℕ)
  | delete (id : ℕ)

namespace AuthSystem

def setCall (sys : AuthSystem) (id : ℕ) (phase : AuthPhase) : AuthSystem :=
  { sys with
    calls := (sys.calls.updateRow id (fun _ => true) fun call => { call with phase := phase }).2 }

/-- The completion of a strict call; a leading call answers its whole group. -/
def complete (sys : AuthSystem) (id : ℕ) (call : AuthCall) (result : AuthenticateResult) :
    AuthSystem :=
  if call.leads then
    let callbacks := (sys.pending.find (call.process, call.tokenHash)).getD []
    { sys with
      pending := sys.pending.erase (call.process, call.tokenHash)
      calls := sys.calls.update (fun j _ => decide (j ∈ callbacks))
        fun _ waiter => { waiter with phase := .answered result } }
  else sys.setCall id (.answered result)

def send (sys : AuthSystem) (writes : List CacheWrite) : AuthSystem :=
  { sys with writes := sys.writes ++ writes }

section Steps

variable (config : AuthConfig)

/-- A fresh record is cached as it is; otherwise the session is touched first. -/
def finishRecord (sys : AuthSystem) (id : ℕ) (call : AuthCall) (record : AuthSessionRecord)
    (now : Instant) : AuthSystem :=
  if nowEpoch now - record.lastSeenAtEpoch < config.lastSeenWriteIntervalSeconds then
    (sys.send (AuthSessionCache.put config call.tokenHash record now)).complete id call
      { outcome := .authenticated, session := some record }
  else sys.setCall id (.touching record.sessionId)

/-- The checks of a read-only call on a cached record. -/
def trusted (record : AuthSessionRecord) (now : Instant) : Bool :=
  decide (0 < record.createdAtEpoch) && decide (record.createdAtEpoch ≤ record.lastSeenAtEpoch) &&
    decide (record.lastSeenAtEpoch ≤ nowEpoch now) &&
    decide (nowEpoch now < record.idleExpiresAtEpoch) &&
    decide (nowEpoch now < record.absoluteExpiresAtEpoch) &&
    decide (nowEpoch now - record.lastSeenAtEpoch < config.idleTimeoutSeconds) &&
    decide (nowEpoch now - record.createdAtEpoch < config.absoluteTimeoutSeconds)

/-- A read-only miss joins the group of its token, or leads a new one. -/
def coalesce (sys : AuthSystem) (id : ℕ) (call : AuthCall) (permit : Bool) : Option AuthSystem :=
  match sys.pending.find (call.process, call.tokenHash) with
  | some group =>
      if 8 ≤ group.length then some (sys.setCall id (.answered { outcome := .unavailable }))
      else some { sys.setCall id .waiting with
        pending := sys.pending.set (call.process, call.tokenHash) (group ++ [id]) }
  | none =>
      if 64 ≤ sys.pending.count fun key _ => decide (key.1 = call.process) then
        some (sys.setCall id (.answered { outcome := .unavailable }))
      else if permit = false then some (sys.setCall id (.answered { outcome := .overloaded }))
      else some { sys with
        pending := sys.pending.set (call.process, call.tokenHash) [id]
        calls := (sys.calls.updateRow id (fun _ => true)
          fun call => { call with leads := true, phase := .reading }).2 }

/-- The cache or the database runs the statement a call waits for. -/
def serve (sys : AuthSystem) (id : ℕ) (now : Instant) (lag : ℕ) : Option AuthSystem := do
  let call ← sys.calls.find id
  match call.phase with
  | .reading => some (sys.setCall id (.read (AuthSessionCache.get sys.cache call.tokenHash now)))
  | .validating record =>
      some (sys.setCall id (.validated record
        (UserSessionRepository.isActive sys.db record.sessionId call.tokenHash now)))
  | .loading =>
      some (sys.setCall id (.loaded
        (UserSessionRepository.findActiveByTokenHash sys.db call.tokenHash now)))
  | .touching sessionId =>
      let result := UserSessionRepository.touch sys.db sessionId config.idleTimeoutSeconds now lag
      some { sys.setCall id (.touched result.1) with db := result.2 }
  | _ => none

/-- The statement or its reply fails. -/
def failure (sys : AuthSystem) (id : ℕ) : Option AuthSystem := do
  let call ← sys.calls.find id
  match call.phase with
  | .reading => some (sys.setCall id (.read .unavailable))
  | .read _ => some (sys.setCall id (.read .unavailable))
  | .waiting => none
  | .answered _ => none
  | _ => some (sys.complete id call { outcome := .unavailable })

/-- The service handles a reply. -/
def handle (sys : AuthSystem) (id : ℕ) (now : Instant) (permit : Bool) : Option AuthSystem := do
  let call ← sys.calls.find id
  match call.phase with
  | .read result =>
      if call.readOnly && !call.leads then
        match result with
        | .hit record =>
            if trusted config record now then
              some (sys.setCall id
                (.answered { outcome := .authenticated, session := some record }))
            else sys.coalesce id call permit
        | _ => sys.coalesce id call permit
      else
        match result with
        | .hit record => some (sys.setCall id (.validating record))
        | _ => some (sys.setCall id .loading)
  | .validated record role =>
      match role with
      | none =>
          some ((sys.send [.remove call.tokenHash]).complete id call
            { outcome := .unauthenticated })
      | some role => some (finishRecord config sys id call { record with role := role } now)
  | .loaded record =>
      match record with
      | none => some (sys.complete id call { outcome := .unauthenticated })
      | some record => some (finishRecord config sys id call record now)
  | .touched record =>
      match record with
      | none => some (sys.complete id call { outcome := .unauthenticated })
      | some record =>
          some ((sys.send (AuthSessionCache.put config call.tokenHash record now)).complete id call
            { outcome := .authenticated, session := some record })
  | _ => none

/-- A token that cannot be one is refused without a lookup. -/
def start (sys : AuthSystem) (id process : ℕ) (tokenHash : String) (readOnly refused : Bool) :
    Option AuthSystem :=
  (sys.calls.insert id
    { process := process
      tokenHash := tokenHash
      readOnly := readOnly
      phase := if refused then .answered { outcome := .unauthenticated } else .reading }).map
    fun calls => { sys with calls := calls }

def isHex (c : Char) : Bool :=
  c.isDigit || (decide ('a' ≤ c) && decide (c ≤ 'f')) || (decide ('A' ≤ c) && decide (c ≤ 'F'))

def setLogout (sys : AuthSystem) (id : ℕ) (phase : LogoutPhase) : AuthSystem :=
  { sys with
    logouts :=
      (sys.logouts.updateRow id (fun _ => true) fun logout => { logout with phase := phase }).2 }

/-- A request to log out carries the session a strict call has authenticated. -/
def logout (sys : AuthSystem) (id callId : ℕ) : Option AuthSystem := do
  let call ← sys.calls.find callId
  match call.phase with
  | .answered { outcome := .authenticated, session := some record } =>
      if call.readOnly then none
      else (sys.logouts.insert id ⟨record.sessionId, call.tokenHash, .revoking⟩).map fun logouts =>
        { sys with logouts := logouts }
  | _ => none

def revoke (sys : AuthSystem) (id : ℕ) (now : Instant) : Option AuthSystem := do
  let logout ← sys.logouts.find id
  match logout.phase with
  | .revoking =>
      let result := UserSessionRepository.revoke sys.db logout.sessionId now
      some { sys.setLogout id (.revoked result.1) with db := result.2 }
  | _ => none

def revokeFailure (sys : AuthSystem) (id : ℕ) : Option AuthSystem := do
  let logout ← sys.logouts.find id
  match logout.phase with
  | .revoking | .revoked _ => some (sys.setLogout id .failed)
  | _ => none

/-- The delete is sent, and the logout completes without waiting for it. -/
def handleRevoked (sys : AuthSystem) (id : ℕ) : Option AuthSystem := do
  let logout ← sys.logouts.find id
  match logout.phase with
  | .revoked found => some (sys.setLogout id (.completed found))
  | _ => none

def delete (sys : AuthSystem) (id : ℕ) : Option AuthSystem := do
  let logout ← sys.logouts.find id
  match logout.phase with
  | .completed found =>
      some { sys.setLogout id (.deleted found) with cache := sys.cache.erase logout.tokenHash }
  | _ => none

variable (sha256Hex : String → String)

def step (sys : AuthSystem) : AuthEvent → Option AuthSystem
  | .authenticate id process rawToken =>
      sys.start id process (sha256Hex rawToken) false (decide (rawToken.utf8ByteSize ≠ 64))
  | .authenticateReadOnly id process rawToken =>
      sys.start id process (sha256Hex rawToken) true
        (decide (rawToken.utf8ByteSize ≠ 64) || !rawToken.toList.all isHex)
  | .serve id now lag => sys.serve config id now lag
  | .failure id => sys.failure id
  | .handle id now permit => sys.handle config id now permit
  | .write index now =>
      (sys.writes[index]?).map fun command =>
        { sys with
          writes := sys.writes.eraseIdx index
          cache := AuthSessionCache.apply sys.cache now command }
  | .lose index =>
      if index < sys.writes.length then some { sys with writes := sys.writes.eraseIdx index }
      else none
  | .logout id callId => sys.logout id callId
  | .revoke id now => sys.revoke id now
  | .revokeFailure id => sys.revokeFailure id
  | .handleRevoked id => sys.handleRevoked id
  | .delete id => sys.delete id

def run (events : List AuthEvent) (sys : AuthSystem) : Option AuthSystem :=
  events.foldlM (step config sha256Hex) sys

end Steps
end AuthSystem
end Ticketing
