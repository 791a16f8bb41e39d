import Ticketing.AuthSessions
import Ticketing.Library.Threads

/-!
# Read-only authentication

A read-only call reads the cache and trusts a fresh entry. A miss joins the group of its token or
starts one, under a lock; the call that starts a group makes one strict call for all of it, and
takes the group out of the map, again under the lock, when that call ends. A step of the model is
an answer, a critical section, or the call of one completion.
-/

namespace Ticketing

open Relational Threads

/-- What the cache or the database answers to a strict call. -/
inductive LookupReply where
  | cache (result : SessionCacheResult)
  | role (role : Option String)
  | record (record : Option AuthSessionRecord)
  | failure
  deriving DecidableEq, Repr

/-- What a strict call waits for, or its result. -/
inductive LookupPhase where
  | reading
  | validating (record : AuthSessionRecord)
  | loading
  | touching (sessionId : String)
  | ended (result : AuthenticateResult)
  deriving DecidableEq, Repr

/-- The call that started a group: it acquires a permit, makes the strict call, and calls the
completions of its group. The length of its token has been checked before. -/
inductive LeaderPhase where
  | acquiring
  | looking (lookup : LookupPhase)
  | refused
  | calling (result : AuthenticateResult) (callbacks : List ℕ)
  deriving DecidableEq, Repr

structure Leader where
  tokenHash : String
  phase : LeaderPhase
  deriving DecidableEq, Repr

/-- A call of `authenticateReadOnly`; the completion of one that waits is held by its group. -/
inductive ReadOnlyPhase where
  | reading
  | missed
  | rejected
  | waiting
  | completed
  deriving DecidableEq, Repr

/-- `answer` is what the cache answered, and when; `joined` is the leader of the group that the call
joined; `completions` records the calls of the completion, with the token hash of each result. No
step depends on these records. -/
structure ReadOnlyCall where
  rawToken : String
  phase : ReadOnlyPhase
  answer : Option (SessionCacheResult × Instant) := none
  joined : Option ℕ := none
  completions : List (AuthenticateResult × String) := []
  deriving DecidableEq, Repr

/-- A group is given by the numbers of its calls. -/
structure ReadOnlyAuth where
  calls : List ReadOnlyCall := []
  leaders : List Leader := []
  pending : Table String (List ℕ) := Table.empty

inductive ReadOnlyEvent where
  | authenticateReadOnly (rawToken : String)
  | cacheAnswered (call : ℕ) (result : SessionCacheResult) (now : Instant)
  | enter (call : ℕ)
  | reject (call : ℕ)
  | acquire (leader : ℕ) (permit : Bool)
  | answered (leader : ℕ) (reply : LookupReply) (now : Instant)
  | drain (leader : ℕ)
  | callback (leader : ℕ)
  deriving DecidableEq, Repr

namespace LookupPhase

def unauthenticated : LookupPhase := .ended { outcome := .unauthenticated }

def unavailable : LookupPhase := .ended { outcome := .unavailable }

def authenticated (record : AuthSessionRecord) : LookupPhase :=
  .ended { outcome := .authenticated, session := some record }

/-- A session that was seen lately is not touched. -/
def finishRecord (config : AuthConfig) (record : AuthSessionRecord) (now : Instant) :
    LookupPhase :=
  if nowEpoch now - record.lastSeenAtEpoch < config.lastSeenWriteIntervalSeconds then
    authenticated record
  else .touching record.sessionId

/-- The handler of each answer of a strict call. -/
def answered (config : AuthConfig) (now : Instant) :
    LookupPhase → LookupReply → Option LookupPhase
  | .reading, .cache (.hit record) => some (.validating record)
  | .reading, .cache _ => some .loading
  | .validating _, .role none => some unauthenticated
  | .validating record, .role (some role) =>
      some (finishRecord config { record with role := role } now)
  | .validating _, .failure => some unavailable
  | .loading, .record none => some unauthenticated
  | .loading, .record (some record) => some (finishRecord config record now)
  | .loading, .failure => some unavailable
  | .touching _, .record none => some unauthenticated
  | .touching _, .record (some record) => some (authenticated record)
  | .touching _, .failure => some unavailable
  | _, _ => none

end LookupPhase

namespace LeaderPhase

/-- The result that the completions of the group are called with. -/
def result : LeaderPhase → Option AuthenticateResult
  | looking (.ended result) => some result
  | refused => some { outcome := .overloaded }
  | calling result _ => some result
  | _ => none

def callbacks : LeaderPhase → List ℕ
  | calling _ callbacks => callbacks
  | _ => []

/-- The group has not been taken out of the map. -/
def undrained : LeaderPhase → Bool
  | calling _ _ => false
  | _ => true

/-- The strict call is under way. -/
def running : LeaderPhase → Bool
  | looking (.ended _) => false
  | looking _ => true
  | _ => false

end LeaderPhase

namespace ReadOnlyAuth

/-- A token that is not 64 hexadecimal digits. -/
def malformed (rawToken : String) : Bool :=
  decide (rawToken.utf8ByteSize ≠ 64) || !rawToken.toList.all AuthSystem.isHex

def unavailable : AuthenticateResult := { outcome := .unavailable }

section Steps

variable (config : AuthConfig) (sha256Hex : String → String) (s : ReadOnlyAuth)

def setCall (call : ℕ) (state : ReadOnlyCall) : ReadOnlyAuth :=
  { s with calls := s.calls.set call state }

def setLeader (leader : ℕ) (state : Leader) (phase : LeaderPhase) : ReadOnlyAuth :=
  { s with leaders := s.leaders.set leader { state with phase := phase } }

/-- The completion of a call is called. -/
def complete (call : ℕ) (state : ReadOnlyCall) (result : AuthenticateResult)
    (tokenHash : String) : ReadOnlyAuth :=
  s.setCall call { state with
    phase := .completed
    completions := state.completions ++ [(result, tokenHash)] }

def authenticateReadOnly (rawToken : String) : ReadOnlyAuth :=
  { s with
    calls := s.calls ++ [
      if malformed rawToken then
        { rawToken := rawToken
          phase := .completed
          completions := [({ outcome := .unauthenticated }, "")] }
      else { rawToken := rawToken, phase := .reading }] }

def cacheAnswered (call : ℕ) (result : SessionCacheResult) (now : Instant) :
    Option ReadOnlyAuth :=
  match s.calls[call]? with
  | some ⟨rawToken, .reading, _, joined, completions⟩ =>
      let state : ReadOnlyCall := ⟨rawToken, .missed, some (result, now), joined, completions⟩
      match result with
      | .hit record =>
          if AuthSystem.trusted config record now then
            some (s.complete call state { outcome := .authenticated, session := some record }
              (sha256Hex rawToken))
          else some (s.setCall call state)
      | _ => some (s.setCall call state)
  | _ => none

/-- The leader works for the group of the token. -/
def leads (tokenHash : String) (leader : Leader) : Bool :=
  decide (leader.tokenHash = tokenHash) && leader.phase.undrained

/-- The critical section of a miss. -/
def enter (call : ℕ) : Option ReadOnlyAuth :=
  match s.calls[call]? with
  | some state =>
      if state.phase ≠ .missed then none
      else
        let tokenHash := sha256Hex state.rawToken
        match s.pending.find tokenHash with
        | some group =>
            if 8 ≤ group.length then some (s.setCall call { state with phase := .rejected })
            else
              let leader := s.leaders.findIdx? (leads tokenHash)
              some { s.setCall call { state with phase := .waiting, joined := leader } with
                pending := s.pending.set tokenHash (group ++ [call]) }
        | none =>
            if 64 ≤ s.pending.rows.length then
              some (s.setCall call { state with phase := .rejected })
            else
              let leader := some s.leaders.length
              some { s.setCall call { state with phase := .waiting, joined := leader } with
                pending := s.pending.set tokenHash [call]
                leaders := s.leaders ++ [⟨tokenHash, .acquiring⟩] }
  | none => none

def reject (call : ℕ) : Option ReadOnlyAuth :=
  match s.calls[call]? with
  | some state =>
      if state.phase ≠ .rejected then none
      else some (s.complete call state unavailable (sha256Hex state.rawToken))
  | none => none

def acquire (leader : ℕ) (permit : Bool) : Option ReadOnlyAuth :=
  match s.leaders[leader]? with
  | some state =>
      if state.phase ≠ .acquiring then none
      else some (s.setLeader leader state (if permit then .looking .reading else .refused))
  | none => none

def answered (leader : ℕ) (reply : LookupReply) (now : Instant) : Option ReadOnlyAuth :=
  match s.leaders[leader]? with
  | some ⟨tokenHash, .looking lookup⟩ =>
      (lookup.answered config now reply).map fun next =>
        s.setLeader leader ⟨tokenHash, .looking lookup⟩ (.looking next)
  | _ => none

/-- The group is taken out of the map; it would be an error if there were none. -/
def drain (leader : ℕ) : Option ReadOnlyAuth :=
  match s.leaders[leader]? with
  | some state =>
      match state.phase.undrained, state.phase.result, s.pending.find state.tokenHash with
      | true, some result, some callbacks =>
          some { s.setLeader leader state (.calling result callbacks) with
            pending := s.pending.erase state.tokenHash }
      | _, _, _ => none
  | none => none

def callback (leader : ℕ) : Option ReadOnlyAuth :=
  match s.leaders[leader]? with
  | some ⟨tokenHash, .calling result (call :: callbacks)⟩ =>
      (s.calls[call]?).map fun state =>
        (s.complete call state result tokenHash).setLeader leader
          ⟨tokenHash, .calling result (call :: callbacks)⟩ (.calling result callbacks)
  | _ => none

def step (s : ReadOnlyAuth) : ReadOnlyEvent → Option ReadOnlyAuth
  | .authenticateReadOnly rawToken => some (s.authenticateReadOnly rawToken)
  | .cacheAnswered call result now => s.cacheAnswered config sha256Hex call result now
  | .enter call => s.enter sha256Hex call
  | .reject call => s.reject sha256Hex call
  | .acquire leader permit => s.acquire leader permit
  | .answered leader reply now => s.answered config leader reply now
  | .drain leader => s.drain leader
  | .callback leader => s.callback leader

end Steps

end ReadOnlyAuth
end Ticketing
