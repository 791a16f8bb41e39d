import Ticketing.LogoutRevocation

/-!
# How long a session lives

A login creates the session with expiries computed from clock readings that come
one after the other; every touch moves the idle expiry on. The paths that
authenticate a call compare the clock with different copies of these times. All
of them stay within the timeouts, up to the time a statement took.
-/

namespace Ticketing

open Relational

/-- The readings of `clock_timestamp()` by the INSERT of a session, one for each column. -/
structure CreateClock where
  created : Instant
  seen : Instant
  idle : Instant
  absolute : Instant
  deriving DecidableEq, Repr

namespace UserSessionRepository

def createdRow (config : AuthConfig) (userId tokenHash : String) (clock : CreateClock) :
    UserSessionRow where
  userId := userId
  tokenHash := tokenHash
  createdAt := clock.created
  lastSeenAt := clock.seen
  idleExpiresAt := secondsAfter clock.idle config.idleTimeoutSeconds
  absoluteExpiresAt := secondsAfter clock.absolute config.absoluteTimeoutSeconds
  revokedAt := none

/-- The CHECK constraints of the table. -/
def allowed (row : UserSessionRow) : Bool :=
  decide (row.createdAt < row.idleExpiresAt) && decide (row.createdAt < row.absoluteExpiresAt) &&
    decide (row.idleExpiresAt ≤ row.absoluteExpiresAt) && decide (row.createdAt ≤ row.lastSeenAt)

def create (config : AuthConfig) (db : AuthDb) (sessionId userId tokenHash : String)
    (clock : CreateClock) : Option (AuthSessionRecord × AuthDb) := do
  let user ← db.users.find userId
  let row := createdRow config userId tokenHash clock
  if allowed row = false ∨ db.sessions.count (fun _ other => decide (other.tokenHash = tokenHash)) ≠ 0
  then none
  else
    let sessions ← db.sessions.insert sessionId row
    return (mapSession sessionId row user, { db with sessions := sessions })

end UserSessionRepository

/-- The reply of the INSERT, which the login has not handled yet. -/
structure Login where
  tokenHash : String
  session : AuthSessionRecord

/-- The authentication with its logins, and the time up to which the one clock has been read. -/
structure SessionWorld where
  sys : AuthSystem
  logins : Table ℕ Login
  clock : Instant

inductive SessionEvent where
  | create (id : ℕ) (sessionId userId tokenHash : String) (clock : CreateClock)
  | handleCreated (id : ℕ) (now : Instant)
  | loseCreated (id : ℕ)
  | auth (event : AuthEvent)

/-- The last clock reading of an event. -/
def AuthEvent.last : AuthEvent → Option Instant
  | .serve _ now lag => some (now + lag)
  | .handle _ now _ => some now
  | .write _ now => some now
  | .revoke _ now => some now
  | _ => none

namespace SessionEvent

def last : SessionEvent → Option Instant
  | create _ _ _ _ clock => some clock.absolute
  | handleCreated _ now => some now
  | loseCreated _ => none
  | auth event => event.last

/-- How far the clock readings of a statement are apart. -/
def spread : SessionEvent → ℕ
  | create _ _ _ _ clock => clock.absolute - clock.created
  | auth (.serve _ _ lag) => lag
  | _ => 0

end SessionEvent

namespace SessionWorld

/-- A touch reads the clock after the version of the row it replaces was written. -/
def follows (sys : AuthSystem) (id : ℕ) (now : Instant) : Bool :=
  (sys.calls.find id).all fun call =>
    match call.phase with
    | .touching sessionId =>
        (sys.db.sessions.find sessionId).all fun row => decide (row.lastSeenAt ≤ now)
    | _ => true

/-- The clock never goes back. -/
def admits (world : SessionWorld) (event : SessionEvent) : Bool :=
  (event.last.all fun now => decide (world.clock ≤ now)) &&
    match event with
    | .create _ _ _ _ clock => decide (clock.created ≤ clock.seen) &&
        decide (clock.seen ≤ clock.idle) && decide (clock.idle ≤ clock.absolute)
    | .auth (.serve id now _) => follows world.sys id now
    | _ => true

section Steps

variable (config : AuthConfig) (sha256Hex : String → String)

def act (world : SessionWorld) : SessionEvent → Option SessionWorld
  | .create id sessionId userId tokenHash clock => do
      let (session, db) ←
        UserSessionRepository.create config world.sys.db sessionId userId tokenHash clock
      let logins ← world.logins.insert id ⟨tokenHash, session⟩
      return { world with sys := { world.sys with db := db }, logins := logins }
  | .handleCreated id now => do
      let login ← world.logins.find id
      return { world with
        sys := world.sys.send (AuthSessionCache.put config login.tokenHash login.session now)
        logins := world.logins.erase id }
  | .loseCreated id =>
      (world.logins.find id).map fun _ => { world with logins := world.logins.erase id }
  | .auth event =>
      (AuthSystem.step config sha256Hex world.sys event).map fun sys => { world with sys := sys }

def step (world : SessionWorld) (event : SessionEvent) : Option SessionWorld :=
  if world.admits event then
    (act config sha256Hex world event).map fun next =>
      { next with clock := event.last.getD world.clock }
  else none

def run (events : List SessionEvent) (world : SessionWorld) : Option SessionWorld :=
  events.foldlM (step config sha256Hex) world

end Steps

/-- Nobody has logged in yet. -/
structure Fresh (world : SessionWorld) : Prop where
  sessions : world.sys.db.sessions.rows = []
  cache : world.sys.cache.rows = []
  writes : world.sys.writes = []
  calls : world.sys.calls.rows = []
  pending : world.sys.pending.rows = []
  logouts : world.sys.logouts.rows = []
  logins : world.logins.rows = []

end SessionWorld

/-- How the row of a session goes on. -/
structure UserSessionRow.Forward (row row' : UserSessionRow) : Prop where
  tokenHash : row'.tokenHash = row.tokenHash
  createdAt : row'.createdAt = row.createdAt
  absoluteExpiresAt : row'.absoluteExpiresAt = row.absoluteExpiresAt
  lastSeenAt : row.lastSeenAt ≤ row'.lastSeenAt
  idleExpiresAt : row.idleExpiresAt ≤ row'.idleExpiresAt

theorem UserSessionRow.Forward.refl (row : UserSessionRow) : row.Forward row :=
  ⟨rfl, rfl, rfl, le_rfl, le_rfl⟩

theorem UserSessionRow.Forward.trans {row row' row'' : UserSessionRow} (h : row.Forward row')
    (h' : row'.Forward row'') : row.Forward row'' :=
  ⟨h'.tokenHash.trans h.tokenHash, h'.createdAt.trans h.createdAt,
    h'.absoluteExpiresAt.trans h.absoluteExpiresAt, h.lastSeenAt.trans h'.lastSeenAt,
    h.idleExpiresAt.trans h'.idleExpiresAt⟩

/-- The times of a row at a moment of the clock, with timeouts exceeded by the slack at most. -/
structure UserSessionRow.InTime (config : AuthConfig) (slack : ℕ) (clock : Instant)
    (row : UserSessionRow) : Prop where
  seen : row.lastSeenAt ≤ clock
  absolute : row.absoluteExpiresAt ≤
    secondsAfter row.createdAt config.absoluteTimeoutSeconds + slack
  idle : row.idleExpiresAt ≤ secondsAfter row.lastSeenAt config.idleTimeoutSeconds + slack
  ordered : row.idleExpiresAt ≤ row.absoluteExpiresAt
  recent : row.idleExpiresAt ≤ secondsAfter clock config.idleTimeoutSeconds

namespace AuthDb

def Forward (db db' : AuthDb) : Prop :=
  ∀ id row, db.sessions.find id = some row →
    ∃ row', db'.sessions.find id = some row' ∧ row.Forward row'

theorem Forward.refl (db : AuthDb) : Forward db db := fun _ row h => ⟨row, h, .refl row⟩

theorem Forward.trans {db db' db'' : AuthDb} (h : Forward db db') (h' : Forward db' db'') :
    Forward db db'' := by
  intro id row hrow
  obtain ⟨row', hrow', hforward⟩ := h id row hrow
  obtain ⟨row'', hrow'', hforward'⟩ := h' id row' hrow'
  exact ⟨row'', hrow'', hforward.trans hforward'⟩

def InTime (config : AuthConfig) (slack : ℕ) (clock : Instant) (db : AuthDb) : Prop :=
  ∀ id row, db.sessions.find id = some row → row.InTime config slack clock

/-- The record is one of the session of the token, perhaps not the latest. -/
def Describes (db : AuthDb) (tokenHash : String) (record : AuthSessionRecord) : Prop :=
  ∃ row, db.sessions.find record.sessionId = some row ∧ row.tokenHash = tokenHash ∧
    record.createdAtEpoch = nowEpoch row.createdAt ∧
    record.lastSeenAtEpoch ≤ nowEpoch row.lastSeenAt

theorem nowEpoch_mono {now later : Instant} (h : now ≤ later) : nowEpoch now ≤ nowEpoch later := by
  unfold nowEpoch
  exact_mod_cast Nat.div_le_div_right h

theorem Describes.forward {db db' : AuthDb} {tokenHash : String} {record : AuthSessionRecord}
    (h : db.Describes tokenHash record) (hforward : Forward db db') :
    db'.Describes tokenHash record := by
  obtain ⟨row, hrow, htoken, hcreated, hseen⟩ := h
  obtain ⟨row', hrow', hnext⟩ := hforward _ row hrow
  refine ⟨row', hrow', hnext.tokenHash.trans htoken, ?_, ?_⟩
  · rw [hnext.createdAt]
    exact hcreated
  · exact hseen.trans (nowEpoch_mono hnext.lastSeenAt)

/-- The time is within both timeouts of the session of the token. -/
def Alive (config : AuthConfig) (slack : ℕ) (db : AuthDb) (tokenHash : String) (now : Instant) :
    Prop :=
  ∃ id row, db.sessions.find id = some row ∧ row.tokenHash = tokenHash ∧
    now < secondsAfter row.createdAt config.absoluteTimeoutSeconds + slack ∧
    now < secondsAfter row.lastSeenAt config.idleTimeoutSeconds + slack

end AuthDb

section Rows

variable {config : AuthConfig} {slack : ℕ} {clock : Instant} {db db' : AuthDb}

open AuthDb

theorem secondsAfter_le {now later : Instant} (h : now ≤ later + slack) (seconds : ℕ) :
    secondsAfter now seconds ≤ secondsAfter later seconds + slack := by
  unfold secondsAfter Instant at *
  omega

theorem secondsAfter_mono {now later : Instant} (h : now ≤ later) (seconds : ℕ) :
    secondsAfter now seconds ≤ secondsAfter later seconds :=
  Nat.add_le_add_right h _

theorem UserSessionRow.InTime.later {row : UserSessionRow} (h : row.InTime config slack clock)
    {later : Instant} (hle : clock ≤ later) : row.InTime config slack later where
  seen := h.seen.trans hle
  absolute := h.absolute
  idle := h.idle
  ordered := h.ordered
  recent := h.recent.trans (Nat.add_le_add_right hle _)

/-- A touch moves the row on, and the new times are within the timeouts again. -/
theorem touched_inTime {row : UserSessionRow} {now : Instant} {lag : ℕ}
    (h : row.InTime config slack clock) (hclock : clock ≤ now + lag) (hseen : row.lastSeenAt ≤ now)
    (hlag : lag ≤ slack) :
    row.Forward (UserSessionRepository.touched config.idleTimeoutSeconds now (now + lag) row) ∧
      (UserSessionRepository.touched config.idleTimeoutSeconds now (now + lag) row).InTime config
        slack (now + lag) := by
  obtain ⟨-, habsolute, -, hordered, hrecent⟩ := h
  -- the timeout of the configuration is one amount from here on
  have hlater : secondsAfter clock config.idleTimeoutSeconds ≤
      secondsAfter (now + lag) config.idleTimeoutSeconds := secondsAfter_mono hclock _
  refine ⟨⟨rfl, rfl, rfl, hseen, ?_⟩, ⟨Nat.le_add_right now lag, habsolute, ?_, ?_, ?_⟩⟩
  · exact le_min (hrecent.trans hlater) hordered
  · exact (min_le_left _ _).trans (secondsAfter_le (Nat.add_le_add_left hlag now) _)
  · exact min_le_right _ _
  · exact min_le_left _ _

theorem touch_inTime {sessionId : String} {now : Instant} {lag : ℕ}
    (h : db.InTime config slack clock) (hclock : clock ≤ now + lag)
    (hseen : ∀ row, db.sessions.find sessionId = some row → row.lastSeenAt ≤ now)
    (hlag : lag ≤ slack) :
    db.Forward (UserSessionRepository.touch db sessionId config.idleTimeoutSeconds now lag).2 ∧
      (UserSessionRepository.touch db sessionId config.idleTimeoutSeconds now lag).2.InTime config
        slack (now + lag) := by
  unfold UserSessionRepository.touch
  split
  · exact ⟨Forward.refl db, fun id row hrow => (h id row hrow).later hclock⟩
  · have hfind : ∀ id row, db.sessions.find id = some row →
        ∃ row', (db.sessions.updateRow sessionId
          (fun row => UserSessionRepository.unexpired row now)
          (UserSessionRepository.touched config.idleTimeoutSeconds now (now + lag))).2.find id =
            some row' ∧ row.Forward row' ∧ row'.InTime config slack (now + lag) := by
      intro id row hrow
      rw [Table.find_updateRow, hrow, Option.map_some]
      by_cases hid : id = sessionId ∧ UserSessionRepository.unexpired row now = true
      · rw [if_pos hid]
        have hnext := touched_inTime (h id row hrow) hclock
          (hseen row (hid.1 ▸ hrow)) hlag
        exact ⟨_, rfl, hnext⟩
      · rw [if_neg hid]
        exact ⟨row, rfl, .refl row, (h id row hrow).later hclock⟩
    refine ⟨fun id row hrow => ?_, fun id row' hrow' => ?_⟩
    · obtain ⟨row', hrow', hforward, -⟩ := hfind id row hrow
      exact ⟨row', hrow', hforward⟩
    · have hsome := hrow'
      rw [Table.find_updateRow] at hsome
      obtain ⟨row, hrow, -⟩ := Option.map_eq_some_iff.mp hsome
      obtain ⟨found, hfound, -, hinTime⟩ := hfind id row hrow
      cases hfound.symm.trans hrow'
      exact hinTime

theorem revoke_inTime {sessionId : String} {now : Instant} (h : db.InTime config slack clock) :
    db.Forward (UserSessionRepository.revoke db sessionId now).2 ∧
      (UserSessionRepository.revoke db sessionId now).2.InTime config slack clock := by
  unfold UserSessionRepository.revoke
  refine ⟨fun id row hrow => ?_, fun id row' hrow' => ?_⟩
  · simp only [Table.find_updateRow, hrow, Option.map_some]
    split_ifs
    · exact ⟨_, rfl, rfl, rfl, rfl, le_rfl, le_rfl⟩
    · exact ⟨row, rfl, .refl row⟩
  · simp only [Table.find_updateRow] at hrow'
    obtain ⟨row, hrow, rfl⟩ := Option.map_eq_some_iff.mp hrow'
    obtain ⟨hseen, habsolute, hidle, hordered, hrecent⟩ := h id row hrow
    split_ifs
    · exact ⟨hseen, habsolute, hidle, hordered, hrecent⟩
    · exact ⟨hseen, habsolute, hidle, hordered, hrecent⟩

theorem create_inserted {sessionId userId tokenHash : String} {created : CreateClock}
    {session : AuthSessionRecord}
    (h : UserSessionRepository.create config db sessionId userId tokenHash created =
      some (session, db')) :
    ∃ row user, row = UserSessionRepository.createdRow config userId tokenHash created ∧
      UserSessionRepository.allowed row = true ∧
      (∀ id other, db.sessions.find id = some other → other.tokenHash ≠ tokenHash) ∧
      db.sessions.Inserted sessionId row db'.sessions ∧
      session = UserSessionRepository.mapSession sessionId row user := by
  simp only [UserSessionRepository.create, Option.bind_eq_bind, Option.bind_eq_some_iff] at h
  obtain ⟨user, -, h⟩ := h
  split_ifs at h with hrefused
  simp only [not_or, Bool.not_eq_false, not_not, Table.count_eq_zero] at hrefused
  obtain ⟨sessions, hinsert, h⟩ := Option.bind_eq_some_iff.mp h
  cases h
  refine ⟨_, user, rfl, hrefused.1, ?_, Table.inserted_of_insert hinsert, rfl⟩
  intro id other hother htoken
  have hno := hrefused.2 id other hother
  simp [htoken] at hno

/-- A new session starts within its timeouts. -/
theorem create_inTime {sessionId userId tokenHash : String} {created : CreateClock}
    {session : AuthSessionRecord} (h : db.InTime config slack clock)
    (hcreate : UserSessionRepository.create config db sessionId userId tokenHash created =
      some (session, db'))
    (hclock : clock ≤ created.absolute) (hseen : created.seen ≤ created.idle)
    (hstart : created.created ≤ created.seen) (hidle : created.idle ≤ created.absolute)
    (hslack : created.absolute - created.created ≤ slack) :
    db.Forward db' ∧ db'.InTime config slack created.absolute := by
  obtain ⟨row, user, rfl, hallowed, -, hinserted, -⟩ := create_inserted hcreate
  refine ⟨fun id row hrow => ⟨row, hinserted.find_old hrow, .refl row⟩, fun id row hrow => ?_⟩
  rcases hinserted.cases hrow with ⟨-, rfl⟩ | hold
  · simp only [UserSessionRepository.allowed, Bool.and_eq_true, decide_eq_true_eq] at hallowed
    have hspread : created.absolute ≤ created.created + slack := Nat.sub_le_iff_le_add'.mp hslack
    exact ⟨hseen.trans hidle, secondsAfter_le hspread _,
      secondsAfter_le (hidle.trans (hspread.trans (Nat.add_le_add_right hstart slack))) _,
      hallowed.1.2, secondsAfter_mono hidle _⟩
  · exact (h id row hold).later hclock

end Rows

namespace AuthSystem

open AuthDb

/-- The step of a run at which a call is authenticated, and the time it compares: a statement of
the call that finds the session, or a cache entry that a read-only call trusts. -/
inductive Decides (config : AuthConfig) (sys : AuthSystem) (checker process : ℕ)
    (tokenHash : String) : AuthEvent → Instant → Prop where
  | validated {call : AuthCall} {record : AuthSessionRecord} {role : String} {now : Instant}
      {lag : ℕ} (found : sys.calls.find checker = some call) (same : call.process = process)
      (token : call.tokenHash = tokenHash) (phase : call.phase = .validating record)
      (active : UserSessionRepository.isActive sys.db record.sessionId tokenHash now = some role) :
      Decides config sys checker process tokenHash (.serve checker now lag) now
  | loaded {call : AuthCall} {record : AuthSessionRecord} {now : Instant} {lag : ℕ}
      (found : sys.calls.find checker = some call) (same : call.process = process)
      (token : call.tokenHash = tokenHash) (phase : call.phase = .loading)
      (active : UserSessionRepository.findActiveByTokenHash sys.db tokenHash now = some record) :
      Decides config sys checker process tokenHash (.serve checker now lag) now
  | touched {call : AuthCall} {sessionId : String} {record : AuthSessionRecord} {now : Instant}
      {lag : ℕ} (found : sys.calls.find checker = some call) (same : call.process = process)
      (token : call.tokenHash = tokenHash) (phase : call.phase = .touching sessionId)
      (active : (UserSessionRepository.touch sys.db sessionId config.idleTimeoutSeconds now
        lag).1 = some record) :
      Decides config sys checker process tokenHash (.serve checker now lag) now
  | trusted {call : AuthCall} {record : AuthSessionRecord} {now : Instant} {permit : Bool}
      (found : sys.calls.find checker = some call) (same : call.process = process)
      (token : call.tokenHash = tokenHash) (lone : call.strict = false)
      (phase : call.phase = .read (.hit record)) (fresh : trusted config record now = true) :
      Decides config sys checker process tokenHash (.handle checker now permit) now

/-- The event is one of the call: a statement of it runs or fails, or its reply is handled. -/
def Concerns (id : ℕ) : AuthEvent → Prop
  | .serve other _ _ => other = id
  | .failure other => other = id
  | .handle other _ _ => other = id
  | _ => False

/-- The handled reply of a call answers the call itself, or the group the call leads. -/
def Answers (sys : AuthSystem) (checker id : ℕ) (call : AuthCall) : Prop :=
  checker = id ∨ call.readOnly = true ∧ ∃ leader group, sys.calls.find checker = some leader ∧
    leader.leads = true ∧ (leader.process, leader.tokenHash) = (call.process, call.tokenHash) ∧
    sys.pending.find (call.process, call.tokenHash) = some group ∧ id ∈ group

/-- A trusted cache entry allows no excess. -/
def slackOf (slack : ℕ) : AuthEvent → ℕ
  | .handle _ _ _ => 0
  | _ => slack

/-- Every record the system holds is one of the session of its token. -/
structure Described (sys : AuthSystem) : Prop where
  cached : ∀ tokenHash entry, sys.cache.find tokenHash = some entry →
    sys.db.Describes tokenHash entry.record
  writes : ∀ tokenHash record ttl, .put tokenHash record ttl ∈ sys.writes →
    sys.db.Describes tokenHash record
  replies : ∀ id call record, sys.calls.find id = some call → call.phase.record = some record →
    sys.db.Describes call.tokenHash record

section Decisions

variable {config : AuthConfig} {slack : ℕ} {clock : Instant} {sys : AuthSystem}

theorem alive_of_unexpired {db : AuthDb} {id tokenHash : String} {row : UserSessionRow}
    {now : Instant} (hrows : db.InTime config slack clock) (hrow : db.sessions.find id = some row)
    (htoken : row.tokenHash = tokenHash) (h : UserSessionRepository.unexpired row now = true) :
    db.Alive config slack tokenHash now := by
  simp only [UserSessionRepository.unexpired, Bool.and_eq_true, decide_eq_true_eq] at h
  have hrowInTime := hrows id row hrow
  exact ⟨id, row, hrow, htoken, h.2.trans_le hrowInTime.absolute, h.1.2.trans_le hrowInTime.idle⟩

theorem lt_of_epoch_lt {now start : Instant} {seconds : ℕ}
    (h : nowEpoch now - nowEpoch start < seconds) : now < secondsAfter start seconds := by
  unfold nowEpoch at h
  unfold secondsAfter Instant at *
  omega

/-- The checks of a read-only call hold of the row although the record may be an old one. -/
theorem alive_of_trusted {db : AuthDb} {tokenHash : String} {record : AuthSessionRecord}
    {now : Instant} (hrecord : db.Describes tokenHash record)
    (h : trusted config record now = true) : db.Alive config 0 tokenHash now := by
  obtain ⟨row, hrow, htoken, hcreated, hseen⟩ := hrecord
  simp only [trusted, Bool.and_eq_true, decide_eq_true_eq] at h
  refine ⟨record.sessionId, row, hrow, htoken, ?_, ?_⟩
  · rw [Nat.add_zero]
    apply lt_of_epoch_lt
    rw [← hcreated]
    exact h.2
  · rw [Nat.add_zero]
    apply lt_of_epoch_lt
    have hidle := h.1.2
    omega

theorem Decides.alive {checker process : ℕ} {tokenHash : String} {event : AuthEvent}
    {now : Instant} (h : Decides config sys checker process tokenHash event now)
    (hsound : Sound sys) (hrows : sys.db.InTime config slack clock) (hdescribed : Described sys) :
    sys.db.Alive config (slackOf slack event) tokenHash now := by
  cases h with
  | @validated call record role _ lag found same token phase active =>
      simp only [UserSessionRepository.isActive, Option.bind_eq_bind,
        Option.bind_eq_some_iff] at active
      obtain ⟨row, hrow, -⟩ := active
      obtain ⟨hfound, hguard⟩ := Option.filter_eq_some_iff.mp hrow
      rw [Bool.and_eq_true, decide_eq_true_eq] at hguard
      exact alive_of_unexpired hrows hfound hguard.1 hguard.2
  | @loaded call record _ lag found same token phase active =>
      simp only [UserSessionRepository.findActiveByTokenHash, Option.bind_eq_bind,
        Option.bind_eq_some_iff] at active
      obtain ⟨session, hsession, -⟩ := active
      obtain ⟨hfound, hguard⟩ := (sys.db.sessions.mem_select _ session.1 session.2).mp
        (List.mem_of_mem_head? hsession)
      rw [Bool.and_eq_true, decide_eq_true_eq] at hguard
      exact alive_of_unexpired hrows hfound hguard.1 hguard.2
  | @touched call sessionId record _ lag found same token phase active =>
      obtain ⟨row, hrow, htoken⟩ := hsound.owned checker call sessionId found (by rw [phase]; rfl)
      unfold UserSessionRepository.touch at active
      split at active
      · cases active
      · rename_i guarded hguarded
        obtain ⟨hfound, hguard⟩ := Option.filter_eq_some_iff.mp hguarded
        rw [hrow] at hfound
        cases hfound
        exact alive_of_unexpired hrows hrow (htoken.trans token) hguard
  | @trusted call record _ permit found same token lone phase fresh =>
      have hrecord := hdescribed.replies checker call record found (by rw [phase]; rfl)
      rw [token] at hrecord
      exact alive_of_trusted hrecord fresh

end Decisions

section Steps

variable {config : AuthConfig} {sys sys' : AuthSystem} {event : AuthEvent}

/-- The rows of the sessions change by a touch or a revocation. -/
inductive Rewrites (config : AuthConfig) (sys : AuthSystem) (event : AuthEvent) : AuthDb → Prop where
  | none : Rewrites config sys event sys.db
  | touch {id : ℕ} {call : AuthCall} {sessionId : String} {now : Instant} {lag : ℕ}
      (served : event = .serve id now lag) (found : sys.calls.find id = some call)
      (phase : call.phase = .touching sessionId) :
      Rewrites config sys event
        (UserSessionRepository.touch sys.db sessionId config.idleTimeoutSeconds now lag).2
  | revoke (sessionId : String) (now : Instant) :
      Rewrites config sys event (UserSessionRepository.revoke sys.db sessionId now).2

theorem progress_rewrites {id : ℕ} {call : AuthCall} {phase phase' : AuthPhase} {db : AuthDb}
    (h : Progress config sys event id call phase phase' db) (hfound : sys.calls.find id = some call)
    (hphase : call.phase = phase) : Rewrites config sys event db := by
  cases h with
  | touched now lag served => exact .touch served hfound hphase
  | _ => exact .none

theorem rewrites_of_effect (h : Effect config sys event sys') :
    Rewrites config sys event sys'.db := by
  cases h with
  | progressed found progress => exact progress_rewrites progress found rfl
  | @completed id call result writes found inFlow earned sends =>
      rw [(complete_rows (sys.send writes) id call result).1]
      exact .none
  | revoked now found => exact .revoke _ now
  | _ => exact .none

theorem Rewrites.inTime {slack : ℕ} {clock : Instant} {db : AuthDb}
    (h : Rewrites config sys event db) (hrows : sys.db.InTime config slack clock)
    (hlast : ∀ now, event.last = some now → clock ≤ now)
    (hfollows : ∀ id now lag, event = .serve id now lag → SessionWorld.follows sys id now = true)
    (hlag : ∀ id now lag, event = .serve id now lag → lag ≤ slack) :
    sys.db.Forward db ∧ db.InTime config slack (event.last.getD clock) := by
  have hlater : clock ≤ event.last.getD clock := by
    cases hnow : event.last with
    | none => exact le_rfl
    | some now => exact hlast now hnow
  cases h with
  | none => exact ⟨Forward.refl _, fun id row hrow => (hrows id row hrow).later hlater⟩
  | @touch id call sessionId now lag served found phase =>
      subst served
      refine touch_inTime hrows hlater (fun row hrow => ?_) (hlag id now lag rfl)
      have hguard := hfollows id now lag rfl
      simpa [SessionWorld.follows, found, phase, hrow] using hguard
  | revoke sessionId now =>
      obtain ⟨hforward, hnext⟩ := @revoke_inTime _ _ _ _ sessionId now hrows
      exact ⟨hforward, fun id row hrow => (hnext id row hrow).later hlater⟩

theorem describes_of_sends {call : AuthCall} {writes : List CacheWrite} {tokenHash : String}
    {record : AuthSessionRecord} {ttl : ℕ} {db : AuthDb} (hsends : Sends call writes)
    (hmem : .put tokenHash record ttl ∈ writes)
    (hreply : ∀ found, call.phase.record = some found → db.Describes call.tokenHash found) :
    db.Describes tokenHash record := by
  obtain ⟨rfl, role, hrecord⟩ := hsends tokenHash record ttl hmem
  obtain ⟨found, hfound, rfl⟩ := Option.map_eq_some_iff.mp hrecord
  exact hreply found hfound

/-- What a statement finds is the session of its token. -/
theorem progress_described {id : ℕ} {call : AuthCall} {phase' : AuthPhase}
    {db : AuthDb} {record : AuthSessionRecord} (hsound : Sound sys) (hdescribed : Described sys)
    (hfound : sys.calls.find id = some call)
    (h : Progress config sys event id call call.phase phase' db) (hforward : sys.db.Forward db)
    (hrecord : phase'.record = some record) : db.Describes call.tokenHash record := by
  generalize hphase : call.phase = phase at h
  cases h with
  | read now =>
      cases hread : AuthSessionCache.get sys.cache call.tokenHash now with
      | hit found =>
          rw [hread] at hrecord
          cases hrecord
          unfold AuthSessionCache.get at hread
          split at hread
          · cases hread
          · rename_i entry hentry
            split_ifs at hread
            cases hread
            exact (hdescribed.cached _ entry (Option.filter_eq_some_iff.mp hentry).1).forward hforward
      | miss =>
          rw [hread] at hrecord
          cases hrecord
      | unavailable =>
          rw [hread] at hrecord
          cases hrecord
  | unread => cases hrecord
  | validating =>
      cases hrecord
      exact (hdescribed.replies id call _ hfound (by rw [hphase]; rfl)).forward hforward
  | loading => cases hrecord
  | validated =>
      cases hrecord
      exact (hdescribed.replies id call _ hfound (by rw [hphase]; rfl)).forward hforward
  | loaded now lag served =>
      cases hload : UserSessionRepository.findActiveByTokenHash sys.db call.tokenHash now with
      | none =>
          rw [hload] at hrecord
          cases hrecord
      | some found =>
          rw [hload] at hrecord
          cases hrecord
          simp only [UserSessionRepository.findActiveByTokenHash, Option.bind_eq_bind,
            Option.bind_eq_some_iff, Option.pure_def, Option.some.injEq] at hload
          obtain ⟨session, hsession, user, -, rfl⟩ := hload
          obtain ⟨hrow, hguard⟩ := (sys.db.sessions.mem_select _ session.1 session.2).mp
            (List.mem_of_mem_head? hsession)
          rw [Bool.and_eq_true, decide_eq_true_eq] at hguard
          exact ⟨session.2, hrow, hguard.1, rfl, le_rfl⟩
  | @touched sessionId now lag served =>
      obtain ⟨owner, howner, htoken⟩ := hsound.owned id call sessionId hfound (by rw [hphase]; rfl)
      unfold UserSessionRepository.touch at hrecord ⊢
      split at hrecord
      · cases hrecord
      · rename_i row hguarded
        obtain ⟨hrow, hguard⟩ := Option.filter_eq_some_iff.mp hguarded
        cases huser : sys.db.users.find row.userId with
        | none =>
            rw [huser] at hrecord
            cases hrecord
        | some user =>
            rw [huser] at hrecord
            cases hrecord
            rw [howner] at hrow
            cases hrow
            refine ⟨UserSessionRepository.touched config.idleTimeoutSeconds now (now + lag) owner,
              ?_, htoken, rfl, le_rfl⟩
            simp only [UserSessionRepository.mapSession, Table.find_updateRow, howner,
              Option.map_some, hguard, and_self, if_true]
  | touching => cases hrecord

theorem described_of_effect (h : Effect config sys event sys') (hsound : Sound sys)
    (hdescribed : Described sys) (hforward : sys.db.Forward sys'.db) : Described sys' := by
  have hcached : ∀ tokenHash entry, sys.cache.find tokenHash = some entry →
      sys'.db.Describes tokenHash entry.record :=
    fun tokenHash entry hentry => (hdescribed.cached tokenHash entry hentry).forward hforward
  have hwrites : ∀ tokenHash record ttl, .put tokenHash record ttl ∈ sys.writes →
      sys'.db.Describes tokenHash record :=
    fun tokenHash record ttl hmem => (hdescribed.writes tokenHash record ttl hmem).forward hforward
  constructor
  case cached =>
    intro tokenHash entry hentry
    cases h with
    | @completed id call result writes found inFlow earned sends =>
        rw [(complete_rows (sys.send writes) id call result).2.2] at hentry
        exact hcached tokenHash entry hentry
    | @wrote index command now sent written =>
        cases command with
        | put written record ttl =>
            have hfind : (sys.cache.set written ⟨record, secondsAfter now ttl⟩).find tokenHash =
                some entry := hentry
            rw [Table.find_set] at hfind
            split_ifs at hfind with hsame
            · cases hfind
              rw [hsame]
              exact hwrites written record ttl (List.mem_of_getElem? sent)
            · exact hcached tokenHash entry hfind
        | remove removed =>
            have hfind : (sys.cache.erase removed).find tokenHash = some entry := hentry
            rw [Table.find_erase] at hfind
            split_ifs at hfind
            exact hcached tokenHash entry hfind
    | @deleted id logout row found phase =>
        have hfind : (sys.cache.erase logout.tokenHash).find tokenHash = some entry := hentry
        rw [Table.find_erase] at hfind
        split_ifs at hfind
        exact hcached tokenHash entry hfind
    | _ => exact hcached tokenHash entry hentry
  case writes =>
    intro tokenHash record ttl hmem
    cases h with
    | @completed id call result writes found inFlow earned sends =>
        have hall : .put tokenHash record ttl ∈ sys.writes ++ writes := by
          unfold complete at hmem
          split_ifs at hmem
          · exact hmem
          · exact hmem
        rcases List.mem_append.mp hall with hold | hnew
        · exact hwrites tokenHash record ttl hold
        · exact describes_of_sends sends hnew fun reply hreply =>
            (hdescribed.replies id call reply found hreply).forward hforward
    | @wrote index command now sent written =>
        exact hwrites tokenHash record ttl (List.mem_of_mem_eraseIdx hmem)
    | @lost index => exact hwrites tokenHash record ttl (List.mem_of_mem_eraseIdx hmem)
    | _ => exact hwrites tokenHash record ttl hmem
  case replies =>
    intro id call record hcall hrecord
    cases turned_of_effect h hcall with
    | kept found => exact (hdescribed.replies id call record found hrecord).forward hforward
    | started fresh leads phase =>
        rcases phase with hphase | hphase <;> rw [hphase] at hrecord <;> cases hrecord
    | @progressed old phase found progress =>
        have hreply : sys'.db.Describes old.tokenHash record :=
          progress_described hsound hdescribed found progress hforward hrecord
        exact hreply
    | answered => cases hrecord
    | trusted => cases hrecord
    | refused => cases hrecord
    | joined => cases hrecord
    | led => cases hrecord

end Steps

section Answers

variable {config : AuthConfig} {sys sys' : AuthSystem} {event : AuthEvent}

/-- A reply that finds the session comes from a statement that decides it. -/
theorem progress_decides {id : ℕ} {call : AuthCall} {phase' : AuthPhase} {db : AuthDb}
    (h : Progress config sys event id call call.phase phase' db)
    (hfound : sys.calls.find id = some call) (hpositive : phase'.positive = true) :
    ∃ now, Decides config sys id call.process call.tokenHash event now := by
  generalize hphase : call.phase = phase at h
  cases h with
  | @validated record now lag served =>
      cases hactive : UserSessionRepository.isActive sys.db record.sessionId call.tokenHash now with
      | none =>
          rw [hactive] at hpositive
          cases hpositive
      | some role =>
          subst served
          exact ⟨now, .validated hfound rfl rfl hphase hactive⟩
  | loaded now lag served =>
      cases hactive : UserSessionRepository.findActiveByTokenHash sys.db call.tokenHash now with
      | none =>
          rw [hactive] at hpositive
          cases hpositive
      | some record =>
          subst served
          exact ⟨now, .loaded hfound rfl rfl hphase hactive⟩
  | @touched sessionId now lag served =>
      cases hactive : (UserSessionRepository.touch sys.db sessionId config.idleTimeoutSeconds
          now lag).1 with
      | none =>
          rw [hactive] at hpositive
          cases hpositive
      | some record =>
          subst served
          exact ⟨now, .touched hfound rfl rfl hphase hactive⟩
  | _ => cases hpositive

theorem positive_of_effect (h : Effect config sys event sys') {id : ℕ} {call : AuthCall}
    (hcall : sys'.calls.find id = some call) (hpositive : call.phase.positive = true) :
    sys.calls.find id = some call ∨
      ∃ now, Decides config sys id call.process call.tokenHash event now := by
  cases turned_of_effect h hcall with
  | kept found => exact Or.inl found
  | started fresh leads phase =>
      rcases phase with hphase | hphase <;> rw [hphase] at hpositive <;> cases hpositive
  | @progressed old phase found progress =>
      have hdecides : ∃ now, Decides config sys id old.process old.tokenHash event now :=
        progress_decides progress found hpositive
      exact Or.inr hdecides
  | answered => cases hpositive
  | trusted => cases hpositive
  | refused => cases hpositive
  | joined => cases hpositive
  | led => cases hpositive

/-- A new answer that authenticates is a trusted entry, or the reply of the call or of the leader
of its group. -/
theorem answered_of_effect (h : Effect config sys event sys') (hsound : Sound sys) {id : ℕ}
    {call : AuthCall} {result : AuthenticateResult} (hcall : sys'.calls.find id = some call)
    (hphase : call.phase = .answered result) (hresult : result.outcome = .authenticated) :
    sys.calls.find id = some call ∨
      (∃ now permit, event = .handle id now permit ∧
        Decides config sys id call.process call.tokenHash event now) ∨
      ∃ checker leader now permit, event = .handle checker now permit ∧
        sys.calls.find checker = some leader ∧ leader.phase.positive = true ∧
        leader.process = call.process ∧ leader.tokenHash = call.tokenHash ∧
        sys.Answers checker id call := by
  cases turned_of_effect h hcall with
  | kept found => exact Or.inl found
  | started fresh leads phase =>
      rcases phase with hbefore | hbefore
      · rw [hbefore] at hphase
        cases hphase
      · rw [hbefore] at hphase
        cases hphase
        cases hresult
  | @progressed old phase found progress =>
      cases hphase
      have hopen := progress_not_finished progress
      cases hopen
  | @answered old leader leaderId answer found leads inFlow earned handled grouped =>
      cases hphase
      obtain ⟨hpositive, -⟩ := earned hresult
      obtain ⟨now, permit, hevent⟩ := handled hresult
      refine Or.inr (Or.inr ⟨leaderId, leader, now, permit, hevent, leads, hpositive, ?_⟩)
      rcases grouped with ⟨-, rfl⟩ | ⟨hleads, group, hgroup, hid⟩
      · rw [found] at leads
        cases leads
        exact ⟨rfl, rfl, Or.inl rfl⟩
      · obtain ⟨member, hmember, hkey, hreadOnly⟩ := hsound.members _ group id hgroup hid
        rw [found] at hmember
        cases hmember
        rw [← hkey] at hgroup
        obtain ⟨hprocess, htoken⟩ := Prod.mk.inj hkey
        exact ⟨hprocess.symm, htoken.symm,
          Or.inr ⟨hreadOnly, leader, group, leads, hleads, hkey.symm, hgroup, hid⟩⟩
  | @trusted old record found lone phase fresh =>
      obtain ⟨now, permit, rfl, hfresh⟩ := fresh
      exact Or.inr (Or.inl ⟨now, permit, rfl, .trusted found rfl rfl lone phase hfresh⟩)
  | refused found lone outcome =>
      cases hphase
      exact absurd hresult outcome
  | joined => cases hphase
  | led => cases hphase

theorem find_complete_self {id : ℕ} {call : AuthCall} {result : AuthenticateResult}
    (hcall : sys.calls.find id = some call)
    (hleading : call.leads = true → ∃ group,
      sys.pending.find (call.process, call.tokenHash) = some group ∧ id ∈ group) :
    (sys.complete id call result).calls.find id = some { call with phase := .answered result } := by
  unfold complete
  split_ifs with hleads
  · obtain ⟨group, hgroup, hid⟩ := hleading hleads
    simp [hcall, hgroup, hid]
  · rw [find_setCall sys _ hcall, if_pos rfl]

/-- A call that holds a good reply gives it up at its next event. -/
theorem moved_of_concerns {sha256Hex : String → String} {id : ℕ} {call : AuthCall}
    (hsound : Sound sys) (h : step config sha256Hex sys event = some sys')
    (hcall : sys.calls.find id = some call) (hpositive : call.phase.positive = true)
    (hconcerns : Concerns id event) :
    ∃ phase, sys'.calls.find id = some { call with phase := phase } ∧ phase.positive = false := by
  have hopen : call.phase.finished = false := by
    cases hphase : call.phase with
    | answered result =>
        rw [hphase] at hpositive
        cases hpositive
    | _ => rfl
  have hleading := fun hleads : call.leads = true => hsound.leading id call hcall hleads hopen
  have hcompleted : ∀ result writes, ∃ phase,
      ((sys.send writes).complete id call result).calls.find id =
        some { call with phase := phase } ∧ phase.positive = false :=
    fun result writes => ⟨.answered result, find_complete_self hcall hleading, rfl⟩
  have hfinished : ∀ record now, ∃ phase,
      (finishRecord config sys id call record now).calls.find id =
        some { call with phase := phase } ∧ phase.positive = false := by
    intro record now
    unfold finishRecord
    split_ifs
    · exact hcompleted _ _
    · exact ⟨.touching record.sessionId, by rw [find_setCall sys _ hcall, if_pos rfl], rfl⟩
  cases event with
  | serve other now lag =>
      cases hconcerns
      simp only [step, serve, hcall, Option.bind_eq_bind, Option.bind_some] at h
      cases hphase : call.phase with
      | reading => rw [hphase] at hpositive; cases hpositive
      | validating => rw [hphase] at hpositive; cases hpositive
      | loading => rw [hphase] at hpositive; cases hpositive
      | touching => rw [hphase] at hpositive; cases hpositive
      | _ =>
          rw [hphase] at h
          cases h
  | failure other =>
      cases hconcerns
      simp only [step, failure, hcall, Option.bind_eq_bind, Option.bind_some] at h
      cases hphase : call.phase with
      | reading => rw [hphase] at hpositive; cases hpositive
      | read => rw [hphase] at hpositive; cases hpositive
      | waiting => rw [hphase] at hpositive; cases hpositive
      | answered => rw [hphase] at hpositive; cases hpositive
      | _ =>
          rw [hphase] at h
          cases h
          exact ⟨_, find_complete_self hcall hleading, rfl⟩
  | handle other now permit =>
      cases hconcerns
      simp only [step, handle, hcall, Option.bind_eq_bind, Option.bind_some] at h
      cases hphase : call.phase with
      | validated record role =>
          cases role with
          | none => rw [hphase] at hpositive; cases hpositive
          | some role =>
              rw [hphase] at h
              cases h
              exact hfinished _ _
      | loaded record =>
          cases record with
          | none => rw [hphase] at hpositive; cases hpositive
          | some record =>
              rw [hphase] at h
              cases h
              exact hfinished _ _
      | touched record =>
          cases record with
          | none => rw [hphase] at hpositive; cases hpositive
          | some record =>
              rw [hphase] at h
              cases h
              exact hcompleted _ _
      | _ => rw [hphase] at hpositive; cases hpositive
  | _ => cases hconcerns

/-- A read-only call that leads no group reads only: sessions, cache and the writes under way
stay as they are. -/
theorem step_of_lone {sha256Hex : String → String} {id : ℕ} {call : AuthCall} (hsound : Sound sys)
    (h : step config sha256Hex sys event = some sys') (hcall : sys.calls.find id = some call)
    (hlone : call.strict = false) (hconcerns : Concerns id event) :
    sys'.db = sys.db ∧ sys'.cache = sys.cache ∧ sys'.writes = sys.writes := by
  have hplain := hsound.plain id call hcall hlone
  have hcoalesce : ∀ permit, sys.coalesce id call permit = some sys' →
      sys'.db = sys.db ∧ sys'.cache = sys.cache ∧ sys'.writes = sys.writes := by
    intro permit hstep
    unfold coalesce at hstep
    split at hstep
    · split_ifs at hstep <;> cases hstep <;> exact ⟨rfl, rfl, rfl⟩
    · split_ifs at hstep <;> cases hstep <;> exact ⟨rfl, rfl, rfl⟩
  cases event with
  | serve other now lag =>
      cases hconcerns
      simp only [step, serve, hcall, Option.bind_eq_bind, Option.bind_some] at h
      cases hphase : call.phase with
      | reading =>
          rw [hphase] at h
          cases h
          exact ⟨rfl, rfl, rfl⟩
      | validating => rw [hphase] at hplain; cases hplain
      | loading => rw [hphase] at hplain; cases hplain
      | touching => rw [hphase] at hplain; cases hplain
      | _ =>
          rw [hphase] at h
          cases h
  | failure other =>
      cases hconcerns
      simp only [step, failure, hcall, Option.bind_eq_bind, Option.bind_some] at h
      cases hphase : call.phase with
      | reading =>
          rw [hphase] at h
          cases h
          exact ⟨rfl, rfl, rfl⟩
      | read =>
          rw [hphase] at h
          cases h
          exact ⟨rfl, rfl, rfl⟩
      | waiting =>
          rw [hphase] at h
          cases h
      | answered =>
          rw [hphase] at h
          cases h
      | _ =>
          rw [hphase] at hplain
          cases hplain
  | handle other now permit =>
      cases hconcerns
      have hmode : (call.readOnly && !call.leads) = true := by
        rw [AuthCall.readOnly_of_lone hlone, AuthCall.leads_of_lone hlone]
        rfl
      simp only [step, handle, hcall, Option.bind_eq_bind, Option.bind_some] at h
      cases hphase : call.phase with
      | read result =>
          simp only [hphase, hmode, if_true] at h
          cases result with
          | hit record =>
              simp only at h
              split_ifs at h
              · cases h
                exact ⟨rfl, rfl, rfl⟩
              · exact hcoalesce permit h
          | miss => exact hcoalesce permit h
          | unavailable => exact hcoalesce permit h
      | validated => rw [hphase] at hplain; cases hplain
      | loaded => rw [hphase] at hplain; cases hplain
      | touched => rw [hphase] at hplain; cases hplain
      | _ =>
          rw [hphase] at h
          cases h
  | _ => cases hconcerns

end Answers

/-- A new session fits in with the calls and logouts under way. -/
theorem Sound.create {config : AuthConfig} {sys : AuthSystem} {db : AuthDb}
    {sessionId userId tokenHash : String} {clock : CreateClock} {session : AuthSessionRecord}
    (hs : Sound sys)
    (h : UserSessionRepository.create config sys.db sessionId userId tokenHash clock =
      some (session, db)) : Sound { sys with db := db } := by
  obtain ⟨row, user, hrow, -, hfresh, hinserted, -⟩ := create_inserted h
  have htoken : row.tokenHash = tokenHash := by rw [hrow]; rfl
  have howned : ∀ id token, sys.db.Owned id token → db.Owned id token := by
    rintro id token ⟨old, hold, hsame⟩
    exact ⟨old, hinserted.find_old hold, hsame⟩
  refine ⟨⟨?_, ?_, ?_⟩, ⟨?_, ?_, hs.plain⟩, ⟨hs.leading, hs.members⟩⟩
  · intro sid sid' found found' hfound hfound' hsame
    rcases hinserted.cases hfound with ⟨rfl, rfl⟩ | hold
    · rcases hinserted.cases hfound' with ⟨rfl, -⟩ | hold'
      · rfl
      · exact absurd (hsame.symm.trans htoken) (hfresh sid' found' hold')
    · rcases hinserted.cases hfound' with ⟨rfl, rfl⟩ | hold'
      · exact absurd (hsame.trans htoken) (hfresh sid found hold)
      · exact hs.unique sid sid' found found' hold hold' hsame
  · exact fun id logout hlogout => howned _ _ (hs.logouts id logout hlogout)
  · intro id logout found hlogout hsettled hfound
    obtain ⟨old, hold, -⟩ := hs.logouts id logout hlogout
    have hkept := hinserted.find_old hold
    rw [hfound] at hkept
    cases hkept
    exact hs.revoked id logout found hlogout hsettled hold
  · exact fun id call sid hcall hcarried => howned _ _ (hs.owned id call sid hcall hcarried)
  · exact fun id call record hcall hstrict hphase =>
      howned _ _ (hs.answered id call record hcall hstrict hphase)

end AuthSystem

namespace SessionWorld

open AuthDb AuthSystem

section Runs

variable (config : AuthConfig) (sha256Hex : String → String) (slack : ℕ)

/-- The reply that the checker holds after the run is that of a statement which found the session,
at a time within its timeouts as the database had it then; nothing of the checker ran since. -/
def Decided (initial : SessionWorld) (events : List SessionEvent) (checker process : ℕ)
    (tokenHash : String) : Prop :=
  ∃ earlier event later world now, events = earlier ++ .auth event :: later ∧
    run config sha256Hex earlier initial = some world ∧
    Decides config world.sys checker process tokenHash event now ∧
    world.sys.db.Alive config (slackOf slack event) tokenHash now ∧
    ∀ other, .auth other ∈ later → ¬ Concerns checker other

/-- The check behind an answer that an event gives after a run: the event itself trusts a cache
entry, or it handles the reply of the call or of the leader of its group. -/
inductive Checked (initial : SessionWorld) (earlier : List SessionEvent) (mid : SessionWorld)
    (id : ℕ) (call : AuthCall) : AuthEvent → Prop where
  | trusted {now : Instant} {permit : Bool}
      (decides : Decides config mid.sys id call.process call.tokenHash (.handle id now permit) now)
      (alive : mid.sys.db.Alive config 0 call.tokenHash now) :
      Checked initial earlier mid id call (.handle id now permit)
  | replied {checker : ℕ} {now : Instant} {permit : Bool}
      (decided : Decided config sha256Hex slack initial earlier checker call.process call.tokenHash)
      (answers : mid.sys.Answers checker id call) :
      Checked initial earlier mid id call (.handle checker now permit)

/-- The step of the run at which the call got its answer rests on a check. -/
def Grounded (initial : SessionWorld) (events : List SessionEvent) (id : ℕ) (call : AuthCall) :
    Prop :=
  ∃ earlier event later mid next, events = earlier ++ .auth event :: later ∧
    run config sha256Hex earlier initial = some mid ∧
    step config sha256Hex mid (.auth event) = some next ∧
    mid.sys.calls.find id ≠ some call ∧ next.sys.calls.find id = some call ∧
    Checked config sha256Hex slack initial earlier mid id call event

/-- What holds after a run. -/
structure Timely (initial : SessionWorld) (events : List SessionEvent) (world : SessionWorld) :
    Prop where
  sound : Sound world.sys
  rows : world.sys.db.InTime config slack world.clock
  described : Described world.sys
  logins : ∀ id login, world.logins.find id = some login →
    world.sys.db.Describes login.tokenHash login.session
  positive : ∀ id call, world.sys.calls.find id = some call → call.phase.positive = true →
    Decided config sha256Hex slack initial events id call.process call.tokenHash
  answered : ∀ id call result, world.sys.calls.find id = some call →
    call.phase = .answered result → result.outcome = .authenticated →
    Grounded config sha256Hex slack initial events id call

variable {config sha256Hex slack}

theorem Decided.append {initial : SessionWorld} {events : List SessionEvent}
    {checker process : ℕ} {tokenHash : String} {event : SessionEvent}
    (h : Decided config sha256Hex slack initial events checker process tokenHash)
    (hfree : ∀ other, event = .auth other → ¬ Concerns checker other) :
    Decided config sha256Hex slack initial (events ++ [event]) checker process tokenHash := by
  obtain ⟨earlier, decisive, later, world, now, rfl, hrun, hdecides, halive, hlater⟩ := h
  refine ⟨earlier, decisive, later ++ [event], world, now, by simp, hrun, hdecides, halive, ?_⟩
  intro other hother
  rcases List.mem_append.mp hother with hold | hnew
  · exact hlater other hold
  · exact hfree other (List.mem_singleton.mp hnew).symm

theorem Grounded.append {initial : SessionWorld} {events : List SessionEvent} {id : ℕ}
    {call : AuthCall} (event : SessionEvent)
    (h : Grounded config sha256Hex slack initial events id call) :
    Grounded config sha256Hex slack initial (events ++ [event]) id call := by
  obtain ⟨earlier, answering, later, mid, next, rfl, hrest⟩ := h
  exact ⟨earlier, answering, later ++ [event], mid, next, by simp, hrest⟩

/-- Every answer rests on a check of the run, within the timeouts. -/
theorem Grounded.decides {initial : SessionWorld} {events : List SessionEvent} {id : ℕ}
    {call : AuthCall} (h : Grounded config sha256Hex slack initial events id call) :
    ∃ earlier event later world checker now, events = earlier ++ .auth event :: later ∧
      run config sha256Hex earlier initial = some world ∧
      Decides config world.sys checker call.process call.tokenHash event now ∧
      world.sys.db.Alive config (slackOf slack event) call.tokenHash now := by
  obtain ⟨earlier, event, later, mid, next, rfl, hrun, -, -, -, hchecked⟩ := h
  cases hchecked with
  | @trusted now permit decides alive =>
      exact ⟨earlier, _, later, mid, id, now, rfl, hrun, decides, alive⟩
  | @replied checker now permit decided answers =>
      obtain ⟨first, decisive, rest, world, time, rfl, hworld, hdecides, halive, -⟩ := decided
      exact ⟨first, decisive, rest ++ .auth (.handle checker now permit) :: later, world, checker,
        time, by simp, hworld, hdecides, halive⟩

theorem run_append (events later : List SessionEvent) (world : SessionWorld) :
    run config sha256Hex (events ++ later) world =
      (run config sha256Hex events world).bind (run config sha256Hex later) := by
  unfold run
  rw [List.foldlM_append]
  rfl

theorem Fresh.timely {initial : SessionWorld} (h : Fresh initial) :
    Timely config sha256Hex slack initial [] initial := by
  have hsessions := Table.find_of_rows_nil h.sessions
  have hcache := Table.find_of_rows_nil h.cache
  have hcalls := Table.find_of_rows_nil h.calls
  have hpending := Table.find_of_rows_nil h.pending
  have hlogouts := Table.find_of_rows_nil h.logouts
  have hlogins := Table.find_of_rows_nil h.logins
  refine ⟨⟨⟨?_, ?_, ?_⟩, ⟨?_, ?_, ?_⟩, ⟨?_, ?_⟩⟩, ?_, ⟨?_, ?_, ?_⟩, ?_, ?_, ?_⟩
  all_goals simp [InTime, hsessions, hcache, hcalls, hpending, hlogouts, hlogins, h.writes]

section Step

variable {initial world next : SessionWorld} {events : List SessionEvent}

/-- A step of the calls and logouts. -/
theorem timely_auth {event : AuthEvent}
    (hrun : run config sha256Hex events initial = some world)
    (h : Timely config sha256Hex slack initial events world)
    (hadmits : world.admits (.auth event) = true)
    (hspread : (SessionEvent.auth event).spread ≤ slack) {sys : AuthSystem}
    (hstep : AuthSystem.step config sha256Hex world.sys event = some sys) :
    world.sys.db.Forward sys.db ∧ Timely config sha256Hex slack initial (events ++ [.auth event])
      { world with sys := sys, clock := event.last.getD world.clock } := by
  have heffect := step_effect hstep
  unfold admits at hadmits
  rw [Bool.and_eq_true] at hadmits
  obtain ⟨hforward, hrows⟩ := (rewrites_of_effect heffect).inTime h.rows
    (fun now hnow => by simpa [SessionEvent.last, hnow] using hadmits.1)
    (fun id now lag hserve => by
      subst hserve
      exact hadmits.2)
    (fun id now lag hserve => by
      subst hserve
      exact hspread)
  have hnext : step config sha256Hex world (.auth event) =
      some { world with sys := sys, clock := event.last.getD world.clock } := by
    unfold step
    rw [if_pos (by unfold admits; rw [Bool.and_eq_true]; exact hadmits)]
    simp only [act, hstep]
    rfl
  refine ⟨hforward, h.sound.step hstep, hrows,
    described_of_effect heffect h.sound h.described hforward, ?_, ?_, ?_⟩
  · exact fun id login hlogin => (h.logins id login hlogin).forward hforward
  · intro id call hcall hpositive
    rcases positive_of_effect heffect hcall hpositive with hold | ⟨now, hdecides⟩
    · refine (h.positive id call hold hpositive).append fun other hother hconcerns => ?_
      cases hother
      obtain ⟨phase, hmoved, hnegative⟩ :=
        moved_of_concerns h.sound hstep hold hpositive hconcerns
      rw [hmoved, Option.some.injEq] at hcall
      rw [← hcall, hnegative] at hpositive
      cases hpositive
    · -- the step itself is the decisive one
      exact ⟨events, event, [], world, now, rfl, hrun, hdecides,
        hdecides.alive h.sound h.rows h.described, by simp⟩
  · intro id call result hcall hphase hresult
    by_cases hold : world.sys.calls.find id = some call
    · exact (h.answered id call result hold hphase hresult).append _
    refine ⟨events, event, [], world, _, rfl, hrun, hnext, hold, hcall, ?_⟩
    rcases answered_of_effect heffect h.sound hcall hphase hresult with
      hkept | ⟨now, permit, rfl, hdecides⟩ |
        ⟨checker, leader, now, permit, rfl, hleader, hpositive, hprocess, htoken, hanswers⟩
    · exact absurd hkept hold
    · exact .trusted hdecides (hdecides.alive h.sound h.rows h.described)
    · have hdecided := h.positive checker leader hleader hpositive
      rw [hprocess, htoken] at hdecided
      exact .replied hdecided hanswers

theorem timely_create {id : ℕ} {sessionId userId tokenHash : String} {clock : CreateClock}
    {session : AuthSessionRecord} {db : AuthDb} {logins : Table ℕ Login}
    (h : Timely config sha256Hex slack initial events world)
    (hadmits : world.admits (.create id sessionId userId tokenHash clock) = true)
    (hspread : (SessionEvent.create id sessionId userId tokenHash clock).spread ≤ slack)
    (hcreate : UserSessionRepository.create config world.sys.db sessionId userId tokenHash clock =
      some (session, db)) (hinsert : world.logins.insert id ⟨tokenHash, session⟩ = some logins) :
    world.sys.db.Forward db ∧ Timely config sha256Hex slack initial
      (events ++ [.create id sessionId userId tokenHash clock])
      { sys := { world.sys with db := db }, logins := logins, clock := clock.absolute } := by
  simp only [admits, SessionEvent.last, Option.all_some, Bool.and_eq_true,
    decide_eq_true_eq] at hadmits
  obtain ⟨hforward, hrows⟩ := create_inTime h.rows hcreate hadmits.1 hadmits.2.1.2
    hadmits.2.1.1 hadmits.2.2 hspread
  have hdescribed := h.described
  refine ⟨hforward, h.sound.create hcreate, hrows, ⟨?_, ?_, ?_⟩, ?_, ?_, ?_⟩
  · exact fun token entry hentry => (hdescribed.cached token entry hentry).forward hforward
  · exact fun token record ttl hmem => (hdescribed.writes token record ttl hmem).forward hforward
  · exact fun j call record hcall hrecord =>
      (hdescribed.replies j call record hcall hrecord).forward hforward
  · intro j login hlogin
    rcases (Table.inserted_of_insert hinsert).cases hlogin with ⟨-, rfl⟩ | hold
    · obtain ⟨row, user, hrow, -, -, hinserted, rfl⟩ := create_inserted hcreate
      exact ⟨row, hinserted.find_self, by rw [hrow]; rfl, rfl, le_rfl⟩
    · exact (h.logins j login hold).forward hforward
  · exact fun j call hcall hpositive =>
      (h.positive j call hcall hpositive).append fun other hother => by cases hother
  · exact fun j call result hcall hphase hresult =>
      (h.answered j call result hcall hphase hresult).append _

/-- A login that goes on to write the cache, or does not. -/
theorem timely_login {event : SessionEvent} {clock : Instant} {logins : Table ℕ Login}
    {writes : List CacheWrite} (h : Timely config sha256Hex slack initial events world)
    (hevent : ∀ other, event ≠ .auth other)
    (hclock : world.clock ≤ clock)
    (hlogins : ∀ id login, logins.find id = some login → world.logins.find id = some login)
    (hwrites : ∀ tokenHash record ttl, .put tokenHash record ttl ∈ writes →
      world.sys.db.Describes tokenHash record) :
    Timely config sha256Hex slack initial (events ++ [event])
      { sys := world.sys.send writes, logins := logins, clock := clock } := by
  have hs := h.sound
  refine ⟨⟨⟨hs.unique, hs.logouts, hs.revoked⟩, ⟨hs.owned, hs.answered, hs.plain⟩,
    ⟨hs.leading, hs.members⟩⟩, fun id row hrow => (h.rows id row hrow).later hclock,
    ⟨h.described.cached, ?_, h.described.replies⟩, ?_, ?_, ?_⟩
  · intro tokenHash record ttl hmem
    rcases List.mem_append.mp hmem with hold | hnew
    · exact h.described.writes tokenHash record ttl hold
    · exact hwrites tokenHash record ttl hnew
  · exact fun id login hlogin => h.logins id login (hlogins id login hlogin)
  · exact fun id call hcall hpositive =>
      (h.positive id call hcall hpositive).append fun other hother => absurd hother (hevent other)
  · exact fun id call result hcall hphase hresult =>
      (h.answered id call result hcall hphase hresult).append _

theorem find_of_erase {logins : Table ℕ Login} {id j : ℕ} {login : Login}
    (h : (logins.erase id).find j = some login) : logins.find j = some login := by
  rw [Table.find_erase] at h
  split_ifs at h
  exact h

theorem timely_step {event : SessionEvent}
    (hrun : run config sha256Hex events initial = some world)
    (h : Timely config sha256Hex slack initial events world) (hspread : event.spread ≤ slack)
    (hstep : step config sha256Hex world event = some next) :
    world.sys.db.Forward next.sys.db ∧
      Timely config sha256Hex slack initial (events ++ [event]) next := by
  unfold step at hstep
  split_ifs at hstep with hadmits
  obtain ⟨acted, hact, rfl⟩ := Option.map_eq_some_iff.mp hstep
  have hclock : ∀ now, event.last = some now → world.clock ≤ now := by
    intro now hnow
    unfold admits at hadmits
    rw [Bool.and_eq_true] at hadmits
    simpa [hnow] using hadmits.1
  cases event with
  | create id sessionId userId tokenHash clock =>
      simp only [act, Option.bind_eq_bind, Option.bind_eq_some_iff] at hact
      obtain ⟨⟨session, db⟩, hcreate, logins, hinsert, hacted⟩ := hact
      cases hacted
      exact timely_create h hadmits hspread hcreate hinsert
  | handleCreated id now =>
      simp only [act, Option.bind_eq_bind, Option.bind_eq_some_iff] at hact
      obtain ⟨login, hlogin, hacted⟩ := hact
      cases hacted
      refine ⟨Forward.refl _,
        timely_login h (by simp) (hclock now rfl) (fun _ _ => find_of_erase) ?_⟩
      intro tokenHash record ttl hmem
      simp only [AuthSessionCache.put] at hmem
      split_ifs at hmem
      · cases hmem
      · cases List.mem_singleton.mp hmem
        exact h.logins id login hlogin
  | loseCreated id =>
      obtain ⟨login, -, rfl⟩ := Option.map_eq_some_iff.mp hact
      have hnext := @timely_login _ _ _ _ _ _ (.loseCreated id) world.clock _ [] h (by simp)
          le_rfl (fun _ _ => @find_of_erase _ id _ _) (by simp)
      have hsend : world.sys.send [] = world.sys := by
        unfold AuthSystem.send
        rw [List.append_nil]
      rw [hsend] at hnext
      exact ⟨Forward.refl _, hnext⟩
  | auth event =>
      obtain ⟨sys, hsys, rfl⟩ := Option.map_eq_some_iff.mp hact
      exact timely_auth hrun h hadmits hspread hsys

end Step

/-- A run keeps every row going forward, and stays timely. -/
theorem timely_run {initial world : SessionWorld} {earlier : List SessionEvent}
    (hrun : run config sha256Hex earlier initial = some world)
    (h : Timely config sha256Hex slack initial earlier world) (later : List SessionEvent)
    (hspread : ∀ event ∈ later, event.spread ≤ slack) {final : SessionWorld}
    (hlater : run config sha256Hex later world = some final) :
    world.sys.db.Forward final.sys.db ∧
      Timely config sha256Hex slack initial (earlier ++ later) final := by
  induction later generalizing earlier world with
  | nil =>
      cases hlater
      exact ⟨Forward.refl _, by rw [List.append_nil]; exact h⟩
  | cons event later ih =>
      unfold run at hlater
      rw [List.foldlM_cons] at hlater
      obtain ⟨next, hstep, hrest⟩ := Option.bind_eq_some_iff.mp hlater
      rw [List.forall_mem_cons] at hspread
      obtain ⟨hforward, hnext⟩ := timely_step hrun h hspread.1 hstep
      have hrunNext : run config sha256Hex (earlier ++ [event]) initial = some next := by
        rw [run_append, hrun, Option.bind_some]
        unfold run
        rw [List.foldlM_cons, hstep]
        rfl
      obtain ⟨hforward', hfinal⟩ := ih hrunNext hnext hspread.2 hrest
      rw [List.append_assoc] at hfinal
      exact ⟨hforward.trans hforward', hfinal⟩

end Runs

/-- The life of the sessions over a run. Every answer that authenticates rests on a check within
the timeouts of its session; a read-only call that leads no group leaves sessions and cache alone;
the times of a session only go forward, and the idle expiry stays within the absolute one. -/
structure Lifetime (config : AuthConfig) (sha256Hex : String → String) (slack : ℕ)
    (initial : SessionWorld) (events : List SessionEvent) (world : SessionWorld) : Prop where
  answers : ∀ id call result, world.sys.calls.find id = some call →
    call.phase = .answered result → result.outcome = .authenticated →
    Grounded config sha256Hex slack initial events id call
  reads : ∀ earlier event later mid next id call, events = earlier ++ .auth event :: later →
    run config sha256Hex earlier initial = some mid →
    step config sha256Hex mid (.auth event) = some next →
    mid.sys.calls.find id = some call → call.strict = false → Concerns id event →
    next.sys.db = mid.sys.db ∧ next.sys.cache = mid.sys.cache ∧ next.sys.writes = mid.sys.writes
  rows : ∀ earlier later mid, events = earlier ++ later →
    run config sha256Hex earlier initial = some mid →
    ∀ id row, mid.sys.db.sessions.find id = some row →
      row.idleExpiresAt ≤ row.absoluteExpiresAt ∧
        ∃ row', world.sys.db.sessions.find id = some row' ∧ row.Forward row'

/-- From a start without sessions, in every run whose statements read the clock within the
slack, whatever the interleaving. -/
theorem session_lifetime (config : AuthConfig) (sha256Hex : String → String) (slack : ℕ)
    (events : List SessionEvent) (initial world : SessionWorld) (hfresh : Fresh initial)
    (hspread : ∀ event ∈ events, event.spread ≤ slack)
    (hrun : run config sha256Hex events initial = some world) :
    Lifetime config sha256Hex slack initial events world := by
  have hstart : Timely config sha256Hex slack initial [] initial := hfresh.timely
  have htimelyRun : ∀ earlier later mid, events = earlier ++ later →
      run config sha256Hex earlier initial = some mid →
      Timely config sha256Hex slack initial earlier mid := by
    intro earlier later mid hevents hmid
    subst hevents
    have hsmall : ∀ event ∈ earlier, event.spread ≤ slack :=
      fun event hevent => hspread event (List.mem_append_left _ hevent)
    exact (timely_run rfl hstart earlier hsmall hmid).2
  refine ⟨(htimelyRun events [] world (List.append_nil _).symm hrun).answered, ?_, ?_⟩
  · intro earlier event later mid next id call hevents hmid hstep hcall hlone hconcerns
    have hsound := (htimelyRun earlier _ mid hevents hmid).sound
    unfold step at hstep
    split_ifs at hstep
    obtain ⟨acted, hact, rfl⟩ := Option.map_eq_some_iff.mp hstep
    obtain ⟨sys, hsys, rfl⟩ := Option.map_eq_some_iff.mp hact
    exact step_of_lone hsound hsys hcall hlone hconcerns
  · intro earlier later mid hevents hmid id row hrow
    have htimely := htimelyRun earlier later mid hevents hmid
    have hlater : run config sha256Hex later mid = some world := by
      rw [hevents, run_append, hmid, Option.bind_some] at hrun
      exact hrun
    have hsmall : ∀ event ∈ later, event.spread ≤ slack := fun event hevent =>
      hspread event (hevents ▸ List.mem_append_right _ hevent)
    exact ⟨(htimely.rows id row hrow).ordered, (timely_run hmid htimely later hsmall hlater).1 id
      row hrow⟩

/-- A customer who has not logged in yet. -/
def oneUser : SessionWorld where
  sys :=
    { db :=
        { sessions := Table.empty
          users := Table.empty.set "U-1" ⟨"buyer", "Buyer", "CUSTOMER", true⟩ }
      cache := Table.empty
      writes := []
      calls := Table.empty
      pending := Table.empty
      logouts := Table.empty }
  logins := Table.empty
  clock := 0

theorem oneUser_fresh : Fresh oneUser := ⟨rfl, rfl, rfl, rfl, rfl, rfl, rfl⟩

/-- A login whose write to the cache is lost, and two read-only calls: the first leads a group,
the second waits in it, and the lookup of the first answers both. -/
def loginAndGroup (now : Instant) : List SessionEvent :=
  [.create 0 "SES-1" "U-1" zeroTokenHash ⟨1000000000, 1000000001, 1000000002, 1000000003⟩,
    .loseCreated 0, .auth (.authenticateReadOnly 1 0 zeroToken),
    .auth (.authenticateReadOnly 2 0 zeroToken), .auth (.serve 1 now),
    .auth (.handle 1 now true), .auth (.serve 2 now), .auth (.handle 2 now true),
    .auth (.serve 1 now), .auth (.handle 1 now true), .auth (.serve 1 now),
    .auth (.handle 1 now true)]

theorem loginAndGroup_lifetime : ∃ world call result,
    run deployed (fun _ => zeroTokenHash) (loginAndGroup 1010000000) oneUser = some world ∧
    world.sys.calls.find 2 = some call ∧ call.leads = false ∧ call.phase = .answered result ∧
    result.outcome = .authenticated ∧
    Lifetime deployed (fun _ => zeroTokenHash) 3 oneUser (loginAndGroup 1010000000) world := by
  have hrun : (do
      let world ← run deployed (fun _ => zeroTokenHash) (loginAndGroup 1010000000) oneUser
      let call ← world.sys.calls.find 2
      let result ← answer call
      return (call.leads, result.outcome)) = some (false, .authenticated) := by
    decide +kernel
  simp only [Option.bind_eq_bind, Option.bind_eq_some_iff, Option.pure_def,
    Option.some.injEq, Prod.mk.injEq] at hrun
  obtain ⟨world, hworld, call, hcall, result, hanswer, hleads, houtcome⟩ := hrun
  refine ⟨world, call, result, hworld, hcall, hleads, answer_eq_some hanswer, houtcome, ?_⟩
  exact session_lifetime deployed (fun _ => zeroTokenHash) 3 (loginAndGroup 1010000000) oneUser
    world oneUser_fresh (by decide) hworld

/-- A login, the write to the cache lost, and a call that looks the session up. -/
def loginAndCall (now : Instant) : List SessionEvent :=
  [.create 0 "SES-1" "U-1" zeroTokenHash ⟨1000000000, 1000000001, 1000000002, 1000000003⟩,
    .loseCreated 0, .auth (.authenticate 1 0 zeroToken), .auth (.serve 1 now),
    .auth (.handle 1 now true), .auth (.serve 1 now), .auth (.handle 1 now true)]

/-- Timeouts of ten seconds, both. -/
def tenSeconds : AuthConfig := ⟨10, 10, 5, 300⟩

/-- The expiries are computed from later readings than the creation time: a microsecond after the
timeouts the session is still found. -/
theorem session_outlives_timeout :
    ¬ ∀ (config : AuthConfig) (sha256Hex : String → String) (events : List SessionEvent)
      (initial world : SessionWorld), Fresh initial →
      run config sha256Hex events initial = some world →
      Lifetime config sha256Hex 0 initial events world := by
  intro hclaim
  have hrun : (do
      let world ← run tenSeconds (fun _ => zeroTokenHash) (loginAndCall 1010000001) oneUser
      let call ← world.sys.calls.find 1
      let result ← answer call
      return (result.outcome, world.sys.db.sessions.rows.map fun row => row.2.createdAt)) =
        some (.authenticated, [1000000000]) := by
    decide +kernel
  simp only [Option.bind_eq_bind, Option.bind_eq_some_iff, Option.pure_def, Option.some.injEq,
    Prod.mk.injEq] at hrun
  obtain ⟨world, hworld, call, hcall, result, hanswer, houtcome, hcreation⟩ := hrun
  have hlife := hclaim tenSeconds (fun _ => zeroTokenHash) (loginAndCall 1010000001) oneUser world
    oneUser_fresh hworld
  have hgrounded := hlife.answers 1 call result hcall (answer_eq_some hanswer) houtcome
  obtain ⟨earlier, event, later, mid, checker, now, hevents, hmid, hdecides, id, row, hrow, -,
    hnow, -⟩ := hgrounded.decides
  obtain ⟨-, row', hrow', hforward⟩ := hlife.rows earlier _ mid hevents hmid id row hrow
  have hcreated : row'.createdAt ∈ world.sys.db.sessions.rows.map fun row => row.2.createdAt :=
    List.mem_map_of_mem ((world.sys.db.sessions.find_eq_some id row').mp hrow')
  rw [hcreation, List.mem_singleton, hforward.createdAt] at hcreated
  have htime : now = 1010000001 := by
    have hmem : SessionEvent.auth event ∈ loginAndCall 1010000001 := by
      rw [hevents]
      exact List.mem_append_right _ List.mem_cons_self
    cases hdecides <;> simp [loginAndCall] at hmem <;> exact hmem.2.1
  have hslack : slackOf 0 event = 0 := by cases event <;> rfl
  rw [hslack, hcreated, htime] at hnow
  exact absurd hnow (by decide)

end SessionWorld
end Ticketing
