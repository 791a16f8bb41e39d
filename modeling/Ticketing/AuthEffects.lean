import Ticketing.AuthSessions

/-!
# What a step of the authentication can do

Every event is one of a few effects on the calls, the groups and the stores.
From these follow the facts that hold in every state: a lookup carries a session
of its own token, a leading call belongs to its group, and the session of a
completed logout is revoked.
-/

namespace Ticketing

open Relational
open AuthSystem AuthSessionCache

namespace AuthPhase

/-- The strict lookup has begun. -/
def inFlow : AuthPhase → Bool
  | validating _ | validated _ _ | loading | loaded _ | touching _ | touched _ => true
  | _ => false

/-- A reply that found the session is on its way. -/
def positive : AuthPhase → Bool
  | validated _ (some _) | loaded (some _) | touched (some _) => true
  | _ => false

/-- The session a lookup has found. -/
def carried : AuthPhase → Option String
  | touching sessionId => some sessionId
  | validated record (some _) | loaded (some record) | touched (some record) =>
      some record.sessionId
  | _ => none

def finished : AuthPhase → Bool
  | answered _ => true
  | _ => false

/-- The record a call has been given, by the cache or by the database. -/
def record : AuthPhase → Option AuthSessionRecord
  | read (.hit record) | validating record | validated record _ | loaded (some record)
  | touched (some record) => some record
  | _ => none

theorem inFlow_of_positive {phase : AuthPhase} (h : phase.positive = true) :
    phase.inFlow = true := by
  unfold positive at h
  split at h <;> first | rfl | cases h

end AuthPhase

/-- The revocation has committed. -/
def LogoutPhase.settled : LogoutPhase → Bool
  | revoked _ | completed _ | deleted _ => true
  | _ => false

/-- The call is a strict one or leads a group. -/
def AuthCall.strict (call : AuthCall) : Bool := !call.readOnly || call.leads

theorem AuthCall.readOnly_of_lone {call : AuthCall} (h : call.strict = false) :
    call.readOnly = true := by
  unfold AuthCall.strict at h
  cases hr : call.readOnly with
  | true => rfl
  | false =>
      rw [hr] at h
      cases h

theorem AuthCall.leads_of_lone {call : AuthCall} (h : call.strict = false) :
    call.leads = false := by
  unfold AuthCall.strict at h
  cases hl : call.leads with
  | false => rfl
  | true =>
      rw [hl, Bool.or_true] at h
      cases h

namespace AuthDb

/-- The session exists and has the token. -/
def Owned (db : AuthDb) (sessionId tokenHash : String) : Prop :=
  ∃ row, db.sessions.find sessionId = some row ∧ row.tokenHash = tokenHash

/-- Sessions stay, with their tokens and their revocations. -/
structure Kept (db db' : AuthDb) : Prop where
  after : ∀ id row, db.sessions.find id = some row → ∃ row', db'.sessions.find id = some row' ∧
    row'.tokenHash = row.tokenHash ∧ (row.revokedAt.isSome = true → row'.revokedAt.isSome = true)
  before : ∀ id row', db'.sessions.find id = some row' → ∃ row, db.sessions.find id = some row

theorem Kept.refl (db : AuthDb) : Kept db db where
  after := fun _ row h => ⟨row, h, rfl, id⟩
  before := fun _ row h => ⟨row, h⟩

theorem Kept.cases {db db' : AuthDb} (h : Kept db db') {id : String} {row' : UserSessionRow}
    (hrow' : db'.sessions.find id = some row') : ∃ row, db.sessions.find id = some row ∧
      row'.tokenHash = row.tokenHash ∧
      (row.revokedAt.isSome = true → row'.revokedAt.isSome = true) := by
  obtain ⟨row, hrow⟩ := h.before id row' hrow'
  obtain ⟨row'', hrow'', htoken, hrevoked⟩ := h.after id row hrow
  rw [hrow'] at hrow''
  cases hrow''
  exact ⟨row, hrow, htoken, hrevoked⟩

theorem Owned.kept {db db' : AuthDb} {sessionId tokenHash : String} (h : db.Owned sessionId tokenHash)
    (hkept : Kept db db') : db'.Owned sessionId tokenHash := by
  obtain ⟨row, hrow, htoken⟩ := h
  obtain ⟨row', hrow', htoken', -⟩ := hkept.after sessionId row hrow
  exact ⟨row', hrow', htoken'.trans htoken⟩

theorem kept_of_updateRow (db : AuthDb) (id : String) (guard : UserSessionRow → Bool)
    (f : UserSessionRow → UserSessionRow) (htoken : ∀ row, (f row).tokenHash = row.tokenHash)
    (hrevoked : ∀ row, row.revokedAt.isSome = true → (f row).revokedAt.isSome = true) :
    Kept db { db with sessions := (db.sessions.updateRow id guard f).2 } where
  after := by
    intro j row hrow
    show ∃ row', (db.sessions.updateRow id guard f).2.find j = some row' ∧ _
    rw [Table.find_updateRow, hrow, Option.map_some]
    by_cases hj : j = id ∧ guard row = true
    · rw [if_pos hj]
      exact ⟨_, rfl, htoken row, hrevoked row⟩
    · rw [if_neg hj]
      exact ⟨_, rfl, rfl, fun h => h⟩
  before := by
    intro j row' hrow'
    have hfound : ((db.sessions.find j).map fun row =>
        if j = id ∧ guard row = true then f row else row) = some row' := by
      rw [← Table.find_updateRow]
      exact hrow'
    obtain ⟨row, hrow, -⟩ := Option.map_eq_some_iff.mp hfound
    exact ⟨row, hrow⟩

end AuthDb

namespace UserSessionRepository

open AuthDb

theorem touch_kept (db : AuthDb) (sessionId : String) (idle : ℕ) (now : Instant) (lag : ℕ) :
    Kept db (touch db sessionId idle now lag).2 := by
  unfold touch
  split
  · exact Kept.refl db
  · exact kept_of_updateRow db sessionId _ _ (fun _ => rfl) fun _ h => h

theorem revoke_kept (db : AuthDb) (sessionId : String) (now : Instant) :
    Kept db (revoke db sessionId now).2 := by
  apply kept_of_updateRow
  · exact fun _ => rfl
  · intro row hrow
    cases hr : row.revokedAt with
    | none =>
        rw [hr] at hrow
        cases hrow
    | some revokedAt => rfl

theorem revoke_revokes (db : AuthDb) (sessionId : String) (now : Instant) (row : UserSessionRow)
    (h : (revoke db sessionId now).2.sessions.find sessionId = some row) :
    row.revokedAt.isSome = true := by
  simp only [revoke, Table.find_updateRow, true_and, if_true] at h
  obtain ⟨old, -, rfl⟩ := Option.map_eq_some_iff.mp h
  cases old.revokedAt <;> rfl

theorem findActive_owned {db : AuthDb} {tokenHash : String} {now : Instant}
    {record : AuthSessionRecord} (h : findActiveByTokenHash db tokenHash now = some record) :
    ∃ row, db.sessions.find record.sessionId = some row ∧ row.tokenHash = tokenHash ∧
      row.revokedAt = none := by
  simp only [findActiveByTokenHash, Option.bind_eq_bind, Option.bind_eq_some_iff, Option.pure_def,
    Option.some.injEq] at h
  obtain ⟨session, hsession, user, -, rfl⟩ := h
  obtain ⟨hfound, hguard⟩ := (db.sessions.mem_select _ session.1 session.2).mp
    (List.mem_of_mem_head? hsession)
  simp only [unexpired, Bool.and_eq_true, decide_eq_true_eq, Option.isNone_iff_eq_none] at hguard
  exact ⟨session.2, hfound, hguard.1, hguard.2.1.1⟩

theorem isActive_owned {db : AuthDb} {sessionId tokenHash role : String} {now : Instant}
    (h : isActive db sessionId tokenHash now = some role) :
    ∃ row, db.sessions.find sessionId = some row ∧ row.tokenHash = tokenHash ∧
      row.revokedAt = none := by
  simp only [isActive, Option.bind_eq_bind, Option.bind_eq_some_iff] at h
  obtain ⟨row, hrow, -⟩ := h
  obtain ⟨hfound, hguard⟩ := Option.filter_eq_some_iff.mp hrow
  simp only [unexpired, Bool.and_eq_true, decide_eq_true_eq, Option.isNone_iff_eq_none] at hguard
  exact ⟨row, hfound, hguard.1, hguard.2.1.1⟩

theorem touch_owned {db : AuthDb} {sessionId : String} {idle : ℕ} {now : Instant} {lag : ℕ}
    {record : AuthSessionRecord} (h : (touch db sessionId idle now lag).1 = some record) :
    record.sessionId = sessionId ∧
      ∃ row, db.sessions.find sessionId = some row ∧ row.revokedAt = none := by
  unfold touch at h
  split at h
  · cases h
  · rename_i row hrow
    obtain ⟨user, -, rfl⟩ := Option.map_eq_some_iff.mp h
    obtain ⟨hfound, hguard⟩ := Option.filter_eq_some_iff.mp hrow
    simp only [unexpired, Bool.and_eq_true, Option.isNone_iff_eq_none] at hguard
    exact ⟨rfl, row, hfound, hguard.1.1⟩

end UserSessionRepository

namespace AuthSystem

open AuthDb

/-- A call goes on with its lookup. -/
inductive Progress (config : AuthConfig) (sys : AuthSystem) (event : AuthEvent) (id : ℕ)
    (call : AuthCall) : AuthPhase → AuthPhase → AuthDb → Prop where
  | read (now : Instant) : Progress config sys event id call .reading
      (.read (AuthSessionCache.get sys.cache call.tokenHash now)) sys.db
  | unread {phase : AuthPhase} (reading : phase = .reading ∨ ∃ result, phase = .read result) :
      Progress config sys event id call phase (.read .unavailable) sys.db
  | validating {record : AuthSessionRecord} (strict : call.strict = true) :
      Progress config sys event id call (.read (.hit record)) (.validating record) sys.db
  | loading {result : SessionCacheResult} (strict : call.strict = true) :
      Progress config sys event id call (.read result) .loading sys.db
  | validated {record : AuthSessionRecord} (now : Instant) (lag : ℕ)
      (served : event = .serve id now lag) :
      Progress config sys event id call (.validating record) (.validated record
        (UserSessionRepository.isActive sys.db record.sessionId call.tokenHash now)) sys.db
  | loaded (now : Instant) (lag : ℕ) (served : event = .serve id now lag) :
      Progress config sys event id call .loading
        (.loaded (UserSessionRepository.findActiveByTokenHash sys.db call.tokenHash now)) sys.db
  | touched {sessionId : String} (now : Instant) (lag : ℕ) (served : event = .serve id now lag) :
      Progress config sys event id call (.touching sessionId)
        (.touched
          (UserSessionRepository.touch sys.db sessionId config.idleTimeoutSeconds now lag).1)
        (UserSessionRepository.touch sys.db sessionId config.idleTimeoutSeconds now lag).2
  | touching {phase : AuthPhase} {sessionId : String} (positive : phase.positive = true)
      (carried : phase.carried = some sessionId) :
      Progress config sys event id call phase (.touching sessionId) sys.db

/-- Only a reply that found the session lets a lookup answer with it. -/
def Earned (phase : AuthPhase) (result : AuthenticateResult) : Prop :=
  result.outcome = .authenticated → phase.positive = true ∧
    ∃ record, result.session = some record ∧ phase.carried = some record.sessionId

/-- Only the record of the call is written to the cache, under its token. -/
def Sends (call : AuthCall) (writes : List CacheWrite) : Prop :=
  ∀ tokenHash record ttl, .put tokenHash record ttl ∈ writes → tokenHash = call.tokenHash ∧
    ∃ role, call.phase.record.map (fun found => { found with role := role }) = some record

theorem sends_nil (call : AuthCall) : Sends call [] := by
  intro _ _ _ h
  cases h

theorem sends_put {config : AuthConfig} {call : AuthCall} {record found : AuthSessionRecord}
    {role : String} {now : Instant} (hphase : call.phase.record = some found)
    (hrecord : record = { found with role := role }) :
    Sends call (AuthSessionCache.put config call.tokenHash record now) := by
  intro tokenHash sent ttl h
  simp only [AuthSessionCache.put] at h
  split_ifs at h
  · cases h
  · cases List.mem_singleton.mp h
    exact ⟨rfl, role, by rw [hphase, hrecord]; rfl⟩

/-- What a step can do. -/
inductive Effect (config : AuthConfig) (sys : AuthSystem) (event : AuthEvent) :
    AuthSystem → Prop where
  | started {id : ℕ} {call : AuthCall} {calls : Table ℕ AuthCall}
      (inserted : sys.calls.Inserted id call calls) (leads : call.leads = false)
      (phase : call.phase = .reading ∨ call.phase = .answered { outcome := .unauthenticated }) :
      Effect config sys event { sys with calls := calls }
  | progressed {id : ℕ} {call : AuthCall} {phase : AuthPhase} {db : AuthDb}
      (found : sys.calls.find id = some call)
      (progress : Progress config sys event id call call.phase phase db) :
      Effect config sys event { sys.setCall id phase with db := db }
  | completed {id : ℕ} {call : AuthCall} {result : AuthenticateResult} {writes : List CacheWrite}
      (found : sys.calls.find id = some call) (inFlow : call.phase.inFlow = true)
      (earned : Earned call.phase result) (sends : Sends call writes)
      (handled : result.outcome = .authenticated → ∃ now permit, event = .handle id now permit) :
      Effect config sys event ((sys.send writes).complete id call result)
  | trusted {id : ℕ} {call : AuthCall} {record : AuthSessionRecord}
      (found : sys.calls.find id = some call) (lone : call.strict = false)
      (phase : call.phase = .read (.hit record))
      (fresh : ∃ now permit, event = .handle id now permit ∧ trusted config record now = true) :
      Effect config sys event (sys.setCall id
        (.answered { outcome := .authenticated, session := some record }))
  | refused {id : ℕ} {call : AuthCall} {result : AuthenticateResult}
      (found : sys.calls.find id = some call) (lone : call.strict = false)
      (outcome : result.outcome ≠ .authenticated) :
      Effect config sys event (sys.setCall id (.answered result))
  | joined {id : ℕ} {call : AuthCall} {group : List ℕ} (found : sys.calls.find id = some call)
      (lone : call.strict = false) (phase : ∃ result, call.phase = .read result)
      (handled : ∃ now permit, event = .handle id now permit)
      (pending : sys.pending.find (call.process, call.tokenHash) = some group) :
      Effect config sys event { sys.setCall id .waiting with
        pending := sys.pending.set (call.process, call.tokenHash) (group ++ [id]) }
  | led {id : ℕ} {call : AuthCall} (found : sys.calls.find id = some call)
      (lone : call.strict = false)
      (pending : sys.pending.find (call.process, call.tokenHash) = none) :
      Effect config sys event { sys with
        pending := sys.pending.set (call.process, call.tokenHash) [id]
        calls := (sys.calls.updateRow id (fun _ => true)
          fun call => { call with leads := true, phase := .reading }).2 }
  | wrote {index : ℕ} {command : CacheWrite} (now : Instant)
      (sent : sys.writes[index]? = some command) (written : event = .write index now) :
      Effect config sys event { sys with
        writes := sys.writes.eraseIdx index
        cache := AuthSessionCache.apply sys.cache now command }
  | lost {index : ℕ} : Effect config sys event { sys with writes := sys.writes.eraseIdx index }
  | requested {id callId : ℕ} {call : AuthCall} {record : AuthSessionRecord}
      {logouts : Table ℕ Logout} (found : sys.calls.find callId = some call)
      (strict : call.readOnly = false)
      (phase : call.phase = .answered { outcome := .authenticated, session := some record })
      (inserted : sys.logouts.Inserted id ⟨record.sessionId, call.tokenHash, .revoking⟩ logouts) :
      Effect config sys event { sys with logouts := logouts }
  | revoked {id : ℕ} {logout : Logout} (now : Instant) (found : sys.logouts.find id = some logout) :
      Effect config sys event { sys.setLogout id
        (.revoked (UserSessionRepository.revoke sys.db logout.sessionId now).1) with
        db := (UserSessionRepository.revoke sys.db logout.sessionId now).2 }
  | failed {id : ℕ} : Effect config sys event (sys.setLogout id .failed)
  | handled {id : ℕ} {logout : Logout} {row : Bool} (found : sys.logouts.find id = some logout)
      (phase : logout.phase = .revoked row) :
      Effect config sys event (sys.setLogout id (.completed row))
  | deleted {id : ℕ} {logout : Logout} {row : Bool} (found : sys.logouts.find id = some logout)
      (phase : logout.phase = .completed row) :
      Effect config sys event { sys.setLogout id (.deleted row) with
        cache := sys.cache.erase logout.tokenHash }

section Steps

variable {config : AuthConfig} {sha256Hex : String → String} {sys sys' : AuthSystem}
  {event : AuthEvent}

theorem serve_effect {id : ℕ} {now : Instant} {lag : ℕ}
    (h : sys.serve config id now lag = some sys') :
    Effect config sys (.serve id now lag) sys' := by
  unfold serve at h
  obtain ⟨call, hcall, h⟩ := Option.bind_eq_some_iff.mp h
  split at h
  · rename_i hphase
    cases h
    refine Effect.progressed hcall ?_
    rw [hphase]
    exact Progress.read now
  · rename_i record hphase
    cases h
    refine Effect.progressed hcall ?_
    rw [hphase]
    exact Progress.validated now lag rfl
  · rename_i hphase
    cases h
    refine Effect.progressed hcall ?_
    rw [hphase]
    exact Progress.loaded now lag rfl
  · rename_i sessionId hphase
    cases h
    refine Effect.progressed hcall ?_
    rw [hphase]
    exact Progress.touched now lag rfl
  · cases h

theorem earned_of_ne {phase : AuthPhase} {result : AuthenticateResult}
    (h : result.outcome ≠ .authenticated) : Earned phase result :=
  fun hauthenticated => absurd hauthenticated h

theorem complete_effect {id : ℕ} {call : AuthCall} {result : AuthenticateResult}
    (hcall : sys.calls.find id = some call) (hflow : call.phase.inFlow = true)
    (hresult : result.outcome ≠ .authenticated) :
    Effect config sys event (sys.complete id call result) := by
  have hsend : sys.send [] = sys := by
    unfold send
    rw [List.append_nil]
  have heffect : Effect config sys event ((sys.send []).complete id call result) :=
    Effect.completed hcall hflow (earned_of_ne hresult) (sends_nil call)
      fun hauthenticated => absurd hauthenticated hresult
  rw [hsend] at heffect
  exact heffect

theorem failure_effect {id : ℕ} (h : sys.failure id = some sys') : Effect config sys event sys' := by
  unfold failure at h
  obtain ⟨call, hcall, h⟩ := Option.bind_eq_some_iff.mp h
  split at h
  · rename_i hphase
    cases h
    exact Effect.progressed hcall (Progress.unread (Or.inl hphase))
  · rename_i hphase
    cases h
    exact Effect.progressed hcall (Progress.unread (Or.inr ⟨_, hphase⟩))
  · cases h
  · cases h
  · rename_i hreading hread hwaiting hanswered
    cases h
    have hflow : call.phase.inFlow = true := by
      cases hphase : call.phase with
      | reading => exact absurd hphase hreading
      | read result => exact absurd hphase (hread result)
      | waiting => exact absurd hphase hwaiting
      | answered result => exact absurd hphase (hanswered result)
      | _ => rfl
    exact complete_effect hcall hflow (by simp)

theorem coalesce_effect {id : ℕ} {call : AuthCall} {permit : Bool}
    (hcall : sys.calls.find id = some call) (hlone : call.strict = false)
    (hphase : ∃ result, call.phase = .read result)
    (hevent : ∃ now permit, event = .handle id now permit)
    (h : sys.coalesce id call permit = some sys') : Effect config sys event sys' := by
  unfold coalesce at h
  split at h
  · rename_i group hgroup
    split_ifs at h
    · cases h
      exact Effect.refused hcall hlone (by simp)
    · cases h
      exact Effect.joined hcall hlone hphase hevent hgroup
  · rename_i hgroup
    split_ifs at h
    · cases h
      exact Effect.refused hcall hlone (by simp)
    · cases h
      exact Effect.refused hcall hlone (by simp)
    · cases h
      exact Effect.led hcall hlone hgroup

theorem finishRecord_effect {id : ℕ} {call : AuthCall} {record : AuthSessionRecord}
    {now : Instant} {found : AuthSessionRecord} {role : String}
    (hcall : sys.calls.find id = some call) (hpositive : call.phase.positive = true)
    (hcarried : call.phase.carried = some record.sessionId)
    (hphase : call.phase.record = some found) (hrecord : record = { found with role := role })
    (hevent : ∃ now permit, event = .handle id now permit) :
    Effect config sys event (finishRecord config sys id call record now) := by
  unfold finishRecord
  split_ifs
  · refine Effect.completed hcall (AuthPhase.inFlow_of_positive hpositive) ?_
      (sends_put hphase hrecord) (fun _ => hevent)
    exact fun _ => ⟨hpositive, record, rfl, hcarried⟩
  · exact Effect.progressed hcall (Progress.touching hpositive hcarried)

theorem handle_effect {id : ℕ} {now : Instant} {permit : Bool}
    (h : sys.handle config id now permit = some sys') :
    Effect config sys (.handle id now permit) sys' := by
  unfold handle at h
  obtain ⟨call, hcall, h⟩ := Option.bind_eq_some_iff.mp h
  split at h
  · rename_i result hphase
    split_ifs at h with hmode
    · have hlone : call.strict = false := by
        simpa [AuthCall.strict] using hmode
      split at h
      · split_ifs at h
        · cases h
          exact Effect.trusted hcall hlone hphase ⟨now, permit, rfl, ‹_›⟩
        · exact coalesce_effect hcall hlone ⟨_, hphase⟩ ⟨now, permit, rfl⟩ h
      · exact coalesce_effect hcall hlone ⟨_, hphase⟩ ⟨now, permit, rfl⟩ h
    · have hstrict : call.strict = true := by
        unfold AuthCall.strict
        revert hmode
        cases call.readOnly <;> cases call.leads <;> simp
      split at h
      · cases h
        refine Effect.progressed hcall ?_
        rw [hphase]
        exact Progress.validating hstrict
      · cases h
        refine Effect.progressed hcall ?_
        rw [hphase]
        exact Progress.loading hstrict
  · rename_i record role hphase
    split at h
    · cases h
      refine Effect.completed hcall ?_ (earned_of_ne (by simp)) ?_ (by simp)
      · rw [hphase]
        rfl
      · intro _ _ _ hput
        simp at hput
    · rename_i role
      cases h
      apply @finishRecord_effect _ _ _ _ _ _ _ record role hcall
      · rw [hphase]
        rfl
      · rw [hphase]
        rfl
      · rw [hphase]
        rfl
      · rfl
      · exact ⟨now, permit, rfl⟩
  · rename_i record hphase
    split at h
    · cases h
      refine complete_effect hcall ?_ (by simp)
      rw [hphase]
      rfl
    · rename_i record
      cases h
      apply @finishRecord_effect _ _ _ _ _ _ _ record record.role hcall
      · rw [hphase]
        rfl
      · rw [hphase]
        rfl
      · rw [hphase]
        rfl
      · rfl
      · exact ⟨now, permit, rfl⟩
  · rename_i record hphase
    split at h
    · cases h
      refine complete_effect hcall ?_ (by simp)
      rw [hphase]
      rfl
    · rename_i record
      cases h
      refine Effect.completed hcall ?_ ?_ (@sends_put _ _ _ record record.role _ ?_ rfl)
        (fun _ => ⟨now, permit, rfl⟩)
      · rw [hphase]
        rfl
      · intro _
        rw [hphase]
        exact ⟨rfl, _, rfl, rfl⟩
      · rw [hphase]
        rfl
  · cases h

theorem step_effect (h : step config sha256Hex sys event = some sys') :
    Effect config sys event sys' := by
  have hstart : ∀ {id process tokenHash readOnly refused},
      sys.start id process tokenHash readOnly refused = some sys' → Effect config sys event sys' := by
    intro id process tokenHash readOnly refused h
    obtain ⟨calls, hinsert, rfl⟩ := Option.map_eq_some_iff.mp h
    refine Effect.started (Table.inserted_of_insert hinsert) rfl ?_
    cases refused
    · exact Or.inl rfl
    · exact Or.inr rfl
  cases event with
  | authenticate id process rawToken => exact hstart h
  | authenticateReadOnly id process rawToken => exact hstart h
  | serve id now lag => exact serve_effect h
  | failure id => exact failure_effect h
  | handle id now permit => exact handle_effect h
  | write index now =>
      obtain ⟨command, hcommand, rfl⟩ := Option.map_eq_some_iff.mp h
      exact Effect.wrote now hcommand rfl
  | lose index =>
      have hlose : (if index < sys.writes.length then
          some { sys with writes := sys.writes.eraseIdx index } else none) = some sys' := h
      split_ifs at hlose
      cases hlose
      exact Effect.lost
  | logout id callId =>
      unfold step logout at h
      obtain ⟨call, hcall, h⟩ := Option.bind_eq_some_iff.mp h
      split at h
      · rename_i record hphase
        split_ifs at h with hmode
        obtain ⟨logouts, hinsert, rfl⟩ := Option.map_eq_some_iff.mp h
        exact Effect.requested hcall (by simpa using hmode) hphase
          (Table.inserted_of_insert hinsert)
      · cases h
  | revoke id now =>
      unfold step revoke at h
      obtain ⟨logout, hlogout, h⟩ := Option.bind_eq_some_iff.mp h
      split at h
      · cases h
        exact Effect.revoked now hlogout
      · cases h
  | revokeFailure id =>
      unfold step revokeFailure at h
      obtain ⟨logout, hlogout, h⟩ := Option.bind_eq_some_iff.mp h
      split at h
      · cases h
        exact Effect.failed
      · cases h
        exact Effect.failed
      · cases h
  | handleRevoked id =>
      unfold step handleRevoked at h
      obtain ⟨logout, hlogout, h⟩ := Option.bind_eq_some_iff.mp h
      split at h
      · cases h
        exact Effect.handled hlogout ‹_›
      · cases h
  | delete id =>
      unfold step delete at h
      obtain ⟨logout, hlogout, h⟩ := Option.bind_eq_some_iff.mp h
      split at h
      · cases h
        exact Effect.deleted hlogout ‹_›
      · cases h

end Steps

@[simp] theorem send_calls (sys : AuthSystem) (writes : List CacheWrite) :
    (sys.send writes).calls = sys.calls := rfl

@[simp] theorem send_pending (sys : AuthSystem) (writes : List CacheWrite) :
    (sys.send writes).pending = sys.pending := rfl

theorem find_setCall (sys : AuthSystem) {id : ℕ} {call : AuthCall} (phase : AuthPhase)
    (h : sys.calls.find id = some call) (j : ℕ) :
    (sys.setCall id phase).calls.find j =
      if j = id then some { call with phase := phase } else sys.calls.find j := by
  unfold setCall
  rw [Table.find_updateRow]
  by_cases hj : j = id
  · subst j
    simp [h]
  · rw [if_neg hj]
    cases sys.calls.find j <;> simp [hj]

theorem find_setLogout {sys : AuthSystem} {id j : ℕ} {phase : LogoutPhase} {logout : Logout}
    (h : (sys.setLogout id phase).logouts.find j = some logout) :
    ∃ old, sys.logouts.find j = some old ∧ logout.sessionId = old.sessionId ∧
      logout.tokenHash = old.tokenHash ∧ (logout.phase = old.phase ∨
        (j = id ∧ logout.phase = phase)) := by
  unfold setLogout at h
  rw [Table.find_updateRow] at h
  obtain ⟨old, hold, rfl⟩ := Option.map_eq_some_iff.mp h
  refine ⟨old, hold, ?_⟩
  by_cases hj : j = id
  · simp [hj]
  · simp [hj]

/-- The calls after a completion: those answered by it, and the others as before. -/
theorem find_complete {sys : AuthSystem} {id : ℕ} {call : AuthCall} {result : AuthenticateResult}
    (h : sys.calls.find id = some call) {j : ℕ} {other : AuthCall}
    (hother : (sys.complete id call result).calls.find j = some other) :
    sys.calls.find j = some other ∧ (call.leads = true →
        j ∉ (sys.pending.find (call.process, call.tokenHash)).getD []) ∧
        (call.leads = false → j ≠ id) ∨
      ∃ old, sys.calls.find j = some old ∧ other = { old with phase := .answered result } ∧
        ((call.leads = true ∧ ∃ group,
          sys.pending.find (call.process, call.tokenHash) = some group ∧ j ∈ group) ∨
        (call.leads = false ∧ j = id)) := by
  unfold complete at hother
  by_cases hleads : call.leads = true
  · rw [if_pos hleads] at hother
    rw [Table.find_update] at hother
    obtain ⟨old, hold, hcase⟩ := Option.map_eq_some_iff.mp hother
    by_cases hj : j ∈ (sys.pending.find (call.process, call.tokenHash)).getD []
    · rw [if_pos (decide_eq_true hj)] at hcase
      refine Or.inr ⟨old, hold, hcase.symm, Or.inl ⟨hleads, ?_⟩⟩
      cases hgroup : sys.pending.find (call.process, call.tokenHash) with
      | none =>
          rw [hgroup] at hj
          cases hj
      | some group =>
          rw [hgroup] at hj
          exact ⟨group, rfl, hj⟩
    · rw [if_neg (by simpa using hj)] at hcase
      subst hcase
      exact Or.inl ⟨hold, fun _ => hj, fun hno => by rw [hleads] at hno; cases hno⟩
  · rw [if_neg hleads, find_setCall sys _ h] at hother
    have hno : call.leads = false := by simpa using hleads
    split_ifs at hother with hj
    · cases hother
      subst hj
      exact Or.inr ⟨call, h, rfl, Or.inr ⟨hno, rfl⟩⟩
    · exact Or.inl ⟨hother, fun hyes => absurd hyes hleads, fun _ => hj⟩

/-- Sessions and logouts agree. -/
structure Rows (sys : AuthSystem) : Prop where
  unique : ∀ sid sid' row row', sys.db.sessions.find sid = some row →
    sys.db.sessions.find sid' = some row' → row.tokenHash = row'.tokenHash → sid = sid'
  logouts : ∀ id logout, sys.logouts.find id = some logout →
    sys.db.Owned logout.sessionId logout.tokenHash
  revoked : ∀ id logout row, sys.logouts.find id = some logout →
    logout.phase.settled = true → sys.db.sessions.find logout.sessionId = some row →
    row.revokedAt.isSome = true

/-- A lookup carries a session of its own token, and only strict lookups run. -/
structure Lookups (sys : AuthSystem) : Prop where
  owned : ∀ id call sid, sys.calls.find id = some call → call.phase.carried = some sid →
    sys.db.Owned sid call.tokenHash
  answered : ∀ id call record, sys.calls.find id = some call → call.readOnly = false →
    call.phase = .answered { outcome := .authenticated, session := some record } →
    sys.db.Owned record.sessionId call.tokenHash
  plain : ∀ id call, sys.calls.find id = some call → call.strict = false →
    call.phase.inFlow = false

/-- A leading call belongs to the group of its process and token. -/
structure Groups (sys : AuthSystem) : Prop where
  leading : ∀ id call, sys.calls.find id = some call → call.leads = true →
    call.phase.finished = false →
    ∃ group, sys.pending.find (call.process, call.tokenHash) = some group ∧ id ∈ group
  members : ∀ key group id, sys.pending.find key = some group → id ∈ group →
    ∃ call, sys.calls.find id = some call ∧ (call.process, call.tokenHash) = key ∧
      call.readOnly = true

structure Sound (sys : AuthSystem) : Prop extends Rows sys, Lookups sys, Groups sys

section Preservation

variable {config : AuthConfig} {sys sys' : AuthSystem} {event : AuthEvent} {id : ℕ}

theorem progress_kept {call : AuthCall} {phase phase' : AuthPhase} {db : AuthDb}
    (h : Progress config sys event id call phase phase' db) : Kept sys.db db := by
  cases h with
  | touched now lag => exact UserSessionRepository.touch_kept _ _ _ _ _
  | _ => exact Kept.refl _

theorem progress_not_finished {call : AuthCall} {phase phase' : AuthPhase} {db : AuthDb}
    (h : Progress config sys event id call phase phase' db) : phase'.finished = false := by
  cases h <;> rfl

theorem progress_open {call : AuthCall} {phase phase' : AuthPhase} {db : AuthDb}
    (h : Progress config sys event id call phase phase' db) : phase.finished = false := by
  cases h with
  | unread reading =>
      rcases reading with rfl | ⟨result, rfl⟩ <;> rfl
  | touching positive =>
      unfold AuthPhase.positive at positive
      split at positive <;> first | rfl | cases positive
  | _ => rfl

/-- What a lookup finds on its way has the token of the call. -/
theorem progress_owned {call : AuthCall} {phase phase' : AuthPhase} {db : AuthDb}
    {sid : String} (h : Progress config sys event id call phase phase' db)
    (howned : ∀ sid, phase.carried = some sid → sys.db.Owned sid call.tokenHash)
    (hcarried : phase'.carried = some sid) : db.Owned sid call.tokenHash := by
  cases h with
  | read => cases hcarried
  | unread => cases hcarried
  | validating => cases hcarried
  | loading => cases hcarried
  | @validated record now lag =>
      cases hrole : UserSessionRepository.isActive sys.db record.sessionId call.tokenHash now with
      | none =>
          rw [hrole] at hcarried
          cases hcarried
      | some role =>
          rw [hrole] at hcarried
          cases hcarried
          obtain ⟨row, hrow, htoken, -⟩ := UserSessionRepository.isActive_owned hrole
          exact ⟨row, hrow, htoken⟩
  | loaded now lag =>
      cases hrecord : UserSessionRepository.findActiveByTokenHash sys.db call.tokenHash now with
      | none =>
          rw [hrecord] at hcarried
          cases hcarried
      | some record =>
          rw [hrecord] at hcarried
          cases hcarried
          obtain ⟨row, hrow, htoken, -⟩ := UserSessionRepository.findActive_owned hrecord
          exact ⟨row, hrow, htoken⟩
  | @touched sessionId now lag =>
      cases hrecord : (UserSessionRepository.touch sys.db sessionId config.idleTimeoutSeconds
          now lag).1 with
      | none =>
          rw [hrecord] at hcarried
          cases hcarried
      | some record =>
          rw [hrecord] at hcarried
          cases hcarried
          obtain ⟨hid, -⟩ := UserSessionRepository.touch_owned hrecord
          rw [hid]
          exact (howned sessionId rfl).kept (UserSessionRepository.touch_kept _ _ _ _ _)
  | touching positive carried =>
      cases hcarried
      exact howned _ carried

theorem progress_inFlow {call : AuthCall} {phase phase' : AuthPhase} {db : AuthDb}
    (h : Progress config sys event id call phase phase' db) (hlone : call.strict = false)
    (hplain : phase.inFlow = false) : phase'.inFlow = false := by
  cases h with
  | read => rfl
  | unread => rfl
  | validating hstrict => rw [hstrict] at hlone; cases hlone
  | loading hstrict => rw [hstrict] at hlone; cases hlone
  | validated => cases hplain
  | loaded => cases hplain
  | touched => cases hplain
  | touching positive => rw [AuthPhase.inFlow_of_positive positive] at hplain; cases hplain

/-- Each logout after a step is one from before, perhaps further on. -/
theorem rows_of_kept (hs : Rows sys) (hkept : Kept sys.db sys'.db)
    (hlogouts : ∀ id logout, sys'.logouts.find id = some logout →
      (∃ old, sys.logouts.find id = some old ∧ logout.sessionId = old.sessionId ∧
        logout.tokenHash = old.tokenHash ∧
        (logout.phase.settled = true → old.phase.settled = true ∨
          ∀ row, sys'.db.sessions.find logout.sessionId = some row →
            row.revokedAt.isSome = true)) ∨
      (sys'.db.Owned logout.sessionId logout.tokenHash ∧ logout.phase.settled = false)) :
    Rows sys' := by
  constructor
  case unique =>
    intro sid sid' row row' hrow hrow' htoken
    obtain ⟨old, hold, ht, -⟩ := hkept.cases hrow
    obtain ⟨old', hold', ht', -⟩ := hkept.cases hrow'
    exact hs.unique sid sid' old old' hold hold' (ht.symm.trans (htoken.trans ht'))
  case logouts =>
    intro id logout hlogout
    rcases hlogouts id logout hlogout with ⟨old, hold, hsession, htoken, -⟩ | ⟨howned, -⟩
    · rw [hsession, htoken]
      exact (hs.logouts id old hold).kept hkept
    · exact howned
  case revoked =>
    intro id logout row hlogout hsettled hrow
    rcases hlogouts id logout hlogout with ⟨old, hold, hsession, htoken, hphase⟩ | ⟨-, hno⟩
    · rcases hphase hsettled with hbefore | hnow
      · rw [hsession] at hrow
        obtain ⟨row', hrow', -, hrevoked⟩ := hkept.cases hrow
        exact hrevoked (hs.revoked id old row' hold hbefore hrow')
      · exact hnow row hrow
    · rw [hno] at hsettled
      cases hsettled

theorem rows_of_same (hs : Rows sys) (hkept : Kept sys.db sys'.db)
    (hlogouts : sys'.logouts = sys.logouts) : Rows sys' := by
  apply rows_of_kept hs hkept
  intro id logout hlogout
  rw [hlogouts] at hlogout
  exact Or.inl ⟨logout, hlogout, rfl, rfl, Or.inl⟩

theorem complete_rows (sys : AuthSystem) (id : ℕ) (call : AuthCall) (result : AuthenticateResult) :
    (sys.complete id call result).db = sys.db ∧
      (sys.complete id call result).logouts = sys.logouts ∧
      (sys.complete id call result).cache = sys.cache := by
  unfold complete
  split_ifs <;> exact ⟨rfl, rfl, rfl⟩

theorem rows_of_effect (h : Effect config sys event sys') (hs : Sound sys) : Rows sys' := by
  cases h with
  | started => exact rows_of_same hs.toRows (Kept.refl _) rfl
  | progressed found progress => exact rows_of_same hs.toRows (progress_kept progress) rfl
  | @completed id call result writes found inFlow earned =>
      obtain ⟨hdb, hlogouts, -⟩ := complete_rows (sys.send writes) id call result
      refine rows_of_same hs.toRows ?_ hlogouts
      rw [hdb]
      exact Kept.refl _
  | trusted => exact rows_of_same hs.toRows (Kept.refl _) rfl
  | refused => exact rows_of_same hs.toRows (Kept.refl _) rfl
  | joined => exact rows_of_same hs.toRows (Kept.refl _) rfl
  | led => exact rows_of_same hs.toRows (Kept.refl _) rfl
  | wrote => exact rows_of_same hs.toRows (Kept.refl _) rfl
  | lost => exact rows_of_same hs.toRows (Kept.refl _) rfl
  | requested found strict phase inserted =>
      refine rows_of_kept hs.toRows ?_ ?_
      · exact Kept.refl _
      intro id logout hlogout
      rcases inserted.cases hlogout with ⟨-, rfl⟩ | hold
      · exact Or.inr ⟨hs.answered _ _ _ found strict phase, rfl⟩
      · exact Or.inl ⟨logout, hold, rfl, rfl, Or.inl⟩
  | @revoked id logout now found =>
      refine rows_of_kept hs.toRows ?_ ?_
      · exact UserSessionRepository.revoke_kept _ _ _
      intro j other hother
      obtain ⟨old, hold, hsession, htoken, hphase⟩ := find_setLogout hother
      refine Or.inl ⟨old, hold, hsession, htoken, fun hsettled => ?_⟩
      rcases hphase with hphase | ⟨rfl, -⟩
      · rw [hphase] at hsettled
        exact Or.inl hsettled
      · rw [found] at hold
        cases hold
        right
        intro row hrow
        rw [hsession] at hrow
        exact UserSessionRepository.revoke_revokes _ _ _ row hrow
  | failed =>
      refine rows_of_kept hs.toRows ?_ ?_
      · exact Kept.refl _
      intro j other hother
      obtain ⟨old, hold, hsession, htoken, hphase⟩ := find_setLogout hother
      refine Or.inl ⟨old, hold, hsession, htoken, fun hsettled => ?_⟩
      rcases hphase with hphase | ⟨-, hphase⟩
      · rw [hphase] at hsettled
        exact Or.inl hsettled
      · rw [hphase] at hsettled
        cases hsettled
  | handled found phase =>
      refine rows_of_kept hs.toRows ?_ ?_
      · exact Kept.refl _
      intro j other hother
      obtain ⟨old, hold, hsession, htoken, hphase⟩ := find_setLogout hother
      refine Or.inl ⟨old, hold, hsession, htoken, fun hsettled => ?_⟩
      rcases hphase with hphase | ⟨rfl, -⟩
      · rw [hphase] at hsettled
        exact Or.inl hsettled
      · rw [found] at hold
        cases hold
        rw [phase]
        exact Or.inl rfl
  | deleted found phase =>
      refine rows_of_kept hs.toRows ?_ ?_
      · exact Kept.refl _
      intro j other hother
      obtain ⟨old, hold, hsession, htoken, hphase⟩ := find_setLogout hother
      refine Or.inl ⟨old, hold, hsession, htoken, fun hsettled => ?_⟩
      rcases hphase with hphase | ⟨rfl, -⟩
      · rw [hphase] at hsettled
        exact Or.inl hsettled
      · rw [found] at hold
        cases hold
        rw [phase]
        exact Or.inl rfl

/-- What one call can have become by a step. -/
inductive Turned (config : AuthConfig) (sys : AuthSystem) (event : AuthEvent) (sys' : AuthSystem)
    (id : ℕ) : AuthCall → Prop where
  | kept {call : AuthCall} (found : sys.calls.find id = some call) : Turned config sys event sys' id call
  | started {call : AuthCall} (fresh : sys.calls.find id = none) (leads : call.leads = false)
      (phase : call.phase = .reading ∨ call.phase = .answered { outcome := .unauthenticated }) :
      Turned config sys event sys' id call
  | progressed {call : AuthCall} {phase : AuthPhase} (found : sys.calls.find id = some call)
      (progress : Progress config sys event id call call.phase phase sys'.db) :
      Turned config sys event sys' id { call with phase := phase }
  | answered {call leader : AuthCall} {leaderId : ℕ} {result : AuthenticateResult}
      (found : sys.calls.find id = some call) (leads : sys.calls.find leaderId = some leader)
      (inFlow : leader.phase.inFlow = true) (earned : Earned leader.phase result)
      (handled : result.outcome = .authenticated →
        ∃ now permit, event = .handle leaderId now permit)
      (grouped : (leader.leads = false ∧ id = leaderId) ∨ (leader.leads = true ∧ ∃ group,
        sys.pending.find (leader.process, leader.tokenHash) = some group ∧ id ∈ group)) :
      Turned config sys event sys' id { call with phase := .answered result }
  | trusted {call : AuthCall} {record : AuthSessionRecord}
      (found : sys.calls.find id = some call) (lone : call.strict = false)
      (phase : call.phase = .read (.hit record))
      (fresh : ∃ now permit, event = .handle id now permit ∧ trusted config record now = true) :
      Turned config sys event sys' id { call with
        phase := .answered { outcome := .authenticated, session := some record } }
  | refused {call : AuthCall} {result : AuthenticateResult}
      (found : sys.calls.find id = some call) (lone : call.strict = false)
      (outcome : result.outcome ≠ .authenticated) :
      Turned config sys event sys' id { call with phase := .answered result }
  | joined {call : AuthCall} (found : sys.calls.find id = some call) (lone : call.strict = false) :
      Turned config sys event sys' id { call with phase := .waiting }
  | led {call : AuthCall} (found : sys.calls.find id = some call) (lone : call.strict = false)
      (group : ∃ group, sys'.pending.find (call.process, call.tokenHash) = some group ∧ id ∈ group) :
      Turned config sys event sys' id { call with leads := true, phase := .reading }

theorem turned_of_setCall {call : AuthCall} {phase : AuthPhase} {id j : ℕ} {other : AuthCall}
    (found : sys.calls.find id = some call)
    (h : (sys.setCall id phase).calls.find j = some other) :
    (j = id ∧ other = { call with phase := phase }) ∨ sys.calls.find j = some other := by
  rw [find_setCall sys phase found] at h
  split_ifs at h with hj
  · cases h
    exact Or.inl ⟨hj, rfl⟩
  · exact Or.inr h

theorem turned_of_effect (h : Effect config sys event sys') {j : ℕ} {other : AuthCall}
    (hother : sys'.calls.find j = some other) : Turned config sys event sys' j other := by
  cases h with
  | started inserted leads phase =>
      rcases inserted.cases hother with ⟨rfl, rfl⟩ | hold
      · exact Turned.started inserted.fresh leads phase
      · exact Turned.kept hold
  | progressed found progress =>
      rcases turned_of_setCall found hother with ⟨rfl, rfl⟩ | hold
      · exact Turned.progressed found progress
      · exact Turned.kept hold
  | @completed id call result writes found inFlow earned sends handled =>
      have hsent : (sys.send writes).calls.find id = some call := found
      rcases find_complete hsent hother with
        ⟨hold, -, -⟩ | ⟨old, hold, rfl, ⟨hleads, hgroup⟩ | ⟨hleads, hid⟩⟩
      · exact Turned.kept hold
      · exact Turned.answered hold found inFlow earned handled (Or.inr ⟨hleads, hgroup⟩)
      · exact Turned.answered hold found inFlow earned handled (Or.inl ⟨hleads, hid⟩)
  | trusted found lone phase fresh =>
      rcases turned_of_setCall found hother with ⟨rfl, rfl⟩ | hold
      · exact Turned.trusted found lone phase fresh
      · exact Turned.kept hold
  | refused found lone outcome =>
      rcases turned_of_setCall found hother with ⟨rfl, rfl⟩ | hold
      · exact Turned.refused found lone outcome
      · exact Turned.kept hold
  | joined found lone phase handled pending =>
      rcases turned_of_setCall found hother with ⟨rfl, rfl⟩ | hold
      · exact Turned.joined found lone
      · exact Turned.kept hold
  | @led id call found lone pending =>
      have hfind : ((sys.calls.updateRow id (fun _ => true)
          fun call => { call with leads := true, phase := .reading }).2).find j = some other := hother
      rw [Table.find_updateRow] at hfind
      obtain ⟨old, hold, rfl⟩ := Option.map_eq_some_iff.mp hfind
      by_cases hj : j = id
      · rw [if_pos ⟨hj, rfl⟩]
        rw [hj, found] at hold
        cases hold
        subst hj
        exact Turned.led found lone
          ⟨[j], Table.find_set_self _ _ _, List.mem_singleton_self j⟩
      · rw [if_neg fun hyes => hj hyes.1]
        exact Turned.kept hold
  | wrote => exact Turned.kept hother
  | lost => exact Turned.kept hother
  | requested => exact Turned.kept hother
  | revoked => exact Turned.kept hother
  | failed => exact Turned.kept hother
  | handled => exact Turned.kept hother
  | deleted => exact Turned.kept hother

theorem effect_kept (h : Effect config sys event sys') : Kept sys.db sys'.db := by
  cases h with
  | progressed found progress => exact progress_kept progress
  | @completed id call result writes found inFlow earned =>
      obtain ⟨hdb, -, -⟩ := complete_rows (sys.send writes) id call result
      rw [hdb]
      exact Kept.refl _
  | revoked now found => exact UserSessionRepository.revoke_kept _ _ _
  | _ => exact Kept.refl _

theorem lookups_of_effect (h : Effect config sys event sys') (hs : Sound sys) : Lookups sys' := by
  have hkept := effect_kept h
  constructor
  case owned =>
    intro id call sid hcall hcarried
    cases turned_of_effect h hcall with
    | kept found => exact (hs.owned id call sid found hcarried).kept hkept
    | started fresh leads phase =>
        rcases phase with hphase | hphase <;> rw [hphase] at hcarried <;> cases hcarried
    | @progressed old phase found progress =>
        have howned : sys'.db.Owned sid old.tokenHash :=
          progress_owned progress (fun sid => hs.owned id old sid found) hcarried
        exact howned
    | answered => cases hcarried
    | trusted => cases hcarried
    | refused => cases hcarried
    | joined => cases hcarried
    | led => cases hcarried
  case answered =>
    intro id call record hcall hstrict hphase
    cases turned_of_effect h hcall with
    | kept found => exact (hs.answered id call record found hstrict hphase).kept hkept
    | started fresh leads phase =>
        rcases phase with hbefore | hbefore <;> rw [hbefore] at hphase <;> cases hphase
    | @progressed old phase found progress =>
        have hno : phase.finished = false := progress_not_finished progress
        cases hphase
        cases hno
    | answered found leads inFlow earned handled grouped =>
        cases hphase
        obtain ⟨-, record', hrecord, hcarried⟩ := earned rfl
        cases hrecord
        rcases grouped with ⟨-, rfl⟩ | ⟨-, group, hgroup, hid⟩
        · rw [found] at leads
          cases leads
          exact (hs.owned id _ _ found hcarried).kept hkept
        · obtain ⟨member, hmember, -, hreadOnly⟩ := hs.members _ group id hgroup hid
          rw [found] at hmember
          cases hmember
          rw [hreadOnly] at hstrict
          cases hstrict
    | @trusted old record' found lone phase =>
        have hreadOnly : old.readOnly = true := AuthCall.readOnly_of_lone lone
        have hno : old.readOnly = false := hstrict
        rw [hreadOnly] at hno
        cases hno
    | refused found lone outcome =>
        cases hphase
        exact absurd rfl outcome
    | joined => cases hphase
    | led => cases hphase
  case plain =>
    intro id call hcall hlone
    cases turned_of_effect h hcall with
    | kept found => exact hs.plain id call found hlone
    | started fresh leads phase =>
        rcases phase with hphase | hphase <;> rw [hphase] <;> rfl
    | @progressed old phase found progress =>
        exact progress_inFlow progress hlone (hs.plain id old found hlone)
    | answered => rfl
    | trusted => rfl
    | refused => rfl
    | joined => rfl
    | led => rfl

theorem persists_setCall {call : AuthCall} {id j : ℕ} {old : AuthCall} (phase : AuthPhase)
    (found : sys.calls.find id = some call) (h : sys.calls.find j = some old) :
    ∃ other, (sys.setCall id phase).calls.find j = some other ∧
      (other.process, other.tokenHash) = (old.process, old.tokenHash) ∧
      other.readOnly = old.readOnly := by
  rw [find_setCall sys phase found]
  by_cases hj : j = id
  · subst hj
    rw [found] at h
    cases h
    exact ⟨_, if_pos rfl, rfl, rfl⟩
  · rw [if_neg hj]
    exact ⟨old, h, rfl, rfl⟩

/-- A call keeps its process, its token and its kind. -/
theorem persists_of_effect (h : Effect config sys event sys') {j : ℕ} {old : AuthCall}
    (hold : sys.calls.find j = some old) : ∃ other, sys'.calls.find j = some other ∧
      (other.process, other.tokenHash) = (old.process, old.tokenHash) ∧
      other.readOnly = old.readOnly := by
  cases h with
  | started inserted => exact ⟨old, inserted.find_old hold, rfl, rfl⟩
  | progressed found => exact persists_setCall _ found hold
  | @completed id call result writes found =>
      unfold complete
      split_ifs
      · show ∃ other, Table.find (Table.update _ _ _) j = some other ∧ _
        rw [Table.find_update, send_calls, hold, Option.map_some]
        split_ifs <;> exact ⟨_, rfl, rfl, rfl⟩
      · have hsent : (sys.send writes).calls.find id = some call := found
        exact persists_setCall _ hsent hold
  | trusted found => exact persists_setCall _ found hold
  | refused found => exact persists_setCall _ found hold
  | joined found => exact persists_setCall _ found hold
  | led found =>
      show ∃ other, Table.find (Table.updateRow _ _ _ _).2 j = some other ∧ _
      rw [Table.find_updateRow, hold, Option.map_some]
      split_ifs <;> exact ⟨_, rfl, rfl, rfl⟩
  | _ => exact ⟨old, hold, rfl, rfl⟩

/-- The groups after a step: as before, extended by a call that joins, or new. -/
inductive Grouped (sys : AuthSystem) (event : AuthEvent) (key : ℕ × String) (group : List ℕ) : Prop where
  | kept (pending : sys.pending.find key = some group)
  | joined {id : ℕ} {call : AuthCall} {old : List ℕ} (found : sys.calls.find id = some call)
      (lone : call.strict = false) (phase : ∃ result, call.phase = .read result)
      (handled : ∃ now permit, event = .handle id now permit)
      (same : (call.process, call.tokenHash) = key)
      (pending : sys.pending.find key = some old) (members : group = old ++ [id])
  | led {id : ℕ} {call : AuthCall} (found : sys.calls.find id = some call)
      (lone : call.strict = false) (same : (call.process, call.tokenHash) = key)
      (pending : sys.pending.find key = none) (members : group = [id])

theorem grouped_of_effect (h : Effect config sys event sys') {key : ℕ × String} {group : List ℕ}
    (hgroup : sys'.pending.find key = some group) : Grouped sys event key group := by
  cases h with
  | @completed id call result writes found =>
      unfold complete at hgroup
      split_ifs at hgroup
      · have hfind : (sys.pending.erase (call.process, call.tokenHash)).find key = some group :=
          hgroup
        rw [Table.find_erase] at hfind
        split_ifs at hfind
        exact Grouped.kept hfind
      · exact Grouped.kept hgroup
  | @joined id call old found lone phase handled pending =>
      have hfind : (sys.pending.set (call.process, call.tokenHash) (old ++ [id])).find key =
          some group := hgroup
      rw [Table.find_set] at hfind
      split_ifs at hfind with hkey
      · cases hfind
        exact Grouped.joined found lone phase handled hkey.symm (hkey ▸ pending) rfl
      · exact Grouped.kept hfind
  | @led id call found lone pending =>
      have hfind : (sys.pending.set (call.process, call.tokenHash) [id]).find key =
          some group := hgroup
      rw [Table.find_set] at hfind
      split_ifs at hfind with hkey
      · cases hfind
        exact Grouped.led found lone hkey.symm (hkey ▸ pending) rfl
      · exact Grouped.kept hfind
  | _ => exact Grouped.kept hgroup

/-- A group stays until its leader answers all its members. -/
theorem group_kept (h : Effect config sys event sys') {key : ℕ × String} {group : List ℕ} {j : ℕ}
    {other : AuthCall} (hgroup : sys.pending.find key = some group) (hj : j ∈ group)
    (hother : sys'.calls.find j = some other) (hopen : other.phase.finished = false) :
    ∃ group', sys'.pending.find key = some group' ∧ j ∈ group' := by
  cases h with
  | @completed id call result writes found =>
      have hsent : (sys.send writes).calls.find id = some call := found
      rcases find_complete hsent hother with
        ⟨-, hout, -⟩ | ⟨old, -, rfl, -⟩
      · unfold complete
        by_cases hleads : call.leads = true
        · rw [if_pos hleads]
          show ∃ group', (sys.pending.erase (call.process, call.tokenHash)).find key = some group' ∧ _
          rw [Table.find_erase, if_neg]
          · exact ⟨group, hgroup, hj⟩
          · rintro rfl
            apply hout hleads
            rw [send_pending, hgroup]
            exact hj
        · rw [if_neg hleads]
          exact ⟨group, hgroup, hj⟩
      · cases hopen
  | @joined id call old found lone phase handled pending =>
      show ∃ group', (sys.pending.set (call.process, call.tokenHash) (old ++ [id])).find key =
        some group' ∧ _
      rw [Table.find_set]
      split_ifs with hkey
      · rw [hkey, pending] at hgroup
        cases hgroup
        exact ⟨_, rfl, List.mem_append_left _ hj⟩
      · exact ⟨group, hgroup, hj⟩
  | @led id call found lone pending =>
      show ∃ group', (sys.pending.set (call.process, call.tokenHash) [id]).find key =
        some group' ∧ _
      rw [Table.find_set, if_neg]
      · exact ⟨group, hgroup, hj⟩
      · rintro rfl
        rw [pending] at hgroup
        cases hgroup
  | _ => exact ⟨group, hgroup, hj⟩

theorem groups_of_effect (h : Effect config sys event sys') (hs : Sound sys) : Groups sys' := by
  constructor
  case leading =>
    intro id call hcall hleads hopen
    have hbefore : ∀ old : AuthCall, sys.calls.find id = some old → old.leads = true →
        old.phase.finished = false → (old.process, old.tokenHash) = (call.process, call.tokenHash) →
        ∃ group, sys'.pending.find (call.process, call.tokenHash) = some group ∧ id ∈ group := by
      intro old hold holdLeads holdOpen hkey
      obtain ⟨group, hgroup, hid⟩ := hs.leading id old hold holdLeads holdOpen
      rw [hkey] at hgroup
      exact group_kept h hgroup hid hcall hopen
    cases turned_of_effect h hcall with
    | kept found => exact hbefore call found hleads hopen rfl
    | started fresh leads phase =>
        rw [leads] at hleads
        cases hleads
    | @progressed old phase found progress =>
        exact hbefore old found hleads (progress_open progress) rfl
    | answered => cases hopen
    | trusted => cases hopen
    | refused => cases hopen
    | @joined old found lone =>
        have hno : old.leads = true := hleads
        rw [AuthCall.leads_of_lone lone] at hno
        cases hno
    | led found lone group => exact group
  case members =>
    intro key group id hgroup hid
    have hmember : ∃ call, sys.calls.find id = some call ∧
        (call.process, call.tokenHash) = key ∧ call.readOnly = true := by
      cases grouped_of_effect h hgroup with
      | kept pending => exact hs.members key group id pending hid
      | @joined id' call old found lone phase handled same pending members =>
          rw [members, List.mem_append, List.mem_singleton] at hid
          rcases hid with hid | rfl
          · exact hs.members key old id pending hid
          · exact ⟨call, found, same, AuthCall.readOnly_of_lone lone⟩
      | @led id' call found lone same pending members =>
          rw [members, List.mem_singleton] at hid
          subst hid
          exact ⟨call, found, same, AuthCall.readOnly_of_lone lone⟩
    obtain ⟨old, hold, hkey, hreadOnly⟩ := hmember
    obtain ⟨call, hcall, hkey', hreadOnly'⟩ := persists_of_effect h hold
    exact ⟨call, hcall, hkey'.trans hkey, hreadOnly'.trans hreadOnly⟩

theorem Sound.step {sha256Hex : String → String} (hs : Sound sys)
    (h : AuthSystem.step config sha256Hex sys event = some sys') : Sound sys' :=
  have heffect := step_effect h
  ⟨rows_of_effect heffect hs, lookups_of_effect heffect hs, groups_of_effect heffect hs⟩

theorem Sound.run {sha256Hex : String → String} {events : List AuthEvent} :
    ∀ {sys sys' : AuthSystem}, Sound sys →
      AuthSystem.run config sha256Hex events sys = some sys' → Sound sys' := by
  induction events with
  | nil =>
      intro sys sys' hs h
      cases h
      exact hs
  | cons event events ih =>
      intro sys sys' hs h
      unfold AuthSystem.run at h
      rw [List.foldlM_cons] at h
      obtain ⟨next, hstep, hrest⟩ := Option.bind_eq_some_iff.mp h
      exact ih (hs.step hstep) hrest

end Preservation

end AuthSystem
end Ticketing
